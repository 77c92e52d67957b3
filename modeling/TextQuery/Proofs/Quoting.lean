import TextQuery.Proofs.Patterns

/-!
# Patterns quote words completely

Each atom of a pattern has one spelling, in which a metacharacter stands behind a backslash, and a
pattern is read as some atoms just if it is their spelling. The pattern of words is the spelling of
their characters, with one run of white space between neighbours and a boundary on an outer edge
that is a word character. Thus the words are read off their pattern again, whatever characters they
are made of.
-/
namespace TextQuery

namespace Pattern

/-- How an atom is written in a pattern. -/
def Atom.spelled : Atom → List Char
  | literal c => if Mongo.metacharacters.contains c then ['\\', c] else [c]
  | boundary => ['\\', 'b']
  | blanks => ['\\', 's', '+']

/-- The character that an atom stands for, if it stands for one. -/
def Atom.char? : Atom → Option Char
  | literal c => some c
  | boundary | blanks => none

theorem read?_spelled_append (atom : Atom) (rest : List Char) :
    read? (atom.spelled ++ rest) = (read? rest).map (atom :: ·) := by
  cases atom with
  | literal c =>
    have hescape : Mongo.escape [c] = (Atom.literal c).spelled := by
      rw [Mongo.escape, List.flatMap_singleton]
      rfl
    rw [← hescape]
    exact read?_escape_append [c] rest
  | boundary => rfl
  | blanks => rfl

/-- A pattern that begins with the spelling of an atom is spelled out if the rest of it is. -/
theorem eq_flatMap_of_map (atom : Atom) {rest : List Char} {atoms : List Atom}
    (ih : ∀ {more}, read? rest = some more → rest = more.flatMap Atom.spelled)
    (h : (read? rest).map (atom :: ·) = some atoms) :
    atom.spelled ++ rest = atoms.flatMap Atom.spelled := by
  obtain ⟨more, hmore, rfl⟩ := Option.map_eq_some_iff.1 h
  rw [List.flatMap_cons, ← ih hmore]

/-- Reading takes the spelling of atoms for what they are, and accepts nothing else. -/
theorem read?_eq_some_iff {pattern : List Char} {atoms : List Atom} :
    read? pattern = some atoms ↔ pattern = atoms.flatMap Atom.spelled := by
  constructor
  · intro h
    induction pattern using read?.induct generalizing atoms with
    | case1 =>
      obtain rfl : [] = atoms := Option.some.inj h
      rfl
    | case2 rest ih => exact eq_flatMap_of_map .blanks ih h
    | case3 rest ih => exact eq_flatMap_of_map .boundary ih h
    | case4 c rest hblanks hboundary hc ih =>
      rw [read?, if_pos hc] at h
      · have hspelled : (Atom.literal c).spelled = ['\\', c] := if_pos hc
        rw [← eq_flatMap_of_map (.literal c) ih h, hspelled]
        rfl
      · exact hblanks
      · exact hboundary
    | case5 c rest hblanks hboundary hc =>
      rw [read?, if_neg hc] at h
      · cases h
      · exact hblanks
      · exact hboundary
    | case6 c rest hblanks hboundary hescaped hc =>
      rw [read?, if_pos hc] at h
      · cases h
      · exact hblanks
      · exact hboundary
      · exact hescaped
    | case7 c rest hblanks hboundary hescaped hc ih =>
      rw [read?, if_neg hc] at h
      · have hspelled : (Atom.literal c).spelled = [c] := if_neg hc
        rw [← eq_flatMap_of_map (.literal c) ih h, hspelled]
        rfl
      · exact hblanks
      · exact hboundary
      · exact hescaped
  · rintro rfl
    induction atoms with
    | nil => rfl
    | cons atom atoms ih => rw [List.flatMap_cons, read?_spelled_append, ih, Option.map_some]

theorem wordAtoms_eq_intercalate (words : List (List Char)) :
    wordAtoms words = List.intercalate [.blanks] (words.map (·.map .literal)) := by
  induction words with
  | nil => rfl
  | cons word words ih =>
    cases words with
    | nil => rw [List.map_singleton, List.intercalate_singleton, wordAtoms]
    | cons next words =>
      rw [wordAtoms, ih]
      simp only [List.map_cons, List.intercalate_cons_cons, List.append_assoc,
        List.singleton_append]

theorem boundary_not_mem_wordAtoms (words : List (List Char)) :
    .boundary ∉ wordAtoms words := by
  induction words with
  | nil => simp
  | cons word words ih =>
    cases words with
    | nil => simp
    | cons next words => simpa using ih

/-- The words between the runs of white space in some atoms. -/
def wordsOf (atoms : List Atom) : List (List Char) :=
  ((atoms.filter (· ≠ .boundary)).splitOn .blanks).map (·.filterMap Atom.char?)

/-- Words are read off their atoms, whatever stands at the two edges. -/
theorem wordsOf_atoms {words : List (List Char)} (hne : words ≠ []) (first last : Option Char) :
    wordsOf (edgeAtoms first ++ (wordAtoms words ++ edgeAtoms last)) = words := by
  have hedge : ∀ edge, (edgeAtoms edge).filter (· ≠ .boundary) = [] := by
    intro edge
    unfold edgeAtoms
    split
    · rfl
    · rfl
  have hbody : (wordAtoms words).filter (· ≠ .boundary) = wordAtoms words := by
    apply List.filter_eq_self.2
    intro atom hatom
    have hboundary : atom ≠ .boundary := by
      rintro rfl
      exact boundary_not_mem_wordAtoms words hatom
    simpa using hboundary
  have hsplit : (wordAtoms words).splitOn .blanks = words.map (·.map .literal) := by
    rw [wordAtoms_eq_intercalate]
    apply List.splitOn_intercalate
    · intro letters hletters hblanks
      obtain ⟨word, -, rfl⟩ := List.mem_map.1 hletters
      obtain ⟨c, -, hc⟩ := List.mem_map.1 hblanks
      cases hc
    · simpa using hne
  have hword : ∀ word : List Char, (word.map Atom.literal).filterMap Atom.char? = word := by
    intro word
    rw [List.filterMap_map]
    exact List.filterMap_some
  rw [wordsOf, List.filter_append, List.filter_append, hedge, hedge, hbody, List.nil_append,
    List.append_nil, hsplit, List.map_map]
  exact (List.map_congr_left fun word _ => hword word).trans (List.map_id words)

theorem edgeAtoms_some (c : Char) : edgeAtoms (some c) =
    if Text.isAlphanumeric c = true ∨ c = '_' then [.boundary] else [] := by
  simp only [edgeAtoms, Option.any_some, Text.isWordChar, Bool.or_eq_true, beq_iff_eq]

theorem eq_of_wordPattern_eq {words others : List (List Char)} (hne : words ≠ [])
    (hne' : others ≠ []) (h : Mongo.wordPattern others = Mongo.wordPattern words) :
    others = words := by
  have hread := congrArg read? h
  rw [read?_wordPattern, read?_wordPattern] at hread
  have hatoms := congrArg wordsOf (Option.some.inj hread)
  rwa [wordsOf_atoms hne', wordsOf_atoms hne] at hatoms

/-- The pattern of words is read as their characters, with one run of white space between
neighbours, and with a boundary in front just if the first character is a word character and one
behind just if the last one is. It is the spelling of this, in which every metacharacter stands
behind a backslash but for the plus signs of white space; and no other words have it. -/
theorem wordPattern_quotes {words : List (List Char)} (hne : words ≠ [])
    (hwords : ∀ w ∈ words, w ≠ []) :
    let edge (c : Char) : List Atom :=
      if Text.isAlphanumeric c = true ∨ c = '_' then [.boundary] else []
    let first := (words.head hne).head (hwords _ (List.head_mem hne))
    let last := (words.getLast hne).getLast (hwords _ (List.getLast_mem hne))
    let atoms := edge first ++ (List.intercalate [.blanks] (words.map (·.map .literal)) ++ edge last)
    read? (Mongo.wordPattern words) = some atoms ∧
      Mongo.wordPattern words = atoms.flatMap Atom.spelled ∧
      ∀ others, others ≠ [] → Mongo.wordPattern others = Mongo.wordPattern words →
        others = words := by
  intro edge first last atoms
  have hfirst : words.head?.bind List.head? = some first := by
    rw [List.head?_eq_some_head hne, Option.bind_some, List.head?_eq_some_head]
  have hlast : words.getLast?.bind List.getLast? = some last := by
    rw [List.getLast?_eq_some_getLast hne, Option.bind_some, List.getLast?_eq_some_getLast]
  have hread : read? (Mongo.wordPattern words) = some atoms := by
    rw [read?_wordPattern, hfirst, hlast, edgeAtoms_some, edgeAtoms_some, wordAtoms_eq_intercalate]
  exact ⟨hread, read?_eq_some_iff.1 hread, fun others hne' h => eq_of_wordPattern_eq hne hne' h⟩

theorem wordPattern_quotes_backslashes :
    let words := [['\\', 'b'], ['s', '+'], ['é']]
    words ≠ [] ∧ (∀ w ∈ words, w ≠ []) ∧
      read? (Mongo.wordPattern words) = some [.literal '\\', .literal 'b', .blanks, .literal 's',
        .literal '+', .blanks, .literal 'é', .boundary] ∧
      ∀ others, others ≠ [] → Mongo.wordPattern others = Mongo.wordPattern words →
        others = words := by
  intro words
  obtain ⟨hread, -, hunique⟩ := @wordPattern_quotes words (by decide) (by decide)
  exact ⟨by decide, by decide, hread.trans (by decide +kernel), hunique⟩

end Pattern

end TextQuery
