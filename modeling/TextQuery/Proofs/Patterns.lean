import TextQuery.Predicate.MongoFilter
import TextQuery.Predicate.Filter
import TextQuery.Proofs.Occurrence

/-!
# Patterns of query words

The patterns in filter documents are read here as regular expressions that ignore the case of ASCII
letters. They need three things only: characters, which are escaped where they would stand for
something else, runs of white space, and word boundaries. Read so, the pattern of words that are not
all plain finds just the ASCII texts that the words match.
-/
namespace TextQuery

namespace Pattern

/-- What a pattern asks for next. -/
inductive Atom where
  | literal (c : Char)
  /-- A place between a word character and none. -/
  | boundary
  /-- One or more white space characters. -/
  | blanks
deriving DecidableEq

/-- The atoms of a pattern. A metacharacter stands for itself behind a backslash only, and patterns
that need more than the three kinds of atoms are not read. -/
def read? : List Char → Option (List Atom)
  | [] => some []
  | '\\' :: 's' :: '+' :: rest => (read? rest).map (.blanks :: ·)
  | '\\' :: 'b' :: rest => (read? rest).map (.boundary :: ·)
  | '\\' :: c :: rest =>
    if Mongo.metacharacters.contains c then (read? rest).map (.literal c :: ·) else none
  | c :: rest =>
    if Mongo.metacharacters.contains c then none else (read? rest).map (.literal c :: ·)

/-- The characters between which and others there is a boundary. -/
def isWordChar (c : Char) : Bool :=
  c.isAlphanum || c == '_'

/-- The atoms match the beginning of a text, whose preceding character is `before`. -/
inductive Matches : List Atom → Option Char → List Char → Prop where
  | done {before : Option Char} {rest : List Char} : Matches [] before rest
  | literal {c d : Char} {atoms : List Atom} {before : Option Char} {rest : List Char}
      (letters : d.toLower = c.toLower) (more : Matches atoms (some d) rest) :
      Matches (.literal c :: atoms) before (d :: rest)
  | boundary {atoms : List Atom} {before : Option Char} {rest : List Char}
      (differ : before.any isWordChar ≠ rest.head?.any isWordChar)
      (more : Matches atoms before rest) : Matches (.boundary :: atoms) before rest
  | blanks {atoms : List Atom} {before : Option Char} {run rest : List Char} (ne : run ≠ [])
      (blank : ∀ c ∈ run, Text.isBlank c = true) (more : Matches atoms run.getLast? rest) :
      Matches (.blanks :: atoms) before (run ++ rest)

/-- The atoms match at some place of the text. -/
def Finds (atoms : List Atom) (text : List Char) : Prop :=
  ∃ left right, text = left ++ right ∧ Matches atoms left.getLast? right

/-- A boundary on an edge that is a word character. -/
def edgeAtoms (edge : Option Char) : List Atom :=
  if edge.any Text.isWordChar then [.boundary] else []

/-- The words with white space between them. -/
def wordAtoms : List (List Char) → List Atom
  | [] => []
  | [word] => word.map .literal
  | word :: next :: words => word.map .literal ++ .blanks :: wordAtoms (next :: words)

attribute [simp] wordAtoms

theorem read?_escape_append (word rest : List Char) :
    read? (Mongo.escape word ++ rest) = (read? rest).map (word.map .literal ++ ·) := by
  induction word with
  | nil => simp [Mongo.escape]
  | cons c word ih =>
    have hescape : Mongo.escape (c :: word) ++ rest =
        (if Mongo.metacharacters.contains c then ['\\', c] else [c]) ++
          (Mongo.escape word ++ rest) := by
      simp [Mongo.escape]
    have hone : ∀ more, read? ((if Mongo.metacharacters.contains c then ['\\', c] else [c]) ++ more) =
        (read? more).map (.literal c :: ·) := by
      intro more
      by_cases hc : c ∈ Mongo.metacharacters
      · have hs : c ≠ 's' := by
          rintro rfl
          exact absurd hc (by decide)
        have hb : c ≠ 'b' := by
          rintro rfl
          exact absurd hc (by decide)
        rw [if_pos (by simpa using hc), List.cons_append, List.singleton_append, read?,
          if_pos (by simpa using hc)]
        · exact fun more h => absurd h hs
        · exact hb
      · have hbackslash : c ≠ '\\' := by
          rintro rfl
          exact absurd (by decide) hc
        simp [read?, hc, hbackslash]
    rw [hescape, hone, ih, Option.map_map]
    rfl

theorem read?_boundary_append (edge : Option Char) (rest : List Char) :
    read? (Mongo.boundary edge ++ rest) = (read? rest).map (edgeAtoms edge ++ ·) := by
  unfold Mongo.boundary edgeAtoms
  split
  · rfl
  · simp

theorem read?_intercalate_append (words : List (List Char)) (rest : List Char) :
    read? (List.intercalate ['\\', 's', '+'] (words.map Mongo.escape) ++ rest) =
      (read? rest).map (wordAtoms words ++ ·) := by
  induction words with
  | nil => simp
  | cons word words ih =>
    cases words with
    | nil =>
      rw [List.map_singleton, List.intercalate_singleton, read?_escape_append]
      rfl
    | cons next words =>
      rw [List.map_cons, List.map_cons, List.intercalate_cons_cons, List.append_assoc,
        List.append_assoc, read?_escape_append, ← List.map_cons]
      have hseparator : ∀ more, read? (['\\', 's', '+'] ++ more) =
          (read? more).map (.blanks :: ·) := fun _ => rfl
      rw [hseparator, ih, Option.map_map, Option.map_map]
      refine congrArg (Option.map · (read? rest)) (funext fun atoms => ?_)
      simp

/-- The pattern of words is read as the words, with a boundary on either side that is the edge of a
word. -/
theorem read?_wordPattern (words : List (List Char)) :
    read? (Mongo.wordPattern words) = some (edgeAtoms (words.head?.bind List.head?) ++
      (wordAtoms words ++ edgeAtoms (words.getLast?.bind List.getLast?))) := by
  have hlast := read?_boundary_append (words.getLast?.bind List.getLast?) []
  rw [List.append_nil] at hlast
  rw [Mongo.wordPattern, List.append_assoc, read?_boundary_append, read?_intercalate_append, hlast]
  simp [read?]

/-- The plus sign is escaped; a boundary is asked for at the outer edges, which are letters. -/
example : read? (Mongo.wordPattern [['c', '+'], ['x']]) =
    some [.boundary, .literal 'c', .literal '+', .blanks, .literal 'x', .boundary] := by
  decide +kernel

theorem matches_literals_iff {word : List Char} {atoms : List Atom} {before : Option Char}
    {text : List Char} : Matches (word.map .literal ++ atoms) before text ↔
      ∃ found rest, text = found ++ rest ∧ Text.SameLetters found word ∧
        Matches atoms (found.getLast?.or before) rest := by
  induction word generalizing before text with
  | nil =>
    constructor
    · exact fun h => ⟨[], text, rfl, rfl, h⟩
    · rintro ⟨found, rest, rfl, letters, h⟩
      obtain rfl : found = [] := List.map_eq_nil_iff.1 letters
      exact h
  | cons c word ih =>
    constructor
    · intro h
      cases h with
      | @literal _ d _ _ rest letter more =>
        obtain ⟨found, rest, rfl, letters, h⟩ := ih.1 more
        refine ⟨d :: found, rest, rfl, ?_, ?_⟩
        · rw [Text.SameLetters, List.map_cons, List.map_cons, letter, letters]
        · rw [List.getLast?_cons]
          cases hlast : found.getLast? <;> simpa [hlast] using h
    · rintro ⟨found, rest, rfl, letters, h⟩
      rw [Text.SameLetters, List.map_cons] at letters
      obtain ⟨d, found, rfl, letter, letters⟩ := List.map_eq_cons_iff.1 letters
      refine .literal letter (ih.2 ⟨found, rest, rfl, letters, ?_⟩)
      rw [List.getLast?_cons] at h
      cases hlast : found.getLast? <;> simpa [hlast] using h

theorem isWordChar_of_isAscii {c : Char} (h : Text.IsAscii c) : Text.isWordChar c = isWordChar c := by
  rw [Text.isWordChar, Text.isAlphanumeric_of_isAscii h, isWordChar]

theorem any_isWordChar {o : Option Char} (h : ∀ c ∈ o, Text.IsAscii c) :
    o.any Text.isWordChar = o.any isWordChar := by
  cases o with
  | none => rfl
  | some c => exact isWordChar_of_isAscii (h c rfl)

/-- Next to the edge of a word, a boundary keeps the word from being cut out of a longer one. -/
theorem differ_iff {edge inner outer : Option Char} (hedge : edge.any Text.isWordChar = true)
    (hinner : inner.map Char.toLower = edge.map Char.toLower) (hascii : ∀ c ∈ inner, Text.IsAscii c)
    (houter : ∀ c ∈ outer, Text.IsAscii c) :
    inner.any isWordChar ≠ outer.any isWordChar ↔ Text.joinsWord edge outer = false := by
  have hword : inner.any Text.isWordChar = true := by
    rw [← hedge]
    cases inner with
    | none => cases edge <;> simp_all
    | some c =>
      cases edge with
      | none => simp at hinner
      | some d =>
        have hcd : c.toLower = d.toLower := by simpa using hinner
        simp only [Option.any_some]
        rw [← Text.isWordChar_toLower c, hcd, Text.isWordChar_toLower]
  rw [← any_isWordChar hascii, ← any_isWordChar houter, hword, Text.joinsWord, hedge, Bool.true_and]
  cases outer.any Text.isWordChar <;> simp

theorem SameLetters.getLast?_map {found word : List Char} (h : Text.SameLetters found word) :
    found.getLast?.map Char.toLower = word.getLast?.map Char.toLower := by
  rw [← List.getLast?_map, h, List.getLast?_map]

theorem SameLetters.head?_map {found word : List Char} (h : Text.SameLetters found word) :
    found.head?.map Char.toLower = word.head?.map Char.toLower := by
  rw [← List.head?_map, h, List.head?_map]

/-- Behind a word that is found, the last boundary of a pattern is the condition on its edge. -/
theorem matches_lastEdge_iff {found word rest : List Char} {before : Option Char}
    (hword : word ≠ []) (letters : Text.SameLetters found word)
    (hfound : ∀ c ∈ found, Text.IsAscii c) (hrest : ∀ c ∈ rest, Text.IsAscii c) :
    Matches (edgeAtoms word.getLast?) (found.getLast?.or before) rest ↔
      Text.joinsWord word.getLast? rest.head? = false := by
  have hlast : found.getLast?.or before = found.getLast? := by
    obtain ⟨c, hc⟩ := Option.isSome_iff_exists.1
      (List.getLast?_isSome.2 (letters.ne_nil hword))
    rw [hc]
    rfl
  rw [hlast]
  unfold edgeAtoms
  cases hedge : word.getLast?.any Text.isWordChar with
  | false =>
    rw [if_neg Bool.false_ne_true, Text.joinsWord, hedge, Bool.false_and]
    exact ⟨fun _ => rfl, fun _ => .done⟩
  | true =>
    rw [if_pos rfl, ← differ_iff hedge (SameLetters.getLast?_map letters)
      (fun c hc => hfound c (List.mem_of_getLast? hc)) (fun c hc => hrest c (List.mem_of_head? hc))]
    constructor
    · intro h
      cases h with
      | boundary differ more => exact differ
    · exact fun differ => .boundary differ .done

/-- The words of a pattern match where the words stand. -/
theorem matches_wordAtoms_iff {words : List (List Char)} (hne : words ≠ [])
    (hwords : ∀ w ∈ words, w ≠ []) {before : Option Char} {text : List Char}
    (htext : ∀ c ∈ text, Text.IsAscii c) :
    Matches (wordAtoms words ++ edgeAtoms (words.getLast?.bind List.getLast?)) before text ↔
      Text.Stand words text := by
  induction words generalizing before text with
  | nil => exact absurd rfl hne
  | cons word words ih =>
    obtain ⟨hword, hrest⟩ := List.forall_mem_cons.1 hwords
    cases words with
    | nil =>
      rw [wordAtoms, matches_literals_iff]
      constructor
      · rintro ⟨found, rest, rfl, letters, h⟩
        obtain ⟨hfound, hafter⟩ := List.forall_mem_append.1 htext
        exact .last letters ((matches_lastEdge_iff hword letters hfound hafter).1 h)
      · intro h
        cases h with
        | @last _ found rest letters edge =>
          obtain ⟨hfound, hafter⟩ := List.forall_mem_append.1 htext
          exact ⟨found, rest, rfl, letters,
            (matches_lastEdge_iff hword letters hfound hafter).2 edge⟩
    | cons next words =>
      rw [wordAtoms, List.append_assoc, matches_literals_iff, List.getLast?_cons_cons]
      have ih' : ∀ {before rest}, (∀ c ∈ rest, Text.IsAscii c) → _ :=
        fun {before rest} => @ih (List.cons_ne_nil _ _) hrest before rest
      constructor
      · rintro ⟨found, rest, rfl, letters, h⟩
        generalize hatoms : Atom.blanks :: wordAtoms (next :: words) ++
          edgeAtoms ((next :: words).getLast?.bind List.getLast?) = atoms at h
        cases h with
        | done | literal | boundary => cases hatoms
        | @blanks _ _ run rest ne blank more =>
          cases hatoms
          obtain ⟨-, hafter⟩ := List.forall_mem_append.1 (List.forall_mem_append.1 htext).2
          exact .more letters ne blank ((ih' hafter).1 more)
      · intro h
        cases h with
        | @more _ _ found blanks rest _ letters ne blank others =>
          obtain ⟨-, hafter⟩ := List.forall_mem_append.1 (List.forall_mem_append.1 htext).2
          exact ⟨found, blanks ++ rest, rfl, letters, .blanks ne blank ((ih' hafter).2 others)⟩

theorem head?_of_stand {words : List (List Char)} {text : List Char} (h : Text.Stand words text)
    (hwords : ∀ w ∈ words, w ≠ []) :
    text.head?.map Char.toLower = (words.head?.bind List.head?).map Char.toLower := by
  have hfound : ∀ {word found : List Char}, Text.SameLetters found word → word ≠ [] →
      ∀ more, (found ++ more).head?.map Char.toLower = word.head?.map Char.toLower := by
    intro word found letters hword more
    rw [← SameLetters.head?_map letters, List.head?_append_of_ne_nil _ (letters.ne_nil hword)]
  cases h with
  | last letters edge => exact hfound letters (hwords _ List.mem_cons_self) _
  | more letters ne blank others => exact hfound letters (hwords _ List.mem_cons_self) _

/-- The pattern of words matches where the words stand. -/
theorem matches_iff_standAfter {words : List (List Char)} (hne : words ≠ [])
    (hwords : ∀ w ∈ words, w ≠ []) {before : Option Char} {text : List Char}
    (hbefore : ∀ c ∈ before, Text.IsAscii c) (htext : ∀ c ∈ text, Text.IsAscii c) :
    Matches (edgeAtoms (words.head?.bind List.head?) ++
      (wordAtoms words ++ edgeAtoms (words.getLast?.bind List.getLast?))) before text ↔
      Text.StandAfter words before text := by
  have hcore := @matches_wordAtoms_iff words hne hwords before text htext
  rw [Text.StandAfter, ← hcore]
  unfold edgeAtoms
  cases hedge : (words.head?.bind List.head?).any Text.isWordChar with
  | false =>
    rw [if_neg Bool.false_ne_true, List.nil_append, Text.joinsWord, hedge, Bool.false_and]
    exact (and_iff_right rfl).symm
  | true =>
    rw [if_pos rfl, List.singleton_append]
    have hhead := fun h => differ_iff hedge (head?_of_stand (hcore.1 h) hwords)
      (fun c hc => htext c (List.mem_of_head? hc)) hbefore
    constructor
    · intro h
      cases h with
      | boundary differ more => exact ⟨(hhead more).1 differ.symm, more⟩
    · rintro ⟨hjoins, h⟩
      exact .boundary ((hhead h).2 hjoins).symm h

end Pattern

/-- The pattern of ASCII words of which not all are plain finds just the ASCII texts that the words
match. -/
theorem matchesWords_iff_finds {text : String} {words : List String}
    (htext : ∀ c ∈ text.toList, Text.IsAscii c) (hne : words ≠ [])
    (hwords : ∀ w ∈ words, w.toList ≠ [] ∧
      ∀ c ∈ w.toList, Text.IsAscii c ∧ Text.isBlank c = false)
    (hpunctuated : ∃ w ∈ words, ∃ c ∈ w.toList, c.isAlphanum = false) :
    ∃ atoms, Pattern.read? (Mongo.wordPattern (words.map String.toList)) = some atoms ∧
      (Json.matchesWords words (.string text) = true ↔ Pattern.Finds atoms text.toList) := by
  have hne' : words.map String.toList ≠ [] := by simpa using hne
  have hsolid : ∀ w ∈ words.map String.toList, Text.Solid w :=
    List.forall_mem_map.2 fun w hw => ⟨(hwords w hw).1, fun c hc => ((hwords w hw).2 c hc).2⟩
  have hascii : ∀ w ∈ words.map String.toList, ∀ c ∈ w, Text.IsAscii c :=
    List.forall_mem_map.2 fun w hw c hc => ((hwords w hw).2 c hc).1
  have hpunctuated' : ∃ w ∈ words.map String.toList, ∃ c ∈ w, Text.isAlphanumeric c = false := by
    obtain ⟨w, hw, c, hc, hplain⟩ := hpunctuated
    refine ⟨w.toList, List.mem_map_of_mem hw, c, hc, ?_⟩
    rw [Text.isAlphanumeric_of_isAscii ((hwords w hw).2 c hc).1, hplain]
  refine ⟨_, Pattern.read?_wordPattern _, ?_⟩
  have hnil : ∀ before, ¬ Text.StandAfter (words.map String.toList) before [] := by
    rintro before ⟨-, h⟩
    obtain ⟨c, rest, heq, -⟩ := h.exists_cons hsolid
    cases heq
  rw [Json.matchesWords, Text.matchesWords_iff_somewhere htext hne' hsolid hascii hpunctuated',
    Text.somewhere_iff hnil, Pattern.Finds]
  refine exists_congr fun left => exists_congr fun right => and_congr_right fun hsplit => ?_
  rw [hsplit] at htext
  obtain ⟨hleft, hright⟩ := List.forall_mem_append.1 htext
  rw [Option.or_none, Pattern.matches_iff_standAfter hne' (fun w hw => (hsolid w hw).1)
    (fun c hc => hleft c (List.mem_of_getLast? hc)) hright]

theorem matchesWords_iff_finds_spaced :
    let text := "  The C++\t Primer, 5th"
    let words := ["c++", "primer"]
    (∀ c ∈ text.toList, Text.IsAscii c) ∧ words ≠ [] ∧
      (∀ w ∈ words, w.toList ≠ [] ∧ ∀ c ∈ w.toList, Text.IsAscii c ∧ Text.isBlank c = false) ∧
      (∃ w ∈ words, ∃ c ∈ w.toList, c.isAlphanum = false) ∧
      ∃ atoms, Pattern.read? (Mongo.wordPattern (words.map String.toList)) = some atoms ∧
        (Json.matchesWords words (.string text) = true ↔ Pattern.Finds atoms text.toList) := by
  intro text words
  have htext : ∀ c ∈ text.toList, Text.IsAscii c := by simp [text, Text.IsAscii]
  have hwords : ∀ w ∈ words, w.toList ≠ [] ∧
      ∀ c ∈ w.toList, Text.IsAscii c ∧ Text.isBlank c = false := by
    simp [words, Text.IsAscii]
    decide +kernel
  have hpunctuated : ∃ w ∈ words, ∃ c ∈ w.toList, c.isAlphanum = false :=
    ⟨"c++", by simp [words], '+', by simp, rfl⟩
  exact ⟨htext, by decide, hwords, hpunctuated,
    matchesWords_iff_finds htext (by decide) hwords hpunctuated⟩

end TextQuery
