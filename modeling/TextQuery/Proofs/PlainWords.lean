import Mathlib.Data.List.Infix
import TextQuery.Proofs.Patterns

/-!
# Plain words

A word of letters and digits is looked for in two ways. Among the words of a text, where every other
character ends a word; and by its pattern, whose boundaries take the underscore for a part of words.
Both find the word where neither neighbour of it belongs to a word, and they differ in nothing but
the underscore: what the pattern finds the text matches, and what only the text matches stands next
to an underscore.
-/
namespace TextQuery

namespace Text

/-- What is found between `left` and `right` is the word, and no neighbour of it satisfies
`joins`. -/
structure Apart (joins : Char → Bool) (word left found right : List Char) : Prop where
  letters : SameLetters found word
  before : ∀ c ∈ left.getLast?, joins c = false
  behind : ∀ c ∈ right.head?, joins c = false

/-- The word is found somewhere in the text apart from what satisfies `joins`. -/
def FoundApart (joins : Char → Bool) (word text : List Char) : Prop :=
  ∃ left found right, text = left ++ (found ++ right) ∧ Apart joins word left found right

theorem Apart.mono {joins joins' : Char → Bool} (hle : ∀ c, joins c = false → joins' c = false)
    {word left found right : List Char} (h : Apart joins word left found right) :
    Apart joins' word left found right :=
  ⟨h.letters, fun c hc => hle c (h.before c hc), fun c hc => hle c (h.behind c hc)⟩

theorem isWordChar_eq_false_iff {c : Char} :
    isWordChar c = false ↔ isAlphanumeric c = false ∧ c ≠ '_' := by
  simp [isWordChar]

/-- Apart from letters and digits is apart from word characters but for the underscore. -/
theorem apart_isAlphanumeric_iff {word left found right : List Char} :
    Apart isAlphanumeric word left found right ↔ Apart isWordChar word left found right ∨
      Apart isAlphanumeric word left found right ∧
        (left.getLast? = some '_' ∨ right.head? = some '_') := by
  constructor
  · intro h
    by_cases hunderscore : left.getLast? = some '_' ∨ right.head? = some '_'
    · exact .inr ⟨h, hunderscore⟩
    · obtain ⟨hleft, hright⟩ := not_or.1 hunderscore
      refine .inl ⟨h.letters, fun c hc => ?_, fun c hc => ?_⟩
      · exact isWordChar_eq_false_iff.2 ⟨h.before c hc, fun heq => hleft (heq ▸ hc)⟩
      · exact isWordChar_eq_false_iff.2 ⟨h.behind c hc, fun heq => hright (heq ▸ hc)⟩
  · rintro (h | ⟨h, -⟩)
    · exact h.mono fun c hc => (isWordChar_eq_false_iff.1 hc).1
    · exact h

section
variable {α : Type} [BEq α] [LawfulBEq α] {haystack needle : List α}

theorem containsRun_iff :
    containsRun haystack needle = true ↔ needle ≠ [] ∧ needle <:+: haystack := by
  have hsearch : needle ≠ [] → (containsRun.search needle haystack = true ↔ needle <:+: haystack) := by
    intro hne
    induction haystack with
    | nil => simp [containsRun.search, hne]
    | cons x haystack ih =>
      rw [containsRun.search, Bool.or_eq_true, List.isPrefixOf_iff_prefix, List.infix_cons_iff, ih]
  rw [containsRun, Bool.and_eq_true, Bool.not_eq_true', List.isEmpty_eq_false_iff]
  exact and_congr_right hsearch

theorem containsRun_singleton_iff {x : α} : containsRun haystack [x] = true ↔ x ∈ haystack := by
  rw [containsRun_iff, List.singleton_infix_iff]
  simp

end

section
variable {word text : List Char} (hne : word ≠ []) (hplain : ∀ c ∈ word, isAlphanumeric c = true)
include hne hplain

theorem wordsOf_plain : wordsOf word = [lower word] := by
  rw [wordsOf, pieces_eq_singleton hne (by simpa using hplain), List.map_singleton]

/-- A plain word matches a text just if it is one of the text's words. -/
theorem matchesWords_singleton_iff :
    matchesWords text [word] = true ↔ lower word ∈ wordsOf text := by
  have hall : ([word].all fun w => w.all isAlphanumeric) = true := by simpa using hplain
  rw [matchesWords, if_pos hall, List.flatMap_singleton, wordsOf_plain hne hplain,
    containsRun_singleton_iff]

/-- In an ASCII text, a plain word is found where it stands apart from letters and digits. -/
theorem matchesWords_singleton_iff_foundApart (hword : ∀ c ∈ word, IsAscii c)
    (htext : ∀ c ∈ text, IsAscii c) :
    matchesWords text [word] = true ↔ FoundApart isAlphanumeric word text := by
  rw [matchesWords_singleton_iff hne hplain, lower_of_isAscii hword, wordsOf, List.mem_map]
  constructor
  · rintro ⟨found, hfound, hlower⟩
    obtain ⟨-, -, left, right, rfl, hleft, hright⟩ := mem_pieces_iff.1 hfound
    have hascii : ∀ c ∈ found, IsAscii c := fun c hc => htext c (by simp [hc])
    rw [lower_of_isAscii hascii] at hlower
    exact ⟨left, found, right, rfl, hlower, by simpa using hleft, by simpa using hright⟩
  · rintro ⟨left, found, right, rfl, h⟩
    have hascii : ∀ c ∈ found, IsAscii c := fun c hc => htext c (by simp [hc])
    have hletters := h.letters.forall_eq isAlphanumeric_toLower hplain
    refine ⟨found, mem_pieces_iff.2 ⟨h.letters.ne_nil hne, by simpa using hletters, left, right,
      rfl, by simpa using h.before, by simpa using h.behind⟩, ?_⟩
    rw [lower_of_isAscii hascii]
    exact h.letters

omit hne hplain in
theorem joinsWord_eq_false_iff {edge neighbour : Option Char}
    (hedge : edge.any isWordChar = true) :
    joinsWord edge neighbour = false ↔ ∀ c ∈ neighbour, isWordChar c = false := by
  rw [joinsWord, hedge, Bool.true_and]
  cases neighbour with
  | none => simp
  | some c => simp

/-- A plain word that stands behind some characters is found apart from word characters. -/
theorem standAfter_singleton_iff {left right : List Char} :
    StandAfter [word] left.getLast? right ↔
      ∃ found rest, right = found ++ rest ∧ Apart isWordChar word left found rest := by
  have hchar : ∀ c ∈ word, isWordChar c = true := fun c hc => by simp [isWordChar, hplain c hc]
  have hfirst : word.head?.any isWordChar = true := by
    rw [List.head?_eq_some_head hne, Option.any_some]
    exact hchar _ (List.head_mem hne)
  have hlast : word.getLast?.any isWordChar = true := by
    rw [List.getLast?_eq_some_getLast hne, Option.any_some]
    exact hchar _ (List.getLast_mem hne)
  constructor
  · rintro ⟨hbefore, h⟩
    cases h with
    | @last _ found rest letters edge =>
      exact ⟨found, rest, rfl, letters, (joinsWord_eq_false_iff hfirst).1 hbefore,
        (joinsWord_eq_false_iff hlast).1 edge⟩
  · rintro ⟨found, rest, rfl, h⟩
    exact ⟨(joinsWord_eq_false_iff hfirst).2 h.before,
      .last h.letters ((joinsWord_eq_false_iff hlast).2 h.behind)⟩

end

end Text

namespace Pattern

/-- The pattern of words finds the places where the words stand. -/
theorem finds_iff_standAfter {words : List (List Char)} (hne : words ≠ [])
    (hwords : ∀ w ∈ words, w ≠ []) {text : List Char} (htext : ∀ c ∈ text, Text.IsAscii c) :
    Finds (edgeAtoms (words.head?.bind List.head?) ++
      (wordAtoms words ++ edgeAtoms (words.getLast?.bind List.getLast?))) text ↔
      ∃ left right, text = left ++ right ∧ Text.StandAfter words left.getLast? right := by
  refine exists_congr fun left => exists_congr fun right => and_congr_right fun hsplit => ?_
  rw [hsplit] at htext
  obtain ⟨hleft, hright⟩ := List.forall_mem_append.1 htext
  exact matches_iff_standAfter hne hwords (fun c hc => hleft c (List.mem_of_getLast? hc)) hright

/-- In an ASCII text, the pattern of a plain word finds it where it stands apart from word
characters. -/
theorem finds_iff_foundApart {word text : List Char} (hne : word ≠ [])
    (hplain : ∀ c ∈ word, Text.isAlphanumeric c = true) (htext : ∀ c ∈ text, Text.IsAscii c) :
    Finds (edgeAtoms ([word].head?.bind List.head?) ++
      (wordAtoms [word] ++ edgeAtoms ([word].getLast?.bind List.getLast?))) text ↔
      Text.FoundApart Text.isWordChar word text := by
  rw [finds_iff_standAfter (List.cons_ne_nil _ _) (by simpa using hne) htext]
  constructor
  · rintro ⟨left, right, rfl, h⟩
    obtain ⟨found, rest, rfl, hfound⟩ := (Text.standAfter_singleton_iff hne hplain).1 h
    exact ⟨left, found, rest, rfl, hfound⟩
  · rintro ⟨left, found, right, rfl, h⟩
    exact ⟨left, found ++ right, rfl,
      (Text.standAfter_singleton_iff hne hplain).2 ⟨found, right, rfl, h⟩⟩

end Pattern

/-- A word of letters and digits matches an ASCII text just if its pattern finds it there or if it
stands in the text apart from letters and digits, but next to an underscore. -/
theorem matchesWords_plain_iff {text word : String} (htext : ∀ c ∈ text.toList, Text.IsAscii c)
    (hne : word.toList ≠ []) (hword : ∀ c ∈ word.toList, c.isAlphanum = true) :
    ∃ atoms, Pattern.read? (Mongo.wordPattern [word.toList]) = some atoms ∧
      (Json.matchesWords [word] (.string text) = true ↔ Pattern.Finds atoms text.toList ∨
        ∃ left found right, text.toList = left ++ (found ++ right) ∧
          Text.Apart Text.isAlphanumeric word.toList left found right ∧
          (left.getLast? = some '_' ∨ right.head? = some '_')) := by
  have hascii : ∀ c ∈ word.toList, Text.IsAscii c :=
    fun c hc => Text.isAscii_of_isAlphanum (hword c hc)
  have hplain : ∀ c ∈ word.toList, Text.isAlphanumeric c = true := by
    intro c hc
    rw [Text.isAlphanumeric_of_isAscii (hascii c hc)]
    exact hword c hc
  refine ⟨_, Pattern.read?_wordPattern _, ?_⟩
  rw [Json.matchesWords, List.map_singleton,
    Text.matchesWords_singleton_iff_foundApart hne hplain hascii htext,
    Pattern.finds_iff_foundApart hne hplain htext, Text.FoundApart, Text.FoundApart]
  simp only [← exists_or, ← and_or_left, ← Text.apart_isAlphanumeric_iff]

theorem matchesWords_plain_iff_mixed :
    let text := "snake_case, upper CASE"
    let word := "Case"
    (∀ c ∈ text.toList, Text.IsAscii c) ∧ word.toList ≠ [] ∧
      (∀ c ∈ word.toList, c.isAlphanum = true) ∧
      ∃ atoms, Pattern.read? (Mongo.wordPattern [word.toList]) = some atoms ∧
        (Json.matchesWords [word] (.string text) = true ↔ Pattern.Finds atoms text.toList ∨
          ∃ left found right, text.toList = left ++ (found ++ right) ∧
            Text.Apart Text.isAlphanumeric word.toList left found right ∧
            (left.getLast? = some '_' ∨ right.head? = some '_')) := by
  intro text word
  have htext : ∀ c ∈ text.toList, Text.IsAscii c := by simp [text, Text.IsAscii]
  have hne : word.toList ≠ [] := by simp [word]
  have hword : ∀ c ∈ word.toList, c.isAlphanum = true := by simp [word]
  exact ⟨htext, hne, hword, matchesWords_plain_iff htext hne hword⟩

/-- The word before an underscore is one of the words of the text, but its pattern does not find
it. -/
theorem matchesWords_before_underscore :
    (∀ c ∈ "foo_bar".toList, Text.IsAscii c) ∧ (∀ c ∈ "foo".toList, c.isAlphanum = true) ∧
      Json.matchesWords ["foo"] (.string "foo_bar") = true ∧
      ∃ atoms, Pattern.read? (Mongo.wordPattern ["foo".toList]) = some atoms ∧
        ¬ Pattern.Finds atoms "foo_bar".toList := by
  have htext : ∀ c ∈ "foo_bar".toList, Text.IsAscii c := by simp [Text.IsAscii]
  have hword : ∀ c ∈ "foo".toList, c.isAlphanum = true := by simp
  refine ⟨htext, hword, by decide +kernel, _, Pattern.read?_wordPattern _, ?_⟩
  rw [Pattern.finds_iff_standAfter (by simp) (by simp) htext]
  rintro ⟨left, right, hsplit, h⟩
  have hnil : ∀ before, ¬ Text.StandAfter ["foo".toList] before [] :=
    fun before h => Text.not_stand_nil (by simp) h.2
  have hsomewhere : Text.Somewhere (Text.StandAfter ["foo".toList]) none "foo_bar".toList :=
    (Text.somewhere_iff hnil).2 ⟨left, right, hsplit, by rwa [Option.or_none]⟩
  rw [← Text.tokenOccurs_iff] at hsomewhere
  exact absurd hsomewhere (by decide +kernel)

end TextQuery
