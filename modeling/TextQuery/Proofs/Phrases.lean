import TextQuery.Predicate.Filter
import TextQuery.Proofs.Documents
import TextQuery.Proofs.PlainWords

/-!
# The words of a phrase

Where a phrase is found, each of its words is found alone. This holds although a plain word is looked
for among the words of a text as soon as it is alone, while in a phrase with a punctuated word it is
looked for in the raw text: there, its neighbours are white space or the edges of the phrase.
-/
namespace TextQuery

namespace Text

/-- Where words stand, each of them stands alone. What stands before the words grows with every word
that is passed, and so does `left`. -/
theorem Stand.exists_standAfter {words : List (List Char)} {text left : List Char}
    (h : Stand words text)
    (hleft : joinsWord (words.head?.bind List.head?) left.getLast? = false) :
    ∀ w ∈ words, ∃ left' right,
      left ++ text = left' ++ right ∧ StandAfter [w] left'.getLast? right := by
  induction h generalizing left with
  | @last word found rest letters edge =>
    intro w hw
    rw [List.mem_singleton.1 hw]
    exact ⟨left, found ++ rest, rfl, hleft, .last letters edge⟩
  | @more word next found blanks rest words letters ne blank others ih =>
    intro w hw
    rcases List.mem_cons.1 hw with rfl | hw
    · have hedge : joinsWord w.getLast? (blanks ++ rest).head? = false := by
        rw [List.head?_append_of_ne_nil _ ne]
        exact joinsWord_of_isBlank fun c hc => blank c (List.mem_of_mem_head? hc)
      exact ⟨left, found ++ (blanks ++ rest), rfl, hleft, .last letters hedge⟩
    · have hbehind : joinsWord ((next :: words).head?.bind List.head?)
          (left ++ found ++ blanks).getLast? = false := by
        rw [List.getLast?_append_of_ne_nil _ ne]
        exact joinsWord_of_isBlank fun c hc => blank c (List.mem_of_getLast? hc)
      obtain ⟨left', right, hsplit, hstand⟩ := ih hbehind w hw
      exact ⟨left', right, by simpa using hsplit, hstand⟩

section
variable {text : List Char} {words : List (List Char)} (htext : ∀ c ∈ text, IsAscii c)
  (hwords : ∀ w ∈ words, Solid w) (hascii : ∀ w ∈ words, ∀ c ∈ w, IsAscii c)
include htext

/-- What stands somewhere in an ASCII text matches it, be it plain or not. -/
theorem matchesWords_singleton_of_standAfter {word left right : List Char} (hword : Solid word)
    (hascii : ∀ c ∈ word, IsAscii c) (hsplit : text = left ++ right)
    (h : StandAfter [word] left.getLast? right) : matchesWords text [word] = true := by
  by_cases hplain : ∀ c ∈ word, isAlphanumeric c = true
  · rw [matchesWords_singleton_iff_foundApart hword.1 hplain hascii htext]
    obtain ⟨found, rest, rfl, hfound⟩ := (standAfter_singleton_iff hword.1 hplain).1 h
    exact ⟨left, found, rest, hsplit, apart_isAlphanumeric_iff.2 (.inl hfound)⟩
  · have hpunctuated : ∃ w ∈ [word], ∃ c ∈ w, isAlphanumeric c = false := by
      simpa using hplain
    rw [matchesWords_iff_exists_standAfter htext (List.cons_ne_nil _ _) (by simpa using hword)
      (by simpa using hascii) hpunctuated]
    exact ⟨left, right, hsplit, h⟩

include hwords hascii

/-- A phrase matches an ASCII text only if its words do. -/
theorem matchesWords_singleton_of_mem (h : matchesWords text words = true) :
    ∀ w ∈ words, matchesWords text [w] = true := by
  intro w hw
  by_cases hplain : ∀ w ∈ words, ∀ c ∈ w, isAlphanumeric c = true
  · have hall : (words.all fun word => word.all isAlphanumeric) = true := by
      simpa using hplain
    rw [matchesWords, if_pos hall, containsRun_iff] at h
    rw [matchesWords_singleton_iff (hwords w hw).1 (hplain w hw)]
    refine h.2.mem (List.mem_flatMap.2 ⟨w, hw, ?_⟩)
    rw [wordsOf_plain (hwords w hw).1 (hplain w hw)]
    exact List.mem_singleton_self _
  · have hpunctuated : ∃ w ∈ words, ∃ c ∈ w, isAlphanumeric c = false := by
      simpa using hplain
    rw [matchesWords_iff_exists_standAfter htext (List.ne_nil_of_mem hw) hwords hascii
      hpunctuated] at h
    obtain ⟨left, right, hsplit, hbefore, hstand⟩ := h
    obtain ⟨left', right', hsplit', hstand'⟩ := hstand.exists_standAfter hbefore w hw
    exact matchesWords_singleton_of_standAfter htext (hwords w hw) (hascii w hw)
      (hsplit.trans hsplit') hstand'

end

end Text

/-- Only strings match several words. -/
theorem Json.isString_or_singleton_of_matchesWords {words : List String} {v : Json}
    (h : v.matchesWords words = true) : (∃ s, v = .string s) ∨ ∃ word, words = [word] := by
  cases v with
  | string s => exact .inl ⟨s, rfl⟩
  | number _ | bool _ =>
    rcases words with _ | ⟨word, _ | ⟨next, words⟩⟩
    · cases h
    · exact .inr ⟨word, rfl⟩
    · cases h
  | null | array _ | object _ => cases h

theorem Json.matchesWords_singleton_of_mem {words : List String} {v : Json}
    (hv : ∀ s ∈ v.strings, ∀ c ∈ s.toList, Text.IsAscii c)
    (hwords : ∀ w ∈ words, w.toList ≠ [] ∧
      ∀ c ∈ w.toList, Text.IsAscii c ∧ Text.isBlank c = false)
    (h : v.matchesWords words = true) : ∀ w ∈ words, v.matchesWords [w] = true := by
  intro w hw
  rcases isString_or_singleton_of_matchesWords h with ⟨s, rfl⟩ | ⟨word, rfl⟩
  · have hsolid : ∀ w ∈ words.map String.toList, Text.Solid w :=
      List.forall_mem_map.2 fun w hw => ⟨(hwords w hw).1, fun c hc => ((hwords w hw).2 c hc).2⟩
    have hascii : ∀ w ∈ words.map String.toList, ∀ c ∈ w, Text.IsAscii c :=
      List.forall_mem_map.2 fun w hw c hc => ((hwords w hw).2 c hc).1
    have htext : ∀ c ∈ s.toList, Text.IsAscii c := hv s (List.mem_singleton_self s)
    exact Text.matchesWords_singleton_of_mem htext hsolid hascii h w.toList
      (List.mem_map_of_mem hw)
  · rw [List.mem_singleton.1 hw]
    exact h

/-- A filter for a phrase accepts a document whose strings are ASCII only if the filters for each of
the words do. -/
theorem accepts_contains_of_sequence {doc : Json} {fields words : List String}
    (hdoc : ∀ s ∈ doc.strings, ∀ c ∈ s.toList, Text.IsAscii c)
    (hwords : ∀ w ∈ words, w.toList ≠ [] ∧
      ∀ c ∈ w.toList, Text.IsAscii c ∧ Text.isBlank c = false)
    (h : Filter.accepts doc (.sequence fields words) = true) :
    ∀ w ∈ words, Filter.accepts doc (.contains fields w) = true := by
  intro w hw
  simp only [Filter.accepts, Filter.fieldMatches, List.any_eq_true] at h ⊢
  obtain ⟨field, hfield, v, hv, hmatches⟩ := h
  refine ⟨field, hfield, v, hv, Json.matchesWords_singleton_of_mem ?_ hwords hmatches w hw⟩
  exact fun s hs => hdoc s (Json.strings_subset_of_mem_lookup hv hs)

theorem accepts_contains_of_sequence_punctuated :
    let title : Json := .object [("value", .string "The\tHalf-Blood Prince (6th)")]
    let doc : Json := .object [("titles", .array [.null, title]),
      ("year", .number (.integer 2005 (by decide)))]
    let fields := ["year", "titles.value"]
    let words := ["half-blood", "PRINCE", "(6TH)"]
    (∀ s ∈ doc.strings, ∀ c ∈ s.toList, Text.IsAscii c) ∧
      (∀ w ∈ words, w.toList ≠ [] ∧ ∀ c ∈ w.toList, Text.IsAscii c ∧ Text.isBlank c = false) ∧
      Filter.accepts doc (.sequence fields words) = true ∧
      ∀ w ∈ words, Filter.accepts doc (.contains fields w) = true := by
  intro title doc fields words
  have hdoc : ∀ s ∈ doc.strings, ∀ c ∈ s.toList, Text.IsAscii c := by
    simp [doc, title, Json.strings, Json.itemStrings, Json.memberStrings, Text.IsAscii]
  have hwords : ∀ w ∈ words, w.toList ≠ [] ∧
      ∀ c ∈ w.toList, Text.IsAscii c ∧ Text.isBlank c = false := by
    simp [words, Text.IsAscii]
    decide +kernel
  have h : Filter.accepts doc (.sequence fields words) = true := by decide +kernel
  exact ⟨hdoc, hwords, h, accepts_contains_of_sequence hdoc hwords h⟩

end TextQuery
