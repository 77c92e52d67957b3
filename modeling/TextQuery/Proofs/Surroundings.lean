import TextQuery.Proofs.PlainWords

/-!
# Text around a match

White space keeps its two sides apart, in both ways of searching a text. No word goes across it, and
no letter on one side takes another lower case because of the other side. So what matches a text
matches it between any other texts, if white space is put before and behind it.
-/
namespace TextQuery

namespace Text

/-- A character at which the look-out for cased ones ends without success: it is not cased, nor is
it ignored. -/
def EndsContext (c : Char) : Prop :=
  caseIgnorables.contains c = false ∧ casedChars.contains c = false

theorem endsContext_space : EndsContext ' ' := by
  unfold EndsContext
  decide +kernel

section
variable {c : Char} (hc : EndsContext c)
include hc

theorem meetsCased_append_cons (text rest : List Char) :
    meetsCased (text ++ c :: rest) = meetsCased text := by
  have hdrop : (c :: rest).dropWhile caseIgnorables.contains = c :: rest :=
    List.dropWhile_cons_of_neg (by simp [hc.1])
  unfold meetsCased
  rw [List.dropWhile_append, hdrop]
  cases text.dropWhile caseIgnorables.contains with
  | nil => exact hc.2
  | cons d text => rfl

/-- The look-out for a cased character goes back no farther than to `c`. -/
theorem lowerAfter_behind (before more text : List Char) :
    lowerAfter (before ++ c :: more) text = lowerAfter before text := by
  induction text generalizing before with
  | nil => rfl
  | cons d text ih =>
    rw [lowerAfter, lowerAfter, meetsCased_append_cons hc, ← List.cons_append, ih]

/-- The two sides of such a character are lowered by themselves. A sigma looks both ways, but on
neither side past `c`. -/
theorem lowerAfter_append_cons (before text rest : List Char) :
    lowerAfter before (text ++ c :: rest) =
      lowerAfter before text ++ (lowerChar c ++ lower rest) := by
  have hsigma : (c == 'Σ') = false := by
    rw [beq_eq_false_iff_ne]
    rintro rfl
    have hcased : casedChars.contains 'Σ' = true := by decide +kernel
    rw [hc.2] at hcased
    cases hcased
  induction text generalizing before with
  | nil =>
    have hhere : lowerAfter before (c :: rest) = lowerChar c ++ lowerAfter (c :: before) rest := by
      rw [lowerAfter, hsigma]
      rfl
    exact hhere.trans (congrArg _ (lowerAfter_behind hc [] before rest))
  | cons d text ih =>
    rw [List.cons_append, lowerAfter, lowerAfter, meetsCased_append_cons hc, ih,
      List.append_assoc]

end

theorem lower_append_space (text rest : List Char) :
    lower (text ++ ' ' :: rest) = lower text ++ ' ' :: lower rest := by
  have hspace : lowerChar ' ' = [' '] := by decide +kernel
  rw [lower, lowerAfter_append_cons endsContext_space, hspace, List.singleton_append]
  rfl

theorem joinsWord_or {edge near far : Option Char} (hnear : joinsWord edge near = false)
    (hfar : joinsWord edge far = false) : joinsWord edge (near.or far) = false := by
  cases near with
  | none => exact hfar
  | some c => exact hnear

/-- A token begins a text also behind, and before, what does not join its edges. -/
theorem tokenBegins_append {token text before behind : List Char} {front : Option Char}
    (h : tokenBegins token front text = true)
    (hbefore : joinsWord token.head? before.getLast? = false)
    (hbehind : joinsWord token.getLast? behind.head? = false) :
    tokenBegins token (front.or before.getLast?) (text ++ behind) = true := by
  simp only [tokenBegins, Bool.and_eq_true, Bool.not_eq_true', List.isPrefixOf_iff_prefix] at h ⊢
  obtain ⟨⟨⟨rest, rfl⟩, hfront⟩, hback⟩ := h
  rw [List.drop_left] at hback
  rw [List.append_assoc, List.drop_left, List.head?_append]
  exact ⟨⟨List.prefix_append _ _, joinsWord_or hfront hbefore⟩, joinsWord_or hback hbehind⟩

theorem tokenOccurs_iff_somewhere {token text : List Char} {before : Option Char} :
    tokenOccurs token before text = true ↔
      Somewhere (fun front right => tokenBegins token front right = true) before text := by
  induction text generalizing before with
  | nil => simp [tokenOccurs, Somewhere]
  | cons c text ih => rw [tokenOccurs, Bool.or_eq_true, Somewhere, ih]

theorem tokenOccurs_iff_exists {token text : List Char} (hne : token ≠ []) :
    tokenOccurs token none text = true ↔
      ∃ left right, text = left ++ right ∧ tokenBegins token left.getLast? right = true := by
  rw [tokenOccurs_iff_somewhere, somewhere_iff]
  · simp only [Option.or_none]
  · simp [tokenBegins, hne]

/-- A token that occurs in a text also occurs in a longer one, if nothing joins it at the edges. -/
theorem tokenOccurs_append {token text : List Char} (hne : token ≠ [])
    (h : tokenOccurs token none text = true) (before behind : List Char)
    (hbefore : joinsWord token.head? before.getLast? = false)
    (hbehind : joinsWord token.getLast? behind.head? = false) :
    tokenOccurs token none (before ++ (text ++ behind)) = true := by
  obtain ⟨left, right, rfl, hbegins⟩ := (tokenOccurs_iff_exists hne).1 h
  refine (tokenOccurs_iff_exists hne).2 ⟨before ++ left, right ++ behind, by simp, ?_⟩
  rw [List.getLast?_append]
  exact tokenBegins_append hbegins hbefore hbehind

/-- A text contains what a part of it contains, if the part is set off by blanks. -/
theorem containsToken_of_lower_eq {part text token : List Char}
    (h : containsToken part token = true) (left right : List Char)
    (hlower : lower text = left ++ (lower part ++ right))
    (hleft : ∀ c ∈ left.getLast?, isBlank c = true) (hright : ∀ c ∈ right.head?, isBlank c = true) :
    containsToken text token = true := by
  simp only [containsToken, Bool.and_eq_true, Bool.not_eq_true', List.isEmpty_eq_false_iff] at h ⊢
  obtain ⟨hne, hoccurs⟩ := h
  rw [hlower]
  exact ⟨hne, tokenOccurs_append hne hoccurs left right (joinsWord_of_isBlank hleft)
    (joinsWord_of_isBlank hright)⟩

theorem ne_nil_of_containsToken {text token : List Char} (h : containsToken text token = true) :
    text ≠ [] := by
  rintro rfl
  simp [containsToken, lower, lowerAfter, tokenOccurs] at h

theorem isBlank_space : isBlank ' ' = true := by
  decide +kernel

/-- White space between two texts is one space between the collapsed texts, if there is anything
else in both. -/
theorem collapse_append_cons {c : Char} (hc : isBlank c = true) (text rest : List Char) :
    collapse (text ++ c :: rest) =
      if collapse text = [] then collapse rest
      else if collapse rest = [] then collapse text
      else collapse text ++ ' ' :: collapse rest := by
  have hpieces : blankSeparated (text ++ c :: rest) = blankSeparated text ++ blankSeparated rest :=
    pieces_append_cons_of_cut hc text rest
  simp only [collapse_eq_nil_iff]
  unfold collapse
  rw [hpieces]
  split_ifs with htext hrest
  · rw [htext, List.nil_append]
  · rw [hrest, List.append_nil]
  · exact intercalate_append htext hrest

theorem isAlphanumeric_of_isBlank {c : Char} (hc : isBlank c = true) : isAlphanumeric c = false :=
  (isWordChar_eq_false_iff.1 (isWordChar_of_isBlank hc)).1

/-- White space ends a word, so the words of two texts that it stands between are those of each. -/
theorem wordsOf_append_cons {c : Char} (hc : isBlank c = true) (text rest : List Char) :
    wordsOf (text ++ c :: rest) = wordsOf text ++ wordsOf rest := by
  rw [wordsOf, pieces_append_cons_of_cut (by simpa using isAlphanumeric_of_isBlank hc),
    List.map_append]
  rfl

/-- All that matching asks of a text are its words and the tokens in it. -/
theorem matchesWords_mono {part text : List Char} {query : List (List Char)}
    (hwords : wordsOf part <:+: wordsOf text)
    (htokens : ∀ token, containsToken (collapse part) token = true →
      containsToken (collapse text) token = true)
    (h : matchesWords part query = true) : matchesWords text query = true := by
  unfold matchesWords at h ⊢
  split_ifs at h ⊢ with hplain
  · rw [containsRun_iff] at h ⊢
    exact ⟨h.1, h.2.trans hwords⟩
  · exact htokens _ h

section
variable {c : Char} (hc : isBlank c = true) {text : List Char} {query : List (List Char)}
include hc

theorem matchesWords_behind_blank (before : List Char) (h : matchesWords text query = true) :
    matchesWords (before ++ c :: text) query = true := by
  refine matchesWords_mono ?_ (fun token htoken => ?_) h
  · rw [wordsOf_append_cons hc]
    exact (List.suffix_append _ _).isInfix
  · rw [collapse_append_cons hc, if_neg (ne_nil_of_containsToken htoken)]
    split_ifs
    · exact htoken
    · refine containsToken_of_lower_eq htoken (lower (collapse before) ++ [' ']) [] ?_
        (by simpa using isBlank_space) (by simp)
      rw [lower_append_space, List.append_nil, List.append_cons]

theorem matchesWords_before_blank (behind : List Char) (h : matchesWords text query = true) :
    matchesWords (text ++ c :: behind) query = true := by
  refine matchesWords_mono ?_ (fun token htoken => ?_) h
  · rw [wordsOf_append_cons hc]
    exact (List.prefix_append _ _).isInfix
  · rw [collapse_append_cons hc, if_neg (ne_nil_of_containsToken htoken)]
    split_ifs
    · exact htoken
    · exact containsToken_of_lower_eq htoken [] (' ' :: lower (collapse behind))
        (lower_append_space _ _) (by simp) (by simpa using isBlank_space)

end

end Text

/-- What matches a text also matches it with any texts around it, apart by a space. -/
theorem matchesWords_surrounded {text : String} {words : List String}
    (h : Json.matchesWords words (.string text) = true) (before behind : String) :
    Json.matchesWords words (.string (before ++ " " ++ text ++ " " ++ behind)) = true := by
  have hbefore := Text.matchesWords_behind_blank Text.isBlank_space before.toList h
  have hboth := Text.matchesWords_before_blank Text.isBlank_space behind.toList hbefore
  simpa [Json.matchesWords] using hboth

theorem matchesWords_surrounded_sigma :
    let text := "ΟΔΟΣ \t C++"
    let words := ["οδος", "c++"]
    Json.matchesWords words (.string text) = true ∧
      Json.matchesWords words (.string ("ΑΣ" ++ " " ++ text ++ " " ++ "Σ")) = true := by
  intro text words
  have h : Json.matchesWords words (.string text) = true := by decide +kernel
  exact ⟨h, matchesWords_surrounded h "ΑΣ" "Σ"⟩

end TextQuery
