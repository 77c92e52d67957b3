import TextQuery.Text.Words

/-!
# ASCII characters

On ASCII characters the classes and the lower case of Unicode are the plain ones. Letter case, which
only ASCII letters have here, changes nothing in what kind of character one is.
-/
namespace TextQuery.Text

def IsAscii (c : Char) : Prop :=
  c.toNat < 128
deriving Decidable

/-- What is to be shown of an ASCII character can be decided for all of them. -/
theorem IsAscii.induction {P : Char → Prop} (h : ∀ n < 128, P (Char.ofNat n)) {c : Char}
    (hc : IsAscii c) : P c := by
  have hchar := h c.toNat hc
  rwa [Char.ofNat_toNat] at hchar

theorem IsAscii.of_le {c d : Char} (hd : IsAscii d) (h : c ≤ d) : IsAscii c :=
  Nat.lt_of_le_of_lt (UInt32.le_iff_toNat_le.1 h) hd

theorem isAlphanum_iff {c : Char} :
    c.isAlphanum = true ↔ ('A' ≤ c ∧ c ≤ 'Z') ∨ ('a' ≤ c ∧ c ≤ 'z') ∨ '0' ≤ c ∧ c ≤ '9' := by
  have hupper : c.isUpper = true ↔ 'A' ≤ c ∧ c ≤ 'Z' := decide_eq_true_iff
  have hlower : c.isLower = true ↔ 'a' ≤ c ∧ c ≤ 'z' :=
    Bool.and_eq_true_iff.trans (and_congr decide_eq_true_iff decide_eq_true_iff)
  have hdigit : c.isDigit = true ↔ '0' ≤ c ∧ c ≤ '9' :=
    Bool.and_eq_true_iff.trans (and_congr decide_eq_true_iff decide_eq_true_iff)
  have hsplit : c.isAlphanum = (c.isUpper || c.isLower || c.isDigit) := rfl
  rw [hsplit, Bool.or_eq_true, Bool.or_eq_true, hupper, hlower, hdigit, or_assoc]

theorem isAscii_of_isAlphanum {c : Char} (h : c.isAlphanum = true) : IsAscii c := by
  rcases isAlphanum_iff.1 h with ⟨-, hcap⟩ | ⟨-, hsmall⟩ | ⟨-, hdigit⟩
  · exact .of_le (show IsAscii 'Z' by decide) hcap
  · exact .of_le (show IsAscii 'z' by decide) hsmall
  · exact .of_le (show IsAscii '9' by decide) hdigit

/-- Only ASCII capitals differ from their small letters. -/
theorem toLower_induction {P : Char → Char → Prop} (hsame : ∀ c, P c c)
    (hascii : ∀ n < 128, P (Char.ofNat n) (Char.ofNat n).toLower) (c : Char) : P c c.toLower := by
  by_cases hc : 'A'.val ≤ c.val ∧ c.val ≤ 'Z'.val
  · have hrange : IsAscii c := .of_le (show IsAscii 'Z' by decide) hc.2
    exact IsAscii.induction (P := fun c => P c c.toLower) hascii hrange
  · have hfixed : c.toLower = c := dif_neg hc
    rw [hfixed]
    exact hsame c

theorem isDigit_of_isAlpha {c : Char} (h : c.isAlpha = true) : c.isDigit = false := by
  have hascii : IsAscii c := isAscii_of_isAlphanum (Bool.or_eq_true_iff.2 (.inl h))
  revert h
  refine IsAscii.induction (P := fun c => c.isAlpha = true → c.isDigit = false) ?_ hascii
  decide +kernel

theorem isAlphanumeric_of_isAscii {c : Char} (h : IsAscii c) : isAlphanumeric c = c.isAlphanum := by
  refine IsAscii.induction (P := fun c => isAlphanumeric c = c.isAlphanum) ?_ h
  decide +kernel

theorem lowerChar_of_isAscii {c : Char} (h : IsAscii c) : lowerChar c = [c.toLower] := by
  refine IsAscii.induction (P := fun c => lowerChar c = [c.toLower]) ?_ h
  decide +kernel

/-- What is the same for ASCII capitals and for their small letters is not changed by letter case. -/
theorem toLower_invariant {α : Type} {f : Char → α}
    (h : ∀ n < 128, f (Char.ofNat n).toLower = f (Char.ofNat n)) (c : Char) :
    f c.toLower = f c :=
  toLower_induction (P := fun c d => f d = f c) (fun _ => rfl) h c

theorem isBlank_toLower (c : Char) : isBlank c.toLower = isBlank c :=
  toLower_invariant (by decide +kernel) c

theorem isAlphanumeric_toLower (c : Char) : isAlphanumeric c.toLower = isAlphanumeric c :=
  toLower_invariant (by decide +kernel) c

theorem isWordChar_toLower (c : Char) : isWordChar c.toLower = isWordChar c :=
  toLower_invariant (by decide +kernel) c

theorem toLower_toLower (c : Char) : c.toLower.toLower = c.toLower :=
  toLower_invariant (by decide +kernel) c

/-- Only letters have other small letters, and these are letters too. -/
theorem toLower_eq_or (c : Char) :
    c.toLower = c ∨ c.isAlpha = true ∧ c.toLower.isAlpha = true :=
  toLower_induction (P := fun c d => d = c ∨ c.isAlpha = true ∧ d.isAlpha = true)
    (fun _ => .inl rfl) (by decide +kernel) c

/-- What is no letter is not the small letter of anything either. -/
theorem toLower_eq_iff {c d : Char} (hd : d.isAlpha = false) : c.toLower = d ↔ c = d := by
  rcases toLower_eq_or c with hsame | ⟨hc, hlower⟩
  · rw [hsame]
  · constructor
    · rintro rfl
      rw [hlower] at hd
      cases hd
    · rintro rfl
      rw [hc] at hd
      cases hd

/-- A letter is its small letter or the capital of that. -/
theorem eq_toLower_or (c : Char) : c = c.toLower ∨ c = c.toLower.toUpper :=
  toLower_induction (P := fun c d => c = d ∨ c = d.toUpper) (fun _ => .inl rfl)
    (by decide +kernel) c

theorem toList_toLower (text : String) :
    text.toLower.toList = text.toList.map Char.toLower :=
  String.toList_map

/-- The lower case of ASCII text goes by its characters. -/
theorem lowerAfter_of_isAscii {text : List Char} (h : ∀ c ∈ text, IsAscii c)
    (before : List Char) : lowerAfter before text = text.map Char.toLower := by
  induction text generalizing before with
  | nil => rfl
  | cons c text ih =>
    obtain ⟨hc, htext⟩ := List.forall_mem_cons.1 h
    have hsigma : (c == 'Σ') = false := by
      refine IsAscii.induction (P := fun c => (c == 'Σ') = false) ?_ hc
      decide
    rw [lowerAfter, hsigma, ih htext, lowerChar_of_isAscii hc]
    rfl

theorem lower_of_isAscii {text : List Char} (h : ∀ c ∈ text, IsAscii c) :
    lower text = text.map Char.toLower :=
  lowerAfter_of_isAscii h []

end TextQuery.Text
