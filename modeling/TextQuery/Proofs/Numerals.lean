import Mathlib.Algebra.Order.Floor.Semifield
import Mathlib.Data.Rat.Floor
import TextQuery.Json.Basic
import TextQuery.Proofs.ShortestDigits

/-!
# The decimals that the texts of numbers spell

A number is printed in plain or in scientific form. Read back, its text gives a decimal just if the
number is zero or is neither too small nor too large, and then it gives the number itself, rounded
to 28 decimals with halves away from zero.
-/
namespace TextQuery

/-- An amount with a sign. -/
def signed {α : Type} [Neg α] (negative : Bool) (a : α) : α :=
  if negative then -a else a

namespace Decimal

/-- The amounts that decimals can hold, rounded where necessary. -/
def Holds (q : ℚ) : Prop :=
  q = 0 ∨ 1 / 10 ^ 28 ≤ q ∧ q < 2 ^ 96

instance (q : ℚ) : Decidable (Holds q) :=
  inferInstanceAs (Decidable (_ ∨ _ ∧ _))

/-- An amount in units of `10^-28`, rounded to the nearest whole number, a half up. -/
def rounded (q : ℚ) : Nat :=
  ⌊q * 10 ^ 28 + 1 / 2⌋₊

/-- The key of the decimal that holds an amount with a sign, if there is one. -/
def heldKey (negative : Bool) (q : ℚ) : Option Int :=
  if Holds q then some (signed negative (rounded q : Int)) else none

theorem rounded_eq {q : ℚ} {n : Nat} (h : q * 10 ^ 28 = n) : rounded q = n := by
  rw [rounded, h, Nat.floor_eq_iff (by positivity)]
  constructor <;> linarith

/-- A text in plain form without a sign, with the mantissa and the scale it spells. -/
inductive PlainForm : List Char → Nat → Nat → Prop where
  | whole {whole : List Char} (hne : whole ≠ []) (hdigits : ∀ c ∈ whole, c.isDigit = true)
      (hlen : whole.length ≤ 28) :
      PlainForm whole (Nat.ofDigitChars 10 whole 0) 0
  | fraction {whole decimals : List Char} (hne : whole ≠ [])
      (hdigits : ∀ c ∈ whole ++ decimals, c.isDigit = true) (hlen : whole.length ≤ 28)
      (hscale : decimals.length ≤ 28) :
      PlainForm (whole ++ '.' :: decimals) (Nat.ofDigitChars 10 (whole ++ decimals) 0)
        decimals.length

/-- The sign before a number. -/
def sign (negative : Bool) : List Char :=
  if negative then ['-'] else []

section
variable {negative point digits : Bool} {mantissa scale : Nat} {text rest : List Char}

theorem map_key_of? : (of? negative mantissa scale).map key =
    if mantissa < 2 ^ 96 ∧ scale ≤ 28 then
      some (signed negative ((mantissa * 10 ^ (28 - scale) : ℕ) : ℤ))
    else none := by
  simp only [of?, Nat.pow_eq]
  split_ifs
  · simp [key, signed]
  · rfl

/-- Digits that are not too many are taken one by one. -/
theorem readDigits_append (hdigits : ∀ c ∈ text, c.isDigit = true)
    (hmantissa : Nat.ofDigitChars 10 text mantissa < 2 ^ 96) (hscale : scale + text.length ≤ 28) :
    readDigits negative point digits mantissa scale (text ++ rest) =
      readDigits negative point (digits || !text.isEmpty) (Nat.ofDigitChars 10 text mantissa)
        (if point then scale + text.length else scale) rest := by
  induction text generalizing digits mantissa scale with
  | nil => simp
  | cons c text ih =>
    have hc : digit? c = some (c.toNat - '0'.toNat) := if_pos (hdigits c (by simp))
    rw [Nat.ofDigitChars_cons] at hmantissa ⊢
    have hge : 10 * mantissa + (c.toNat - '0'.toNat) < 2 ^ 96 := by
      rw [Nat.ofDigitChars_eq_ofDigitChars_zero] at hmantissa
      have := Nat.le_mul_of_pos_left (10 * mantissa + (c.toNat - '0'.toNat))
        (Nat.pow_pos (a := 10) (n := text.length) (by decide))
      omega
    rw [List.length_cons] at hscale
    rw [List.cons_append, readDigits]
    simp only [hc, Nat.pow_eq, Nat.mul_comm mantissa 10]
    have hrest : (if point then scale + 1 else scale) + text.length ≤ 28 := by
      split <;> omega
    rw [if_pos ⟨hge, by omega⟩, ih (fun c h => hdigits c (by simp [h])) hmantissa hrest]
    cases point
    · simp
    · simp [Nat.add_comm, Nat.add_left_comm]

theorem ofPlain?_sign_append {c : Char} (hc : c.isDigit = true) :
    ofPlain? (sign negative ++ c :: rest) = readDigits negative false false 0 0 (c :: rest) := by
  cases negative with
  | true => rfl
  | false =>
    have hminus : c ≠ '-' := by
      rintro rfl
      cases hc
    have hplus : c ≠ '+' := by
      rintro rfl
      cases hc
    rw [sign, if_neg Bool.false_ne_true, List.nil_append, ofPlain?.eq_3]
    · rintro rest ⟨⟩
      exact hminus rfl
    · rintro rest ⟨⟩
      exact hplus rfl

theorem PlainForm.exists_cons (h : PlainForm text mantissa scale) :
    ∃ c rest, text = c :: rest ∧ c.isDigit = true := by
  cases h with
  | whole hne hdigits hlen =>
    obtain ⟨c, rest, rfl⟩ := List.exists_cons_of_ne_nil hne
    exact ⟨c, rest, rfl, hdigits c (by simp)⟩
  | fraction hne hdigits hlen hscale =>
    obtain ⟨c, rest, rfl⟩ := List.exists_cons_of_ne_nil hne
    exact ⟨c, _, rfl, hdigits c (by simp)⟩

/-- What is in plain form is read as the mantissa and the scale that it spells. -/
theorem PlainForm.ofPlain? (h : PlainForm text mantissa scale) (hmantissa : mantissa < 2 ^ 96) :
    Decimal.ofPlain? (sign negative ++ text) = of? negative mantissa scale := by
  obtain ⟨c, rest, hcons, hc⟩ := h.exists_cons
  rw [hcons, ofPlain?_sign_append hc, ← hcons]
  cases h with
  | whole hne hdigits hlen =>
    rw [← List.append_nil text, readDigits_append hdigits hmantissa (by omega)]
    simp [readDigits, hne]
  | @fraction whole decimals hne hdigits hlen hscale =>
    have hsplit := @Nat.ofDigitChars_append 10 whole decimals 0
    have hwhole : Nat.ofDigitChars 10 whole 0 < 2 ^ 96 := by
      rw [hsplit, Nat.ofDigitChars_eq_ofDigitChars_zero] at hmantissa
      have := Nat.le_mul_of_pos_left (Nat.ofDigitChars 10 whole 0)
        (Nat.pow_pos (a := 10) (n := decimals.length) (by decide))
      omega
    rw [hsplit] at hmantissa ⊢
    rw [readDigits_append (fun c h => hdigits c (by simp [h])) hwhole (by omega), readDigits]
    rw [show digit? '.' = none from rfl]
    simp only [Bool.not_false, Bool.and_true, beq_self_eq_true, if_true]
    rw [← List.append_nil decimals,
      readDigits_append (fun c h => hdigits c (by simp [h])) hmantissa (by simpa using hscale)]
    simp [readDigits, hne]

theorem readDigits_eq_none {c : Char} (hmem : c ∈ text) (hdigit : c.isDigit = false)
    (hpoint : c ≠ '.') (hunder : c ≠ '_') :
    readDigits negative point digits mantissa scale text = none := by
  have htail : ∀ {rest : List Char}, c ∈ rest → isTail rest = false := fun {rest} h => by
    rw [isTail, List.all_eq_false]
    exact ⟨c, h, by simp [hdigit, hunder]⟩
  induction text generalizing point digits mantissa scale with
  | nil => cases hmem
  | cons b rest ih =>
    rcases List.mem_cons.1 hmem with rfl | hrest
    · have hc : digit? c = none := if_neg (by simp [hdigit])
      simp [readDigits, hc, hpoint, hunder]
    · unfold readDigits
      cases digit? b with
      | some d => simp [ih hrest, htail hrest]
      | none => simp [ih hrest, htail hrest]

/-- Digits are all that plain form may hold besides a sign, points and underscores. -/
theorem ofPlain?_eq_none {c : Char} (hmem : c ∈ text) (hdigit : c.isDigit = false)
    (hpoint : c ≠ '.') (hunder : c ≠ '_') (hminus : c ≠ '-') (hplus : c ≠ '+') :
    Decimal.ofPlain? text = none := by
  unfold Decimal.ofPlain?
  split
  · exact readDigits_eq_none ((List.mem_cons.1 hmem).resolve_left hminus) hdigit hpoint hunder
  · exact readDigits_eq_none ((List.mem_cons.1 hmem).resolve_left hplus) hdigit hpoint hunder
  · exact readDigits_eq_none hmem hdigit hpoint hunder

/-- An exponent is read from its digits, with or without a plus sign, if it fits. -/
theorem exponent?_toDigits (n : Nat) :
    exponent? (Nat.toDigits 10 n) = (if n < 2 ^ 32 then some n else none) ∧
      exponent? ('+' :: Nat.toDigits 10 n) = if n < 2 ^ 32 then some n else none := by
  have hdigits : ∀ c ∈ Nat.toDigits 10 n, c.isDigit = true :=
    fun c hc => Nat.isDigit_of_mem_toDigits (by decide) (by decide) hc
  have hplus : ∀ rest, Nat.toDigits 10 n ≠ '+' :: rest := fun rest hn => by
    have := hdigits '+' (by rw [hn]; exact List.mem_cons_self)
    cases this
  have hfold : (Nat.toDigits 10 n).foldl (fun n c => n * 10 + (c.toNat - '0'.toNat)) 0 = n := by
    calc
      _ = Nat.ofDigitChars 10 (Nat.toDigits 10 n) 0 := by
        simp only [Nat.ofDigitChars_eq_foldl, Nat.mul_comm 10]
      _ = n := Nat.ofDigitChars_ten_toDigits
  have hread : (if (Nat.toDigits 10 n).isEmpty || !(Nat.toDigits 10 n).all Char.isDigit then none
      else if (Nat.toDigits 10 n).foldl (fun n c => n * 10 + (c.toNat - '0'.toNat)) 0 < 2 ^ 32 then
        some ((Nat.toDigits 10 n).foldl (fun n c => n * 10 + (c.toNat - '0'.toNat)) 0)
      else none) = if n < 2 ^ 32 then some n else none := by
    rw [hfold, List.isEmpty_eq_false_iff.2 Nat.toDigits_ne_nil, List.all_eq_true.2 hdigits]
    rfl
  constructor
  · unfold exponent?
    split
    · rename_i rest hn
      exact absurd hn (hplus rest)
    · exact hread
  · exact hread

theorem isExponentMark_eq_false {c : Char} (h : c.isDigit = true ∨ c = '.' ∨ c = '-') :
    isExponentMark c = false := by
  rcases h with hdigit | rfl | rfl
  · simp only [isExponentMark, Bool.or_eq_false_iff, beq_eq_false_iff_ne]
    constructor
    · rintro rfl
      cases hdigit
    · rintro rfl
      cases hdigit
  · rfl
  · rfl

theorem PlainForm.isExponentMark_eq_false (h : PlainForm text mantissa scale) :
    ∀ c ∈ sign negative ++ text, isExponentMark c = false := by
  intro c hc
  apply Decimal.isExponentMark_eq_false
  rcases List.mem_append.1 hc with hsign | htext
  · cases negative with
    | true => exact .inr (.inr (List.mem_singleton.1 hsign))
    | false => cases hsign
  · cases h with
    | whole hne hdigits hlen => exact .inl (hdigits c htext)
    | fraction hne hdigits hlen hscale =>
      rcases List.mem_append.1 htext with hw | hf
      · exact .inl (hdigits c (List.mem_append_left _ hw))
      · rcases List.mem_cons.1 hf with rfl | hf
        · exact .inr (.inl rfl)
        · exact .inl (hdigits c (List.mem_append_right _ hf))

/-- A text in scientific form is not in plain form, and is cut at the exponent mark. -/
theorem PlainForm.ofText?_append (h : PlainForm text mantissa scale) (hmantissa : mantissa < 2 ^ 96)
    {exponent : List Char} {s : String}
    (hs : s.toList = sign negative ++ text ++ 'e' :: exponent) :
    (s.toList.dropWhile fun c => !isExponentMark c) = 'e' :: exponent ∧
      Decimal.ofPlain? (s.toList.takeWhile fun c => !isExponentMark c) =
        of? negative mantissa scale ∧ Decimal.ofPlain? s.toList = none := by
  have hmark : ∀ c ∈ sign negative ++ text, (!isExponentMark c) = true := fun c hc => by
    rw [h.isExponentMark_eq_false c hc]
    rfl
  have hdrop : (('e' :: exponent).dropWhile fun c => !isExponentMark c) = 'e' :: exponent := rfl
  have htake : (('e' :: exponent).takeWhile fun c => !isExponentMark c) = [] := rfl
  rw [hs, List.dropWhile_append_of_pos hmark, List.takeWhile_append_of_pos hmark, hdrop, htake,
    List.append_nil]
  refine ⟨rfl, h.ofPlain? hmantissa, ofPlain?_eq_none (c := 'e') ?_ rfl ?_ ?_ ?_ ?_⟩
  · simp
  all_goals decide

/-- No exponent is too large to be read that would not be too large for the decimal anyway. -/
theorem PlainForm.ofText?_minus (h : PlainForm text mantissa scale) (hmantissa : mantissa < 2 ^ 96)
    {n : Nat} {s : String}
    (hs : s.toList = sign negative ++ text ++ 'e' :: '-' :: Nat.toDigits 10 n) :
    ofText? s = (of? negative mantissa scale).bind (·.shiftLeft? n) := by
  obtain ⟨hdrop, hbase, hplain⟩ := h.ofText?_append hmantissa hs
  rw [ofText?, hplain, Option.none_or, ofScientific?, hdrop, hbase]
  simp only [(exponent?_toDigits n).1]
  by_cases hn : n < 2 ^ 32
  · rw [if_pos hn]
    rfl
  · rw [if_neg hn]
    refine congrArg _ (funext fun base => ?_)
    rw [shiftLeft?, if_pos (by omega)]
    rfl

theorem PlainForm.ofText?_plus (h : PlainForm text mantissa scale) (hmantissa : mantissa < 2 ^ 96)
    {n : Nat} {s : String}
    (hs : s.toList = sign negative ++ text ++ 'e' :: '+' :: Nat.toDigits 10 n) :
    ofText? s = (of? negative mantissa scale).bind (·.shiftRight? n) := by
  obtain ⟨hdrop, hbase, hplain⟩ := h.ofText?_append hmantissa hs
  rw [ofText?, hplain, Option.none_or, ofScientific?, hdrop, hbase]
  simp only [(exponent?_toDigits n).2]
  by_cases hn : n < 2 ^ 32
  · rw [if_pos hn]
    rfl
  · rw [if_neg hn]
    refine congrArg _ (funext fun base => ?_)
    have hscale := base.scale_le
    rw [shiftRight?, if_neg (by omega), if_pos (by omega)]
    rfl

theorem holds_of_le {q : ℚ} (hlow : 1 / 10 ^ 28 ≤ q) : Holds q ↔ q < 2 ^ 96 := by
  have hne : q ≠ 0 := by
    rintro rfl
    norm_num at hlow
  exact ⟨fun h => (h.resolve_left hne).2, fun h => .inr ⟨hlow, h⟩⟩

/-- What plain form spells is held exactly. -/
theorem map_key_of?_eq {q : ℚ} (hmantissa : mantissa < 2 ^ 96) (hscale : scale ≤ 28)
    (hq : (mantissa : ℚ) / 10 ^ scale = q) : (of? negative mantissa scale).map key =
      heldKey negative q := by
  have hround : rounded q = mantissa * 10 ^ (28 - scale) := by
    apply rounded_eq
    rw [← hq, ← Nat.sub_add_cancel hscale, pow_add, Nat.sub_add_cancel hscale]
    push_cast
    field_simp
  have hholds : Holds q := by
    rcases Nat.eq_zero_or_pos mantissa with hzero | hpos
    · left
      rw [← hq, hzero]
      simp
    · right
      rw [← hq]
      constructor
      · have hpow : (10 : ℚ) ^ scale ≤ 10 ^ 28 := pow_le_pow_right₀ (by norm_num) hscale
        exact div_le_div₀ (by positivity) (by exact_mod_cast hpos) (by positivity) hpow
      · refine (div_le_self (by positivity) (one_le_pow₀ (by norm_num))).trans_lt ?_
        exact_mod_cast hmantissa
  rw [map_key_of?, if_pos ⟨hmantissa, hscale⟩, heldKey, if_pos hholds, hround]

theorem PlainForm.map_key_ofText? {q : ℚ} (h : PlainForm text mantissa scale)
    (hmantissa : mantissa < 2 ^ 96) (hscale : scale ≤ 28) (hq : (mantissa : ℚ) / 10 ^ scale = q)
    {s : String} (hs : s.toList = sign negative ++ text) :
    (Decimal.ofText? s).map key = heldKey negative q := by
  rw [← map_key_of?_eq hmantissa hscale hq, Decimal.ofText?, hs, h.ofPlain? hmantissa, of?,
    dif_pos ⟨hmantissa, hscale⟩, Option.some_or]

/-- Digits are dropped by rounding to the nearest whole number, a half up. -/
theorem dropDigits_eq_floor (n : Nat) :
    dropDigits mantissa n = ⌊(mantissa : ℚ) / 10 ^ n + 1 / 2⌋₊ := by
  have hpos : 0 < 10 ^ n := Nat.pow_pos (by decide)
  have hdiv := Nat.div_add_mod (mantissa + 10 ^ n / 2) (10 ^ n)
  have hmod := Nat.mod_lt (mantissa + 10 ^ n / 2) hpos
  simp only [dropDigits, Nat.pow_eq]
  symm
  rw [Nat.floor_eq_iff (by positivity), div_add_div _ _ (by positivity) (by norm_num),
    le_div_iff₀ (by positivity), div_lt_iff₀ (by positivity)]
  generalize (mantissa + 10 ^ n / 2) / 10 ^ n = k at *
  constructor
  · have hle : k * (10 ^ n * 2) ≤ mantissa * 2 + 10 ^ n * 1 := by
      rw [show k * (10 ^ n * 2) = 10 ^ n * k * 2 by ring]
      omega
    exact_mod_cast hle
  · have hlt : mantissa * 2 + 10 ^ n * 1 < (k + 1) * (10 ^ n * 2) := by
      rw [show (k + 1) * (10 ^ n * 2) = 10 ^ n * k * 2 + 10 ^ n * 2 by ring]
      omega
    exact_mod_cast hlt

/-- A negative exponent moves the point to the left. By `hsmall`, an exponent that is refused
belongs to an amount that no decimal holds. -/
theorem map_key_shiftLeft? {q : ℚ} {n : Nat} (hmantissa : mantissa < 2 ^ 96) (hscale : scale ≤ 28)
    (hq : (mantissa : ℚ) / 10 ^ scale / 10 ^ n = q) (hlow : n ≤ 28 → 1 / 10 ^ 28 ≤ q)
    (hhigh : q < 2 ^ 96) (hsmall : 28 < n → ¬ Holds q) :
    ((of? negative mantissa scale).bind (·.shiftLeft? n)).map key =
      heldKey negative q := by
  rw [of?, dif_pos ⟨hmantissa, hscale⟩, Option.bind_some, shiftLeft?]
  by_cases hn : 28 < n
  · rw [if_pos hn, heldKey, if_neg (hsmall hn)]
    rfl
  · have hdrop : dropDigits mantissa (scale + n - 28) < 2 ^ 96 := by
      have hpos : 0 < 10 ^ (scale + n - 28) := Nat.pow_pos (by decide)
      simp only [dropDigits, Nat.pow_eq]
      rw [Nat.div_lt_iff_lt_mul hpos]
      omega
    have hround : rounded q = dropDigits mantissa (scale + n - 28) *
        10 ^ (28 - min (scale + n) 28) := by
      have hq28 : q * 10 ^ 28 = mantissa * 10 ^ 28 / 10 ^ (scale + n) := by
        rw [← hq, pow_add, div_div, div_mul_eq_mul_div]
      rcases Nat.le_total (scale + n) 28 with hle | hge
      · have hnone : dropDigits mantissa 0 = mantissa := by simp [dropDigits]
        rw [Nat.sub_eq_zero_of_le hle, hnone, Nat.min_eq_left hle]
        apply rounded_eq
        rw [hq28, ← Nat.sub_add_cancel hle, pow_add, Nat.sub_add_cancel hle]
        push_cast
        field_simp
      · rw [Nat.min_eq_right hge, Nat.sub_self, Nat.pow_zero, Nat.mul_one, dropDigits_eq_floor,
          rounded, hq28, ← Nat.sub_add_cancel hge, pow_add, Nat.sub_add_cancel hge,
          mul_div_mul_right _ _ (by positivity)]
    rw [if_neg hn, map_key_of?, if_pos ⟨hdrop, Nat.min_le_right _ _⟩, heldKey,
      if_pos ((holds_of_le (hlow (by omega))).2 hhigh), hround]

/-- A positive exponent moves the point to the right, past all digits. By `hlarge`, an exponent that
is refused belongs to an amount that no decimal holds. -/
theorem map_key_shiftRight? {q : ℚ} {n : Nat} (hmantissa : mantissa < 2 ^ 96) (hscale : scale ≤ 28)
    (hn : scale ≤ n) (hq : (mantissa : ℚ) * 10 ^ (n - scale) = q) (hlow : 1 / 10 ^ 28 ≤ q)
    (hlarge : 28 < n → ¬ Holds q) :
    ((of? negative mantissa scale).bind (·.shiftRight? n)).map key =
      heldKey negative q := by
  have hexact : (of? negative (mantissa * 10 ^ (n - scale)) 0).map key =
      heldKey negative q := by
    have hround : rounded q = mantissa * 10 ^ (n - scale) * 10 ^ 28 := by
      apply rounded_eq
      rw [← hq]
      push_cast
      ring
    have hiff : mantissa * 10 ^ (n - scale) < 2 ^ 96 ∧ 0 ≤ 28 ↔ Holds q := by
      rw [holds_of_le hlow, ← hq, and_iff_left (by decide)]
      exact_mod_cast Iff.rfl
    rw [map_key_of?, if_congr hiff rfl rfl, heldKey, hround]
  rw [of?, dif_pos ⟨hmantissa, hscale⟩, Option.bind_some, shiftRight?]
  simp only [Nat.pow_eq]
  split_ifs with hle hlt
  · have heq : n - scale = 0 := by omega
    rw [heq, Nat.pow_zero, Nat.mul_one] at hexact
    rw [show scale - n = 0 by omega]
    exact hexact
  · rw [heldKey, if_neg (hlarge hlt)]
    rfl
  · exact hexact

end

end Decimal

end TextQuery
