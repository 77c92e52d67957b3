import TextQuery.Proofs.Numerals

/-!
# The texts of numbers

The decimal form of a number's text, and with it what the number is when it is taken as a decimal:
its amount, rounded, if decimals can hold that.
-/
namespace TextQuery

open Decimal (PlainForm sign Holds rounded heldKey)

namespace Double

section
variable {n : Nat}

theorem isDigit_of_mem_toDigits (n : Nat) : ∀ c ∈ Nat.toDigits 10 n, c.isDigit = true :=
  fun _ hc => Nat.isDigit_of_mem_toDigits (by decide) (by decide) hc

theorem isDigit_of_mem_zeros (k : Nat) : ∀ c ∈ List.replicate k '0', c.isDigit = true :=
  fun _ hc => List.eq_of_mem_replicate hc ▸ rfl

theorem length_toDigits_le_iff {k : Nat} (hk : 0 < k) :
    (Nat.toDigits 10 n).length ≤ k ↔ n < 10 ^ k :=
  Nat.length_toDigits_le_iff (by decide) hk

/-- The number of digits tells the powers of ten around a positive number. -/
theorem ten_pow_length_toDigits_bounds (hn : 0 < n) :
    10 ^ ((Nat.toDigits 10 n).length - 1) ≤ n ∧ n < 10 ^ (Nat.toDigits 10 n).length := by
  have hlen := @Nat.length_toDigits_pos 10 n
  refine ⟨?_, (length_toDigits_le_iff hlen).1 le_rfl⟩
  rcases Nat.eq_zero_or_pos ((Nat.toDigits 10 n).length - 1) with h0 | hpos
  · rw [h0]
    exact hn
  · by_contra hlt
    have := (length_toDigits_le_iff hpos).2 (Nat.lt_of_not_le hlt)
    omega

end

section
variable {n : Nat}

theorem plainForm_toDigits (hlen : (Nat.toDigits 10 n).length ≤ 28) :
    PlainForm (Nat.toDigits 10 n) n 0 := by
  have h := PlainForm.whole Nat.toDigits_ne_nil (isDigit_of_mem_toDigits n) hlen
  rwa [Nat.ofDigitChars_ten_toDigits] at h

theorem plainForm_zeros_toDigits {k : Nat} (hlen : k + (Nat.toDigits 10 n).length ≤ 28) :
    PlainForm ('0' :: '.' :: (List.replicate k '0' ++ Nat.toDigits 10 n)) n
      (k + (Nat.toDigits 10 n).length) := by
  have hdigits := List.forall_mem_append.2 ⟨isDigit_of_mem_zeros 1,
    List.forall_mem_append.2 ⟨isDigit_of_mem_zeros k, isDigit_of_mem_toDigits n⟩⟩
  have h := PlainForm.fraction (by simp) hdigits (by decide) (by simpa using hlen)
  rw [List.length_append, List.length_replicate, Nat.ofDigitChars_append, Nat.ofDigitChars_append,
    Nat.ofDigitChars_replicate_zero, Nat.ofDigitChars_replicate_zero] at h
  simpa using h

theorem plainForm_toDigits_zeros {k : Nat} (hlen : (Nat.toDigits 10 n).length + k ≤ 28) :
    PlainForm (Nat.toDigits 10 n ++ List.replicate k '0' ++ ['.', '0']) (n * 10 ^ k * 10) 1 := by
  have hdigits := List.forall_mem_append.2 ⟨List.forall_mem_append.2
    ⟨isDigit_of_mem_toDigits n, isDigit_of_mem_zeros k⟩, isDigit_of_mem_zeros 1⟩
  have h := PlainForm.fraction (by simp [Nat.toDigits_ne_nil]) hdigits (by simpa using hlen)
    (by decide)
  rw [Nat.ofDigitChars_append, Nat.ofDigitChars_append, Nat.ofDigitChars_replicate_zero,
    Nat.ofDigitChars_ten_toDigits, Nat.ofDigitChars_replicate_zero] at h
  rwa [Nat.mul_comm n, Nat.mul_comm _ 10]

theorem plainForm_take_drop {k : Nat} (hk : 0 < k) (hlen : (Nat.toDigits 10 n).length ≤ 28) :
    PlainForm ((Nat.toDigits 10 n).take k ++ '.' :: (Nat.toDigits 10 n).drop k) n
      ((Nat.toDigits 10 n).length - k) := by
  have h := @PlainForm.fraction ((Nat.toDigits 10 n).take k) ((Nat.toDigits 10 n).drop k)
    ?_ ?_ ?_ ?_
  · rwa [List.take_append_drop, Nat.ofDigitChars_ten_toDigits, List.length_drop] at h
  · rw [Ne, List.take_eq_nil_iff]
    exact fun h => h.elim (by omega) Nat.toDigits_ne_nil
  · rw [List.take_append_drop]
    exact isDigit_of_mem_toDigits n
  · rw [List.length_take]
    omega
  · rw [List.length_drop]
    omega

variable {e leading : Int}

theorem exists_plainForm_positional (hlen : (Nat.toDigits 10 n).length ≤ 17)
    (hleading : leading = e + (Nat.toDigits 10 n).length - 1) (hlow : -5 ≤ leading)
    (hhigh : leading ≤ 15) : ∃ mantissa scale,
      PlainForm (positional (Nat.toDigits 10 n) leading).toList mantissa scale ∧
      mantissa < 2 ^ 96 ∧ scale ≤ 28 ∧ (mantissa : ℚ) / 10 ^ scale = n * 10 ^ e := by
  have hpos := @Nat.length_toDigits_pos 10 n
  have hlt : n < 10 ^ 17 := (length_toDigits_le_iff (by decide)).1 hlen
  have hneg : ∀ k : Nat, e = -k → (n : ℚ) / 10 ^ k = n * 10 ^ e := fun k hk => by
    rw [hk, zpow_neg, zpow_natCast, div_eq_mul_inv]
  unfold positional
  simp only
  split_ifs with hbelow hshort
  · have h := plainForm_zeros_toDigits (n := n) (k := (-leading - 1).toNat) (by omega)
    refine ⟨n, (-leading - 1).toNat + (Nat.toDigits 10 n).length, ?_, by omega, by omega,
      hneg _ (by omega)⟩
    simpa [zeros] using h
  · obtain ⟨k, rfl⟩ : ∃ k : Nat, e = k := ⟨e.toNat, by omega⟩
    have hk : (leading + 1).toNat - (Nat.toDigits 10 n).length = k := by omega
    have h := plainForm_toDigits_zeros (n := n) (k := k) (by omega)
    have hwhole : n * 10 ^ k < 10 ^ 16 := by
      calc
        _ < 10 ^ (Nat.toDigits 10 n).length * 10 ^ k :=
          Nat.mul_lt_mul_of_pos_right ((length_toDigits_le_iff hpos).1 le_rfl)
            (Nat.pow_pos (by decide))
        _ = 10 ^ ((Nat.toDigits 10 n).length + k) := (Nat.pow_add ..).symm
        _ ≤ 10 ^ 16 := Nat.pow_le_pow_right (by decide) (by omega)
    refine ⟨n * 10 ^ k * 10, 1, ?_, by omega, by decide, ?_⟩
    · simpa [zeros, hk] using h
    · rw [zpow_natCast]
      push_cast
      ring
  · have h := plainForm_take_drop (n := n) (k := (leading + 1).toNat) (by omega) (by omega)
    refine ⟨n, (Nat.toDigits 10 n).length - (leading + 1).toNat, ?_, by omega, by omega,
      hneg _ (by omega)⟩
    simpa using h

/-- What scientific form puts before the exponent mark. -/
theorem exists_toList_scientific (hlen : (Nat.toDigits 10 n).length ≤ 28) (leading : Int) :
    ∃ text, PlainForm text n ((Nat.toDigits 10 n).length - 1) ∧
      (scientific (Nat.toDigits 10 n) leading).toList =
        text ++ 'e' :: (if leading < 0 then '-' else '+') :: Nat.toDigits 10 leading.natAbs := by
  have hpos := @Nat.length_toDigits_pos 10 n
  unfold scientific
  by_cases hone : (Nat.toDigits 10 n).length ≤ 1
  · refine ⟨Nat.toDigits 10 n, ?_, ?_⟩
    · have h := plainForm_toDigits hlen
      rwa [show (0 : Nat) = (Nat.toDigits 10 n).length - 1 by omega] at h
    · rw [if_pos hone, List.take_of_length_le hone]
      split <;> simp
  · refine ⟨_, plainForm_take_drop (by decide) hlen, ?_⟩
    rw [if_neg hone]
    split <;> simp

/-- The leading digit's place tells the powers of ten around a decimal. -/
theorem ten_zpow_leading_bounds (hn : 0 < n)
    (hleading : leading = e + (Nat.toDigits 10 n).length - 1) :
    (10 : ℚ) ^ leading ≤ n * 10 ^ e ∧ (n : ℚ) * 10 ^ e < 10 ^ (leading + 1) := by
  have hpos := @Nat.length_toDigits_pos 10 n
  obtain ⟨hle, hlt⟩ := ten_pow_length_toDigits_bounds hn
  have hpow : (0 : ℚ) < 10 ^ e := by positivity
  constructor
  · rw [show leading = ((Nat.toDigits 10 n).length - 1 : ℕ) + e by omega, zpow_add₀ (by norm_num),
      zpow_natCast]
    exact mul_le_mul_of_nonneg_right (by exact_mod_cast hle) hpow.le
  · rw [show leading + 1 = ((Nat.toDigits 10 n).length : ℤ) + e by omega,
      zpow_add₀ (by norm_num), zpow_natCast]
    exact mul_lt_mul_of_pos_right (by exact_mod_cast hlt) hpow

theorem ten_zpow_neg_eq : (10 : ℚ) ^ (-28 : ℤ) = 1 / 10 ^ 28 := by
  norm_num

theorem ten_zpow_le {a b : ℤ} (h : a ≤ b) : (10 : ℚ) ^ a ≤ 10 ^ b :=
  zpow_le_zpow_right₀ (by norm_num) h

section
variable {negative : Bool} {s : String} (hn : 0 < n) (hlen : (Nat.toDigits 10 n).length ≤ 17)
  (hleading : leading = e + (Nat.toDigits 10 n).length - 1)
  (hs : s.toList = sign negative ++ (scientific (Nat.toDigits 10 n) leading).toList)
include hn hlen hleading hs

theorem map_key_ofText?_of_neg (hneg : leading < 0) :
    (Decimal.ofText? s).map Decimal.key = heldKey negative (n * 10 ^ e) := by
  obtain ⟨hlow, hhigh⟩ := ten_zpow_leading_bounds hn hleading
  have hpos := @Nat.length_toDigits_pos 10 n
  have hbase : n < 2 ^ 96 := ((length_toDigits_le_iff (by decide)).1 hlen).trans (by decide)
  obtain ⟨text, h, htext⟩ := exists_toList_scientific (n := n) (by omega) leading
  rw [htext, ← List.append_assoc, if_pos hneg] at hs
  rw [h.ofText?_minus hbase hs]
  refine Decimal.map_key_shiftLeft? hbase (by omega) ?_ ?_ ?_ ?_
  · rw [div_div, ← pow_add, div_eq_mul_inv, ← zpow_natCast, ← zpow_neg,
      show -(((Nat.toDigits 10 n).length - 1 + leading.natAbs : ℕ) : ℤ) = e by omega]
  · intro hplaces
    rw [← ten_zpow_neg_eq]
    exact (ten_zpow_le (by omega)).trans hlow
  · calc
      _ < (10 : ℚ) ^ (leading + 1) := hhigh
      _ ≤ 10 ^ (0 : ℤ) := ten_zpow_le (by omega)
      _ ≤ 2 ^ 96 := by norm_num
  · rintro hplaces (hzero | ⟨hge, -⟩)
    · have : (0 : ℚ) < 10 ^ leading := by positivity
      linarith
    · rw [← ten_zpow_neg_eq] at hge
      have := hhigh.trans_le (ten_zpow_le (by omega : leading + 1 ≤ -28))
      linarith

theorem map_key_ofText?_of_large (hlarge : 15 < leading) :
    (Decimal.ofText? s).map Decimal.key = heldKey negative (n * 10 ^ e) := by
  obtain ⟨hlow, -⟩ := ten_zpow_leading_bounds hn hleading
  have hpos := @Nat.length_toDigits_pos 10 n
  have hbase : n < 2 ^ 96 := ((length_toDigits_le_iff (by decide)).1 hlen).trans (by decide)
  obtain ⟨text, h, htext⟩ := exists_toList_scientific (n := n) (by omega) leading
  rw [htext, ← List.append_assoc, if_neg (by omega)] at hs
  rw [h.ofText?_plus hbase hs]
  refine Decimal.map_key_shiftRight? hbase (by omega) (by omega) ?_ ?_ ?_
  · rw [← zpow_natCast,
      show ((leading.natAbs - ((Nat.toDigits 10 n).length - 1) : ℕ) : ℤ) = e by omega]
  · rw [← ten_zpow_neg_eq]
    exact (ten_zpow_le (by omega)).trans hlow
  · rintro hplaces (hzero | ⟨-, hlt⟩)
    · have : (0 : ℚ) < 10 ^ leading := by positivity
      linarith
    · have hbig : (2 : ℚ) ^ 96 ≤ 10 ^ (29 : ℤ) := by norm_num
      have := ten_zpow_le (by omega : 29 ≤ leading)
      linarith

end

/-- The text of a decimal that is not too long is read as its value. -/
theorem Decimals.map_key_ofText? {d : Decimals} {negative : Bool} {s : String}
    (hpos : 0 < (stripZeros d.digits d.exponent).digits)
    (hlt : (stripZeros d.digits d.exponent).digits < 10 ^ 17)
    (hs : s.toList = sign negative ++ d.text.toList) :
    (Decimal.ofText? s).map Decimal.key = heldKey negative d.value := by
  have hvalue := value_stripZeros d.digits d.exponent
  unfold Decimals.text at hs
  simp only [Nat.toString_eq_repr, Nat.toList_repr] at hs
  unfold Decimals.value at hvalue ⊢
  rw [← hvalue]
  generalize (stripZeros d.digits d.exponent).digits = n at *
  generalize (stripZeros d.digits d.exponent).exponent = e at *
  have hlen : (Nat.toDigits 10 n).length ≤ 17 := (length_toDigits_le_iff (by decide)).2 hlt
  split_ifs at hs with hplain
  · obtain ⟨mantissa, scale, h, hmantissa, hscale, hq⟩ :=
      exists_plainForm_positional hlen rfl hplain.1 hplain.2
    exact h.map_key_ofText? hmantissa hscale hq hs
  rcases lt_or_ge (e + (Nat.toDigits 10 n).length - 1) 0 with hneg | hnonneg
  · exact map_key_ofText?_of_neg hpos hlen rfl hs hneg
  · exact map_key_ofText?_of_large hpos hlen rfl hs (by omega)

end

end Double

namespace Number

/-- The sign of a number, which a zero may have as well. -/
def isNegative : Number → Bool
  | integer n _ => decide (n < 0)
  | real x => x.negative

/-- The amount that the number's text spells behind the sign. -/
def amount : Number → ℚ
  | integer n _ => n.natAbs
  | real x => if x.magnitude = 0 then 0 else (Double.shortest x.magnitude).value

theorem toList_toString (n : Int) :
    (toString n).toList = sign (decide (n < 0)) ++ Nat.toDigits 10 n.natAbs := by
  cases n with
  | ofNat n =>
    rw [show toString (Int.ofNat n) = n.repr from rfl, decide_eq_false (by simp)]
    simp [sign]
  | negSucc n =>
    rw [show toString (Int.negSucc n) = "-" ++ (n + 1).repr from rfl,
      decide_eq_true (Int.negSucc_lt_zero n)]
    simp [sign]

/-- A number is taken as the decimal that holds its amount, and only if there is one. -/
theorem map_key_decimal? (x : Number) :
    x.decimal?.map Decimal.key = heldKey x.isNegative x.amount := by
  unfold decimal?
  cases x with
  | integer n inRange =>
    have hlt : n.natAbs < 10 ^ 20 := by
      have := inRange.1
      have := inRange.2
      simp only [Nat.pow_eq] at *
      omega
    have hlen : (Nat.toDigits 10 n.natAbs).length ≤ 28 :=
      (Double.length_toDigits_le_iff (by decide)).2 (hlt.trans (by decide))
    exact (Double.plainForm_toDigits hlen).map_key_ofText? (hlt.trans (by decide)) (by decide)
      (by simp [amount]) (toList_toString n)
  | real x =>
    have hsign : x.text.toList = sign x.negative ++
        (if x.magnitude = 0 then "0.0" else (Double.shortest x.magnitude).text).toList := by
      unfold Double.text sign
      cases x.negative <;> simp
    simp only [isNegative, amount, text]
    split_ifs at hsign ⊢ with hzero
    · exact (Double.plainForm_toDigits_zeros (n := 0) (k := 0) (by decide)).map_key_ofText?
        (by decide) (by decide) (by simp) hsign
    · obtain ⟨hpos, hlt⟩ := Double.digits_stripZeros_shortest (Nat.pos_of_ne_zero hzero)
      exact Double.Decimals.map_key_ofText? hpos hlt hsign

end Number

end TextQuery
