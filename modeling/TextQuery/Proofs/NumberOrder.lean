import Mathlib.Order.Compare
import TextQuery.Json.Basic
import TextQuery.Proofs.NumberText

/-!
# The order of numbers

Numbers are compared in two ways, as decimals or as doubles, by what the two of them allow. Still
there is one place for each number on the rational line, its amount in units of `10^-28`, rounded if
decimals can hold it, and numbers compare as their places do. The doubles decide only where one of
the two cannot be held, and there rounding to doubles keeps the two amounts apart.
-/
namespace TextQuery

open Decimal (Holds rounded heldKey)

section
variable {α β : Type} [LinearOrder α] [LinearOrder β] {a b : α} {c d : β}

theorem cmp_congr (hlt : a < b ↔ c < d) (hgt : b < a ↔ d < c) : cmp a b = cmp c d := by
  unfold cmp cmpUsing
  exact if_congr hlt rfl (if_congr hgt rfl rfl)

theorem cmp_congr_of_lt (h : a < b) (h' : c < d) : cmp a b = cmp c d := by
  rw [(cmp_eq_lt_iff a b).2 h, (cmp_eq_lt_iff c d).2 h']

theorem cmp_congr_of_gt (h : b < a) (h' : d < c) : cmp a b = cmp c d := by
  rw [(cmp_eq_gt_iff a b).2 h, (cmp_eq_gt_iff c d).2 h']

end

theorem neg_lt_iff_of_nonneg {p q : ℚ} (hp : 0 ≤ p) (hq : 0 ≤ q) : -q < p ↔ 0 < p ∨ 0 < q := by
  constructor
  · intro h
    by_contra hnot
    obtain ⟨hp', hq'⟩ := not_or.1 hnot
    linarith
  · rintro (h | h) <;> linarith

/-- With the same order of the amounts and the same zeros, the order with signs is the same. -/
theorem cmp_signed {s t : Bool} {m n : Nat} {p q : ℚ} (hp : 0 ≤ p) (hq : 0 ≤ q)
    (h : cmp m n = cmp p q) (hm : m = 0 ↔ p = 0) (hn : n = 0 ↔ q = 0) :
    cmp (signed s (m : ℤ)) (signed t (n : ℤ)) = cmp (signed s p) (signed t q) := by
  have hlt := lt_iff_lt_of_cmp_eq_cmp h
  have hgt := lt_iff_lt_of_cmp_eq_cmp (cmp_eq_cmp_symm.1 h)
  have hm' : 0 < m ↔ 0 < p := by rw [Nat.pos_iff_ne_zero, hp.lt_iff_ne', Ne, Ne, hm]
  have hn' : 0 < n ↔ 0 < q := by rw [Nat.pos_iff_ne_zero, hq.lt_iff_ne', Ne, Ne, hn]
  cases s with
  | false =>
    cases t with
    | false =>
      change cmp (m : ℤ) n = cmp p q
      exact cmp_congr (by rw [Nat.cast_lt, hlt]) (by rw [Nat.cast_lt, hgt])
    | true =>
      change cmp (m : ℤ) (-n) = cmp p (-q)
      refine cmp_congr (iff_of_false (by omega) (by linarith)) ?_
      rw [neg_lt_iff_of_nonneg hp hq, ← hm', ← hn']
      omega
  | true =>
    cases t with
    | false =>
      change cmp (-m : ℤ) n = cmp (-p) q
      refine cmp_congr ?_ (iff_of_false (by omega) (by linarith))
      rw [neg_lt_iff_of_nonneg hq hp, ← hm', ← hn']
      omega
    | true =>
      change cmp (-m : ℤ) (-n) = cmp (-p) (-q)
      exact cmp_congr (by rw [neg_lt_neg_iff, neg_lt_neg_iff, Nat.cast_lt, hgt])
        (by rw [neg_lt_neg_iff, neg_lt_neg_iff, Nat.cast_lt, hlt])

theorem natAbs_signed (s : Bool) (n : Nat) : (signed s (n : ℤ)).natAbs = n := by
  cases s <;> simp [signed]

namespace Decimal

theorem natAbs_key_lt (x : Decimal) : x.key.natAbs < 2 ^ 96 * 10 ^ 28 := by
  have hkey : x.key = signed x.negative ((x.mantissa * 10 ^ (28 - x.scale) : ℕ) : ℤ) := by
    simp [key, signed]
  rw [hkey, natAbs_signed]
  calc
    _ ≤ x.mantissa * 10 ^ 28 :=
      Nat.mul_le_mul_left _ (Nat.pow_le_pow_right (by decide) (Nat.sub_le 28 _))
    _ < 2 ^ 96 * 10 ^ 28 := Nat.mul_lt_mul_of_pos_right x.mantissa_lt (Nat.pow_pos (by decide))

/-- The place of an amount, in units of `10^-28`. -/
def place (q : ℚ) : ℚ :=
  if Holds q then rounded q else q * 10 ^ 28

theorem rounded_pos {q : ℚ} (h : 1 / 10 ^ 28 ≤ q) : 1 ≤ rounded q := by
  rw [rounded, Nat.one_le_floor_iff]
  have := (div_le_iff₀ (by positivity)).1 h
  linarith

theorem rounded_zero : rounded 0 = 0 :=
  rounded_eq (by simp)

theorem place_nonneg {q : ℚ} (hq : 0 ≤ q) : 0 ≤ place q := by
  unfold place
  split_ifs <;> positivity

theorem place_eq_zero_iff {q : ℚ} : place q = 0 ↔ q = 0 := by
  unfold place
  split_ifs with h
  · rw [Nat.cast_eq_zero]
    constructor
    · intro hzero
      refine h.resolve_right fun hlow => ?_
      have := rounded_pos hlow.1
      omega
    · rintro rfl
      exact rounded_zero
  · simp

theorem place_of_holds {q : ℚ} (h : Holds q) : place q = rounded q :=
  if_pos h

/-- Where no decimal holds an amount, it keeps its own place among those that are held. -/
theorem place_of_not_holds {q : ℚ} (h : ¬ Holds q) : place q = q * 10 ^ 28 :=
  if_neg h

theorem pos_of_not_holds {q : ℚ} (hq : 0 ≤ q) (h : ¬ Holds q) : 0 < q :=
  hq.lt_of_ne fun h0 => h (.inl h0.symm)

/-- What decimals cannot hold is too small or too large. -/
theorem lt_or_le_of_not_holds {q : ℚ} (h : ¬ Holds q) : q < 1 / 10 ^ 28 ∨ 2 ^ 96 ≤ q := by
  by_contra hnot
  obtain ⟨hlow, hhigh⟩ := not_or.1 hnot
  exact h (.inr ⟨not_lt.1 hlow, not_le.1 hhigh⟩)

end Decimal

namespace Number

/-- The magnitude of the double nearest to a number. -/
def magnitude : Number → Nat
  | integer n _ => Double.ofNat n.natAbs
  | real x => x.magnitude

theorem doubleKey_eq (x : Number) : x.doubleKey = signed x.isNegative (x.magnitude : ℤ) := by
  cases x with
  | integer n inRange => simp [doubleKey, Double.keyOfInt, signed, isNegative, magnitude]
  | real x => rfl

/-- A number is rounded to its magnitude as a decimal of its amount is. -/
theorem exists_decimals (x : Number) :
    ∃ d : Double.Decimals, d.value = x.amount ∧ d.nearest = x.magnitude := by
  cases x with
  | integer n inRange =>
    refine ⟨⟨n.natAbs, 0⟩, Double.Decimals.value_whole _, ?_⟩
    rw [Double.Decimals.nearest_mk, Double.nearestDecimal, magnitude, Double.ofNat]
    simp
  | real x =>
    simp only [amount, magnitude]
    split_ifs with hzero
    · refine ⟨⟨0, 0⟩, ?_, ?_⟩
      · rw [Double.Decimals.value_whole, Nat.cast_zero]
      · rw [hzero, Double.Decimals.nearest_zero]
    · exact ⟨_, rfl, (Double.nearest_shortest (Nat.pos_of_ne_zero hzero)).1⟩

/-- Rounding to doubles keeps the order, but for what becomes alike. -/
theorem magnitude_mono {x y : Number} (h : x.amount ≤ y.amount) : x.magnitude ≤ y.magnitude := by
  obtain ⟨d, hvalue, hnearest⟩ := x.exists_decimals
  obtain ⟨d', hvalue', hnearest'⟩ := y.exists_decimals
  rw [← hnearest, ← hnearest']
  exact Double.Decimals.nearest_mono (by rwa [hvalue, hvalue'])

theorem amount_nonneg (x : Number) : 0 ≤ x.amount := by
  obtain ⟨d, hvalue, -⟩ := x.exists_decimals
  rw [← hvalue, Double.Decimals.value]
  positivity

theorem magnitude_le_nearest {x : Number} {d : Double.Decimals} (h : x.amount ≤ d.value) :
    x.magnitude ≤ d.nearest := by
  obtain ⟨d', hvalue, hnearest⟩ := x.exists_decimals
  rw [← hnearest]
  exact Double.Decimals.nearest_mono (by rwa [hvalue])

theorem nearest_le_magnitude {x : Number} {d : Double.Decimals} (h : d.value ≤ x.amount) :
    d.nearest ≤ x.magnitude := by
  obtain ⟨d', hvalue, hnearest⟩ := x.exists_decimals
  rw [← hnearest]
  exact Double.Decimals.nearest_mono (by rwa [hvalue])

section
variable {n : Int} (inRange : -Nat.pow 2 63 ≤ n ∧ n < Nat.pow 2 64)

theorem amount_integer_cases :
    (integer n inRange).amount = 0 ∨ 1 ≤ (integer n inRange).amount := by
  rcases Nat.eq_zero_or_pos n.natAbs with h0 | hpos
  · exact .inl (by rw [amount, h0, Nat.cast_zero])
  · exact .inr (by rw [amount]; exact_mod_cast hpos)

theorem amount_integer_le : (integer n inRange).amount ≤ 2 ^ 64 := by
  have hle : n.natAbs ≤ 2 ^ 64 := by
    have := inRange.1
    have := inRange.2
    simp only [Nat.pow_eq] at *
    omega
  rw [amount]
  exact_mod_cast hle

theorem holds_amount_integer : Holds (integer n inRange).amount := by
  refine (amount_integer_cases inRange).imp_right fun hone => ⟨?_, ?_⟩
  · exact le_trans (by norm_num) hone
  · exact (amount_integer_le inRange).trans_lt (by norm_num)

end

theorem magnitude_eq_zero_iff {x : Number} : x.magnitude = 0 ↔ x.amount = 0 := by
  constructor
  · intro hzero
    cases x with
    | integer n inRange =>
      refine (amount_integer_cases inRange).resolve_right fun hone => ?_
      have hle := nearest_le_magnitude (d := ⟨1, 0⟩)
        (by rwa [Double.Decimals.value_whole, Nat.cast_one])
      have hpos : 0 < Double.Decimals.nearest ⟨1, 0⟩ := by decide +kernel
      omega
    | real x => simp_all [magnitude, amount]
  · intro hzero
    have hle := magnitude_le_nearest (x := x) (d := ⟨0, 0⟩)
      (by rw [hzero, Double.Decimals.value_whole, Nat.cast_zero])
    rw [Double.Decimals.nearest_zero] at hle
    omega

/-- The amount of a double is its own, so that it can be told from the others'. -/
theorem magnitude_real_lt_iff {x y : Double} :
    (real x).magnitude < (real y).magnitude ↔ (real x).amount < (real y).amount := by
  constructor
  · intro h
    by_contra hle
    have := magnitude_mono (not_lt.1 hle)
    omega
  · intro h
    refine lt_of_le_of_ne (magnitude_mono h.le) fun heq => ?_
    simp only [magnitude] at heq
    simp only [amount, heq] at h
    exact lt_irrefl _ h

/-- Rounding to doubles keeps an amount that decimals cannot hold apart from all others. -/
theorem cmp_magnitude_of_not_holds {x y : Number} (hx : ¬ Holds x.amount) :
    cmp x.magnitude y.magnitude = cmp x.amount y.amount := by
  cases x with
  | integer n inRange => exact absurd (holds_amount_integer inRange) hx
  | real x =>
    cases y with
    | real y => exact cmp_congr magnitude_real_lt_iff magnitude_real_lt_iff
    | integer n inRange =>
      rcases Decimal.lt_or_le_of_not_holds hx with htiny | hhuge
      · rcases amount_integer_cases inRange with hzero | hone
        · have hpos := Decimal.pos_of_not_holds (amount_nonneg _) hx
          have hmag := Nat.pos_of_ne_zero (mt magnitude_eq_zero_iff.1 hpos.ne')
          exact cmp_congr_of_gt (by rwa [magnitude_eq_zero_iff.2 hzero]) (by rwa [hzero])
        · have hle := magnitude_le_nearest (x := real x) (d := ⟨1, -28⟩)
            (by simpa [Double.Decimals.value] using htiny.le)
          have hge := nearest_le_magnitude (x := integer n inRange) (d := ⟨1, 0⟩)
            (by rwa [Double.Decimals.value_whole, Nat.cast_one])
          have hlt : Double.Decimals.nearest ⟨1, -28⟩ < Double.Decimals.nearest ⟨1, 0⟩ := by
            decide +kernel
          have hunit : (1 : ℚ) / 10 ^ 28 < 1 := by norm_num
          exact cmp_congr_of_lt (by omega) (by linarith)
      · have hle := magnitude_le_nearest (x := integer n inRange) (d := ⟨2 ^ 64, 0⟩)
          (by rw [Double.Decimals.value_whole]; exact_mod_cast amount_integer_le inRange)
        have hge := nearest_le_magnitude (x := real x) (d := ⟨2 ^ 96, 0⟩)
          (by rw [Double.Decimals.value_whole]; exact_mod_cast hhuge)
        have hlt : Double.Decimals.nearest ⟨2 ^ 64, 0⟩ < Double.Decimals.nearest ⟨2 ^ 96, 0⟩ := by
          decide +kernel
        have hinteger := amount_integer_le inRange
        have hbound : (2 : ℚ) ^ 64 < 2 ^ 96 := by norm_num
        exact cmp_congr_of_gt (by omega) (by linarith)

/-- A decimal is there just if the amount is held, and then its key is the rounded amount. -/
theorem decimal?_eq_some {x : Number} {d : Decimal} (h : x.decimal? = some d) :
    Holds x.amount ∧ d.key = signed x.isNegative (rounded x.amount : ℤ) := by
  have hkey := x.map_key_decimal?
  rw [h, Option.map_some, heldKey] at hkey
  split_ifs at hkey with hholds
  exact ⟨hholds, Option.some.inj hkey⟩

theorem decimal?_eq_none {x : Number} (h : x.decimal? = none) : ¬ Holds x.amount := by
  intro hholds
  have hkey := x.map_key_decimal?
  rw [h, Option.map_none, heldKey, if_pos hholds] at hkey
  cases hkey

theorem rounded_amount_lt {x : Number} (h : Holds x.amount) :
    rounded x.amount < 2 ^ 96 * 10 ^ 28 := by
  cases hd : x.decimal? with
  | none => exact absurd h (decimal?_eq_none hd)
  | some d =>
    have hlt := d.natAbs_key_lt
    rwa [(decimal?_eq_some hd).2, natAbs_signed] at hlt

/-- Rounding to decimals keeps it apart, too. -/
theorem cmp_place_of_not_holds {x y : Number} (hx : ¬ Holds x.amount) :
    cmp (Decimal.place x.amount) (Decimal.place y.amount) = cmp x.amount y.amount := by
  have hunit : (0 : ℚ) < 10 ^ 28 := by positivity
  rw [Decimal.place_of_not_holds hx]
  by_cases hy : Holds y.amount
  · rw [Decimal.place_of_holds hy]
    rcases Decimal.lt_or_le_of_not_holds hx with htiny | hhuge
    · rcases hy with hzero | ⟨hlow, -⟩
      · have hpos := Decimal.pos_of_not_holds (amount_nonneg x) hx
        rw [hzero, Decimal.rounded_zero, Nat.cast_zero]
        exact cmp_congr_of_gt (mul_pos hpos hunit) hpos
      · have hsmall := (lt_div_iff₀ hunit).1 htiny
        have hone : (1 : ℚ) ≤ rounded y.amount := by exact_mod_cast Decimal.rounded_pos hlow
        exact cmp_congr_of_lt (hsmall.trans_le hone) (htiny.trans_le hlow)
    · have hlt : (rounded y.amount : ℚ) < 2 ^ 96 * 10 ^ 28 := by
        exact_mod_cast rounded_amount_lt hy
      have hge := mul_le_mul_of_nonneg_right hhuge hunit.le
      have hamount : y.amount < 2 ^ 96 := by
        rcases hy with hzero | ⟨-, hhigh⟩
        · rw [hzero]
          positivity
        · exact hhigh
      exact cmp_congr_of_gt (hlt.trans_le hge) (hamount.trans_le hhuge)
  · rw [Decimal.place_of_not_holds hy]
    exact cmp_congr (mul_lt_mul_iff_left₀ hunit) (mul_lt_mul_iff_left₀ hunit)

/-- The place of a number among all numbers. -/
def place (x : Number) : ℚ :=
  signed x.isNegative (Decimal.place x.amount)

/-- Two numbers one of which no decimal can hold compare as doubles as they do by their places. -/
theorem cmp_doubleKey {x y : Number} (h : ¬ Holds x.amount ∨ ¬ Holds y.amount) :
    cmp x.doubleKey y.doubleKey = cmp x.place y.place := by
  have hzero : ∀ z : Number, z.magnitude = 0 ↔ Decimal.place z.amount = 0 := fun z => by
    rw [magnitude_eq_zero_iff, Decimal.place_eq_zero_iff]
  have hkeep : cmp x.magnitude y.magnitude =
      cmp (Decimal.place x.amount) (Decimal.place y.amount) := by
    rcases h with hx | hy
    · rw [cmp_magnitude_of_not_holds hx, cmp_place_of_not_holds hx]
    · rw [cmp_eq_cmp_symm, cmp_magnitude_of_not_holds hy, cmp_place_of_not_holds hy]
  rw [doubleKey_eq, doubleKey_eq]
  exact cmp_signed (Decimal.place_nonneg (amount_nonneg x)) (Decimal.place_nonneg (amount_nonneg y))
    hkeep (hzero x) (hzero y)

/-- Numbers compare as their places do. -/
theorem compare_eq_cmp_place (x y : Number) : x.compare y = cmp x.place y.place := by
  unfold compare
  cases hx : x.decimal? with
  | none =>
    rw [← cmp_doubleKey (.inl (decimal?_eq_none hx))]
    exact (cmp_eq_compare _ _).symm
  | some d =>
    cases hy : y.decimal? with
    | none =>
      rw [← cmp_doubleKey (.inr (decimal?_eq_none hy))]
      exact (cmp_eq_compare _ _).symm
    | some d' =>
      obtain ⟨hholds, hkey⟩ := decimal?_eq_some hx
      obtain ⟨hholds', hkey'⟩ := decimal?_eq_some hy
      rw [place, place, Decimal.place_of_holds hholds, Decimal.place_of_holds hholds']
      change Ord.compare d.key d'.key = _
      rw [hkey, hkey', ← cmp_eq_compare]
      exact cmp_signed (Nat.cast_nonneg _) (Nat.cast_nonneg _)
        (Nat.strictMono_cast.cmp_map_eq _ _).symm Nat.cast_eq_zero.symm Nat.cast_eq_zero.symm

/-- The same double, but not the same decimal. -/
example :
    let a := real ⟨false, 0x4340000000000000, by decide⟩
    let b := integer 9007199254740993 (by decide)
    a.doubleKey = b.doubleKey ∧ a.compare b = .lt := by decide +kernel

end Number

end TextQuery
