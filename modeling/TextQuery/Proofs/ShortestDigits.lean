import Mathlib.Algebra.Order.Field.Power
import Mathlib.Algebra.Order.Field.Rat
import Mathlib.Tactic.FieldSimp
import Mathlib.Tactic.NormNum
import Mathlib.Tactic.Positivity
import TextQuery.Number.Shortest
import TextQuery.Proofs.Rounding

/-!
# The shortest digits of a double

Reading a decimal is monotone in its value. The decimals of seventeen digits lie closer together
than the doubles around them, so the one nearest to a double reads back as it. Hence the shortest
decimal of a double reads back too, and it never has more than seventeen digits.
-/
namespace TextQuery

section
variable {n : Nat}

theorem decimalLength_pos (n : Nat) : 0 < decimalLength n := by
  unfold decimalLength
  split <;> omega

theorem lt_pow_decimalLength (n : Nat) : n < 10 ^ decimalLength n := by
  induction n using decimalLength.induct with
  | case1 n h =>
    rw [decimalLength, if_pos h]
    exact h
  | case2 n h ih =>
    rw [decimalLength, if_neg h, Nat.pow_succ]
    omega

/-- The first digit alone makes a number as large as this power of ten. -/
theorem pow_decimalLength_le (hn : 0 < n) : 10 ^ (decimalLength n - 1) ≤ n := by
  induction n using decimalLength.induct with
  | case1 n h =>
    rw [decimalLength, if_pos h]
    exact hn
  | case2 n h ih =>
    have hle := ih (by omega)
    have hlen := decimalLength_pos (n / 10)
    rw [decimalLength, if_neg h, Nat.add_sub_cancel,
      show decimalLength (n / 10) = decimalLength (n / 10) - 1 + 1 by omega, Nat.pow_succ]
    omega

end

/-- A power of ten as a quotient of whole numbers, one of which is one. -/
theorem ten_zpow_eq_div (e : Int) : (10 : ℚ) ^ e = 10 ^ e.toNat / 10 ^ (-e).toNat := by
  obtain ⟨k, rfl | rfl⟩ := e.eq_nat_or_neg
  · simp
  · simp

namespace Double

theorem unitsOfOne_pos : 0 < unitsOfOne := by
  decide +kernel

/-- The value of a decimal. -/
def Decimals.value (d : Decimals) : ℚ :=
  d.digits * 10 ^ d.exponent

theorem Decimals.value_whole (n : Nat) : (Decimals.mk n 0).value = n := by
  rw [value, zpow_zero, mul_one]

/-- The magnitude that a decimal is read as. -/
def Decimals.nearest (d : Decimals) : Nat :=
  nearestDecimal d.digits d.exponent

theorem Decimals.nearest_mk (n : Nat) (e : Int) :
    (Decimals.mk n e).nearest = nearestDecimal n e := by
  rw [nearest]

theorem Decimals.nearest_mono {d d' : Decimals} (h : d.value ≤ d'.value) :
    d.nearest ≤ d'.nearest := by
  obtain ⟨n, e⟩ := d
  obtain ⟨n', e'⟩ := d'
  simp only [value, ten_zpow_eq_div] at h
  rw [← mul_div_assoc, ← mul_div_assoc, div_le_div_iff₀ (by positivity) (by positivity)] at h
  have hnat : n * 10 ^ e.toNat * 10 ^ (-e').toNat ≤ n' * 10 ^ e'.toNat * 10 ^ (-e).toNat := by
    exact_mod_cast h
  have hmul := Nat.mul_le_mul_right unitsOfOne hnat
  refine Double.nearest_mono (Nat.pow_pos (by decide)) (Nat.pow_pos (by decide)) ?_
  simp only [Nat.pow_eq]
  linarith

theorem Decimals.nearest_zero (e : Int) : (Decimals.mk 0 e).nearest = 0 :=
  nearest_eq_zero (Nat.pow_pos (by decide)) (by simp)

section
variable {m : Nat}

theorem units_pos (hm : 0 < m) : 0 < units m :=
  Nat.zero_lt_of_lt (strictMono_units hm)

/-- The powers of ten around a quotient, taken from the digits of a whole number that `p` places
to the left make of it. -/
theorem ten_zpow_decimalLength_bounds {n d p : Nat} (hd : 0 < d) (h : d ≤ n * Nat.pow 10 p) :
    (10 : ℚ) ^ ((decimalLength (n * Nat.pow 10 p / d) : ℤ) - (p + 1 : ℕ)) * d ≤ n ∧
      (n : ℚ) < 10 ^ ((decimalLength (n * Nat.pow 10 p / d) : ℤ) - p) * d := by
  rw [Nat.pow_eq] at *
  have hle := (Nat.le_div_iff_mul_le hd).1 (pow_decimalLength_le (Nat.div_pos h hd))
  have hlt := (Nat.div_lt_iff_lt_mul hd).1 (lt_pow_decimalLength (n * 10 ^ p / d))
  have hlen := decimalLength_pos (n * 10 ^ p / d)
  have hexp : (decimalLength (n * 10 ^ p / d) : ℤ) - (p + 1 : ℕ) =
      (decimalLength (n * 10 ^ p / d) - 1 : ℕ) - (p : ℤ) := by
    omega
  constructor
  · rw [hexp, zpow_sub₀ (by norm_num), zpow_natCast, zpow_natCast, div_mul_eq_mul_div,
      div_le_iff₀ (by positivity)]
    exact_mod_cast hle
  · rw [zpow_sub₀ (by norm_num), zpow_natCast, zpow_natCast, div_mul_eq_mul_div,
      lt_div_iff₀ (by positivity)]
    exact_mod_cast hlt

theorem ten_zpow_leadingExponent_bounds (hm : 0 < m) :
    (10 : ℚ) ^ leadingExponent m * unitsOfOne ≤ units m ∧
      (units m : ℚ) < 10 ^ (leadingExponent m + 1) * unitsOfOne := by
  have h400 : unitsOfOne ≤ Nat.pow 10 400 := by decide +kernel
  have hle : unitsOfOne ≤ units m * Nat.pow 10 400 :=
    h400.trans (Nat.le_mul_of_pos_left _ (units_pos hm))
  have h := ten_zpow_decimalLength_bounds unitsOfOne_pos hle
  refine ⟨h.1, ?_⟩
  rw [show leadingExponent m + 1 = (decimalLength (units m * Nat.pow 10 400 / unitsOfOne) : ℤ) -
    (400 : ℕ) by unfold leadingExponent; omega]
  exact h.2

/-- Where the grid is finer by more than sixteen digits than the value, the grid point next to the
value reads back as it. The grid is finer than the doubles are, also on the side where they lie
closer together. -/
theorem nearest_gridPoint (hm : 0 < m) {e : Int} (he : (10 : ℚ) ^ (e + 16) * unitsOfOne ≤ units m) :
    nearestDecimal (roundHalfEven (units m * Nat.pow 10 (-e).toNat)
      (unitsOfOne * Nat.pow 10 e.toNat)) e = m := by
  obtain ⟨k, rfl⟩ : ∃ k, m = k + 1 := ⟨m - 1, by omega⟩
  simp only [nearestDecimal, Nat.pow_eq]
  have hA : 0 < 10 ^ e.toNat := Nat.pow_pos (by decide)
  have hB : 0 < 10 ^ (-e).toNat := Nat.pow_pos (by decide)
  have hstep : 10 ^ e.toNat * 10 ^ 16 * unitsOfOne ≤ units (k + 1) * 10 ^ (-e).toNat := by
    rw [zpow_add₀ (by norm_num), ten_zpow_eq_div, div_mul_eq_mul_div, div_mul_eq_mul_div,
      div_le_iff₀ (by positivity)] at he
    exact_mod_cast he
  generalize 10 ^ e.toNat = A at *
  generalize 10 ^ (-e).toNat = B at *
  have hfine : unitsOfOne * A < gap k * B := by
    have hprecise := Nat.mul_le_mul_right B (units_succ_le k)
    have hpos : 0 < gap k * B := Nat.mul_pos (gap_pos k) hB
    have hdigits : 2 ^ 53 * (gap k * B) < 10 ^ 16 * (gap k * B) :=
      Nat.mul_lt_mul_of_pos_right (by decide) hpos
    have : 10 ^ 16 * (unitsOfOne * A) < 10 ^ 16 * (gap k * B) := by linarith
    exact Nat.lt_of_mul_lt_mul_left this
  have hpos : 0 < unitsOfOne * A := Nat.mul_pos unitsOfOne_pos hA
  have hle := roundHalfEven_le (n := units (k + 1) * B) hpos
  have hge := le_roundHalfEven (n := units (k + 1) * B) hpos
  have hbefore := congrArg (· * B) (units_succ k)
  have hafter := congrArg (· * B) (units_succ (k + 1))
  have hgap := Nat.mul_le_mul_right B (gap_mono (Nat.le_succ k))
  simp only [Nat.add_mul] at hbefore hafter
  refine nearest_eq_of_between hB ?_ ?_
  · rw [Nat.add_mul]
    linarith
  · rw [Nat.add_mul]
    linarith

theorem exists_neighbours_eq (m : Nat) (e : Int) : ∃ rest, neighbours m e =
    roundHalfEven (units m * Nat.pow 10 (-e).toNat) (unitsOfOne * Nat.pow 10 e.toNat) :: rest := by
  unfold neighbours
  simp only
  split_ifs with h
  · exact ⟨_, by rw [h]⟩
  · refine ⟨_, congrArg (· :: _) ?_⟩
    unfold roundHalfEven at h ⊢
    simp only at h ⊢
    split_ifs at h ⊢ with hlow hhigh
    · exact absurd rfl h
    · rfl
    · omega

/-- The digits are not more than were asked for, but for a one with as many zeros. -/
theorem le_of_mem_neighbours (hm : 0 < m) {count digits : Nat}
    (h : digits ∈ neighbours m (leadingExponent m - count + 1)) : digits ≤ 10 ^ count := by
  have hbelow : units m * Nat.pow 10 (-(leadingExponent m - count + 1)).toNat /
      (unitsOfOne * Nat.pow 10 (leadingExponent m - count + 1).toNat) < 10 ^ count := by
    have hlt := (ten_zpow_leadingExponent_bounds hm).2
    rw [show leadingExponent m + 1 = leadingExponent m - count + 1 + count by omega,
      zpow_add₀ (by norm_num), ten_zpow_eq_div, zpow_natCast, div_mul_eq_mul_div,
      div_mul_eq_mul_div, lt_div_iff₀ (by positivity)] at hlt
    have hnat : units m * 10 ^ (-(leadingExponent m - count + 1)).toNat <
        10 ^ (leadingExponent m - count + 1).toNat * 10 ^ count * unitsOfOne := by
      exact_mod_cast hlt
    simp only [Nat.pow_eq]
    rw [Nat.div_lt_iff_lt_mul (Nat.mul_pos unitsOfOne_pos (Nat.pow_pos (by decide)))]
    linarith
  unfold neighbours at h
  simp only at h
  split_ifs at h <;> rcases List.mem_pair.1 h with rfl | rfl <;> omega

/-- Whatever number of digits is tried, a decimal is only given if it reads back. -/
theorem of_withDigits?_eq_some (hm : 0 < m) {count : Nat} {d : Decimals}
    (h : withDigits? m count = some d) : d.nearest = m ∧ d.digits ≤ 10 ^ count := by
  unfold withDigits? at h
  obtain ⟨digits, hfind, rfl⟩ := Option.map_eq_some_iff.1 h
  have hreads := List.find?_some hfind
  rw [Decimals.nearest_mk]
  exact ⟨beq_iff_eq.1 hreads, le_of_mem_neighbours hm (List.mem_of_find?_eq_some hfind)⟩

/-- Seventeen digits are always enough for a double. -/
theorem isSome_withDigits?_seventeen (hm : 0 < m) : (withDigits? m 17).isSome = true := by
  obtain ⟨rest, hrest⟩ := exists_neighbours_eq m (leadingExponent m - (17 : ℕ) + 1)
  have hreads := nearest_gridPoint hm (e := leadingExponent m - (17 : ℕ) + 1) (by
    have := (ten_zpow_leadingExponent_bounds hm).1
    rwa [show leadingExponent m - (17 : ℕ) + 1 + 16 = leadingExponent m by omega])
  unfold withDigits?
  simp only [Option.isSome_map]
  rw [hrest, List.find?_cons_of_pos (by rw [hreads, beq_self_eq_true])]
  rfl

/-- The shortest decimal of a double reads back as it, and is not long. -/
theorem nearest_shortest (hm : 0 < m) :
    (shortest m).nearest = m ∧ (shortest m).digits ≤ 10 ^ 17 := by
  unfold shortest
  cases hfind : (List.range 17).findSome? fun i => withDigits? m (i + 1) with
  | none =>
    have hnone := List.findSome?_eq_none_iff.1 hfind 16 (by decide)
    have hsome := isSome_withDigits?_seventeen hm
    rw [hnone] at hsome
    cases hsome
  | some d =>
    obtain ⟨i, hi, hd⟩ := List.exists_of_findSome?_eq_some hfind
    obtain ⟨hreads, hle⟩ := of_withDigits?_eq_some hm hd
    have hi := List.mem_range.1 hi
    exact ⟨hreads, hle.trans (Nat.pow_le_pow_right (by decide) (by omega))⟩

theorem digits_shortest_pos (hm : 0 < m) : 0 < (shortest m).digits := by
  by_contra h
  have hzero : (shortest m).digits = 0 := by omega
  have hreads := (nearest_shortest hm).1
  rw [Decimals.nearest, hzero] at hreads
  have hnone := Decimals.nearest_zero (shortest m).exponent
  rw [Decimals.nearest_mk] at hnone
  omega

end

theorem value_stripZeros (n : Nat) (e : Int) :
    (stripZeros n e).value = (Decimals.mk n e).value := by
  induction n, e using stripZeros.induct with
  | case1 n e h => rw [stripZeros, if_pos h]
  | case2 n e h ih =>
    have hn : n = n / 10 * 10 := by omega
    rw [stripZeros, if_neg h, ih, Decimals.value, Decimals.value, zpow_add_one₀ (by norm_num)]
    conv_rhs => rw [hn]
    push_cast
    ring

theorem digits_stripZeros_le (n : Nat) (e : Int) : (stripZeros n e).digits ≤ n := by
  induction n, e using stripZeros.induct with
  | case1 n e h => rw [stripZeros, if_pos h]
  | case2 n e h ih =>
    rw [stripZeros, if_neg h]
    omega

theorem digits_stripZeros_mod {n : Nat} (hn : 0 < n) (e : Int) :
    (stripZeros n e).digits % 10 ≠ 0 := by
  induction n, e using stripZeros.induct with
  | case1 n e h =>
    rw [stripZeros, if_pos h]
    exact h.resolve_left (by omega)
  | case2 n e h ih =>
    rw [stripZeros, if_neg h]
    exact ih (by omega)

/-- What is left of the digits of a shortest decimal. -/
theorem digits_stripZeros_shortest {m : Nat} (hm : 0 < m) :
    0 < (stripZeros (shortest m).digits (shortest m).exponent).digits ∧
      (stripZeros (shortest m).digits (shortest m).exponent).digits < 10 ^ 17 := by
  have hmod := digits_stripZeros_mod (digits_shortest_pos hm) (shortest m).exponent
  have hle := (digits_stripZeros_le (shortest m).digits (shortest m).exponent).trans
    (nearest_shortest hm).2
  omega

end Double

end TextQuery
