import Mathlib.Data.Nat.Log
import Mathlib.Tactic.Linarith
import Mathlib.Tactic.Ring
import TextQuery.Number.Double

/-!
# Rounding to doubles

What rounding to the nearest double does is told by the midpoints between neighbouring values: the
result lies between two of them. A quotient that is itself a midpoint may go either way, but which
way depends on the quotient alone, and so rounding never reverses an order.
-/
namespace TextQuery

section
variable {n d : Nat}

theorem roundHalfEven_le (hd : 0 < d) : 2 * (d * roundHalfEven n d) ≤ 2 * n + d := by
  have hdiv := Nat.div_add_mod n d
  have hmod := Nat.mod_lt n hd
  unfold roundHalfEven
  simp only
  split_ifs with hlow hhigh
  · omega
  · rw [Nat.mul_add]
    omega
  · rcases Nat.mod_two_eq_zero_or_one (n / d) with he | he <;> rw [he, Nat.mul_add] <;> omega

theorem le_roundHalfEven (hd : 0 < d) : 2 * n ≤ 2 * (d * roundHalfEven n d) + d := by
  have hdiv := Nat.div_add_mod n d
  have hmod := Nat.mod_lt n hd
  unfold roundHalfEven
  simp only
  split_ifs with hlow hhigh
  · omega
  · rw [Nat.mul_add]
    omega
  · rw [Nat.mul_add]
    omega

theorem roundHalfEven_mul_left {k : Nat} (hk : 0 < k) :
    roundHalfEven (k * n) (k * d) = roundHalfEven n d := by
  have hlow : 2 * (k * (n % d)) < k * d ↔ 2 * (n % d) < d := by
    rw [Nat.mul_left_comm, Nat.mul_lt_mul_left hk]
  have hhigh : k * d < 2 * (k * (n % d)) ↔ d < 2 * (n % d) := by
    rw [Nat.mul_left_comm, Nat.mul_lt_mul_left hk]
  simp only [roundHalfEven, Nat.mul_div_mul_left n d hk, Nat.mul_mod_mul_left, hlow, hhigh]

end

namespace Double

/-- The distance of a magnitude's value to the next one. -/
def gap (m : Nat) : Nat :=
  2 ^ (m / 2 ^ 52 - 1)

theorem gap_pos (m : Nat) : 0 < gap m :=
  Nat.two_pow_pos _

/-- The value of a significand `r` that is shifted `s` places. One that has just grown too long is
read right as well. -/
theorem units_significand {s r : Nat} (hr : r ≤ 2 ^ 53) (hs : s = 0 ∨ 2 ^ 52 ≤ r) :
    units (s * 2 ^ 52 + r) = r * 2 ^ s := by
  simp only [units, Nat.pow_eq]
  by_cases hsub : s * 2 ^ 52 + r < 2 ^ 52
  · have h0 : s = 0 := by omega
    rw [if_pos hsub, h0, Nat.zero_mul, Nat.zero_add, Nat.pow_zero, Nat.mul_one]
  rw [if_neg hsub]
  have hr' : 2 ^ 52 ≤ r := by omega
  rcases hr.lt_or_eq with hlt | heq
  · have hq : (s * 2 ^ 52 + r) / 2 ^ 52 = s + 1 := by omega
    have hm : (s * 2 ^ 52 + r) % 2 ^ 52 = r - 2 ^ 52 := by omega
    rw [hq, hm, Nat.add_sub_cancel, Nat.add_sub_cancel' hr']
  · have hq : (s * 2 ^ 52 + r) / 2 ^ 52 = s + 2 := by omega
    have hm : (s * 2 ^ 52 + r) % 2 ^ 52 = 0 := by omega
    rw [hq, hm, heq, Nat.add_zero, show s + 2 - 1 = s + 1 by omega, Nat.pow_succ 2 s]
    ring

/-- Every magnitude has such a significand, below the length at which it is shifted once more. -/
theorem exists_significand (m : Nat) :
    ∃ s r, m = s * 2 ^ 52 + r ∧ r < 2 ^ 53 ∧ (s = 0 ∨ 2 ^ 52 ≤ r) ∧ gap m = 2 ^ s := by
  refine ⟨m / 2 ^ 52 - 1, m - (m / 2 ^ 52 - 1) * 2 ^ 52, ?_, ?_, ?_, rfl⟩ <;> omega

theorem units_succ (m : Nat) : units (m + 1) = units m + gap m := by
  obtain ⟨s, r, hm, hr, hs, hgap⟩ := exists_significand m
  rw [hgap, hm, units_significand (by omega) hs, Nat.add_assoc,
    units_significand (by omega) (by omega), Nat.succ_mul]

theorem strictMono_units : StrictMono units :=
  strictMono_nat_of_lt_succ fun m => by
    have := gap_pos m
    have := units_succ m
    omega

/-- Neighbouring values are not closer than a 53-bit significand tells them apart. -/
theorem units_succ_le (m : Nat) : units (m + 1) ≤ 2 ^ 53 * gap m := by
  obtain ⟨s, r, hm, hr, hs, hgap⟩ := exists_significand m
  rw [hgap, hm, Nat.add_assoc, units_significand (by omega) (by omega)]
  exact Nat.mul_le_mul_right _ (by omega)

theorem gap_mono : Monotone gap := fun a b h =>
  Nat.pow_le_pow_right (by decide) (Nat.sub_le_sub_right (Nat.div_le_div_right h) 1)

section
variable {n d n' d' m : Nat}

/-- The rounded significand, with its shift. It is the nearest one, and long enough for its shift
already before rounding. -/
theorem exists_significand_nearest (hd : 0 < d) : ∃ s r, nearest n d = s * 2 ^ 52 + r ∧
    r ≤ 2 ^ 53 ∧ (s = 0 ∨ 2 ^ 52 ≤ r ∧ d * 2 ^ s * 2 ^ 52 ≤ n) ∧
    2 * (d * 2 ^ s * r) ≤ 2 * n + d * 2 ^ s ∧ 2 * n ≤ 2 * (d * 2 ^ s * r) + d * 2 ^ s := by
  have hpos : 0 < d * 2 ^ (Nat.log2 (n / d) - 52) := Nat.mul_pos hd (Nat.two_pow_pos _)
  have hle := roundHalfEven_le (n := n) hpos
  have hge := le_roundHalfEven (n := n) hpos
  refine ⟨Nat.log2 (n / d) - 52, roundHalfEven n (d * 2 ^ (Nat.log2 (n / d) - 52)), rfl, ?_, ?_,
    hle, hge⟩
  · have hlog : n / d < 2 ^ (Nat.log2 (n / d) - 52 + 53) :=
      Nat.lt_log2_self.trans_le (Nat.pow_le_pow_right (by decide) (by omega))
    have hlt : n < d * 2 ^ (Nat.log2 (n / d) - 52) * 2 ^ 53 := by
      rw [Nat.mul_assoc, ← Nat.pow_add, Nat.mul_comm]
      exact (Nat.div_lt_iff_lt_mul hd).1 hlog
    by_contra hbig
    have := Nat.mul_le_mul_left (d * 2 ^ (Nat.log2 (n / d) - 52)) (Nat.succ_le_of_lt
      (Nat.lt_of_not_le hbig))
    rw [Nat.mul_succ] at this
    omega
  · rcases Nat.eq_zero_or_pos (Nat.log2 (n / d) - 52) with h0 | hs
    · exact .inl h0
    · have hlog : 2 ^ (Nat.log2 (n / d) - 52 + 52) ≤ n / d := by
        rw [Nat.sub_add_cancel (by omega)]
        exact Nat.log2_self_le (by rintro h; simp [h] at hs)
      have hle' : d * 2 ^ (Nat.log2 (n / d) - 52) * 2 ^ 52 ≤ n := by
        rw [Nat.mul_assoc, ← Nat.pow_add, Nat.mul_comm]
        exact (Nat.le_div_iff_mul_le hd).1 hlog
      refine .inr ⟨?_, hle'⟩
      by_contra hsmall
      have := Nat.mul_le_mul_left (d * 2 ^ (Nat.log2 (n / d) - 52)) (Nat.succ_le_of_lt
        (Nat.lt_of_not_le hsmall))
      rw [Nat.mul_succ] at this
      omega

/-- The quotient is not above the midpoint that follows its rounded value. -/
theorem le_midpoint_nearest (hd : 0 < d) :
    2 * n ≤ (units (nearest n d) + units (nearest n d + 1)) * d := by
  obtain ⟨s, r, hm, hr, hs, -, hge⟩ := exists_significand_nearest (n := n) hd
  have hgap : 2 ^ s ≤ gap (nearest n d) := Nat.pow_le_pow_right (by decide) (by omega)
  have hunits : units (nearest n d) = r * 2 ^ s := by
    rw [hm, units_significand hr (hs.imp_right And.left)]
  rw [units_succ, hunits]
  have := Nat.mul_le_mul_right d hgap
  linarith

/-- The quotient is not below the midpoint that precedes its rounded value. The least significand of
its length was not rounded up to: the value before is closer there. -/
theorem midpoint_le_of_nearest (hd : 0 < d) (h : nearest n d = m + 1) :
    (units m + units (m + 1)) * d ≤ 2 * n := by
  obtain ⟨s, r, hm, hr, hs, hle, -⟩ := exists_significand_nearest (n := n) hd
  rw [h] at hm
  have hunits : units (m + 1) = r * 2 ^ s := by
    rw [hm, units_significand hr (hs.imp_right And.left)]
  have hsucc := units_succ m
  by_cases hleast : s ≠ 0 ∧ r = 2 ^ 52
  · have hn := (hs.resolve_left hleast.1).2
    rw [hleast.2] at hunits
    have : units m * d ≤ units (m + 1) * d := Nat.mul_le_mul_right d (by omega)
    have : units (m + 1) * d ≤ n := by
      rw [hunits]
      exact le_of_eq_of_le (by ring) hn
    linarith
  · have hgap : gap m = 2 ^ s := by
      rw [gap]
      congr 1
      omega
    rw [hgap] at hsucc
    have hvalue : units (m + 1) * d = d * 2 ^ s * r := by
      rw [hunits]
      ring
    have hbefore : units (m + 1) * d = units m * d + d * 2 ^ s := by
      rw [hsucc]
      ring
    linarith

theorem nearest_eq_of_ratio_eq (hd : 0 < d) (hd' : 0 < d') (h : n * d' = n' * d) :
    nearest n d = nearest n' d' := by
  have hratio : d' * n = d * n' := by linarith
  have hdiv : n / d = n' / d' := by
    rw [← Nat.mul_div_mul_left n d hd', hratio, Nat.mul_comm d' d, Nat.mul_div_mul_left n' d' hd]
  have hround : ∀ p, roundHalfEven n (d * p) = roundHalfEven n' (d' * p) := fun p => by
    rw [← roundHalfEven_mul_left hd', hratio, Nat.mul_left_comm, roundHalfEven_mul_left hd]
  simp only [nearest, hdiv, hround]

/-- Rounding keeps the order of quotients: otherwise both would be one midpoint, and be rounded
alike. -/
theorem nearest_mono (hd : 0 < d) (hd' : 0 < d') (h : n * d' ≤ n' * d) :
    nearest n d ≤ nearest n' d' := by
  by_contra hlt
  obtain ⟨m, hm⟩ : ∃ m, nearest n d = m + 1 := ⟨nearest n d - 1, by omega⟩
  have hlow := midpoint_le_of_nearest hd hm
  have hhigh := le_midpoint_nearest (n := n') hd'
  have hmid : units (nearest n' d') + units (nearest n' d' + 1) ≤ units m + units (m + 1) :=
    Nat.add_le_add (strictMono_units.monotone (by omega)) (strictMono_units.monotone (by omega))
  have heq : n * d' = n' * d := by
    have h1 := Nat.mul_le_mul_right d' hlow
    have h2 := Nat.mul_le_mul_right d hhigh
    have h3 := Nat.mul_le_mul_right (d * d') hmid
    linarith
  exact hlt (nearest_eq_of_ratio_eq hd hd' heq).le

/-- A quotient strictly between two midpoints is rounded to the value between them. -/
theorem nearest_eq_of_between (hd : 0 < d) (hlow : (units m + units (m + 1)) * d < 2 * n)
    (hhigh : 2 * n < (units (m + 1) + units (m + 2)) * d) : nearest n d = m + 1 := by
  rcases Nat.lt_trichotomy (nearest n d) (m + 1) with hlt | heq | hgt
  · have hle := le_midpoint_nearest (n := n) hd
    have hmid : units (nearest n d) + units (nearest n d + 1) ≤ units m + units (m + 1) :=
      Nat.add_le_add (strictMono_units.monotone (by omega)) (strictMono_units.monotone (by omega))
    have := Nat.mul_le_mul_right d hmid
    omega
  · exact heq
  · obtain ⟨k, hk⟩ : ∃ k, nearest n d = k + 1 := ⟨nearest n d - 1, by omega⟩
    have hle := midpoint_le_of_nearest hd hk
    have hmid : units (m + 1) + units (m + 2) ≤ units k + units (k + 1) :=
      Nat.add_le_add (strictMono_units.monotone (by omega)) (strictMono_units.monotone (by omega))
    have := Nat.mul_le_mul_right d hmid
    omega

theorem nearest_eq_zero (hd : 0 < d) (h : 2 * n < d) : nearest n d = 0 := by
  by_contra hne
  obtain ⟨k, hk⟩ : ∃ k, nearest n d = k + 1 := ⟨nearest n d - 1, by omega⟩
  have hle := midpoint_le_of_nearest hd hk
  have hpos : 1 ≤ units k + units (k + 1) := by
    have := gap_pos k
    have := units_succ k
    omega
  have := Nat.mul_le_mul_right d hpos
  omega

end

end Double

end TextQuery
