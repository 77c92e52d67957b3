import Mathlib.Data.Prod.Lex
import Mathlib.Data.String.Basic
import TextQuery.Proofs.NumberOrder
import TextQuery.Proofs.Ordering

/-!
# The order of values is total

Every value has a place in one linear order: by its kind, within its kind by an amount, and then by
a text. Values compare as their places do, whatever they are, so that all that sorting asks of a
comparison holds, also of the comparisons of documents that are built on it.
-/
namespace TextQuery

/-- The comparison tells a total order in which different values may be alike. -/
structure IsTotalPreorder {α : Type} (compare : α → α → Ordering) : Prop where
  refl : ∀ a, compare a a = .eq
  swap : ∀ a b, compare b a = (compare a b).swap
  trans : ∀ a b c, compare a b ≠ .gt → compare b c ≠ .gt → compare a c ≠ .gt

theorem OrdersTotally.isTotalPreorder {α : Type} {compare : α → α → Ordering}
    (h : OrdersTotally compare fun _ => True) : IsTotalPreorder compare where
  refl a := by
    have hswap := h.swap (a := a) (b := a) trivial trivial
    cases heq : compare a a with
    | eq => rfl
    | lt => simp [heq] at hswap
    | gt => simp [heq] at hswap
  swap a b := h.swap trivial trivial
  trans a b c hab hbc := by
    simp only [Ne, Ordering.ne_gt_iff_isLE] at *
    exact h.trans trivial trivial trivial hab hbc

namespace Json

/-- The amount of a truth value or a number. -/
def amount : Json → ℚ
  | bool b => b.toNat
  | number n => n.place
  | _ => 0

/-- The text of a string. -/
def letters : Json → String
  | string s => s
  | _ => ""

/-- The place of a value among all values. -/
def place (v : Json) : ℕ ×ₗ (ℚ ×ₗ String) :=
  toLex (v.rank, toLex (v.amount, v.letters))

theorem compare_place (x y : Json) : Ord.compare x.place y.place =
    (Ord.compare x.rank y.rank).then
      ((Ord.compare x.amount y.amount).then (Ord.compare x.letters y.letters)) := by
  have hinner : Ord.compare (toLex (x.amount, x.letters)) (toLex (y.amount, y.letters)) =
      (Ord.compare x.amount y.amount).then (Ord.compare x.letters y.letters) := by
    rw [Prod.Lex.compare_def]
    rfl
  rw [← hinner, Prod.Lex.compare_def]
  rfl

theorem compare_of_rank_ne {x y : Json} (h : x.rank ≠ y.rank) :
    x.compare y = Ord.compare x.rank y.rank := by
  unfold compare
  split
  · exact absurd rfl h
  · exact absurd rfl h
  · exact absurd rfl h
  · rfl

/-- Values compare as their places do. -/
theorem compare_eq_compare_place (x y : Json) : x.compare y = Ord.compare x.place y.place := by
  rw [compare_place]
  by_cases h : x.rank = y.rank
  · rw [compare_eq_iff_eq.2 h, Ordering.eq_then]
    cases x <;> cases y <;> simp [rank] at h
    case bool.bool x y =>
      have hcast := Nat.strictMono_cast (α := ℚ) |>.cmp_map_eq x.toNat y.toNat
      rw [cmp_eq_compare, cmp_eq_compare] at hcast
      simp [compare, amount, letters, hcast]
    case number.number x y =>
      have hplace := x.compare_eq_cmp_place y
      rw [cmp_eq_compare] at hplace
      simp [compare, amount, letters, hplace]
    all_goals simp [compare, rank, amount, letters]
  · rw [compare_of_rank_ne h]
    cases hc : Ord.compare x.rank y.rank with
    | eq => exact absurd (compare_eq_iff_eq.1 hc) h
    | lt => rfl
    | gt => rfl

theorem ordersTotally_compare : OrdersTotally Json.compare fun _ => True := by
  have h : OrdersTotally (@Ord.compare (ℕ ×ₗ (ℚ ×ₗ String)) _) fun _ => True := .ofTransCmp
  have hplace := h.comap place
  simpa only [← compare_eq_compare_place] using hplace

end Json

theorem SortKey.ordersTotally_compare (key : SortKey) :
    OrdersTotally key.compare fun _ => True := by
  have hvalues : OrdersTotally key.compareValues fun _ => True := by
    obtain ⟨field, direction⟩ := key
    cases direction with
    | ascending => exact Json.ordersTotally_compare
    | descending => exact Json.ordersTotally_compare.flip
  exact (hvalues.missingLast.comap (Json.first? · key.field)).mono fun _ _ _ => trivial

/-- The listed keys first and then the remainder is an order of all documents: the comparison does
not depend on what is in the collection. -/
theorem Collection.ordersTotally_compareListed (c : Collection) (d : Directive) :
    OrdersTotally (c.compareListed d) fun _ => True := by
  have h : ∀ docs : List Json, OrdersTotally (c.compareListed d) (· ∈ docs) := fun docs =>
    ordersTotally_listed (c := { c with documents := docs }) (s := {})
      (Json.ordersTotally_compare.mono fun _ => trivial) d
  constructor
  · intro a b _ _
    exact (h [a, b]).swap (by simp) (by simp)
  · intro a b e _ _ _
    exact (h [a, b, e]).trans (by simp) (by simp) (by simp)

/-- Comparing values is a total preorder, and so is comparing documents, by a field in either
direction as by a directive. -/
theorem isTotalPreorder_compare : IsTotalPreorder Json.compare ∧
    (∀ key : SortKey, IsTotalPreorder key.compare) ∧
    ∀ (c : Collection) (d : Directive), IsTotalPreorder (c.compareListed d) :=
  ⟨Json.ordersTotally_compare.isTotalPreorder,
    fun key => key.ordersTotally_compare.isTotalPreorder,
    fun c d => (c.ordersTotally_compareListed d).isTotalPreorder⟩

end TextQuery
