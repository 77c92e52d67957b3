import Mathlib.Algebra.Order.Floor.Div
import TextQuery.Proofs.Ordering

/-!
# Pages of a search

Filtering and sorting do not look at what page is asked for. A page is therefore a section of one
list, the same for all pages of a search, and pages that each start where the one before ends make
up that list again. No assumption on the order of values is needed: sorting by any comparison only
rearranges.
-/
namespace TextQuery.Collection

variable (c : Collection) (f : Filter) (s : Selection)

/-- The most matches that a page holds, which is also how far apart neighbouring pages start. -/
def pageSize : Nat :=
  min s.limit c.maxLimit

/-- The items of the first `n` pages, one page after another. -/
def firstPages (n : Nat) : List Json :=
  (List.range n).flatMap fun k => (c.page f { s with skip := k * c.pageSize s }).items

theorem length_matching : (c.matching f).length = c.documents.countP fun doc => f.accepts doc :=
  List.countP_eq_length_filter.symm

theorem sortBy_perm (compare : Json → Json → Ordering) (docs : List Json) :
    (sortBy compare docs).Perm docs :=
  List.mergeSort_perm _ _

/-- However they are sorted, the results are the matches. -/
theorem ordered_perm_matching : (c.ordered f s).Perm (c.matching f) := by
  unfold ordered
  cases s.sort with
  | none =>
    cases s.directive with
    | none => exact .refl _
    | some d => exact sortBy_perm _ _
  | some sort =>
    have hsorted : (sortBy sort.compare (c.matching f)).Perm (c.matching f) := sortBy_perm _ _
    cases s.directive with
    | none => exact hsorted
    | some d => exact (sortBy_perm _ _).trans hsorted

theorem length_ordered : (c.ordered f s).length = c.documents.countP fun doc => f.accepts doc := by
  rw [(c.ordered_perm_matching f s).length_eq, c.length_matching]

theorem page_items (skip : Nat) : (c.page f { s with skip := skip }).items =
    ((c.ordered f s).drop skip).take (c.pageSize s) :=
  rfl

theorem firstPages_succ (n : Nat) : c.firstPages f s (n + 1) =
    c.firstPages f s n ++ (c.page f { s with skip := n * c.pageSize s }).items := by
  simp [firstPages, List.range_succ]

/-- The first pages are the results up to the place where the next page starts. -/
theorem firstPages_eq_take (n : Nat) :
    c.firstPages f s n = (c.ordered f s).take (n * c.pageSize s) := by
  induction n with
  | zero => simp [firstPages]
  | succ n ih => rw [firstPages_succ, ih, page_items, Nat.succ_mul, List.take_add]

/-- A search that no limit cuts off gives all results at once. -/
theorem page_items_unlimited {limit maxLimit : Nat} (hlimit : c.size ≤ limit)
    (hmax : c.size ≤ maxLimit) :
    (page { c with maxLimit := maxLimit } f { s with skip := 0, limit := limit }).items =
      c.ordered f s := by
  have hle : (c.ordered f s).length ≤ min limit maxLimit := by
    rw [length_ordered]
    exact le_trans List.countP_le_length (le_min hlimit hmax)
  exact List.take_of_length_le hle

variable {c f s}

/-- The number of hits does not depend on the page, each page is filled as far as there are
results, and enough pages one after another, each starting where the one before ends, are the whole
list of results, in which each match stands once. -/
theorem firstPages_whole (hsize : 1 ≤ c.pageSize s) :
    let hits := c.documents.countP fun doc => f.accepts doc
    (∀ skip limit, (c.page f { s with skip := skip, limit := limit }).hits = hits) ∧
      (∀ skip, (c.page f { s with skip := skip }).items.length = min (c.pageSize s) (hits - skip)) ∧
      ∀ n, hits ⌈/⌉ c.pageSize s ≤ n →
        (∀ limit maxLimit, c.size ≤ limit → c.size ≤ maxLimit → c.firstPages f s n =
          (page { c with maxLimit := maxLimit } f { s with skip := 0, limit := limit }).items) ∧
        (c.firstPages f s n).Perm (c.documents.filter fun doc => f.accepts doc) := by
  intro hits
  refine ⟨fun _ _ => c.length_matching f, fun skip => ?_, fun n hn => ?_⟩
  · rw [page_items, List.length_take, List.length_drop, length_ordered]
  · have hcovered : (c.ordered f s).length ≤ n * c.pageSize s := by
      rw [length_ordered, Nat.mul_comm]
      exact (ceilDiv_le_iff_le_mul hsize).1 hn
    have hall : c.firstPages f s n = c.ordered f s := by
      rw [firstPages_eq_take, List.take_of_length_le hcovered]
    rw [hall]
    exact ⟨fun _ _ hlimit hmax => (c.page_items_unlimited f s hlimit hmax).symm,
      c.ordered_perm_matching f s⟩

theorem firstPages_whole_capped :
    let c : Collection := { documents := [.object [("nid", .string "a")],
      .object [("nid", .string "b"), ("year", .bool true)], .string "c",
      .object [("nid", .string "a"), ("year", .bool false)], .null], maxLimit := 2 }
    let s : Selection := { directive := some ⟨["a"]⟩, sort := some ⟨"year", .descending⟩, limit := 18 }
    let f : Filter := .not (.any [])
    let hits := c.documents.countP fun doc => f.accepts doc
    c.pageSize s = 2 ∧ hits = 5 ∧ 1 ≤ c.pageSize s ∧
      (∀ skip limit, (c.page f { s with skip := skip, limit := limit }).hits = hits) ∧
      (∀ skip, (c.page f { s with skip := skip }).items.length = min (c.pageSize s) (hits - skip)) ∧
      ∀ n, hits ⌈/⌉ c.pageSize s ≤ n →
        (∀ limit maxLimit, c.size ≤ limit → c.size ≤ maxLimit → c.firstPages f s n =
          (page { c with maxLimit := maxLimit } f { s with skip := 0, limit := limit }).items) ∧
        (c.firstPages f s n).Perm (c.documents.filter fun doc => f.accepts doc) := by
  intro c s f hits
  have hsize : c.pageSize s = 2 := by decide
  have hpos : 1 ≤ c.pageSize s := by decide
  exact ⟨hsize, by decide, hpos, firstPages_whole hpos⟩

end TextQuery.Collection
