import Mathlib.Order.Lattice
import TextQuery.Proofs.Meaning
import TextQuery.Proofs.RoundTrip

/-!
# How deep queries are

Only groups and field scopes nest, and their number is limited. From one of them to the next a tree
has at most five levels more: a disjunction, the conjunction of a sequence, the disjunction of its
alternatives, the conjunction of a chain and an exclusion. So the depth of a compiled query has a
bound that does not depend on the length of the text, and a filter is no deeper than its query. How
many levels a node counts for is left open: it is one in a tree, and may be more where the tree is
written.
-/
namespace TextQuery

namespace Query

/-- How many levels a node counts for, by its kind. -/
structure Levels where
  leaf : Nat
  scope : Nat
  exclusion : Nat
  combination : Nat
  /-- Opening a scope adds no more than opening a group may. -/
  scope_le : scope ≤ 4 * combination + exclusion

namespace Levels

/-- Every node counts for one. -/
def each : Levels :=
  ⟨1, 1, 1, 1, by decide⟩

/-- The most levels from one group to the next: a disjunction, the conjunction of a sequence, the
disjunction of its alternatives, the conjunction of a chain and an exclusion. -/
def perGroup (l : Levels) : Nat :=
  4 * l.combination + l.exclusion

end Levels

section
variable (l : Levels)

mutual

/-- The height of the tree, counted in these levels. -/
def height : Query → Nat
  | term _ | phrase _ => l.leaf
  | within _ inner => inner.height + l.scope
  | exclude inner => inner.height + l.exclusion
  | all qs | any qs => heightList qs + l.combination

def heightList : List Query → Nat
  | [] => 0
  | q :: qs => max q.height (heightList qs)

end

attribute [simp] height heightList

end

mutual

theorem depth_eq_height (q : Query) : q.depth = q.height .each := by
  match q with
  | term word | phrase words => rfl
  | within field inner => exact congrArg (· + 1) inner.depth_eq_height
  | exclude inner => exact congrArg (· + 1) inner.depth_eq_height
  | all qs | any qs => exact congrArg (· + 1) (depthList_eq_heightList qs)

theorem depthList_eq_heightList (qs : List Query) : depthList qs = heightList .each qs := by
  match qs with
  | [] => rfl
  | q :: qs => rw [depthList, heightList, q.depth_eq_height, depthList_eq_heightList qs]

end

section
variable {l : Levels}

theorem heightList_le_iff {qs : List Query} {n : Nat} :
    heightList l qs ≤ n ↔ ∀ q ∈ qs, q.height l ≤ n := by
  induction qs with
  | nil => simp
  | cons q qs ih => simp [ih]

/-- To combine queries takes one combination at most, and none if there is only one. -/
theorem height_collapse_le {combine : List Query → Query} (hcombine : combine = all ∨ combine = any)
    {qs : List Query} {n : Nat} (h : ∀ q ∈ qs, q.height l ≤ n) :
    (collapse combine qs).height l ≤ n + l.combination := by
  have hlist : heightList l qs ≤ n := heightList_le_iff.2 h
  have hcombined : (combine qs).height l ≤ n + l.combination := by
    rcases hcombine with heq | heq <;> rw [heq, height] <;> omega
  match qs with
  | [q] =>
    have hq := h q List.mem_cons_self
    change q.height l ≤ n + l.combination
    omega
  | [] | _ :: _ :: _ => exact hcombined

end

end Query

namespace Derivation
open Grammar

section
variable {l : Query.Levels}

/-- Among the conjuncts is one disjunction more than among the operands. -/
theorem height_conjuncts_le {os : List Operand} {n : Nat} (h : ∀ o ∈ os, o.query.height l ≤ n) :
    ∀ q ∈ conjuncts os, q.height l ≤ n + l.combination := by
  intro q hq
  rcases mem_conjuncts_iff.1 hq with ⟨o, ho, -, heq⟩ | ⟨-, heq⟩
  · have := h o ho
    rw [heq] at this
    omega
  · rw [← heq]
    apply Query.height_collapse_le (.inr rfl)
    intro r hr
    obtain ⟨o, ho, hor⟩ := List.mem_map.1 hr
    rw [← hor]
    exact h o (List.mem_filter.1 ho).1

mutual

/-- An operand that opens at most `n` groups and field scopes at once. What stands around it in one
group adds an exclusion and four combinations to this bound, as the next lemmas say one by one. -/
theorem Primary.height_tree_le (p : Primary) {n : Nat} (hn : p.nesting ≤ n) :
    p.tree.height l ≤ l.perGroup * n + l.leaf := by
  match p with
  | .word text | .phrase text => exact Nat.le_add_left _ _
  | .scoped field inner =>
    obtain ⟨m, rfl⟩ := Nat.exists_eq_add_of_le' hn
    have hinner := inner.height_tree_le (Nat.le_add_left _ m)
    have hscope : l.scope ≤ l.perGroup := l.scope_le
    rw [Primary.tree, Query.height, Primary.nesting, ← Nat.add_assoc, Nat.mul_succ]
    omega
  | .group inner =>
    obtain ⟨m, rfl⟩ := Nat.exists_eq_add_of_le' hn
    have hinner := Query.height_collapse_le (.inr rfl) (inner.height_trees_le (Nat.le_add_left _ m))
    rw [Primary.tree, Primary.nesting, ← Nat.add_assoc, Nat.mul_succ]
    unfold Query.Levels.perGroup at *
    omega

theorem Prefixed.height_tree_le (p : Prefixed) {n : Nat} (hn : p.nesting ≤ n) :
    p.tree.height l ≤ l.perGroup * n + l.leaf + l.exclusion := by
  match p with
  | .plain operand | .required operand => exact Nat.le_add_right_of_le (operand.height_tree_le hn)
  | .excluded operand => exact Nat.add_le_add_right (operand.height_tree_le hn) _

theorem Chain.height_trees_le (c : Chain) {n : Nat} (hn : c.nesting ≤ n) :
    ∀ q ∈ c.trees, q.height l ≤ l.perGroup * n + l.leaf + l.exclusion := by
  match c with
  | .one operand => simpa using operand.height_tree_le hn
  | .more operand rest =>
    rw [Chain.nesting, Nat.max_le] at hn
    rw [Chain.trees, List.forall_mem_cons]
    exact ⟨operand.height_tree_le hn.1, rest.height_trees_le hn.2⟩

theorem Sequence.height_operands_le (s : Sequence) {n : Nat} (hn : s.nesting ≤ n) :
    ∀ o ∈ s.operands,
      o.query.height l ≤ l.perGroup * n + l.leaf + l.exclusion + l.combination := by
  have hchain : ∀ c : Chain, (∀ q ∈ c.trees, q.height l ≤ l.perGroup * n + l.leaf + l.exclusion) →
      c.operand.query.height l ≤ l.perGroup * n + l.leaf + l.exclusion + l.combination := by
    intro c hc
    rw [c.query_operand]
    exact Query.height_collapse_le (.inl rfl) hc
  match s with
  | .one chain => simpa using hchain chain (chain.height_trees_le hn)
  | .more chain rest =>
    rw [Sequence.nesting, Nat.max_le] at hn
    rw [Sequence.operands, List.forall_mem_cons]
    exact ⟨hchain chain (chain.height_trees_le hn.1), rest.height_operands_le hn.2⟩

theorem Choice.height_trees_le (c : Choice) {n : Nat} (hn : c.nesting ≤ n) :
    ∀ q ∈ c.trees, q.height l ≤
      l.perGroup * n + l.leaf + l.exclusion + l.combination + l.combination + l.combination := by
  match c with
  | .one first =>
    simpa using Query.height_collapse_le (.inl rfl)
      (height_conjuncts_le (first.height_operands_le hn))
  | .more first rest =>
    rw [Choice.nesting, Nat.max_le] at hn
    rw [Choice.trees, List.forall_mem_cons]
    exact ⟨Query.height_collapse_le (.inl rfl)
      (height_conjuncts_le (first.height_operands_le hn.1)), rest.height_trees_le hn.2⟩

end

/-- The levels of one group for each group or field scope and once around them all, and then those
of a leaf. -/
theorem Choice.height_tree_le (c : Choice) {n : Nat} (hn : c.nesting ≤ n) :
    c.tree.height l ≤ l.perGroup * (n + 1) + l.leaf := by
  have htrees := c.height_trees_le (l := l) hn
  have htree := Query.height_collapse_le (.inr rfl) htrees
  rw [Choice.tree, Nat.mul_succ]
  unfold Query.Levels.perGroup at *
  omega

end

theorem Choice.depth_tree_le (c : Choice) : c.tree.depth ≤ 5 * (c.nesting + 1) + 1 := by
  rw [Query.depth_eq_height]
  exact c.height_tree_le le_rfl

end Derivation

namespace Filter

mutual

/-- The height of the filter; a test of fields has depth 1. -/
def depth : Filter → Nat
  | contains _ _ | sequence _ _ => 1
  | not inner => inner.depth + 1
  | all fs | any fs => depthList fs + 1

def depthList : List Filter → Nat
  | [] => 0
  | f :: fs => max f.depth (depthList fs)

end

end Filter

section
variable {s : Schema}

mutual

/-- Lowering takes each node to at most one, and leaves scopes out. -/
theorem Query.depth_le_of_lowerIn (q : Query) {scope : Scope} {f : Filter}
    (h : q.lowerIn (Filter.target s) scope = .ok f) : f.depth ≤ q.depth := by
  match q with
  | .term word =>
    cases h
    exact Nat.le_refl 1
  | .phrase words =>
    cases h
    exact Nat.le_refl 1
  | .within field inner =>
    obtain ⟨path, -, hinner⟩ := Except.bind_eq_ok_iff.1 h
    exact Nat.le_succ_of_le (inner.depth_le_of_lowerIn hinner)
  | .exclude inner =>
    obtain ⟨g, hg, hf⟩ := Except.bind_eq_ok_iff.1 h
    cases hf
    exact Nat.succ_le_succ (inner.depth_le_of_lowerIn hg)
  | .all qs | .any qs =>
    obtain ⟨fs, hfs, hf⟩ := Except.bind_eq_ok_iff.1 h
    cases hf
    exact Nat.succ_le_succ (Query.depthList_le_of_lowerList qs hfs)

theorem Query.depthList_le_of_lowerList (qs : List Query) {scope : Scope} {fs : List Filter}
    (h : lowerList (Filter.target s) scope qs = .ok fs) :
    Filter.depthList fs ≤ depthList qs := by
  match qs with
  | [] =>
    cases h
    exact Nat.le_refl 0
  | q :: qs =>
    obtain ⟨g, hg, h⟩ := Except.bind_eq_ok_iff.1 h
    obtain ⟨gs, hgs, h⟩ := Except.bind_eq_ok_iff.1 h
    cases h
    have hfirst := q.depth_le_of_lowerIn hg
    have hrest := Query.depthList_le_of_lowerList qs hgs
    simp only [Filter.depthList, Query.depthList]
    omega

end

end

/-- However long a text is, its query has a bounded depth, and so has any filter that it is lowered
into. -/
theorem depth_le_of_compile {text : String} {q : Query} (h : compile text = .ok q) :
    q.depth ≤ 5 * (maxNesting + 1) + 1 ∧ 5 * (maxNesting + 1) + 1 = 646 ∧
      ∀ (s : Schema) (f : Filter), Filter.ofQuery s q = .ok f → f.depth ≤ q.depth := by
  obtain ⟨lexemes, htokens, c, hc, heq⟩ := compile_eq_ok_iff_derives.1 h
  have hdepth := c.depth_tree_le
  have hnesting := hc.nesting
  rw [heq] at hdepth
  refine ⟨by omega, by decide, ?_⟩
  intro s f hf
  exact q.depth_le_of_lowerIn hf

/-- All five levels occur without any group. -/
theorem depth_le_of_compile_flat :
    let q : Query := .any [.term "a", .all [.any [.all [.term "b", .exclude (.term "c")],
      .term "d"], .term "e"]]
    compile "a OR b AND -c d +e" = .ok q ∧ q.depth = 5 + 1 ∧
      q.depth ≤ 5 * (maxNesting + 1) + 1 ∧ 5 * (maxNesting + 1) + 1 = 646 ∧
      ∀ (s : Schema) (f : Filter), Filter.ofQuery s q = .ok f → f.depth ≤ q.depth := by
  intro q
  have h : compile "a OR b AND -c d +e" = .ok q := by decide +kernel
  exact ⟨h, by decide, depth_le_of_compile h⟩

end TextQuery
