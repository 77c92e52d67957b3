import TextQuery.Proofs.Meaning
import TextQuery.Proofs.RoundTrip

/-!
# Compiled queries are well formed

What the scanner sees to for every token and the grammar for every derivation, put together: at
each node of a compiled query, words and names are such as the scanner takes in one piece, and no
node could have been collapsed into another one.
-/
namespace TextQuery

/-- What the scanner and the side conditions of the grammar say of a single token. -/
def Token.Accepted (t : Token) : Prop :=
  t.Proper ∧ t.Spoken

namespace Query

/-- Every node is such as compiling makes them; the words of phrases may hold control characters,
as these can be escaped. -/
def WellFormed (q : Query) : Prop :=
  q.Everywhere (Proper fun c => !Text.isBlank c)

theorem wellFormed_term {word : String} (h : IsTerm word) : (term word).WellFormed :=
  .intro h (by simp)

/-- The pieces of a phrase between its white space are its words, and there is one if the phrase
holds anything else. -/
theorem wellFormed_phrase {text : List Char} (h : ∃ c ∈ text, Text.isBlank c = false) :
    (phrase ((Text.blankSeparated text).map String.ofList)).WellFormed := by
  refine .intro ⟨?_, ?_⟩ (by simp)
  · simpa using Text.exists_not_isBlank_iff.1 h
  · intro w hw
    obtain ⟨piece, hpiece, rfl⟩ := List.mem_map.1 hw
    obtain ⟨hne, hblank⟩ := Text.ne_nil_and_isCut_of_mem_pieces hpiece
    rw [String.toList_ofList]
    exact ⟨hne, fun c hc => by simp [hblank c hc]⟩

theorem wellFormed_within {field : String} {inner : Query} (hfield : IsName field)
    (h : inner.WellFormed) : (within field inner).WellFormed :=
  .intro hfield (List.forall_mem_singleton.2 h)

theorem wellFormed_exclude {inner : Query} (hinner : inner.isExclusion = false)
    (h : inner.WellFormed) : (exclude inner).WellFormed :=
  .intro hinner (List.forall_mem_singleton.2 h)

/-- Only two or more are combined, and one is left as it is. -/
theorem wellFormed_collapse {combine : List Query → Query} {qs : List Query}
    (hcombine : combine = all ∨ combine = any) (hne : qs ≠ []) (h : ∀ q ∈ qs, q.WellFormed) :
    (collapse combine qs).WellFormed := by
  match qs with
  | [q] => exact h q List.mem_cons_self
  | q :: r :: qs =>
    have htwo : 2 ≤ (q :: r :: qs).length := by simp
    rcases hcombine with rfl | rfl
    · exact .intro htwo h
    · exact .intro htwo h

end Query

namespace Derivation
open Grammar

/-- Every operand adds to the conjuncts, by itself or as one of the alternatives. -/
theorem conjuncts_ne_nil {os : List Operand} (h : os ≠ []) : conjuncts os ≠ [] := by
  obtain ⟨o, ho⟩ := List.exists_mem_of_ne_nil os h
  cases hr : o.restricts with
  | true => exact List.ne_nil_of_mem (mem_conjuncts_iff.2 (.inl ⟨o, ho, hr, rfl⟩))
  | false => exact List.ne_nil_of_mem (mem_conjuncts_iff.2 (.inr ⟨⟨o, ho, hr⟩, rfl⟩))

/-- Besides the queries of the operands, the conjuncts hold one disjunction of some of them. -/
theorem wellFormed_conjuncts {os : List Operand} (h : ∀ o ∈ os, o.query.WellFormed) :
    ∀ q ∈ conjuncts os, q.WellFormed := by
  intro q hq
  rcases mem_conjuncts_iff.1 hq with ⟨o, ho, -, rfl⟩ | ⟨⟨o, ho, hr⟩, rfl⟩
  · exact h o ho
  · have hmem : o ∈ os.filter fun o => !o.restricts := List.mem_filter.2 ⟨ho, by simp [hr]⟩
    refine Query.wellFormed_collapse (.inr rfl) (List.ne_nil_of_mem (List.mem_map_of_mem hmem)) ?_
    intro q hq
    obtain ⟨a, ha, rfl⟩ := List.mem_map.1 hq
    exact h a (List.mem_filter.1 ha).1

theorem Chain.trees_ne_nil (c : Chain) : c.trees ≠ [] := by
  cases c with
  | one | more => exact List.cons_ne_nil _ _

theorem Sequence.operands_ne_nil (s : Sequence) : s.operands ≠ [] := by
  cases s with
  | one | more => exact List.cons_ne_nil _ _

theorem Choice.trees_ne_nil (c : Choice) : c.trees ≠ [] := by
  cases c with
  | one | more => exact List.cons_ne_nil _ _

mutual

/-- A derivation stands for a well-formed query if its tokens are accepted and it excludes once. The
recursion is on the derivation, whose parts spell parts of its tokens. -/
theorem Primary.wellFormed_tree (p : Primary) (ht : ∀ t ∈ p.tokens, t.Accepted)
    (ho : p.ExcludesOnce) : p.tree.WellFormed := by
  match p with
  | .word text => exact Query.wellFormed_term (ht _ List.mem_cons_self).1
  | .phrase text => exact Query.wellFormed_phrase (ht _ List.mem_cons_self).2
  | .scoped field inner =>
    obtain ⟨hfield, hinner⟩ := List.forall_mem_cons.1 ht
    exact Query.wellFormed_within hfield.1 (inner.wellFormed_tree hinner ho)
  | .group inner =>
    obtain ⟨-, hinner⟩ := List.forall_mem_cons.1 ht
    exact Query.wellFormed_collapse (.inr rfl) inner.trees_ne_nil
      (inner.wellFormed_trees (List.forall_mem_append.1 hinner).1 ho)

theorem Prefixed.wellFormed_tree (p : Prefixed) (ht : ∀ t ∈ p.tokens, t.Accepted)
    (ho : p.ExcludesOnce) : p.tree.WellFormed := by
  match p with
  | .plain operand => exact operand.wellFormed_tree ht ho
  | .required operand => exact operand.wellFormed_tree (List.forall_mem_cons.1 ht).2 ho
  | .excluded operand =>
    exact Query.wellFormed_exclude ho.2
      (operand.wellFormed_tree (List.forall_mem_cons.1 ht).2 ho.1)

theorem Chain.wellFormed_trees (c : Chain) (ht : ∀ t ∈ c.tokens, t.Accepted)
    (ho : c.ExcludesOnce) : ∀ q ∈ c.trees, q.WellFormed := by
  match c with
  | .one operand => simpa using operand.wellFormed_tree ht ho
  | .more operand rest =>
    obtain ⟨hoperand, hrest⟩ := List.forall_mem_append.1 ht
    exact List.forall_mem_cons.2 ⟨operand.wellFormed_tree hoperand ho.1,
      rest.wellFormed_trees (List.forall_mem_cons.1 hrest).2 ho.2⟩

/-- Each operand of a sequence is a chain, which is collapsed to a conjunction. -/
theorem Sequence.wellFormed_operands (s : Sequence) (ht : ∀ t ∈ s.tokens, t.Accepted)
    (ho : s.ExcludesOnce) : ∀ o ∈ s.operands, o.query.WellFormed := by
  have hchain : ∀ c : Chain, (∀ q ∈ c.trees, q.WellFormed) → c.operand.query.WellFormed := by
    intro c hc
    rw [c.query_operand]
    exact Query.wellFormed_collapse (.inl rfl) c.trees_ne_nil hc
  match s with
  | .one chain => simpa using hchain chain (chain.wellFormed_trees ht ho)
  | .more chain rest =>
    obtain ⟨hfirst, hrest⟩ := List.forall_mem_append.1 ht
    exact List.forall_mem_cons.2 ⟨hchain chain (chain.wellFormed_trees hfirst ho.1),
      rest.wellFormed_operands hrest ho.2⟩

/-- Each tree of a choice is a sequence, which is collapsed to the conjunction of its conjuncts. -/
theorem Choice.wellFormed_trees (c : Choice) (ht : ∀ t ∈ c.tokens, t.Accepted)
    (ho : c.ExcludesOnce) : ∀ q ∈ c.trees, q.WellFormed := by
  have hsequence : ∀ s : Sequence, (∀ o ∈ s.operands, o.query.WellFormed) →
      (Query.collapse .all (conjuncts s.operands)).WellFormed := fun s hs =>
    Query.wellFormed_collapse (.inl rfl) (conjuncts_ne_nil s.operands_ne_nil)
      (wellFormed_conjuncts hs)
  match c with
  | .one first =>
    simpa using hsequence first (first.wellFormed_operands ht ho)
  | .more first rest =>
    obtain ⟨hfirst, hrest⟩ := List.forall_mem_append.1 ht
    exact List.forall_mem_cons.2 ⟨hsequence first (first.wellFormed_operands hfirst ho.1),
      rest.wellFormed_trees (List.forall_mem_cons.1 hrest).2 ho.2⟩

end

/-- A derivation of the lexemes of a text stands for a well-formed query. -/
theorem Choice.Derives.wellFormed_tree {c : Choice} {text : String} {lexemes : List Lexeme}
    (h : c.Derives lexemes) (htokens : tokenize text = .ok lexemes) : c.tree.WellFormed := by
  have hproper := (laidOut_tokenize htokens).proper
  have haccepted : ∀ t ∈ c.tokens, t.Accepted := by
    intro t ht
    have hmem : t ∈ lexemes.map Lexeme.token := by
      rw [h.tokens]
      exact List.mem_append_left _ ht
    obtain ⟨l, hl, rfl⟩ := List.mem_map.1 hmem
    exact ⟨hproper l hl, h.wellBound.spoken l hl⟩
  exact Query.wellFormed_collapse (.inr rfl) c.trees_ne_nil
    (c.wellFormed_trees haccepted h.excludesOnce)

end Derivation

/-- Whatever text a query is compiled from, the query is well formed. -/
theorem wellFormed_of_compile {text : String} {q : Query} (h : compile text = .ok q) :
    q.WellFormed := by
  obtain ⟨lexemes, htokens, c, hc, rfl⟩ := compile_eq_ok_iff_derives.1 h
  exact hc.wellFormed_tree htokens

theorem wellFormed_of_compile_mixed :
    let members : Query := .any [.phrase ["b", "\"c"], .all [.term "d,", .term ":e"]]
    let q : Query := .all [.exclude (.within "a" members), .within ":" (.exclude (.term "f"))]
    compile "-a:(\" b \\\"c\" OR d, AND :e) ::(-f)" = .ok q ∧ q.WellFormed := by
  intro members q
  have h : compile "-a:(\" b \\\"c\" OR d, AND :e) ::(-f)" = .ok q := by decide +kernel
  exact ⟨h, wellFormed_of_compile h⟩

end TextQuery
