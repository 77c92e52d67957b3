import Mathlib.Algebra.GroupWithZero.Nat
import Mathlib.Data.Multiset.Bind
import TextQuery.Proofs.RoundTrip
import TextQuery.Proofs.Visits

/-!
# Nothing of a text is lost in its query

A quantity of queries that adds up over the nodes, such as how often a word occurs, adds up over the
tokens of a derivation to the same amount: the grammar moves operands and drops combinations of a
single part, but it neither leaves out an operand nor uses one twice.
-/
namespace TextQuery

namespace Token

/-- The words that a token adds to a query. -/
def words : Token → List String
  | word text => [text]
  | phrase text => (Text.blankSeparated text.toList).map String.ofList
  | _ => []

/-- The field name that a token adds to a query. -/
def fieldName? : Token → Option String
  | field name => some name
  | _ => none

end Token

namespace Query

mutual

/-- The number of exclusions at all nodes. -/
def exclusions : Query → Nat
  | term _ | phrase _ => 0
  | within _ inner => inner.exclusions
  | exclude inner => inner.exclusions + 1
  | all qs | any qs => exclusionsList qs

def exclusionsList : List Query → Nat
  | [] => 0
  | q :: qs => q.exclusions + exclusionsList qs

end

theorem exclusionsList_eq_sum (qs : List Query) :
    exclusionsList qs = (qs.map exclusions).sum := by
  induction qs with
  | nil => rfl
  | cons q qs ih => rw [exclusionsList, ih, List.map_cons, List.sum_cons]

/-- The quantity `total` of a query adds up over its nodes, and each node has what `own` says of the
token that it is made from; conjunctions, disjunctions and all other tokens have nothing. -/
structure AddsUp {M : Type} [AddCommMonoid M] (total : Query → M) (own : Token → M) : Prop where
  term (word : String) : total (term word) = own (.word word)
  phrase (text : String) :
    total (phrase ((Text.blankSeparated text.toList).map String.ofList)) = own (.phrase text)
  within (field : String) (inner : Query) :
    total (within field inner) = own (.field field) + total inner
  exclude (inner : Query) : total (exclude inner) = own .exclude + total inner
  all (qs : List Query) : total (all qs) = (qs.map total).sum
  any (qs : List Query) : total (any qs) = (qs.map total).sum
  others : ∀ t ∈ [Token.require, .openGroup, .closeGroup, .and, .or, .finish], own t = 0

end Query

namespace Derivation
open Grammar

section
variable {M : Type} [AddCommMonoid M] {total : Query → M} {own : Token → M}

/-- It adds nothing to combine queries, so it does not matter whether there is only one. -/
theorem total_collapse (h : Query.AddsUp total own) {combine : List Query → Query}
    (hcombine : combine = .all ∨ combine = .any) (qs : List Query) :
    total (.collapse combine qs) = (qs.map total).sum := by
  match qs with
  | [q] => simp [Query.collapse]
  | [] | q :: r :: qs =>
    rcases hcombine with rfl | rfl
    · exact h.all _
    · exact h.any _

/-- The conjuncts of neighbouring operands have what the operands have. -/
theorem total_conjuncts (h : Query.AddsUp total own) (os : List Operand) :
    ((conjuncts os).map total).sum = (os.map fun o => total o.query).sum := by
  rw [← conditions_eq_conjuncts]
  have hsplit := List.takeWhile_append_dropWhile (p := Operand.restricts) (l := os)
  have hperm := List.filter_append_perm Operand.restricts (os.dropWhile Operand.restricts)
  unfold conditions
  dsimp only
  generalize os.takeWhile Operand.restricts = leading at *
  generalize os.dropWhile Operand.restricts = others at *
  subst hsplit
  have halternatives : ((if (others.filter fun o => !o.restricts).isEmpty then [] else
      [Query.collapse .any ((others.filter fun o => !o.restricts).map Operand.query)]).map
        total).sum = ((others.filter fun o => !o.restricts).map fun o => total o.query).sum := by
    split
    · next hempty => simp [List.isEmpty_iff.1 hempty]
    · simp [total_collapse h (.inr rfl), Function.comp_def]
  have hothers := (hperm.map fun o => total o.query).sum_eq
  rw [List.map_append, List.sum_append] at hothers
  rw [List.map_append, List.map_append, List.sum_append, List.sum_append, halternatives,
    List.map_append, List.sum_append, ← hothers, List.map_map, List.map_map]
  simp only [Function.comp_def]
  rw [add_assoc, add_comm (List.sum (List.map _ (others.filter fun o => !o.restricts)))]

mutual

/-- The tree of a derivation has what its tokens have. The recursion is on the derivation, as the
conjuncts of a sequence may come in another order than its tokens. -/
theorem Primary.total_tree (h : Query.AddsUp total own) (p : Primary) :
    total p.tree = (p.tokens.map own).sum := by
  match p with
  | .word text => simp [h.term]
  | .phrase text => simp [h.phrase]
  | .scoped field inner => simp [h.within, inner.total_tree h]
  | .group inner =>
    have hopen : own .openGroup = 0 := h.others _ (by simp)
    have hclose : own .closeGroup = 0 := h.others _ (by simp)
    simp [hopen, hclose, total_collapse h (.inr rfl), inner.total_trees h]

theorem Prefixed.total_tree (h : Query.AddsUp total own) (p : Prefixed) :
    total p.tree = (p.tokens.map own).sum := by
  match p with
  | .plain operand => exact operand.total_tree h
  | .excluded operand => simp [h.exclude, operand.total_tree h]
  | .required operand =>
    have hrequire : own .require = 0 := h.others _ (by simp)
    simp [hrequire, operand.total_tree h]

theorem Chain.total_trees (h : Query.AddsUp total own) (c : Chain) :
    (c.trees.map total).sum = (c.tokens.map own).sum := by
  match c with
  | .one operand => simp [operand.total_tree h]
  | .more operand rest =>
    have hand : own .and = 0 := h.others _ (by simp)
    simp [hand, operand.total_tree h, rest.total_trees h]

theorem Sequence.total_operands (h : Query.AddsUp total own) (s : Sequence) :
    (s.operands.map fun o => total o.query).sum = (s.tokens.map own).sum := by
  have hchain : ∀ c : Chain, total c.operand.query = (c.trees.map total).sum := by
    intro c
    rw [c.query_operand, total_collapse h (.inl rfl)]
  match s with
  | .one chain => simp [hchain, chain.total_trees h]
  | .more chain rest =>
    simp [hchain, chain.total_trees h, rest.total_operands h]

theorem Choice.total_trees (h : Query.AddsUp total own) (c : Choice) :
    (c.trees.map total).sum = (c.tokens.map own).sum := by
  have hsequence : ∀ s : Sequence, total (.collapse .all (conjuncts s.operands)) =
      (s.operands.map fun o => total o.query).sum := by
    intro s
    rw [total_collapse h (.inl rfl), total_conjuncts h]
  match c with
  | .one first =>
    simp [hsequence, first.total_operands h]
  | .more first rest =>
    have hor : own .or = 0 := h.others _ (by simp)
    simp [hsequence, hor, first.total_operands h, rest.total_trees h]

end

/-- What adds up over the nodes of a query adds up over the lexemes that it is derived from. -/
theorem Choice.Derives.total_tree {c : Choice} {lexemes : List Lexeme} (hc : c.Derives lexemes)
    (h : Query.AddsUp total own) : total c.tree = (lexemes.map fun l => own l.token).sum := by
  have hfinish : own .finish = 0 := h.others _ (by simp)
  have htokens : lexemes.map (fun l => own l.token) = (c.tokens ++ [Token.finish]).map own := by
    rw [← hc.tokens, List.map_map]
    rfl
  rw [htokens, Choice.tree, total_collapse h (.inr rfl), c.total_trees h]
  simp [hfinish]

end

end Derivation

theorem coe_flatMap {α β : Type} (f : α → List β) (l : List α) :
    (l.flatMap f : Multiset β) = (l.map fun a => (f a : Multiset β)).sum :=
  (Multiset.coe_bind l f).symm

namespace Query

/-- The words of a query are taken as a multiset, in which they add up in any order. -/
theorem addsUp_words : AddsUp (fun q => (q.words : Multiset String)) fun t => t.words := by
  have hlist : ∀ qs, (wordsList qs : Multiset String) =
      (qs.map fun q => (q.words : Multiset String)).sum := by
    intro qs
    rw [wordsList_eq_flatMap, coe_flatMap]
  exact {
    term := fun _ => rfl
    phrase := fun _ => rfl
    within := fun _ _ => (zero_add _).symm
    exclude := fun _ => (zero_add _).symm
    all := hlist
    any := hlist
    others := by simp [Token.words] }

theorem addsUp_scopes :
    AddsUp (fun q => (q.scopes : Multiset String)) fun t => t.fieldName?.toList := by
  have hlist : ∀ qs, (scopesList qs : Multiset String) =
      (qs.map fun q => (q.scopes : Multiset String)).sum := by
    intro qs
    rw [scopesList_eq_flatMap, coe_flatMap]
  exact {
    term := fun _ => rfl
    phrase := fun _ => rfl
    within := fun _ _ => rfl
    exclude := fun _ => (zero_add _).symm
    all := hlist
    any := hlist
    others := by simp [Token.fieldName?] }

theorem addsUp_exclusions : AddsUp exclusions fun t => if t = .exclude then 1 else 0 where
  term _ := rfl
  phrase _ := rfl
  within _ _ := (Nat.zero_add _).symm
  exclude _ := Nat.add_comm _ _
  all := exclusionsList_eq_sum
  any := exclusionsList_eq_sum
  others := by simp

end Query

namespace Derivation

variable {c : Choice} {lexemes : List Lexeme}

theorem Choice.Derives.words_perm (h : c.Derives lexemes) :
    c.tree.words.Perm (lexemes.flatMap fun l => l.token.words) := by
  rw [← Multiset.coe_eq_coe, coe_flatMap]
  exact h.total_tree Query.addsUp_words

theorem Choice.Derives.scopes_perm (h : c.Derives lexemes) :
    c.tree.scopes.Perm (lexemes.filterMap fun l => l.token.fieldName?) := by
  rw [List.filterMap_eq_flatMap_toList, ← Multiset.coe_eq_coe, coe_flatMap]
  exact h.total_tree Query.addsUp_scopes

theorem Choice.Derives.exclusions_eq (h : c.Derives lexemes) :
    c.tree.exclusions = lexemes.countP fun l => l.token = .exclude := by
  rw [h.total_tree Query.addsUp_exclusions]
  clear h
  induction lexemes with
  | nil => rfl
  | cons l ls ih => simp [List.countP_cons, ih, Nat.add_comm]

end Derivation

/-- The words of a query are those of the word and phrase tokens of its text, each as often as
there. The same is true of its field names and of its exclusions. -/
theorem words_perm_of_compile {text : String} {q : Query} (h : compile text = .ok q) :
    ∃ lexemes, tokenize text = .ok lexemes ∧
      q.words.Perm (lexemes.flatMap fun l => l.token.words) ∧
      q.scopes.Perm (lexemes.filterMap fun l => l.token.fieldName?) ∧
      q.exclusions = lexemes.countP fun l => l.token = .exclude := by
  obtain ⟨lexemes, htokens, c, hc, rfl⟩ := compile_eq_ok_iff_derives.1 h
  exact ⟨lexemes, htokens, hc.words_perm, hc.scopes_perm, hc.exclusions_eq⟩

theorem words_perm_of_compile_moved :
    let q : Query := .all [.any [.term "a", .phrase ["b", "a"]], .exclude (.within "t" (.term "a")),
      .term "c", .within "t" (.exclude (.term "d"))]
    compile "a -t:a +c \" b a\" t:(-d)" = .ok q ∧
      ∃ lexemes, tokenize "a -t:a +c \" b a\" t:(-d)" = .ok lexemes ∧
        q.words.Perm (lexemes.flatMap fun l => l.token.words) ∧
        q.scopes.Perm (lexemes.filterMap fun l => l.token.fieldName?) ∧
        q.exclusions = lexemes.countP fun l => l.token = .exclude := by
  intro q
  have h : compile "a -t:a +c \" b a\" t:(-d)" = .ok q := by decide +kernel
  exact ⟨h, words_perm_of_compile h⟩

end TextQuery
