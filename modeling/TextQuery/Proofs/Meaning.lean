import Mathlib.Data.List.Basic
import TextQuery.Proofs.Acceptance
import TextQuery.Search

/-!
# What a query means

The meaning of a query is told on its derivation from the grammar: when a word, a chain, a
sequence and a choice are true of a document. The filter that the text is turned into, by way of
the tree, accepts just the documents that the derivation is true of.
-/
namespace TextQuery

/-- Some value of some of the fields that `scope` stands for matches the words. -/
def Found (s : Schema) (doc : Json) (scope : Scope) (words : List String) : Prop :=
  ∃ field ∈ s.fieldsFor scope, ∃ value ∈ doc.lookup field, Json.matchesWords words value = true

namespace Derivation
open Grammar

/-- An operand of a sequence: its prefix, the tree of what stands behind the prefix, and whether
that is true. -/
structure Neighbour where
  role : Role
  tree : Query
  truth : Prop

/-- An unprefixed operand that does more than exclude. -/
def Neighbour.IsAlternative (n : Neighbour) : Prop :=
  n.role = .optional ∧ n.tree.isNegation = false

/-- When the operands of a sequence make it true. -/
structure Together (ns : List Neighbour) : Prop where
  required : ∀ n ∈ ns, n.role = .required → n.truth
  excluded : ∀ n ∈ ns, n.role = .excluded → ¬ n.truth
  negated : ∀ n ∈ ns, n.role = .optional → n.tree.isNegation = true → n.truth
  alternatives : (∃ n ∈ ns, n.IsAlternative) → ∃ n ∈ ns, n.IsAlternative ∧ n.truth

section
variable (s : Schema) (doc : Json)

mutual

/-- When a derivation is true of a document, if words are looked for in `scope`. -/
def Primary.Holds (scope : Scope) : Primary → Prop
  | .word text => Found s doc scope [text]
  | .phrase text => Found s doc scope ((Text.blankSeparated text.toList).map String.ofList)
  | .scoped field inner => ∃ path, s.resolve field = .ok path ∧ inner.Holds (.field path)
  | .group inner => inner.Holds scope

def Prefixed.Holds (scope : Scope) : Prefixed → Prop
  | .plain operand | .required operand => operand.Holds scope
  | .excluded operand => ¬ operand.Holds scope

def Chain.Holds (scope : Scope) : Chain → Prop
  | .one operand => operand.Holds scope
  | .more operand rest => operand.Holds scope ∧ rest.Holds scope

/-- A chain among its neighbours: of several operands, it counts as one unprefixed operand. -/
def Chain.neighbour (scope : Scope) : Chain → Neighbour
  | .one (.plain operand) => ⟨.optional, operand.tree, operand.Holds scope⟩
  | .one (.required operand) => ⟨.required, operand.tree, operand.Holds scope⟩
  | .one (.excluded operand) => ⟨.excluded, operand.tree, operand.Holds scope⟩
  | .more operand rest =>
    ⟨.optional, .all (operand.tree :: rest.trees), operand.Holds scope ∧ rest.Holds scope⟩

def Sequence.neighbours (scope : Scope) : Sequence → List Neighbour
  | .one chain => [chain.neighbour scope]
  | .more chain rest => chain.neighbour scope :: rest.neighbours scope

def Choice.Holds (scope : Scope) : Choice → Prop
  | .one first => Together (first.neighbours scope)
  | .more first rest => Together (first.neighbours scope) ∨ rest.Holds scope

end

attribute [simp] Primary.Holds Prefixed.Holds Chain.Holds Chain.neighbour Sequence.neighbours
  Choice.Holds

end

end Derivation

namespace Query

section
variable (s : Schema) (doc : Json)

mutual

/-- When a tree is true of a document, if words are looked for in `scope`. -/
def Holds (scope : Scope) : Query → Prop
  | term word => Found s doc scope [word]
  | phrase words => Found s doc scope words
  | within field inner => ∃ path, s.resolve field = .ok path ∧ Holds (.field path) inner
  | exclude inner => ¬ Holds scope inner
  | all qs => HoldsEach scope qs
  | any qs => HoldsSome scope qs

def HoldsEach (scope : Scope) : List Query → Prop
  | [] => True
  | q :: qs => Holds scope q ∧ HoldsEach scope qs

def HoldsSome (scope : Scope) : List Query → Prop
  | [] => False
  | q :: qs => Holds scope q ∨ HoldsSome scope qs

end

attribute [simp] Holds HoldsEach HoldsSome

end

variable {s : Schema} {doc : Json} {scope : Scope}

@[simp] theorem holdsEach_iff {qs : List Query} :
    HoldsEach s doc scope qs ↔ ∀ q ∈ qs, q.Holds s doc scope := by
  induction qs with
  | nil => simp
  | cons q qs ih => simp [ih]

@[simp] theorem holdsSome_iff {qs : List Query} :
    HoldsSome s doc scope qs ↔ ∃ q ∈ qs, q.Holds s doc scope := by
  induction qs with
  | nil => simp
  | cons q qs ih => simp [ih]

/-- A single query is not wrapped, but it is true just when the conjunction of it alone is. -/
@[simp] theorem holds_collapse_all {qs : List Query} :
    (collapse all qs).Holds s doc scope ↔ ∀ q ∈ qs, q.Holds s doc scope := by
  unfold collapse
  split
  · simp
  · rw [Holds, holdsEach_iff]

@[simp] theorem holds_collapse_any {qs : List Query} :
    (collapse any qs).Holds s doc scope ↔ ∃ q ∈ qs, q.Holds s doc scope := by
  unfold collapse
  split
  · simp
  · rw [Holds, holdsSome_iff]

end Query

namespace Derivation
open Grammar

/-- The conjuncts are the restrictions and, if there are alternatives, their disjunction. -/
theorem mem_conjuncts_iff {os : List Operand} {q : Query} :
    q ∈ conjuncts os ↔ (∃ o ∈ os, o.restricts = true ∧ o.query = q) ∨
      ((∃ o ∈ os, o.restricts = false) ∧
        .collapse .any ((os.filter fun o => !o.restricts).map Operand.query) = q) := by
  simp only [conjuncts, List.mem_filterMap, Prod.exists, List.mem_zipIdx_iff_getElem?]
  constructor
  · rintro ⟨o, i, ho, hq⟩
    have hmem := List.mem_of_getElem? ho
    unfold conjunctAt? at hq
    split at hq
    · next hr => exact .inl ⟨o, hmem, hr, by simpa using hq⟩
    · next hr =>
      dsimp only at hq
      split at hq
      · exact .inr ⟨⟨o, hmem, by simpa using hr⟩, by simpa using hq⟩
      · cases hq
  · rintro (⟨o, ho, hr, rfl⟩ | ⟨⟨o, ho, hr⟩, rfl⟩)
    · obtain ⟨i, hi, rfl⟩ := List.getElem_of_mem ho
      exact ⟨os[i], i, List.getElem?_eq_getElem hi, by simp [conjunctAt?, hr]⟩
    · obtain ⟨i, hfirst⟩ : ∃ i, os.findIdx? (fun o => !o.restricts) = some i := by
        rw [← Option.isSome_iff_exists, List.findIdx?_isSome, List.any_eq_true]
        exact ⟨o, ho, by simp [hr]⟩
      obtain ⟨hi, hri, -⟩ := List.findIdx?_eq_some_iff_getElem.1 hfirst
      have hri : os[i].restricts = false := by simpa using hri
      exact ⟨os[i], i, List.getElem?_eq_getElem hi, by simp [conjunctAt?, hri, hfirst]⟩

/-- An operand of the tree that stands for an operand of a sequence. -/
def Neighbour.operand (n : Neighbour) : Operand :=
  ⟨n.role, if n.role = .excluded then .exclude n.tree else n.tree⟩

/-- The alternatives are the operands that do not restrict. -/
theorem Neighbour.restricts_operand {n : Neighbour} :
    n.operand.restricts = false ↔ n.IsAlternative := by
  obtain ⟨role, tree, truth⟩ := n
  cases role <;> simp [operand, Operand.restricts, IsAlternative]

section
variable {s : Schema} {doc : Json}

theorem Chain.operand_neighbour (scope : Scope) : ∀ c : Chain,
    (c.neighbour s doc scope).operand = c.operand
  | .one (.plain _) => rfl
  | .one (.required _) => rfl
  | .one (.excluded _) => rfl
  | .more _ _ => rfl

/-- A sequence has the same operands in its tree as in its meaning. -/
theorem Sequence.operands_eq (scope : Scope) : ∀ q : Sequence,
    q.operands = (q.neighbours s doc scope).map Neighbour.operand := by
  intro q
  cases q with
  | one c => simp [operands, c.operand_neighbour]
  | more c q => simp [operands, c.operand_neighbour, q.operands_eq scope]

/-- The tree of an excluded operand is negated in its query, as its truth is among its neighbours.
-/
theorem Neighbour.holds_operand_iff {scope : Scope} {n : Neighbour}
    (h : n.tree.Holds s doc scope ↔ n.truth) :
    n.operand.query.Holds s doc scope ↔ if n.role = .excluded then ¬ n.truth else n.truth := by
  unfold operand
  split
  · exact not_congr h
  · exact h

section
variable {scope : Scope} {ns : List Neighbour}

/-- The disjunction of the alternatives is true just when one of them is. -/
theorem holds_alternatives_iff (h : ∀ n ∈ ns, (n.tree.Holds s doc scope ↔ n.truth)) :
    (Query.collapse .any (((ns.map Neighbour.operand).filter fun o => !o.restricts).map
      Operand.query)).Holds s doc scope ↔ ∃ n ∈ ns, n.IsAlternative ∧ n.truth := by
  simp only [Query.holds_collapse_any, List.mem_map, List.mem_filter, Bool.not_eq_true']
  constructor
  · rintro ⟨_, ⟨_, ⟨⟨n, hn, rfl⟩, hr⟩, rfl⟩, hq⟩
    have ha := Neighbour.restricts_operand.1 hr
    have hq := (Neighbour.holds_operand_iff (h n hn)).1 hq
    exact ⟨n, hn, ha, by simpa [ha.1] using hq⟩
  · rintro ⟨n, hn, ha, ht⟩
    have hq := (Neighbour.holds_operand_iff (h n hn)).2 (by simpa [ha.1] using ht)
    exact ⟨_, ⟨_, ⟨⟨n, hn, rfl⟩, Neighbour.restricts_operand.2 ha⟩, rfl⟩, hq⟩

/-- If each operand is true just as its tree is, so are all of them together. -/
theorem holds_conjuncts_iff (h : ∀ n ∈ ns, (n.tree.Holds s doc scope ↔ n.truth)) :
    (∀ q ∈ conjuncts (ns.map Neighbour.operand), q.Holds s doc scope) ↔ Together ns := by
  constructor
  · intro hall
    have hr : ∀ n ∈ ns, n.operand.restricts = true →
        if n.role = .excluded then ¬ n.truth else n.truth := by
      intro n hn hr
      have hmem := mem_conjuncts_iff.2 (.inl ⟨n.operand, List.mem_map_of_mem hn, hr, rfl⟩)
      exact (Neighbour.holds_operand_iff (h n hn)).1 (hall _ hmem)
    refine ⟨fun n hn hrole => ?_, fun n hn hrole => ?_, fun n hn hrole hneg => ?_, ?_⟩
    · simpa [hrole] using hr n hn (by simp [Neighbour.operand, Operand.restricts, hrole])
    · simpa [hrole] using hr n hn (by simp [Neighbour.operand, Operand.restricts, hrole])
    · simpa [hrole] using hr n hn (by simp [Neighbour.operand, Operand.restricts, hrole, hneg])
    · rintro ⟨n, hn, ha⟩
      refine (holds_alternatives_iff h).1 (hall _ (mem_conjuncts_iff.2 (.inr ⟨?_, rfl⟩)))
      exact ⟨n.operand, List.mem_map_of_mem hn, Neighbour.restricts_operand.2 ha⟩
  · rintro ht q hq
    obtain ⟨_, ho, hr, rfl⟩ | ⟨⟨_, ho, hr⟩, rfl⟩ := mem_conjuncts_iff.1 hq
    · obtain ⟨n, hn, rfl⟩ := List.mem_map.1 ho
      refine (Neighbour.holds_operand_iff (h n hn)).2 ?_
      cases hrole : n.role with
      | required => simpa using ht.required n hn hrole
      | excluded => simpa using ht.excluded n hn hrole
      | optional =>
        simpa using ht.negated n hn hrole (by
          simpa [Neighbour.operand, Operand.restricts, hrole] using hr)
    · obtain ⟨n, hn, rfl⟩ := List.mem_map.1 ho
      exact (holds_alternatives_iff h).2
        (ht.alternatives ⟨n, hn, Neighbour.restricts_operand.1 hr⟩)

end

mutual

/-- A tree is true of the documents that its derivation is true of. The recursion is on the
derivation; in a sequence it goes through the neighbours. -/
theorem Primary.holds_tree_iff (p : Primary) (scope : Scope) :
    p.tree.Holds s doc scope ↔ p.Holds s doc scope := by
  match p with
  | .word text => rfl
  | .phrase text => rfl
  | .scoped field inner =>
    simp only [Primary.tree, Query.Holds, Primary.Holds]
    exact exists_congr fun path => and_congr_right fun _ => inner.holds_tree_iff (.field path)
  | .group inner =>
    rw [Primary.tree, Query.holds_collapse_any, Primary.Holds, inner.holds_trees_iff scope]

theorem Prefixed.holds_tree_iff (p : Prefixed) (scope : Scope) :
    p.tree.Holds s doc scope ↔ p.Holds s doc scope := by
  match p with
  | .plain operand => exact operand.holds_tree_iff scope
  | .required operand => exact operand.holds_tree_iff scope
  | .excluded operand =>
    simp only [Prefixed.tree, Query.Holds, Prefixed.Holds]
    exact not_congr (operand.holds_tree_iff scope)

theorem Chain.holds_trees_iff (c : Chain) (scope : Scope) :
    (∀ q ∈ c.trees, q.Holds s doc scope) ↔ c.Holds s doc scope := by
  match c with
  | .one p => simp [p.holds_tree_iff scope]
  | .more p rest =>
    simp [p.holds_tree_iff scope, ← rest.holds_trees_iff scope]

theorem Chain.holds_neighbour_iff (c : Chain) (scope : Scope) :
    (c.neighbour s doc scope).tree.Holds s doc scope ↔ (c.neighbour s doc scope).truth := by
  match c with
  | .one (.plain p) => exact p.holds_tree_iff scope
  | .one (.required p) => exact p.holds_tree_iff scope
  | .one (.excluded p) => exact p.holds_tree_iff scope
  | .more p rest =>
    simp only [Chain.neighbour, Query.Holds, Query.HoldsEach, Query.holdsEach_iff]
    rw [p.holds_tree_iff scope, rest.holds_trees_iff scope]

theorem Sequence.holds_neighbours_iff (q : Sequence) (scope : Scope) :
    ∀ n ∈ q.neighbours s doc scope, (n.tree.Holds s doc scope ↔ n.truth) := by
  match q with
  | .one c => simpa using c.holds_neighbour_iff scope
  | .more c rest =>
    rw [Sequence.neighbours, List.forall_mem_cons]
    exact ⟨c.holds_neighbour_iff scope, rest.holds_neighbours_iff scope⟩

theorem Choice.holds_trees_iff (c : Choice) (scope : Scope) :
    (∃ q ∈ c.trees, q.Holds s doc scope) ↔ c.Holds s doc scope := by
  match c with
  | .one q =>
    simp only [Choice.trees, Choice.Holds, List.mem_singleton, exists_eq_left,
      Query.holds_collapse_all]
    rw [q.operands_eq scope, holds_conjuncts_iff (q.holds_neighbours_iff scope)]
  | .more q rest =>
    simp only [Choice.trees, Choice.Holds, List.exists_mem_cons_iff, Query.holds_collapse_all]
    rw [q.operands_eq scope, holds_conjuncts_iff (q.holds_neighbours_iff scope),
      rest.holds_trees_iff scope]

end

/-- The tree of a whole query is true of the documents that its derivation is true of. -/
theorem Choice.holds_tree_iff (c : Choice) (scope : Scope) :
    c.tree.Holds s doc scope ↔ c.Holds s doc scope := by
  rw [Choice.tree, Query.holds_collapse_any, c.holds_trees_iff scope]

end

end Derivation

theorem Except.bind_eq_ok_iff {ε α β : Type} {x : Except ε α} {f : α → Except ε β} {b : β} :
    (x >>= f) = .ok b ↔ ∃ a, x = .ok a ∧ f a = .ok b := by
  cases x <;> simp [bind, Except.bind]

section
variable {s : Schema} {doc : Json}

/-- A filter looks for its words in each field of the scope by itself. -/
theorem Filter.fieldMatches_iff {scope : Scope} {words : List String} :
    fieldMatches (s.fieldsFor scope) words doc = true ↔ Found s doc scope words := by
  simp [fieldMatches, Found]

mutual

/-- A filter that a tree is lowered to accepts the documents that the tree is true of. The
hypothesis says that the schema knows every field name in the tree. -/
theorem Query.accepts_of_lowerIn (q : Query) {scope : Scope} {f : Filter}
    (h : q.lowerIn (Filter.target s) scope = .ok f) :
    f.accepts doc = true ↔ q.Holds s doc scope := by
  match q with
  | .term word =>
    cases h
    exact Filter.fieldMatches_iff
  | .phrase words =>
    cases h
    exact Filter.fieldMatches_iff
  | .within field inner =>
    obtain ⟨path, hpath, hinner⟩ := Except.bind_eq_ok_iff.1 h
    rw [inner.accepts_of_lowerIn hinner]
    constructor
    · exact fun hh => ⟨path, hpath, hh⟩
    · rintro ⟨path', hpath', hh⟩
      cases hpath.symm.trans hpath'
      exact hh
  | .exclude inner =>
    obtain ⟨g, hg, hf⟩ := Except.bind_eq_ok_iff.1 h
    cases hf
    simp [← inner.accepts_of_lowerIn hg]
  | .all qs =>
    obtain ⟨fs, hfs, hf⟩ := Except.bind_eq_ok_iff.1 h
    cases hf
    exact (Query.accepts_of_lowerList qs hfs).1
  | .any qs =>
    obtain ⟨fs, hfs, hf⟩ := Except.bind_eq_ok_iff.1 h
    cases hf
    exact (Query.accepts_of_lowerList qs hfs).2

theorem Query.accepts_of_lowerList (qs : List Query) {scope : Scope} {fs : List Filter}
    (h : lowerList (Filter.target s) scope qs = .ok fs) :
    (Filter.acceptsEach doc fs = true ↔ HoldsEach s doc scope qs) ∧
      (Filter.acceptsSome doc fs = true ↔ HoldsSome s doc scope qs) := by
  match qs with
  | [] =>
    cases h
    simp
  | q :: qs =>
    obtain ⟨g, hg, h⟩ := Except.bind_eq_ok_iff.1 h
    obtain ⟨gs, hgs, h⟩ := Except.bind_eq_ok_iff.1 h
    cases h
    have hq := q.accepts_of_lowerIn hg
    obtain ⟨heach, hsome⟩ := Query.accepts_of_lowerList qs hgs
    simp [hq, heach, hsome]

end

end

/-- A text is turned into a predicate by way of its tree alone. -/
theorem Searcher.lowered_eq_ok_iff {P : Type} {lower : Query → Except UnknownField P}
    {text : String} {p : P} :
    lowered lower text = .ok p ↔ ∃ q, compile text = .ok q ∧ lower q = .ok p := by
  unfold lowered
  cases compile text with
  | error e => simp
  | ok q => cases h : lower q <;> simp [h, Except.mapError]

theorem Searcher.filterOf_eq_ok_iff {s : Searcher} {text : String} {f : Filter} :
    s.filterOf text = .ok f ↔
      ∃ q, compile text = .ok q ∧ Filter.ofQuery s.schema q = .ok f :=
  lowered_eq_ok_iff

open TextQuery.Derivation in
/-- The filter of a text accepts just the documents that the text is true of, as derived from the
grammar; and the text has a derivation. -/
theorem filterOf_accepts_iff_holds {s : Searcher} {text : String} {f : Filter}
    (h : s.filterOf text = .ok f) :
    ∃ lexemes, tokenize text = .ok lexemes ∧ (∃ c : Choice, c.Derives lexemes) ∧
      ∀ c : Choice, c.Derives lexemes → ∀ doc : Json,
        f.accepts doc = true ↔ c.Holds s.schema doc .anywhere := by
  obtain ⟨q, hq, hf⟩ := Searcher.filterOf_eq_ok_iff.1 h
  obtain ⟨lexemes, ht, c, hc, -⟩ := compile_eq_ok_iff_derives.1 hq
  refine ⟨lexemes, ht, ⟨c, hc⟩, fun c hc doc => ?_⟩
  have hq' := compile_eq_ok_iff_derives.2 ⟨lexemes, ht, c, hc, rfl⟩
  cases hq.symm.trans hq'
  rw [Query.accepts_of_lowerIn _ hf, c.holds_tree_iff]

theorem filterOf_accepts_iff_holds_scoped :
    ∃ f, (Searcher.ofSchema .standard).filterOf "+harry -title:(ron \"half blood\")" = .ok f ∧
      ∃ lexemes, tokenize "+harry -title:(ron \"half blood\")" = .ok lexemes ∧
        (∃ c : Derivation.Choice, c.Derives lexemes) ∧
          ∀ c : Derivation.Choice, c.Derives lexemes → ∀ doc : Json,
            f.accepts doc = true ↔ c.Holds Schema.standard doc .anywhere := by
  have h : (Searcher.ofSchema .standard).filterOf "+harry -title:(ron \"half blood\")" =
      .ok (.all [.contains ["fields.title.value", "fields.body.value"] "harry",
        .not (.any [.contains ["fields.title.value"] "ron",
          .sequence ["fields.title.value"] ["half", "blood"]])]) :=
    Searcher.filterOf_eq_ok_iff.2 ⟨.all [.term "harry",
      .exclude (.within "title" (.any [.term "ron", .phrase ["half", "blood"]]))],
      by decide +kernel, rfl⟩
  exact ⟨_, h, filterOf_accepts_iff_holds h⟩

end TextQuery
