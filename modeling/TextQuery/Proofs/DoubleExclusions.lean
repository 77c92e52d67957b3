import TextQuery.Proofs.CompiledTrees
import TextQuery.Proofs.FieldNames

/-!
# Exclusions of exclusions

No query that a text compiles to has an exclusion right inside an exclusion, in whatever parentheses
it was written. A filter can have one all the same: lowering leaves field scopes out, and a scope
may stand between two exclusions of the query. Nothing else makes them meet.
-/
namespace TextQuery

namespace Filter

/-- The direct parts, in order. -/
def children : Filter → List Filter
  | contains _ _ | sequence _ _ => []
  | not inner => [inner]
  | all fs | any fs => fs

@[simp] theorem children_contains (fields : List String) (word : String) :
    (contains fields word).children = [] := rfl
@[simp] theorem children_sequence (fields words : List String) :
    (sequence fields words).children = [] := rfl
@[simp] theorem children_not (inner : Filter) : (not inner).children = [inner] := rfl
@[simp] theorem children_all (fs : List Filter) : (all fs).children = fs := rfl
@[simp] theorem children_any (fs : List Filter) : (any fs).children = fs := rfl

def isNot : Filter → Bool
  | not _ => true
  | _ => false

/-- The filter is no exclusion of an exclusion. -/
def NegatesOnce : Filter → Prop
  | not inner => inner.isNot = false
  | _ => True

/-- The filter and all filters in it satisfy `P`. -/
inductive Everywhere (P : Filter → Prop) : Filter → Prop where
  | intro {f : Filter} (node : P f) (below : ∀ child ∈ f.children, Everywhere P child) :
      Everywhere P f

theorem everywhere_iff {P : Filter → Prop} {f : Filter} :
    f.Everywhere P ↔ P f ∧ ∀ child ∈ f.children, child.Everywhere P :=
  ⟨fun ⟨node, below⟩ => ⟨node, below⟩, fun ⟨node, below⟩ => ⟨node, below⟩⟩

end Filter

namespace Query

/-- The query is no exclusion of an exclusion, with or without field scopes between them. -/
def NegatesOnce : Query → Prop
  | exclude inner => inner.isNegation = false
  | _ => True

/-- The query is no exclusion of a field scope that hides an exclusion. -/
def HidesNoExclusion : Query → Prop
  | exclude (within _ inner) => inner.isNegation = false
  | _ => True

instance : DecidablePred HidesNoExclusion
  | exclude (within _ inner) => inferInstanceAs (Decidable (inner.isNegation = false))
  | exclude (term _) | exclude (phrase _) | exclude (exclude _) | exclude (all _) | exclude (any _)
  | term _ | phrase _ | within _ _ | all _ | any _ => isTrue trivial

theorem everywhere_congr {P Q R : Query → Prop} {q : Query} (h : q.Everywhere R)
    (hnode : ∀ n, R n → (P n ↔ Q n)) : q.Everywhere P ↔ q.Everywhere Q := by
  induction h with
  | intro node below ih =>
    rw [everywhere_iff, everywhere_iff, hnode _ node]
    exact and_congr_right fun _ => forall₂_congr ih

/-- Where no exclusion is right inside an exclusion, only field scopes can hide one. -/
theorem negatesOnce_iff_of_proper {inPhrase : Char → Bool} {q : Query} (h : q.Proper inPhrase) :
    q.NegatesOnce ↔ q.HidesNoExclusion := by
  match q with
  | exclude inner =>
    cases inner with
    | exclude inner => cases h
    | within field inner => rfl
    | term | phrase | all | any => simp [NegatesOnce, HidesNoExclusion, isNegation]
  | term _ | phrase _ | within _ _ | all _ | any _ => rfl

/-- The exclusions among the filters are those of negations. -/
theorem isNot_fold (s : Schema) (scope : Scope) (q : Query) :
    (q.fold (Filter.constructors s) s.pathOf scope).isNot = q.isNegation := by
  match q with
  | within field inner => exact isNot_fold s (.field (s.pathOf field)) inner
  | term _ | phrase _ | exclude _ | all _ | any _ => rfl

mutual

/-- An exclusion of an exclusion in the filter comes from one in the query, with nothing but field
scopes between them. -/
theorem everywhere_fold_iff (s : Schema) (scope : Scope) (q : Query) :
    (q.fold (Filter.constructors s) s.pathOf scope).Everywhere Filter.NegatesOnce ↔
      q.Everywhere NegatesOnce := by
  match q with
  | term _ | phrase _ =>
    rw [Filter.everywhere_iff, everywhere_iff]
    simp [Filter.NegatesOnce, NegatesOnce]
  | within field inner =>
    rw [everywhere_iff, fold, everywhere_fold_iff s (.field (s.pathOf field)) inner]
    simp [NegatesOnce]
  | exclude inner =>
    have hnode : (Filter.not (inner.fold (Filter.constructors s) s.pathOf scope)).NegatesOnce ↔
        (exclude inner).NegatesOnce := by
      rw [Filter.NegatesOnce, isNot_fold, NegatesOnce]
    have hinner := everywhere_fold_iff s scope inner
    rw [Filter.everywhere_iff, everywhere_iff]
    refine and_congr hnode ?_
    simpa using hinner
  | all qs | any qs =>
    rw [Filter.everywhere_iff, everywhere_iff]
    exact and_congr Iff.rfl (everywhere_foldList_iff s scope qs)

theorem everywhere_foldList_iff (s : Schema) (scope : Scope) (qs : List Query) :
    (∀ f ∈ foldList (Filter.constructors s) s.pathOf scope qs, f.Everywhere Filter.NegatesOnce) ↔
      ∀ q ∈ qs, q.Everywhere NegatesOnce := by
  match qs with
  | [] => simp
  | q :: qs =>
    rw [foldList, List.forall_mem_cons, List.forall_mem_cons, everywhere_fold_iff s scope q,
      everywhere_foldList_iff s scope qs]

end

end Query

open TextQuery.Derivation in
/-- No filter of a text has an exclusion of an exclusion, unless the query of the text excludes a
field scope around an exclusion, be it in several scopes. -/
theorem negatesOnce_of_compile_iff {text : String} {q : Query} {s : Schema} {f : Filter}
    (h : compile text = .ok q) (hf : Filter.ofQuery s q = .ok f) :
    f.Everywhere Filter.NegatesOnce ↔ q.Everywhere Query.HidesNoExclusion := by
  obtain ⟨lexemes, htokens, c, hc, rfl⟩ := compile_eq_ok_iff_derives.1 h
  rw [← (Filter.ofQuery_eq_ok_iff.1 hf).2, Filter.fold, Query.everywhere_fold_iff]
  exact Query.everywhere_congr (hc.wellFormed_tree htokens) fun _ =>
    Query.negatesOnce_iff_of_proper

theorem negatesOnce_of_compile_iff_nested :
    let q : Query := .exclude (.all [.term "a", .within "title" (.exclude (.term "b"))])
    ∃ f, compile "-(a title:(-b))" = .ok q ∧ Filter.ofQuery .standard q = .ok f ∧
      f.Everywhere Filter.NegatesOnce := by
  intro q
  have h : compile "-(a title:(-b))" = .ok q := by decide +kernel
  have hf : Filter.ofQuery .standard q =
      .ok (.not (.all [.contains ["fields.title.value", "fields.body.value"] "a",
        .not (.contains ["fields.title.value"] "b")])) := rfl
  exact ⟨_, h, hf, (negatesOnce_of_compile_iff h hf).2 (by decide)⟩

/-- A field scope hides an exclusion from the `-` before it. -/
theorem not_negatesOnce_hidden :
    let q : Query := .exclude (.within "title" (.exclude (.term "x")))
    ∃ f, compile "-title:(-x)" = .ok q ∧ Filter.ofQuery .standard q = .ok f ∧
      ¬ f.Everywhere Filter.NegatesOnce := by
  intro q
  have h : compile "-title:(-x)" = .ok q := by decide +kernel
  have hf : Filter.ofQuery .standard q =
      .ok (.not (.not (.contains ["fields.title.value"] "x"))) := rfl
  refine ⟨_, h, hf, fun hnone => ?_⟩
  cases (Filter.everywhere_iff.1 hnone).1

end TextQuery
