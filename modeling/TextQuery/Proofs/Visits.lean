import Mathlib.Tactic.ByContra
import TextQuery.Predicate.Target

/-!
# What lowering visits, and in which order

A target is made of constructors of predicates, a renaming of field names and a choice of names to
refuse, and it records every visit. Lowering into it is the fold of the query over its
constructors. It looks up a scope's name before anything inside the scope, takes children from left
to right and combines them after all of them. A refused name ends it: what has been recorded by then
is the beginning of what would be recorded if nothing were refused.
-/
namespace TextQuery

/-- How the parts of a query are expressed as predicates. -/
structure Constructors (P : Type) where
  term : Scope → String → P
  phrase : Scope → List String → P
  exclude : P → P
  all : List P → P
  any : List P → P

/-- A visit of lowering: the look-up of a field name, a leaf, or a combination of predicates. -/
inductive Visit (P : Type) where
  | resolve (field : String)
  | term (scope : Scope) (word : String)
  | phrase (scope : Scope) (words : List String)
  | exclude (inner : P)
  | all (children : List P)
  | any (children : List P)

/-- The field name that a visit looks up. -/
def Visit.field? {P : Type} : Visit P → Option String
  | resolve field => some field
  | _ => none

/-- A computation that may meet an unknown field and records its visits up to there. -/
abbrev Recorded (P : Type) := ExceptT UnknownField (StateM (List (Visit P)))

namespace Recorded

variable {P α β : Type}

def visit (v : Visit P) : Recorded P Unit :=
  modify (· ++ [v])

/-- The outcome and what has been recorded. -/
def outcome (c : Recorded P α) : Except UnknownField α × List (Visit P) :=
  c.run.run []

/-- The computation succeeds with `a` and makes these visits, whatever was recorded before. -/
def Yields (c : Recorded P α) (a : α) (visits : List (Visit P)) : Prop :=
  ∀ log, c.run.run log = (.ok a, log ++ visits)

/-- The computation fails with `e` after these visits, whatever was recorded before. -/
def Stops (c : Recorded P α) (e : UnknownField) (visits : List (Visit P)) : Prop :=
  ∀ log, c.run.run log = (.error e, log ++ visits)

variable {c : Recorded P α} {f : α → Recorded P β} {a : α} {b : β} {e : UnknownField}
  {us vs : List (Visit P)}

theorem Yields.outcome_eq (h : c.Yields a vs) : c.outcome = (.ok a, vs) := h []

theorem Stops.outcome_eq (h : c.Stops e vs) : c.outcome = (.error e, vs) := h []

theorem yields_pure (a : α) : (pure a : Recorded P α).Yields a [] := by
  intro log
  rw [List.append_nil]
  rfl

theorem yields_visit (v : Visit P) : (visit v).Yields () [v] := fun _ => rfl

/-- Visits are recorded in the order in which the computations are run. -/
theorem Yields.bind (hc : c.Yields a us) (hf : (f a).Yields b vs) :
    (c >>= f).Yields b (us ++ vs) := by
  intro log
  rw [ExceptT.run_bind, StateT.run_bind, hc log, ← List.append_assoc]
  exact hf (log ++ us)

theorem Yields.bind_stops (hc : c.Yields a us) (hf : (f a).Stops e vs) :
    (c >>= f).Stops e (us ++ vs) := by
  intro log
  rw [ExceptT.run_bind, StateT.run_bind, hc log, ← List.append_assoc]
  exact hf (log ++ us)

theorem Stops.bind (hc : c.Stops e us) : (c >>= f).Stops e us := by
  intro log
  rw [ExceptT.run_bind, StateT.run_bind, hc log]
  rfl

/-- The computation fails at the look-up of `field`, which `full` has behind the look-ups of the
names `before`, and has made the visits of `full` up to there. -/
def BreaksOff (c : Recorded P α) (full : List (Visit P)) (before : List String)
    (field : String) : Prop :=
  ∃ seen rest, full = seen ++ .resolve field :: rest ∧ seen.filterMap Visit.field? = before ∧
    c.Stops ⟨field⟩ (seen ++ [.resolve field])

variable {full : List (Visit P)} {before : List String} {field : String}

/-- What would have been done afterwards only makes the full run longer. -/
theorem BreaksOff.bind (hc : c.BreaksOff full before field) (more : List (Visit P)) :
    (c >>= f).BreaksOff (full ++ more) before field := by
  obtain ⟨seen, rest, rfl, hseen, hstops⟩ := hc
  exact ⟨seen, rest ++ more, by simp, hseen, hstops.bind⟩

theorem Yields.bind_breaksOff (hc : c.Yields a us) (hf : (f a).BreaksOff full before field) :
    (c >>= f).BreaksOff (us ++ full) (us.filterMap Visit.field? ++ before) field := by
  obtain ⟨seen, rest, rfl, rfl, hstops⟩ := hf
  refine ⟨us ++ seen, rest, by simp, List.filterMap_append, ?_⟩
  rw [List.append_assoc]
  exact hc.bind_stops hstops

end Recorded

namespace Constructors

variable {P : Type} (k : Constructors P) (rename : String → String)

/-- The target that records its visits, looks names up by `rename` and refuses those that
`refuses` says. -/
def recording (refuses : String → Bool) : Target (Recorded P) P where
  resolve field := do
    Recorded.visit (.resolve field)
    if refuses field then throw ⟨field⟩
    pure (rename field)
  term scope word := do
    Recorded.visit (.term scope word)
    pure (k.term scope word)
  phrase scope words := do
    Recorded.visit (.phrase scope words)
    pure (k.phrase scope words)
  exclude inner := do
    Recorded.visit (.exclude inner)
    pure (k.exclude inner)
  all children := do
    Recorded.visit (.all children)
    pure (k.all children)
  any children := do
    Recorded.visit (.any children)
    pure (k.any children)

variable {k rename} {refuses : String → Bool} {field : String}

theorem yields_resolve (h : refuses field = false) :
    ((k.recording rename refuses).resolve field).Yields (rename field) [.resolve field] := by
  have hrest : (if refuses field then throw ⟨field⟩ else pure (rename field) :
      Recorded P String).Yields (rename field) [] := by
    rw [h]
    exact Recorded.yields_pure _
  exact (Recorded.yields_visit _).bind hrest

theorem breaksOff_resolve (h : refuses field = true) (rest : List (Visit P)) :
    ((k.recording rename refuses).resolve field).BreaksOff (.resolve field :: rest) [] field := by
  have hrest : (if refuses field then throw ⟨field⟩ else pure (rename field) :
      Recorded P String).Stops ⟨field⟩ [] := by
    intro log
    rw [h, List.append_nil]
    rfl
  exact ⟨[], rest, rfl, rfl, (Recorded.yields_visit _).bind_stops hrest⟩

/-- A visit that makes a predicate records itself. -/
theorem yields_visit_pure (v : Visit P) (p : P) :
    (Recorded.visit v >>= fun _ => pure p : Recorded P P).Yields p [v] :=
  (Recorded.yields_visit v).bind (Recorded.yields_pure p)

end Constructors

namespace Query

variable {P : Type}

mutual

/-- The names of the field scopes, from left to right, outer ones before inner ones. -/
def scopes : Query → List String
  | term _ | phrase _ => []
  | within field inner => field :: inner.scopes
  | exclude inner => inner.scopes
  | all qs | any qs => scopesList qs

def scopesList : List Query → List String
  | [] => []
  | q :: qs => q.scopes ++ scopesList qs

end

attribute [simp] scopes

@[simp] theorem scopesList_eq_flatMap (qs : List Query) : scopesList qs = qs.flatMap scopes := by
  induction qs with
  | nil => rfl
  | cons q qs ih => rw [scopesList, ih, List.flatMap_cons]

section
variable (k : Constructors P) (rename : String → String)

mutual

/-- The predicate made by putting a constructor in the place of every node. -/
def fold (scope : Scope) : Query → P
  | term word => k.term scope word
  | phrase words => k.phrase scope words
  | within field inner => inner.fold (.field (rename field))
  | exclude inner => k.exclude (inner.fold scope)
  | all qs => k.all (foldList scope qs)
  | any qs => k.any (foldList scope qs)

def foldList (scope : Scope) : List Query → List P
  | [] => []
  | q :: qs => q.fold scope :: foldList scope qs

end

attribute [simp] fold foldList

mutual

/-- All visits of lowering when nothing is refused. -/
def visits (scope : Scope) : Query → List (Visit P)
  | term word => [.term scope word]
  | phrase words => [.phrase scope words]
  | within field inner => .resolve field :: inner.visits (.field (rename field))
  | exclude inner => inner.visits scope ++ [.exclude (inner.fold k rename scope)]
  | all qs => visitsList scope qs ++ [.all (foldList k rename scope qs)]
  | any qs => visitsList scope qs ++ [.any (foldList k rename scope qs)]

def visitsList (scope : Scope) : List Query → List (Visit P)
  | [] => []
  | q :: qs => q.visits scope ++ visitsList scope qs

end

attribute [simp] visits visitsList

end

section
variable (k : Constructors P) (rename : String → String)

mutual

/-- The names that lowering looks up are those of the scopes, in the same order. -/
theorem filterMap_visits (scope : Scope) (q : Query) :
    (q.visits k rename scope).filterMap Visit.field? = q.scopes := by
  match q with
  | term word => rfl
  | phrase words => rfl
  | within field inner =>
    rw [visits, scopes, ← filterMap_visits (.field (rename field)) inner]
    rfl
  | exclude inner =>
    rw [visits, scopes, List.filterMap_append, filterMap_visits]
    exact List.append_nil _
  | all qs | any qs =>
    rw [visits, scopes, List.filterMap_append, filterMap_visitsList]
    exact List.append_nil _

theorem filterMap_visitsList (scope : Scope) (qs : List Query) :
    (visitsList k rename scope qs).filterMap Visit.field? = scopesList qs := by
  match qs with
  | [] => rfl
  | q :: qs =>
    rw [visitsList, scopesList, List.filterMap_append, filterMap_visits, filterMap_visitsList]

end

end

section
variable {k : Constructors P} {rename : String → String} {refuses : String → Bool}

open Constructors

mutual

/-- Lowering that meets no refused name goes through all of the query. -/
theorem yields_lowerIn (scope : Scope) (q : Query)
    (h : ∀ field ∈ q.scopes, refuses field = false) :
    (q.lowerIn (k.recording rename refuses) scope).Yields (q.fold k rename scope)
      (q.visits k rename scope) := by
  match q with
  | term word => exact yields_visit_pure _ _
  | phrase words => exact yields_visit_pure _ _
  | within field inner =>
    obtain ⟨hfield, hinner⟩ := List.forall_mem_cons.1 h
    exact (yields_resolve hfield).bind (yields_lowerIn _ inner hinner)
  | exclude inner => exact (yields_lowerIn scope inner h).bind (yields_visit_pure _ _)
  | all qs => exact (yields_lowerList scope qs h).bind (yields_visit_pure _ _)
  | any qs => exact (yields_lowerList scope qs h).bind (yields_visit_pure _ _)

theorem yields_lowerList (scope : Scope) (qs : List Query)
    (h : ∀ field ∈ scopesList qs, refuses field = false) :
    (lowerList (k.recording rename refuses) scope qs).Yields (foldList k rename scope qs)
      (visitsList k rename scope qs) := by
  match qs with
  | [] => exact Recorded.yields_pure []
  | q :: qs =>
    obtain ⟨hq, hqs⟩ := List.forall_mem_append.1 h
    have hrest := (yields_lowerList scope qs hqs).bind
      (f := fun ps => pure (q.fold k rename scope :: ps)) (Recorded.yields_pure _)
    rw [List.append_nil] at hrest
    exact (yields_lowerIn scope q hq).bind hrest

end

mutual

/-- Lowering breaks off at the first name that is refused. -/
theorem breaksOff_lowerIn (scope : Scope) (q : Query) {before after : List String}
    {field : String} (hq : q.scopes = before ++ field :: after)
    (hbefore : ∀ name ∈ before, refuses name = false) (hfield : refuses field = true) :
    (q.lowerIn (k.recording rename refuses) scope).BreaksOff (q.visits k rename scope) before
      field := by
  match q with
  | term word => exact absurd hq (by simp)
  | phrase words => exact absurd hq (by simp)
  | within name inner =>
    rw [scopes] at hq
    cases before with
    | nil =>
      obtain ⟨rfl, -⟩ := List.cons.inj hq
      exact (breaksOff_resolve hfield []).bind _
    | cons first before =>
      obtain ⟨rfl, hinner⟩ := List.cons.inj hq
      obtain ⟨hname, hbefore⟩ := List.forall_mem_cons.1 hbefore
      exact (yields_resolve hname).bind_breaksOff (breaksOff_lowerIn _ inner hinner hbefore hfield)
  | exclude inner => exact (breaksOff_lowerIn scope inner hq hbefore hfield).bind _
  | all qs => exact (breaksOff_lowerList scope qs hq hbefore hfield).bind _
  | any qs => exact (breaksOff_lowerList scope qs hq hbefore hfield).bind _

theorem breaksOff_lowerList (scope : Scope) (qs : List Query) {before after : List String}
    {field : String} (hqs : scopesList qs = before ++ field :: after)
    (hbefore : ∀ name ∈ before, refuses name = false) (hfield : refuses field = true) :
    (lowerList (k.recording rename refuses) scope qs).BreaksOff (visitsList k rename scope qs)
      before field := by
  match qs with
  | [] => exact absurd hqs (by simp)
  | q :: qs =>
    rw [scopesList] at hqs
    by_cases hin : ∃ rest, q.scopes = before ++ field :: rest
    · obtain ⟨rest, hq⟩ := hin
      exact (breaksOff_lowerIn scope q hq hbefore hfield).bind _
    · obtain ⟨between, rfl, hlist⟩ : ∃ between, before = q.scopes ++ between ∧
          scopesList qs = between ++ field :: after := by
        rcases List.append_eq_append_iff.1 hqs with ⟨between, hq, hlist⟩ | ⟨between, hq, hlist⟩
        · exact ⟨between, hq, hlist⟩
        · cases between with
          | nil => exact ⟨[], by simpa using hq.symm, hlist.symm⟩
          | cons name rest =>
            obtain ⟨rfl, -⟩ := List.cons.inj hlist
            exact absurd ⟨rest, hq⟩ hin
      obtain ⟨hq, hbetween⟩ := List.forall_mem_append.1 hbefore
      have hrest := (breaksOff_lowerList scope qs hlist hbetween hfield).bind
        (f := fun ps => pure (q.fold k rename scope :: ps)) []
      have hboth : (lowerList (k.recording rename refuses) scope (q :: qs)).BreaksOff
          (q.visits k rename scope ++ (visitsList k rename scope qs ++ []))
          ((q.visits k rename scope).filterMap Visit.field? ++ between) field :=
        (yields_lowerIn scope q hq).bind_breaksOff hrest
      rwa [List.append_nil, filterMap_visits] at hboth

end

/-- A name that is refused has a first place among the names of the scopes. -/
theorem exists_first_refused {names : List String} (h : ¬ ∀ name ∈ names, refuses name = false) :
    ∃ before field after, names = before ++ field :: after ∧
      (∀ name ∈ before, refuses name = false) ∧ refuses field = true := by
  have hsome : (names.find? refuses).isSome = true := by
    rw [List.find?_isSome]
    simpa using h
  obtain ⟨field, hfind⟩ := Option.isSome_iff_exists.1 hsome
  obtain ⟨hfield, before, after, rfl, hbefore⟩ := List.find?_eq_some_iff_append.1 hfind
  exact ⟨before, field, after, rfl, by simpa using hbefore, hfield⟩

end

end Query

/-- Lowering succeeds just if it meets no refused name, and then it is the fold of the query with
all its visits. Otherwise it reports the first refused name, and its visits are those of the whole
run up to the look-up of that name. -/
theorem lower_recording {P : Type} (k : Constructors P) (rename : String → String)
    (refuses : String → Bool) (q : Query) :
    let run := (q.lower (k.recording rename refuses)).outcome
    let whole := (q.lower (k.recording rename fun _ => false)).outcome
    whole = (.ok (q.fold k rename .anywhere), q.visits k rename .anywhere) ∧
      ((∃ p, run.1 = .ok p) ↔ ∀ field ∈ q.scopes, refuses field = false) ∧
      ((∀ field ∈ q.scopes, refuses field = false) → run = whole) ∧
      ∀ before field after, q.scopes = before ++ field :: after →
        (∀ name ∈ before, refuses name = false) → refuses field = true →
        ∃ seen rest, whole.2 = seen ++ .resolve field :: rest ∧
          seen.filterMap Visit.field? = before ∧
          run = (.error ⟨field⟩, seen ++ [.resolve field]) := by
  intro run whole
  have hwhole : whole = (.ok (q.fold k rename .anywhere), q.visits k rename .anywhere) :=
    (Query.yields_lowerIn .anywhere q fun _ _ => rfl).outcome_eq
  have hrun : (∀ field ∈ q.scopes, refuses field = false) → run = whole := by
    intro h
    rw [hwhole]
    exact (Query.yields_lowerIn .anywhere q h).outcome_eq
  have hstop : ∀ before field after, q.scopes = before ++ field :: after →
      (∀ name ∈ before, refuses name = false) → refuses field = true →
      ∃ seen rest, whole.2 = seen ++ .resolve field :: rest ∧
        seen.filterMap Visit.field? = before ∧
        run = (.error ⟨field⟩, seen ++ [.resolve field]) := by
    intro before field after hq hbefore hfield
    have hbreak : (q.lower (k.recording rename refuses)).BreaksOff
        (q.visits k rename .anywhere) before field :=
      Query.breaksOff_lowerIn .anywhere q hq hbefore hfield
    obtain ⟨seen, rest, hvisits, hseen, hstops⟩ := hbreak
    exact ⟨seen, rest, by rw [hwhole, hvisits], hseen, hstops.outcome_eq⟩
  refine ⟨hwhole, ⟨?_, ?_⟩, hrun, hstop⟩
  · rintro ⟨p, hp⟩
    by_contra hrefused
    obtain ⟨before, field, after, hq, hbefore, hfield⟩ := Query.exists_first_refused hrefused
    obtain ⟨seen, rest, -, -, herror⟩ := hstop before field after hq hbefore hfield
    rw [herror] at hp
    cases hp
  · intro h
    exact ⟨q.fold k rename .anywhere, by rw [hrun h, hwhole]⟩

example :
    let k : Constructors Nat := ⟨fun _ _ => 1, fun _ words => words.length, id, List.sum, List.sum⟩
    let q : Query := .all [.within "a" (.within "b" (.term "x")), .exclude (.within "c" (.term "y"))]
    (q.lower (k.recording (· ++ "'") (· == "c"))).outcome =
      (.error ⟨"c"⟩, [.resolve "a", .resolve "b", .term (.field "b'") "x", .resolve "c"]) := by
  rfl

end TextQuery
