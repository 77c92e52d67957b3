import Mathlib.Control.Monad.Basic
import Mathlib.Tactic.Simps.Basic
import TextQuery.Proofs.Mirroring
import TextQuery.Proofs.Visits
import TextQuery.Search

/-!
# Field names under a schema

Two laws on what a schema does to a query. Without strictness, a field scope is a change of the
default fields: what stands in the scope is lowered as it would be on its own under a schema whose
only default field is the one that the scope names. And strictness only refuses: a strict schema
lowers a query as it would without being strict, or else it reports the first name that it does not
mention.
-/
namespace TextQuery

/-- Where a word is searched that stands in a scope inside the field at `path`. -/
def Scope.inside (path : String) : Scope → Scope
  | .anywhere => .field path
  | .field inner => .field inner

section
variable {m : Type → Type} {P : Type}

/-- The target whose default scope is the field at `path`. -/
def Target.inField (t : Target m P) (path : String) : Target m P :=
  { t with
    term := fun scope word => t.term (scope.inside path) word
    phrase := fun scope words => t.phrase (scope.inside path) words }

variable [Monad m] (t : Target m P) (path : String)

mutual

/-- Lowering in the field at `path` is lowering with this field as the default: every leaf that is in
no other scope is searched there, and inner scopes win. -/
theorem Query.lowerIn_inField (scope : Scope) (q : Query) :
    q.lowerIn (t.inField path) scope = q.lowerIn t (scope.inside path) := by
  match q with
  | .term word => rfl
  | .phrase words => rfl
  | .within field inner =>
    have hinner : ∀ found, inner.lowerIn (t.inField path) (.field found) =
        inner.lowerIn t (.field found) :=
      fun found => Query.lowerIn_inField (.field found) inner
    simp only [lowerIn, hinner]
    rfl
  | .exclude inner =>
    simp only [lowerIn, Query.lowerIn_inField scope inner]
    rfl
  | .all qs =>
    simp only [lowerIn, Query.lowerList_inField scope qs]
    rfl
  | .any qs =>
    simp only [lowerIn, Query.lowerList_inField scope qs]
    rfl

theorem Query.lowerList_inField (scope : Scope) (qs : List Query) :
    lowerList (t.inField path) scope qs = lowerList t (scope.inside path) qs := by
  match qs with
  | [] => rfl
  | q :: qs =>
    simp only [lowerList, Query.lowerIn_inField scope q, Query.lowerList_inField scope qs]

end

end

namespace Schema

variable (s : Schema) (name : String)

/-- The path that a field name means if nothing is refused. -/
def pathOf : String :=
  (s.aliases.lookup name).getD name

/-- The name is that of an alias or of a default field, or the path of some alias. -/
def Mentions : Prop :=
  name ∈ s.defaultFields ∨ ∃ a ∈ s.aliases, a.1 = name ∨ a.2 = name

instance : Decidable (s.Mentions name) :=
  inferInstanceAs (Decidable (_ ∨ _))

/-- Only a strict schema refuses names, and just those that it does not mention. -/
def refuses : Bool :=
  s.strict && !decide (s.Mentions name)

/-- The same schema, which lets every name through. -/
def lenient : Schema :=
  { s with strict := false }

variable {s name}

/-- A schema that is not strict refuses nothing, and a strict one nothing that it mentions. -/
theorem refuses_eq_false_iff : s.refuses name = false ↔ s.strict = false ∨ s.Mentions name := by
  unfold refuses
  cases s.strict <;> simp

theorem mentions_of_lookup {path : String} (h : s.aliases.lookup name = some path) :
    s.Mentions name := by
  obtain ⟨before, after, haliases, -⟩ := List.lookup_eq_some_iff.1 h
  exact .inr ⟨(name, path), by simp [haliases], .inl rfl⟩

theorem knows_iff (h : s.aliases.lookup name = none) : s.knows name = true ↔ s.Mentions name := by
  have hnames : ∀ a ∈ s.aliases, a.1 ≠ name := by
    intro a ha heq
    have hne := List.lookup_eq_none_iff.1 h a ha
    simp [heq] at hne
  simp only [knows, Mentions, Bool.or_eq_true, List.contains_iff_mem, List.any_eq_true, beq_iff_eq]
  refine or_congr_right (exists_congr fun a => and_congr_right fun ha => ?_)
  exact (or_iff_right (hnames a ha)).symm

/-- All that a schema does to a field name. -/
theorem resolve_eq (s : Schema) (name : String) :
    s.resolve name = if s.refuses name then .error ⟨name⟩ else .ok (s.pathOf name) := by
  unfold resolve pathOf
  cases h : s.aliases.lookup name with
  | some path =>
    have hrefuses := refuses_eq_false_iff.2 (.inr (mentions_of_lookup h))
    rw [hrefuses]
    rfl
  | none =>
    have hknows : s.knows name = decide (s.Mentions name) := by
      rw [Bool.eq_iff_iff, knows_iff h, decide_eq_true_iff]
    dsimp only
    rw [hknows]
    rfl

end Schema

/-- The value `a`, unless there is an unknown name. -/
def unlessUnknown {α : Type} (name? : Option String) (a : α) : Except UnknownField α :=
  match name? with
  | some name => .error ⟨name⟩
  | none => .ok a

/-- Of two computations one after the other, the first unknown name is the one that counts. -/
theorem unlessUnknown_bind {α β : Type} {first second : Option String} {a : α} {b : β}
    {g : α → Except UnknownField β} (h : g a = unlessUnknown second b) :
    (unlessUnknown first a >>= g) = unlessUnknown (first.or second) b := by
  cases first with
  | none => exact h
  | some name => rfl

theorem unlessUnknown_bind_ok {α β : Type} {name? : Option String} {a : α} (f : α → β) :
    (unlessUnknown name? a >>= fun x => .ok (f x)) = unlessUnknown name? (f a) := by
  cases name? with
  | none => rfl
  | some name => rfl

section
variable {P : Type} (k : Constructors P) (rename : String → String) (refuses : String → Bool)

/-- The target without effects that looks names up by `rename`, but for those that it refuses. -/
def Constructors.refusing : Target (Except UnknownField) P where
  resolve field := unlessUnknown ([field].find? refuses) (rename field)
  term scope word := .ok (k.term scope word)
  phrase scope words := .ok (k.phrase scope words)
  exclude inner := .ok (k.exclude inner)
  all children := .ok (k.all children)
  any children := .ok (k.any children)

mutual

/-- Lowering reports the first name that is refused or, if there is none, gives the fold of the
query. -/
theorem Query.lowerIn_refusing (scope : Scope) (q : Query) :
    q.lowerIn (k.refusing rename refuses) scope =
      unlessUnknown (q.scopes.find? refuses) (q.fold k rename scope) := by
  match q with
  | .term word => rfl
  | .phrase words => rfl
  | .within field inner =>
    have hscopes : (Query.within field inner).scopes = [field] ++ inner.scopes := rfl
    rw [lowerIn, hscopes, List.find?_append]
    exact unlessUnknown_bind (Query.lowerIn_refusing (.field (rename field)) inner)
  | .exclude inner =>
    rw [lowerIn, Query.lowerIn_refusing scope inner]
    exact unlessUnknown_bind_ok k.exclude
  | .all qs =>
    rw [lowerIn, Query.lowerList_refusing scope qs]
    exact unlessUnknown_bind_ok k.all
  | .any qs =>
    rw [lowerIn, Query.lowerList_refusing scope qs]
    exact unlessUnknown_bind_ok k.any

theorem Query.lowerList_refusing (scope : Scope) (qs : List Query) :
    lowerList (k.refusing rename refuses) scope qs =
      unlessUnknown ((scopesList qs).find? refuses) (foldList k rename scope qs) := by
  match qs with
  | [] => rfl
  | q :: qs =>
    rw [lowerList, scopesList, Query.lowerIn_refusing scope q, List.find?_append]
    refine unlessUnknown_bind ?_
    rw [Query.lowerList_refusing scope qs]
    exact unlessUnknown_bind_ok (q.fold k rename scope :: ·)

end

end

namespace Filter

/-- How a schema makes filters. -/
@[simps] def constructors (s : Schema) : Constructors Filter where
  term scope word := .contains (s.fieldsFor scope) word
  phrase scope words := .sequence (s.fieldsFor scope) words
  exclude := .not
  all := .all
  any := .any

/-- The filter of a query under a schema that lets every name through. -/
def fold (s : Schema) (q : Query) : Filter :=
  q.fold (constructors s) s.pathOf .anywhere

theorem target_eq_refusing (s : Schema) :
    target s = (constructors s).refusing s.pathOf s.refuses := by
  have hresolve : s.resolve = fun name => unlessUnknown ([name].find? s.refuses) (s.pathOf name) := by
    funext name
    rw [s.resolve_eq, List.find?_singleton]
    cases s.refuses name with
    | true => rfl
    | false => rfl
  unfold target
  rw [hresolve]
  rfl

/-- A query has its filter unless a schema refuses one of its names. -/
theorem ofQuery_eq (s : Schema) (q : Query) :
    ofQuery s q = unlessUnknown (q.scopes.find? s.refuses) (fold s q) := by
  unfold ofQuery
  rw [target_eq_refusing]
  exact q.lowerIn_refusing _ _ _ .anywhere

theorem ofQuery_eq_ok_iff {s : Schema} {q : Query} {f : Filter} :
    ofQuery s q = .ok f ↔ (∀ name ∈ q.scopes, s.refuses name = false) ∧ fold s q = f := by
  rw [ofQuery_eq]
  cases hfind : q.scopes.find? s.refuses with
  | none =>
    have hknown := List.find?_eq_none.1 hfind
    simpa [unlessUnknown] using fun _ => hknown
  | some name =>
    have hrefused : ¬ ∀ name ∈ q.scopes, s.refuses name = false := fun hknown => by
      simpa [List.find?_some hfind] using hknown name (List.mem_of_find?_eq_some hfind)
    exact ⟨nofun, fun h => absurd h.1 hrefused⟩

theorem map_toMongo_ofQuery (s : Schema) (q : Query) :
    Mongo.ofQuery s q = toMongo <$> ofQuery s q :=
  (maps_toMongo s).lowerIn .anywhere q

section
variable {s : Schema} {q : Query}

theorem ofQuery_eq_ok (h : ∀ name ∈ q.scopes, s.refuses name = false) :
    ofQuery s q = .ok (fold s q) ∧ Mongo.ofQuery s q = .ok (fold s q).toMongo := by
  have hfind : q.scopes.find? s.refuses = none := List.find?_eq_none.2 (by simpa using h)
  rw [map_toMongo_ofQuery, ofQuery_eq, hfind]
  exact ⟨rfl, rfl⟩

theorem ofQuery_eq_error {before after : List String} {name : String}
    (h : q.scopes = before ++ name :: after) (hbefore : ∀ known ∈ before, s.refuses known = false)
    (hname : s.refuses name = true) :
    ofQuery s q = .error ⟨name⟩ ∧ Mongo.ofQuery s q = .error ⟨name⟩ := by
  have hfind : q.scopes.find? s.refuses = some name :=
    List.find?_eq_some_iff_append.2 ⟨hname, before, after, h, by simpa using hbefore⟩
  rw [map_toMongo_ofQuery, ofQuery_eq, hfind]
  exact ⟨rfl, rfl⟩

end

/-- For a schema that is not strict, another default field is another default scope. -/
theorem target_inField {s : Schema} (hs : s.strict = false) (path : String) :
    target ⟨[path], s.aliases, false⟩ = (target s).inField path := by
  have hresolve : Schema.resolve ⟨[path], s.aliases, false⟩ = s.resolve := by
    funext name
    rw [Schema.resolve_eq, Schema.resolve_eq, Schema.refuses, Schema.refuses, hs]
    rfl
  have hfields : ∀ scope, Schema.fieldsFor ⟨[path], s.aliases, false⟩ scope =
      s.fieldsFor (scope.inside path) := by
    intro scope
    cases scope with
    | anywhere => rfl
    | field inner => rfl
  simp only [target, Target.inField, hresolve, hfields]

end Filter

/-- A field scope is a change of the default fields: under a schema that is not strict it gives the
predicate that its inside gives when the named field is the only default one. -/
theorem ofQuery_within {s : Schema} (hs : s.strict = false) (field : String) (q : Query) :
    ∃ path f d, s.resolve field = .ok path ∧
      Filter.ofQuery s (.within field q) = .ok f ∧
      Filter.ofQuery ⟨[path], s.aliases, false⟩ q = .ok f ∧
      Mongo.ofQuery s (.within field q) = .ok d ∧
      Mongo.ofQuery ⟨[path], s.aliases, false⟩ q = .ok d := by
  have hrefuses : ∀ name, s.refuses name = false :=
    fun name => Schema.refuses_eq_false_iff.2 (.inl hs)
  have hpath : s.resolve field = .ok (s.pathOf field) := by
    rw [s.resolve_eq, hrefuses field]
    rfl
  have hnarrow : Filter.ofQuery ⟨[s.pathOf field], s.aliases, false⟩ q =
      Filter.ofQuery s (.within field q) :=
    calc q.lowerIn (Filter.target ⟨[s.pathOf field], s.aliases, false⟩) .anywhere
      _ = q.lowerIn ((Filter.target s).inField (s.pathOf field)) .anywhere := by
        rw [Filter.target_inField hs]
      _ = q.lowerIn (Filter.target s) (.field (s.pathOf field)) :=
        q.lowerIn_inField _ _ .anywhere
      _ = s.resolve field >>= fun path => q.lowerIn (Filter.target s) (.field path) := by
        rw [hpath]
        rfl
  obtain ⟨hfilter, hmongo⟩ :=
    Filter.ofQuery_eq_ok (q := .within field q) fun name _ => hrefuses name
  refine ⟨_, _, _, hpath, hfilter, hnarrow.trans hfilter, hmongo, ?_⟩
  rw [← hmongo, Filter.map_toMongo_ofQuery, Filter.map_toMongo_ofQuery, hnarrow]

theorem ofQuery_within_chained :
    let s := (Schema.ofFields ["x", "y"]).withAliases [("a", "b"), ("b", "c.d")]
    let q : Query := .all [.term "u", .exclude (.any [.within "b" (.phrase ["v", "w"]), .term "a"])]
    s.strict = false ∧ ∃ path f d, s.resolve "a" = .ok path ∧
      Filter.ofQuery s (.within "a" q) = .ok f ∧
      Filter.ofQuery ⟨[path], s.aliases, false⟩ q = .ok f ∧
      Mongo.ofQuery s (.within "a" q) = .ok d ∧
      Mongo.ofQuery ⟨[path], s.aliases, false⟩ q = .ok d :=
  ⟨rfl, ofQuery_within rfl "a" _⟩

theorem Searcher.lowered_of_compile {P : Type} {lower : Query → Except UnknownField P}
    {text : String} {q : Query} (h : compile text = .ok q) :
    lowered lower text = (lower q).mapError .unknownField := by
  unfold lowered
  rw [h]

theorem Searcher.translated {s : Searcher} {text : String} {q : Query} (h : compile text = .ok q)
    (hnames : ∀ name ∈ q.scopes, s.schema.refuses name = false) :
    s.filterOf text = .ok (Filter.fold s.schema q) ∧
      s.mongoFilterOf text = .ok (Filter.fold s.schema q).toMongo := by
  obtain ⟨hfilter, hmongo⟩ := Filter.ofQuery_eq_ok hnames
  rw [filterOf, mongoFilterOf, lowered_of_compile h, lowered_of_compile h, hfilter, hmongo]
  exact ⟨rfl, rfl⟩

theorem Searcher.refused {s : Searcher} {text : String} {q : Query} {before after : List String}
    {name : String} (h : compile text = .ok q) (hscopes : q.scopes = before ++ name :: after)
    (hbefore : ∀ known ∈ before, s.schema.refuses known = false)
    (hname : s.schema.refuses name = true) :
    s.filterOf text = .error (.unknownField ⟨name⟩) ∧
      s.mongoFilterOf text = .error (.unknownField ⟨name⟩) := by
  obtain ⟨hfilter, hmongo⟩ := Filter.ofQuery_eq_error hscopes hbefore hname
  rw [filterOf, mongoFilterOf, lowered_of_compile h, lowered_of_compile h, hfilter, hmongo]
  exact ⟨rfl, rfl⟩

/-- Strictness only refuses. Under a schema that is not strict no translation fails of a text that
compiles. Under the strict one it is the same if the schema mentions all field names of the query,
and otherwise it fails with the first name that the schema does not mention. -/
theorem strictness_only_refuses (s : Searcher) (text : String) :
    let lenient : Searcher := { s with schema := s.schema.lenient }
    (∀ e, compile text = .error e →
      s.filterOf text = .error (.compile e) ∧ lenient.filterOf text = .error (.compile e) ∧
      s.mongoFilterOf text = .error (.compile e) ∧
      lenient.mongoFilterOf text = .error (.compile e)) ∧
    ∀ q, compile text = .ok q → ∃ f d,
      lenient.filterOf text = .ok f ∧ lenient.mongoFilterOf text = .ok d ∧
      (s.schema.strict = false ∨ (∀ name ∈ q.scopes, s.schema.Mentions name) →
        s.filterOf text = .ok f ∧ s.mongoFilterOf text = .ok d) ∧
      (s.schema.strict = true → ¬ (∀ name ∈ q.scopes, s.schema.Mentions name) →
        ∃ before name after, q.scopes = before ++ name :: after ∧
          (∀ known ∈ before, s.schema.Mentions known) ∧ ¬ s.schema.Mentions name ∧
          s.filterOf text = .error (.unknownField ⟨name⟩) ∧
          s.mongoFilterOf text = .error (.unknownField ⟨name⟩)) := by
  intro lenient
  constructor
  · intro e he
    simp [Searcher.filterOf, Searcher.mongoFilterOf, Searcher.lowered, he]
  · intro q hq
    have hlenient : ∀ name ∈ q.scopes, lenient.schema.refuses name = false :=
      fun name _ => Schema.refuses_eq_false_iff.2 (.inl rfl)
    obtain ⟨hfilter, hmongo⟩ := Searcher.translated hq hlenient
    refine ⟨_, _, hfilter, hmongo, ?_, ?_⟩
    · intro hknown
      apply Searcher.translated hq
      intro name hname
      exact Schema.refuses_eq_false_iff.2 (hknown.imp_right fun h => h name hname)
    · intro hstrict hunknown
      have hmentions : ∀ name, s.schema.refuses name = false ↔ s.schema.Mentions name := by
        intro name
        simp [Schema.refuses_eq_false_iff, hstrict]
      simp only [← hmentions] at hunknown ⊢
      obtain ⟨before, name, after, hscopes, hbefore, hname⟩ := Query.exists_first_refused hunknown
      exact ⟨before, name, after, hscopes, hbefore, by simp [hname],
        Searcher.refused hq hscopes hbefore hname⟩

/-- The alternatives of a sequence stand together in its tree, so that `q` comes before `p` there.
-/
example : (Searcher.mk { Schema.standard with strict := true } 10).filterOf "a -p:x q:b" =
    .error (.unknownField ⟨"q"⟩) := by
  have h : compile "a -p:x q:b" = .ok (.all [.any [.term "a", .within "q" (.term "b")],
    .exclude (.within "p" (.term "x"))]) := by decide +kernel
  rw [Searcher.filterOf, Searcher.lowered, h]
  rfl

end TextQuery
