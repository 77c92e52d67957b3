import TextQuery.Predicate.Filter
import TextQuery.Predicate.MongoFilter

/-!
# Targets that mirror each other

If one target expresses every part of a query by the image of what another expresses it by, then
lowering into the first gives the image of lowering into the second, with the same effects. In this
way the filter documents of MongoDB mirror the filters that are evaluated directly.
-/
namespace TextQuery

section
variable {m : Type → Type} {P Q : Type}

/-- The visits of the target `u` are those of `t`, with their outcomes mapped by `f`. -/
structure Target.Maps [Functor m] (f : P → Q) (t : Target m P) (u : Target m Q) : Prop where
  resolve (name : String) : u.resolve name = t.resolve name
  term (scope : Scope) (word : String) : u.term scope word = f <$> t.term scope word
  phrase (scope : Scope) (words : List String) : u.phrase scope words = f <$> t.phrase scope words
  exclude (p : P) : u.exclude (f p) = f <$> t.exclude p
  all (ps : List P) : u.all (ps.map f) = f <$> t.all ps
  any (ps : List P) : u.any (ps.map f) = f <$> t.any ps

variable [Monad m] [LawfulMonad m] {f : P → Q} {t : Target m P} {u : Target m Q}

mutual

/-- The recursion is on the query, and each node is a visit of both targets. -/
theorem Target.Maps.lowerIn (h : t.Maps f u) (scope : Scope) (q : Query) :
    q.lowerIn u scope = f <$> q.lowerIn t scope := by
  match q with
  | .term word => exact h.term scope word
  | .phrase words => exact h.phrase scope words
  | .within field inner =>
    have hinner : ∀ path, inner.lowerIn u (.field path) = f <$> inner.lowerIn t (.field path) :=
      fun path => Target.Maps.lowerIn h (.field path) inner
    simp only [Query.lowerIn, h.resolve, hinner, map_bind]
  | .exclude inner =>
    simp only [Query.lowerIn, Target.Maps.lowerIn h scope inner, bind_map_left, h.exclude, map_bind]
  | .all qs =>
    simp only [Query.lowerIn, Target.Maps.lowerList h scope qs, bind_map_left, h.all, map_bind]
  | .any qs =>
    simp only [Query.lowerIn, Target.Maps.lowerList h scope qs, bind_map_left, h.any, map_bind]

theorem Target.Maps.lowerList (h : t.Maps f u) (scope : Scope) (qs : List Query) :
    Query.lowerList u scope qs = List.map f <$> Query.lowerList t scope qs := by
  match qs with
  | [] => simp [Query.lowerList]
  | q :: qs =>
    simp only [Query.lowerList, Target.Maps.lowerIn h scope q, Target.Maps.lowerList h scope qs,
      bind_map_left, map_bind, map_pure, List.map_cons]

end

end

namespace Filter

/-- The clause that one field matches the words. -/
def fieldToMongo (words : List String) (field : String) : Json :=
  let pattern := String.ofList (Mongo.wordPattern (words.map String.toList))
  .ofMembers [(field, .ofMembers [("$regex", .string pattern), ("$options", .string "i")])]

/-- The clause that some of the fields match the words. -/
def wordsToMongo (fields words : List String) : Json :=
  match fields with
  | [] => .ofMembers [("$expr", .bool false)]
  | [field] => fieldToMongo words field
  | _ => .ofMembers [("$or", .array (fields.map (fieldToMongo words)))]

mutual

/-- The filter document that mirrors a filter. -/
def toMongo : Filter → Json
  | contains fields word => wordsToMongo fields [word]
  | sequence fields words => wordsToMongo fields words
  | not inner => .ofMembers [("$nor", .array [toMongo inner])]
  | all fs => .ofMembers [("$and", .array (toMongoList fs))]
  | any fs => .ofMembers [("$or", .array (toMongoList fs))]

def toMongoList : List Filter → List Json
  | [] => []
  | f :: fs => toMongo f :: toMongoList fs

end

theorem toMongoList_eq_map (fs : List Filter) : toMongoList fs = fs.map toMongo := by
  induction fs with
  | nil => rfl
  | cons f fs ih => rw [toMongoList, ih, List.map_cons]

/-- Two members that are given the other way round are put in order. -/
theorem ofMembers_of_lt {first second : String} (hne : first ≠ second) (hlt : first < second)
    (v w : Json) : Json.ofMembers [(second, w), (first, v)] =
      .object [(first, v), (second, w)] := by
  have hinsert : Json.insertMember first v [(second, w)] = [(first, v), (second, w)] := by
    rw [Json.insertMember, if_neg hne, if_pos hlt]
  rw [Json.ofMembers, List.foldl_cons, List.foldl_cons, List.foldl_nil, Json.insertMember, hinsert]

theorem fieldToMongo_eq_fieldClause (words : List String) (field : String) :
    fieldToMongo words field =
      Mongo.fieldClause (String.ofList (Mongo.wordPattern (words.map String.toList))) field := by
  have hlt : "$options" < "$regex" := by decide +kernel
  rw [fieldToMongo, ofMembers_of_lt (by decide) hlt]
  rfl

theorem wordsToMongo_eq_clause (fields words : List String) :
    wordsToMongo fields words = Mongo.clause fields words := by
  match fields with
  | [] => rfl
  | [field] => exact fieldToMongo_eq_fieldClause words field
  | first :: second :: more =>
    have hclauses := List.map_congr_left fun field (_ : field ∈ first :: second :: more) =>
      fieldToMongo_eq_fieldClause words field
    exact congrArg (fun clauses => Mongo.operator "$or" (.array clauses)) hclauses

/-- Each visit for a filter document gives the mirror of what it gives for a filter. -/
theorem maps_toMongo (s : Schema) : (target s).Maps toMongo (Mongo.target s) where
  resolve _ := rfl
  term _ _ := congrArg Except.ok (wordsToMongo_eq_clause _ _).symm
  phrase _ _ := congrArg Except.ok (wordsToMongo_eq_clause _ _).symm
  exclude _ := rfl
  all fs := congrArg (fun parts => Except.ok (Mongo.operator "$and" (.array parts)))
    (toMongoList_eq_map fs).symm
  any fs := congrArg (fun parts => Except.ok (Mongo.operator "$or" (.array parts)))
    (toMongoList_eq_map fs).symm

end Filter

/-- A query is lowered into a filter and into a filter document that mirrors it, or into neither
for the same unknown field. -/
theorem mongo_mirrors_filter (s : Schema) (q : Query) :
    (∃ e, Filter.ofQuery s q = .error e ∧ Mongo.ofQuery s q = .error e) ∨
      ∃ f, Filter.ofQuery s q = .ok f ∧ Mongo.ofQuery s q = .ok f.toMongo := by
  have hmap : Mongo.ofQuery s q = Filter.toMongo <$> Filter.ofQuery s q :=
    (Filter.maps_toMongo s).lowerIn .anywhere q
  rw [hmap]
  cases Filter.ofQuery s q with
  | error e => exact .inl ⟨e, rfl, rfl⟩
  | ok f => exact .inr ⟨f, rfl, rfl⟩

end TextQuery
