/-!
# Queries

A compiled query as a tree. Equality is structural and order sensitive. The canonical text of a
query has nested calls `and(…)`, `or(…)` and `not(…)` around words, quoted phrases and `field:`
scopes; only inside a phrase are quotes and backslashes escaped.
-/
namespace TextQuery

inductive Query where
  | term (word : String)
  /-- Words that must stand next to each other in this order. -/
  | phrase (words : List String)
  /-- The inner query in one field. -/
  | within (field : String) (inner : Query)
  /-- What does not satisfy the inner query. -/
  | exclude (inner : Query)
  | all (children : List Query)
  | any (children : List Query)
deriving Inhabited

namespace Query

mutual

def same : Query → Query → Bool
  | term v, term w => v == w
  | phrase vs, phrase ws => vs == ws
  | within f p, within g q => f == g && same p q
  | exclude p, exclude q => same p q
  | all ps, all qs => sameList ps qs
  | any ps, any qs => sameList ps qs
  | _, _ => false

def sameList : List Query → List Query → Bool
  | [], [] => true
  | p :: ps, q :: qs => same p q && sameList ps qs
  | _, _ => false

end

mutual

theorem same_iff : ∀ {p q : Query}, same p q = true ↔ p = q
  | term _, q => by cases q <;> simp [same]
  | phrase _, q => by cases q <;> simp [same]
  | within _ p, q => by cases q <;> simp [same, @same_iff p]
  | exclude p, q => by cases q <;> simp [same, @same_iff p]
  | all ps, q => by cases q <;> simp [same, @sameList_iff ps]
  | any ps, q => by cases q <;> simp [same, @sameList_iff ps]

theorem sameList_iff : ∀ {ps qs : List Query}, sameList ps qs = true ↔ ps = qs
  | [], qs => by cases qs <;> simp [sameList]
  | p :: ps, qs => by
    cases qs <;> simp [sameList, @same_iff p, @sameList_iff ps]

end

instance : DecidableEq Query := fun _ _ => decidable_of_iff _ same_iff

/-- One query that stands for all of `children`: the child itself if there is only one. -/
def collapse (combine : List Query → Query) : List Query → Query
  | [child] => child
  | children => combine children

/-- The conjunction of some queries; there is none of no queries. -/
def conjunction? (children : List Query) : Option Query :=
  if children.isEmpty then none else some (collapse all children)

/-- The disjunction of some queries; there is none of no queries. -/
def disjunction? (children : List Query) : Option Query :=
  if children.isEmpty then none else some (collapse any children)

/-- The direct children, in order. -/
def children : Query → List Query
  | term _ | phrase _ => []
  | within _ inner | exclude inner => [inner]
  | all qs | any qs => qs

@[simp] theorem children_term (word : String) : (term word).children = [] := rfl
@[simp] theorem children_phrase (words : List String) : (phrase words).children = [] := rfl
@[simp] theorem children_within (field : String) (inner : Query) :
    (within field inner).children = [inner] := rfl
@[simp] theorem children_exclude (inner : Query) : (exclude inner).children = [inner] := rfl
@[simp] theorem children_all (qs : List Query) : (all qs).children = qs := rfl
@[simp] theorem children_any (qs : List Query) : (any qs).children = qs := rfl

def isExclusion : Query → Bool
  | exclude _ => true
  | _ => false

/-- Whether the query is an exclusion, possibly restricted to fields. -/
def isNegation : Query → Bool
  | exclude _ => true
  | within _ inner => inner.isNegation
  | _ => false

mutual

/-- The height of the tree; a word or phrase has depth 1. -/
def depth : Query → Nat
  | term _ | phrase _ => 1
  | within _ inner | exclude inner => inner.depth + 1
  | all qs | any qs => depthList qs + 1

def depthList : List Query → Nat
  | [] => 0
  | q :: qs => max q.depth (depthList qs)

end

attribute [simp] depth depthList

mutual

/-- Every word of the query, in reading order. -/
def words : Query → List String
  | term word => [word]
  | phrase ws => ws
  | within _ inner | exclude inner => inner.words
  | all qs | any qs => wordsList qs

def wordsList : List Query → List String
  | [] => []
  | q :: qs => q.words ++ wordsList qs

end

attribute [simp] words

@[simp] theorem wordsList_eq_flatMap (qs : List Query) : wordsList qs = qs.flatMap words := by
  induction qs with
  | nil => rfl
  | cons q qs ih => rw [wordsList, ih, List.flatMap_cons]

/-- The characters of a word inside a phrase. -/
def escapeInPhrase (word : List Char) : List Char :=
  word.flatMap fun c => if c == '"' || c == '\\' then ['\\', c] else [c]

def renderPhrase (words : List String) : List Char :=
  '"' :: List.intercalate [' '] (words.map fun w => escapeInPhrase w.toList) ++ ['"']

mutual

def renderChars : Query → List Char
  | term word => word.toList
  | phrase ws => renderPhrase ws
  | within field inner => field.toList ++ ':' :: renderChars inner
  | exclude inner => "not(".toList ++ renderChars inner ++ [')']
  | all qs => "and(".toList ++ List.intercalate [',', ' '] (renderList qs) ++ [')']
  | any qs => "or(".toList ++ List.intercalate [',', ' '] (renderList qs) ++ [')']

def renderList : List Query → List (List Char)
  | [] => []
  | q :: qs => renderChars q :: renderList qs

end

attribute [simp] renderChars

@[simp] theorem renderList_eq_map (qs : List Query) : renderList qs = qs.map renderChars := by
  induction qs with
  | nil => rfl
  | cons q qs ih => rw [renderList, ih, List.map_cons]

def render (q : Query) : String :=
  String.ofList (renderChars q)

end Query

end TextQuery
