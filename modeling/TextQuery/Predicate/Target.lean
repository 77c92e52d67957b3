import TextQuery.Query.Basic
import TextQuery.Predicate.Schema

/-!
# Lowering a query into a predicate

A target says how each part of a query is expressed, with whatever effects it needs; lowering
visits the query from left to right, children before the node that combines them and a scope's
name before what is inside of it. Each node becomes exactly one combination of its children.
-/
namespace TextQuery

/-- How queries are expressed as predicates of type `P`. -/
structure Target (m : Type → Type) (P : Type) where
  /-- The path that a field name means. -/
  resolve : String → m String
  term : Scope → String → m P
  phrase : Scope → List String → m P
  exclude : P → m P
  all : List P → m P
  any : List P → m P

namespace Query

variable {m : Type → Type} {P : Type} [Monad m]

mutual

/-- Lowers a query whose words are searched in `scope` unless a field scope says otherwise. -/
def lowerIn (t : Target m P) (scope : Scope) : Query → m P
  | term word => t.term scope word
  | phrase words => t.phrase scope words
  | within field inner => do
    let path ← t.resolve field
    lowerIn t (.field path) inner
  | exclude inner => do t.exclude (← lowerIn t scope inner)
  | all qs => do t.all (← lowerList t scope qs)
  | any qs => do t.any (← lowerList t scope qs)

def lowerList (t : Target m P) (scope : Scope) : List Query → m (List P)
  | [] => pure []
  | q :: qs => do
    let p ← lowerIn t scope q
    let ps ← lowerList t scope qs
    pure (p :: ps)

end

def lower (t : Target m P) (q : Query) : m P :=
  lowerIn t .anywhere q

end Query

end TextQuery
