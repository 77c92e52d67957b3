import TextQuery.Json.Basic
import TextQuery.Text.Blank

/-!
# Paths into JSON values

A dotted path leads from a value to the values inside it. Arrays fan out, so that a path can lead
to several.
-/
namespace TextQuery

/-- The names of a dotted path; empty ones are left out. -/
def pathNames (path : String) : List String :=
  (Text.pieces (· == '.') path.toList).map String.ofList

namespace Json

mutual

/-- What `step` finds in the members of an object, or of all the objects in an array. -/
def fanOut (step : List (String × Json) → List Json) : Json → List Json
  | object members => step members
  | array items => fanOutList step items
  | _ => []

def fanOutList (step : List (String × Json) → List Json) : List Json → List Json
  | [] => []
  | j :: js => fanOut step j ++ fanOutList step js

end

attribute [simp] fanOut fanOutList

/-- The values at the end of a path: an array there stands for its items. -/
def valuesAt : List String → Json → List Json
  | [], array items => items
  | [], j => [j]
  | name :: names, j =>
    fanOut (fun members =>
      match members.lookup name with
      | some next => valuesAt names next
      | none => []) j

/-- The values that a dotted path leads to. -/
def lookup (doc : Json) (path : String) : List Json :=
  valuesAt (pathNames path) doc

/-- The first of the values that a dotted path leads to. -/
def first? (doc : Json) (path : String) : Option Json :=
  (doc.lookup path).head?

end Json

end TextQuery
