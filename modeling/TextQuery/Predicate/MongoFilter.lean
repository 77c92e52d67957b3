import TextQuery.Json.Basic
import TextQuery.Predicate.Target
import TextQuery.Text.Alphanumeric

/-!
# MongoDB filter documents

Words become case-insensitive regular expressions and exclusions become `$nor`. A word is bounded
only on an edge that is a word character, so that `c++` becomes `\bc\+\+`.
-/
namespace TextQuery.Mongo

/-- The characters that stand for something else in a regular expression. -/
def metacharacters : List Char :=
  "\\.+*?()|[]\x7b\x7d^$#&-~".toList

/-- The expression that finds a text literally. -/
def escape (text : List Char) : List Char :=
  text.flatMap fun c => if metacharacters.contains c then ['\\', c] else [c]

/-- A word boundary, if the character next to it is part of a word. -/
def boundary (edge : Option Char) : List Char :=
  if edge.any Text.isWordChar then ['\\', 'b'] else []

/-- The expression that finds words separated by white space. -/
def wordPattern (words : List (List Char)) : List Char :=
  boundary (words.head?.bind List.head?) ++
    List.intercalate ['\\', 's', '+'] (words.map escape) ++
    boundary (words.getLast?.bind List.getLast?)

/-- The clause that searches one field. -/
def fieldClause (pattern field : String) : Json :=
  .object [(field, .object [("$options", .string "i"), ("$regex", .string pattern)])]

def operator (name : String) (operand : Json) : Json :=
  .object [(name, operand)]

/-- The clause that searches any of the fields; without a field it matches nothing. -/
def clause (fields words : List String) : Json :=
  let pattern := String.ofList (wordPattern (words.map String.toList))
  match fields with
  | [] => operator "$expr" (.bool false)
  | [field] => fieldClause pattern field
  | _ => operator "$or" (.array (fields.map (fieldClause pattern)))

/-- Queries as filter documents over the fields of a schema. -/
def target (s : Schema) : Target (Except UnknownField) Json where
  resolve := s.resolve
  term scope word := .ok (clause (s.fieldsFor scope) [word])
  phrase scope words := .ok (clause (s.fieldsFor scope) words)
  exclude inner := .ok (operator "$nor" (.array [inner]))
  all parts := .ok (operator "$and" (.array parts))
  any parts := .ok (operator "$or" (.array parts))

def ofQuery (s : Schema) (q : Query) : Except UnknownField Json :=
  q.lower (target s)

end TextQuery.Mongo
