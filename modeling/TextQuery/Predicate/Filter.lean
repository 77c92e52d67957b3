import TextQuery.Json.Path
import TextQuery.Predicate.Target
import TextQuery.Text.Words

/-!
# Filters

A filter is a predicate on documents that is evaluated directly, by matching the scalars of its
fields against words. Queries are lowered into filters.
-/
namespace TextQuery

/-- Whether a text spells the same decimal as the number's own text. -/
def Number.isSpelledBy (n : Number) (text : String) : Bool :=
  match n.decimal?, Decimal.ofText? text with
  | some stored, some wanted => stored.key == wanted.key
  | _, _ => false

/-- Whether a scalar matches query words. Numbers and booleans match a single word that denotes
the same value; null, arrays and objects match nothing. -/
def Json.matchesWords (query : List String) : Json → Bool
  | string s => Text.matchesWords s.toList (query.map String.toList)
  | number n =>
    match query with
    | [word] => n.isSpelledBy word
    | _ => false
  | bool b =>
    match query with
    | [word] => word.toList.map Char.toLower == (if b then "true" else "false").toList
    | _ => false
  | _ => false

inductive Filter where
  /-- Some value of some of the fields matches the word. -/
  | contains (fields : List String) (word : String)
  /-- Some value of some of the fields matches the words in this order. -/
  | sequence (fields words : List String)
  | not (inner : Filter)
  | all (children : List Filter)
  | any (children : List Filter)

namespace Filter

/-- Whether some value of some of the fields matches the words. -/
def fieldMatches (fields words : List String) (doc : Json) : Bool :=
  fields.any fun field => (doc.lookup field).any (Json.matchesWords words)

mutual

def accepts (doc : Json) : Filter → Bool
  | contains fields word => fieldMatches fields [word] doc
  | sequence fields words => fieldMatches fields words doc
  | not inner => !accepts doc inner
  | all fs => acceptsEach doc fs
  | any fs => acceptsSome doc fs

def acceptsEach (doc : Json) : List Filter → Bool
  | [] => true
  | f :: fs => accepts doc f && acceptsEach doc fs

def acceptsSome (doc : Json) : List Filter → Bool
  | [] => false
  | f :: fs => accepts doc f || acceptsSome doc fs

end

attribute [simp] accepts acceptsEach acceptsSome

/-- The filter that accepts every document. -/
def everything : Filter :=
  .all []

/-- Queries as filters over the fields of a schema. -/
def target (s : Schema) : Target (Except UnknownField) Filter where
  resolve := s.resolve
  term scope word := .ok (.contains (s.fieldsFor scope) word)
  phrase scope words := .ok (.sequence (s.fieldsFor scope) words)
  exclude inner := .ok (.not inner)
  all fs := .ok (.all fs)
  any fs := .ok (.any fs)

def ofQuery (s : Schema) (q : Query) : Except UnknownField Filter :=
  q.lower (target s)

end Filter

end TextQuery
