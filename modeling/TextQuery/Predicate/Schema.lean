import TextQuery.Text.Quoted

/-!
# Field layout of the searched documents

A schema says which paths an unscoped word is searched in, and which names may stand for a path in
a query.
-/
namespace TextQuery

/-- Where a word or phrase is searched. -/
inductive Scope where
  /-- In the default fields. -/
  | anywhere
  /-- In the field at this path. -/
  | field (path : String)
deriving DecidableEq

/-- A field name that a strict schema does not know. -/
structure UnknownField where
  name : String
deriving DecidableEq

def UnknownField.message (e : UnknownField) : String :=
  "unknown field " ++ Text.quoted e.name

/-- A strict schema accepts only alias names and paths that it mentions itself. -/
structure Schema where
  defaultFields : List String
  aliases : List (String × String)
  strict : Bool

namespace Schema

/-- The schema without aliases; with no default field, unscoped words are found nowhere. -/
def ofFields (fields : List String) : Schema :=
  ⟨fields, [], false⟩

/-- Lets `name` stand for `path`, whatever it stood for before. -/
def withAlias (s : Schema) (name path : String) : Schema :=
  { s with aliases := (name, path) :: s.aliases.filter fun a => a.1 != name }

def withAliases (s : Schema) (aliases : List (String × String)) : Schema :=
  aliases.foldl (fun s a => s.withAlias a.1 a.2) s

/-- The default field or alias path of that name, or an alias of it. -/
def knows (s : Schema) (name : String) : Bool :=
  s.defaultFields.contains name || s.aliases.any fun a => a.2 == name

/-- The path that a field name of a query means. -/
def resolve (s : Schema) (name : String) : Except UnknownField String :=
  match s.aliases.lookup name with
  | some path => .ok path
  | none => if s.strict && !s.knows name then .error ⟨name⟩ else .ok name

/-- The paths that a word or phrase in `scope` is searched in. -/
def fieldsFor (s : Schema) : Scope → List String
  | .anywhere => s.defaultFields
  | .field path => [path]

/-- Titles and bodies, under those names. -/
def standard : Schema :=
  (ofFields ["fields.title.value", "fields.body.value"]).withAliases
    [("title", "fields.title.value"), ("body", "fields.body.value")]

end Schema

end TextQuery
