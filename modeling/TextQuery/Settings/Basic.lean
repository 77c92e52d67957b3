import TextQuery.Ranking.Collection

/-!
# Settings

Settings are given by name, or in JSON also by their places in an array; one that is not given has
its default, and values of other names are ignored. Settings that are read from a file are validated
as well.
-/
namespace TextQuery

structure Settings where
  /-- The paths that unscoped words are searched in. -/
  defaultFields : List String := ["fields.title.value", "fields.body.value"]
  /-- Names that stand for paths in queries. -/
  fieldAliases : List (String × String) :=
    [("body", "fields.body.value"), ("title", "fields.title.value")]
  /-- Whether field names that are neither aliases nor known paths are refused. -/
  strictFields : Bool := false
  /-- The path of the identifier that order directives refer to. -/
  keyField : String := "nid"
  /-- The page size of a request that gives none. -/
  defaultLimit : Nat := 10
  /-- No page is larger. -/
  maxLimit : Nat := 100
  /-- Where results go that an order directive does not list. -/
  remainder : Remainder := .natural

/-- A value given for a setting, as far as settings tell values apart. -/
inductive SettingValue where
  | flag (value : Bool)
  | count (value : Nat)
  | text (value : String)
  | texts (values : List String)
  | names (entries : List (String × String))
  /-- The name of an entry that stands alone and holds nothing. -/
  | choice (name : String)
  | other

/-- Why a file could not be read. -/
inductive ReadFailure where
  | missing
  | denied
  /-- A part of the path leads through something that is no directory. -/
  | notADirectory
  | isADirectory
  | nameTooLong
  | zeroInName
  /-- The content is not UTF-8. -/
  | notText
  | other (code : Nat)
deriving DecidableEq

namespace ReadFailure

/-- The failure behind an error number of the system. -/
def ofCode : Nat → ReadFailure
  | 2 => missing
  | 13 => denied
  | 20 => notADirectory
  | 21 => isADirectory
  | 36 => nameTooLong
  | code => other code

def message : ReadFailure → String
  | missing => "No such file or directory (os error 2)"
  | denied => "Permission denied (os error 13)"
  | notADirectory => "Not a directory (os error 20)"
  | isADirectory => "Is a directory (os error 21)"
  | nameTooLong => "File name too long (os error 36)"
  | zeroInName => "file name contained an unexpected NUL byte"
  | notText => "stream did not contain valid UTF-8"
  | other code => "Unknown error " ++ toString code ++ " (os error " ++ toString code ++ ")"

end ReadFailure

/-- What makes well-formed settings useless. -/
inductive InvalidSettings where
  | noDefaultFields
  | noPages
  | defaultAboveMax (defaultLimit maxLimit : Nat)
deriving DecidableEq

def InvalidSettings.describe : InvalidSettings → String
  | noDefaultFields => "default_fields must name at least one field"
  | noPages => "max_limit must be at least 1"
  | defaultAboveMax d m =>
    "default_limit (" ++ toString d ++ ") exceeds max_limit (" ++ toString m ++ ")"

/-- Why there are no settings. -/
inductive SettingsError where
  | unreadable (path : String) (failure : ReadFailure)
  /-- The text is no TOML document, or a setting has a value of the wrong kind. -/
  | unparsable (path : String)
  | invalid (cause : InvalidSettings)
deriving DecidableEq

def SettingsError.message : SettingsError → String
  | unreadable path failure => "failed to read config file " ++ path ++ ": " ++ failure.message
  | unparsable path => "failed to parse config file " ++ path ++ ": "
  | invalid cause => "invalid configuration: " ++ cause.describe

namespace SettingValue

def flag? : SettingValue → Option Bool
  | flag b => some b
  | _ => none

def count? : SettingValue → Option Nat
  | count n => some n
  | _ => none

def text? : SettingValue → Option String
  | text s => some s
  | _ => none

def texts? : SettingValue → Option (List String)
  | texts ss => some ss
  | _ => none

def names? : SettingValue → Option (List (String × String))
  | names entries => some entries
  | _ => none

def choice? : SettingValue → Option String
  | text s => some s
  | choice s => some s
  | _ => none

def remainder? (v : SettingValue) : Option Remainder :=
  v.choice?.bind Remainder.ofName?

/-- A JSON value as the value of a setting. -/
def ofJson : Json → SettingValue
  | .bool b => flag b
  | .string s => text s
  | .number n => match Json.count? (.number n) with
    | some n => count n
    | none => other
  | .array items => match items.mapM Json.string? with
    | some ss => texts ss
    | none => other
  | .object [(name, .null)] => choice name
  | .object members => match members.mapM fun m => (Json.string? m.2).map (m.1, ·) with
    | some entries => names entries
    | none => other
  | .null => other

end SettingValue

namespace Settings

/-- The value given for a name as `read` understands it, or the default if none is given. -/
def given? {α : Type} (values : List (String × SettingValue)) (name : String)
    (read : SettingValue → Option α) (default : α) : Option α :=
  match values.lookup name with
  | some s => read s
  | none => some default

/-- The settings with these values; none if one is of the wrong kind. -/
def ofValues? (values : List (String × SettingValue)) : Option Settings := do
  let standard : Settings := {}
  let defaultFields ← given? values "default_fields" SettingValue.texts? standard.defaultFields
  let fieldAliases ← given? values "field_aliases" SettingValue.names? standard.fieldAliases
  let strictFields ← given? values "strict_fields" SettingValue.flag? standard.strictFields
  let keyField ← given? values "key_field" SettingValue.text? standard.keyField
  let defaultLimit ← given? values "default_limit" SettingValue.count? standard.defaultLimit
  let maxLimit ← given? values "max_limit" SettingValue.count? standard.maxLimit
  let remainder ← given? values "remainder" SettingValue.remainder? standard.remainder
  some ⟨defaultFields, fieldAliases, strictFields, keyField, defaultLimit, maxLimit, remainder⟩

/-- The names of the settings, in the order in which an array gives their values. -/
def names : List String :=
  ["default_fields", "field_aliases", "strict_fields", "key_field", "default_limit", "max_limit",
    "remainder"]

def ofMembers? (members : List (String × Json)) : Option Settings :=
  ofValues? (members.map fun m => (m.1, SettingValue.ofJson m.2))

def ofJson? : Json → Option Settings
  | .object members => ofMembers? members
  | .array items => if items.length ≤ names.length then ofMembers? (names.zip items) else none
  | _ => none

/-- Checks that there is something to search and that the page sizes agree. -/
def validate (c : Settings) : Except InvalidSettings Unit :=
  if c.defaultFields.isEmpty then .error .noDefaultFields
  else if c.maxLimit = 0 then .error .noPages
  else if c.maxLimit < c.defaultLimit then .error (.defaultAboveMax c.defaultLimit c.maxLimit)
  else .ok ()

def schema (c : Settings) : Schema :=
  { (Schema.ofFields c.defaultFields).withAliases c.fieldAliases with strict := c.strictFields }

/-- A collection of documents with the identifier, remainder and limit of the settings. -/
def collection (c : Settings) (documents : List Json) : Collection :=
  { documents, keyField := c.keyField, remainder := c.remainder, maxLimit := c.maxLimit }

end Settings

end TextQuery
