/-!
# TOML documents

Values, and how the tables of a document grow line by line. A table can be filled from one place
only: how it came to be tells which lines may still add to it.
-/
namespace TextQuery

/-- How a table came to be. -/
inductive TableOrigin where
  /-- Written in braces; nothing can be added. -/
  | inline
  /-- Opened by a header of its own. -/
  | header
  /-- Mentioned in the header of a table inside it. -/
  | implied
  /-- Mentioned in a dotted key. -/
  | dotted
deriving DecidableEq

inductive Toml where
  | string (value : String)
  | integer (value : Int)
  | boolean (value : Bool)
  /-- A float as it is written. -/
  | float (text : String)
  /-- A date, a time or both in normal form. -/
  | moment (text : String)
  | array (items : List Toml)
  | table (origin : TableOrigin) (entries : List (String × Toml))
  /-- A non-empty array of tables that headers add to. -/
  | tables (latest : List (String × Toml)) (earlier : List (List (String × Toml)))

namespace Toml

/-- Replaces the entry of a name, or adds one; `change` is given what is there and may refuse. -/
def update (name : String) (change : Option Toml → Option Toml) :
    List (String × Toml) → Option (List (String × Toml))
  | [] => (change none).map fun value => [(name, value)]
  | (other, value) :: rest =>
    if other = name then (change (some value)).map fun new => (other, new) :: rest
    else (update name change rest).map ((other, value) :: ·)

/-- Adds an entry under a key that leads through `path`. The last table on the way must belong to
dotted keys, and none on the way may have been opened by a header or written in braces. -/
def insert (path : List String) (name : String) (value : Toml)
    (entries : List (String × Toml)) : Option (List (String × Toml)) :=
  match path with
  | [] => update name (fun | none => some value | some _ => none) entries
  | next :: rest =>
    update next (fun
      | none => (insert rest name value []).map (table .dotted)
      | some (table .dotted inner) => (insert rest name value inner).map (table .dotted)
      | some (table .implied inner) =>
        if rest.isEmpty then none else (insert rest name value inner).map (table .implied)
      | some (tables latest earlier) =>
        if rest.isEmpty then none else (insert rest name value latest).map (tables · earlier)
      | some _ => none) entries

/-- Changes the table that a header path leads to. Tables on the way come into being; of an array
of tables the latest is meant. -/
def changeAt (path : List String)
    (change : List (String × Toml) → Option (List (String × Toml)))
    (entries : List (String × Toml)) : Option (List (String × Toml)) :=
  match path with
  | [] => change entries
  | next :: rest =>
    update next (fun
      | none => (changeAt rest change []).map (table .implied)
      | some (table .inline _) => none
      | some (table origin inner) => (changeAt rest change inner).map (table origin)
      | some (tables latest earlier) => (changeAt rest change latest).map (tables · earlier)
      | some _ => none) entries

/-- Opens the table of a header; it must be new, or so far only implied. -/
def openTable (path : List String) (name : String) :
    List (String × Toml) → Option (List (String × Toml)) :=
  changeAt path <| update name fun
    | none => some (table .header [])
    | some (table .implied inner) => some (table .header inner)
    | some _ => none

/-- Adds a table to the array of tables of a header. -/
def openElement (path : List String) (name : String) :
    List (String × Toml) → Option (List (String × Toml)) :=
  changeAt path <| update name fun
    | none => some (tables [] [])
    | some (tables latest earlier) => some (tables [] (latest :: earlier))
    | some _ => none

def string? : Toml → Option String
  | string s => some s
  | _ => none

end Toml

end TextQuery
