import TextQuery.Json.Basic
import TextQuery.Text.Quoted

/-!
# Writing JSON

On one line without spaces, or indented by two spaces with every item and member on a line of its
own.
-/
namespace TextQuery.Json

/-- A character inside a string: quotes, backslashes and the controls below U+0020 are escaped. -/
def writeChar (c : Char) : String :=
  match c with
  | '"' => "\\\""
  | '\\' => "\\\\"
  | '\x08' => "\\b"
  | '\x0c' => "\\f"
  | '\n' => "\\n"
  | '\r' => "\\r"
  | '\t' => "\\t"
  | _ =>
    if c.toNat < 0x20 then
      "\\u00" ++ String.ofList [Text.hexDigit (c.toNat / 16), Text.hexDigit (c.toNat % 16)]
    else c.toString

def writeString (s : String) : String :=
  s.toList.foldl (fun out c => out ++ writeChar c) "\"" ++ "\""

mutual

def compact : Json → String
  | null => "null"
  | bool b => if b then "true" else "false"
  | number n => n.text
  | string s => writeString s
  | array items => "[" ++ ",".intercalate (compactItems items) ++ "]"
  | object members => "\x7b" ++ ",".intercalate (compactMembers members) ++ "\x7d"

def compactItems : List Json → List String
  | [] => []
  | j :: js => compact j :: compactItems js

def compactMembers : List (String × Json) → List String
  | [] => []
  | (name, j) :: rest => (writeString name ++ ":" ++ compact j) :: compactMembers rest

end

/-- The start of a line at this depth of nesting. -/
def newLine (depth : Nat) : String :=
  String.ofList ('\n' :: List.replicate (2 * depth) ' ')

/-- Indented entries between brackets; nothing at all between the brackets of no entries. -/
def block (depth : Nat) (opening closing : String) (entries : List String) : String :=
  if entries.isEmpty then opening ++ closing
  else
    opening ++ newLine (depth + 1) ++ ("," ++ newLine (depth + 1)).intercalate entries ++
      newLine depth ++ closing

mutual

def indented (depth : Nat) : Json → String
  | null => "null"
  | bool b => if b then "true" else "false"
  | number n => n.text
  | string s => writeString s
  | array items => block depth "[" "]" (indentedItems (depth + 1) items)
  | object members => block depth "\x7b" "\x7d" (indentedMembers (depth + 1) members)

def indentedItems (depth : Nat) : List Json → List String
  | [] => []
  | j :: js => indented depth j :: indentedItems depth js

def indentedMembers (depth : Nat) : List (String × Json) → List String
  | [] => []
  | (name, j) :: rest =>
    (writeString name ++ ": " ++ indented depth j) :: indentedMembers depth rest

end

/-- The text of a value, indented if `pretty`. -/
def write (pretty : Bool) (j : Json) : String :=
  if pretty then indented 0 j else compact j

end TextQuery.Json
