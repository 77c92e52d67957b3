import TextQuery.Json.Basic
import TextQuery.Query.Scanner

/-!
# Order parameters

The text of an order parameter is a directive, or else a direction of sorting. A directive
`match(id, …)` lists the identifiers of the results to come first. A text that opens a directive must
be one to the end; the fault of any other is told with its offset.
-/
namespace TextQuery

/-- The identifiers that come first, in this order. -/
structure Directive where
  keys : List String
deriving DecidableEq

namespace Directive

/-- The list without the later repetitions of its members. -/
def distinct : List String → List String
  | [] => []
  | key :: rest => key :: (distinct rest).filter (· != key)

/-- The directive that lists each of the keys at its first place. -/
def ofKeys (keys : List String) : Directive :=
  ⟨distinct keys⟩

/-- The place of a key, if it is listed. -/
def rank? (d : Directive) (key : String) : Option Nat :=
  d.keys.idxOf? key

end Directive

/-- What can be wrong with a text that opens a directive. -/
inductive DirectiveCause where
  | missingClose
  | textAfterClose
  | emptyList
  | emptyIdentifier
  | invalidIdentifier (text : String)
deriving DecidableEq

def DirectiveCause.describe : DirectiveCause → String
  | missingClose => "missing ')'"
  | textAfterClose => "unexpected text after ')'"
  | emptyList => "empty identifier list"
  | emptyIdentifier => "empty identifier"
  | invalidIdentifier text => "invalid identifier " ++ Text.quoted text

abbrev DirectiveError := Located DirectiveCause

def DirectiveError.message (e : DirectiveError) : String :=
  Located.messageWith e ("malformed order directive: " ++ e.cause.describe)

namespace Directive

/-- The characters that identifiers are made of. -/
def isKeyChar (c : Char) : Bool :=
  c.isAlphanum || c == '_' || c == '.' || c == '-'

/-- What is left of a text behind `match(`, where white space may stand before each of the two
and the letters may have any case. -/
def afterOpening? (text : List Char) : Option (List Char) :=
  let text := Text.trimStart text
  if equalsIgnoringAsciiCase (text.take 5) "match".toList then
    match Text.trimStart (text.drop 5) with
    | '(' :: rest => some rest
    | _ => none
  else none

/-- The identifiers of comma-separated items, the first of which starts at `position`. -/
def readKeys (position : Nat) : List (List Char) → Except (Fault DirectiveCause) (List String)
  | [] => .ok []
  | item :: items =>
    let key := Text.trim item
    if key.isEmpty then .error ⟨.emptyIdentifier, position⟩
    else if key.all isKeyChar then
      (readKeys (position + item.length + 1) items).map (String.ofList key :: ·)
    else
      .error ⟨.invalidIdentifier (String.ofList key),
        position + (item.takeWhile Text.isBlank).length⟩

/-- The identifiers listed in a text that starts at `position`, just behind the opening. -/
def readList (position : Nat) (text : List Char) : Except (Fault DirectiveCause) (List String) :=
  let body := text.takeWhile (· != ')')
  match text.dropWhile (· != ')') with
  | [] => .error ⟨.missingClose, position + text.length⟩
  | _ :: trailing =>
    if trailing.all Text.isBlank then
      if body.all Text.isBlank then .error ⟨.emptyList, position⟩
      else readKeys position (body.splitOn ',')
    else
      .error ⟨.textAfterClose,
        position + body.length + 1 + (trailing.takeWhile Text.isBlank).length⟩

/-- The directive that a text spells; none if the text does not open one. -/
def ofText? (text : String) : Except DirectiveError (Option Directive) :=
  match afterOpening? text.toList with
  | none => .ok none
  | some rest =>
    match readList (text.length - rest.length) rest with
    | .ok keys => .ok (some (ofKeys keys))
    | .error fault => .error (fault.inText text)

/-- A directive is written as an object with its list of keys. -/
def toJson (d : Directive) : Json :=
  .object [("ordered_keys", .ofStrings d.keys)]

/-- A directive is read from an object with its list of keys, members that are not asked for being
ignored, or from an array of that list alone. The list is taken as it is, repeated keys included. -/
def ofJson? (j : Json) : Option Directive :=
  let keys? := match j with
    | .array [keys] => some keys
    | _ => j.member? "ordered_keys"
  (keys?.bind Json.strings?).map Directive.mk

@[simp] theorem ofJson?_toJson (d : Directive) : ofJson? d.toJson = some d := by
  change ((some (Json.ofStrings d.keys)).bind Json.strings?).map Directive.mk = some d
  rw [Option.bind_some, Json.strings?_ofStrings]
  rfl

end Directive

inductive Direction where
  | ascending
  | descending
deriving DecidableEq

/-- `desc` in any letter case, with white space around it, is descending; all else is
ascending. -/
def Direction.ofText (text : String) : Direction :=
  if equalsIgnoringAsciiCase (Text.trim text.toList) "desc".toList then .descending
  else .ascending

/-- An order parameter. -/
inductive OrderParameter where
  | sorted (d : Direction)
  | listed (d : Directive)
deriving DecidableEq

namespace OrderParameter

def ofText (text : String) : Except DirectiveError OrderParameter :=
  (Directive.ofText? text).map fun
    | some d => .listed d
    | none => .sorted (.ofText text)

/-- The direction of sorting; a directive leaves it ascending. -/
def direction : OrderParameter → Direction
  | sorted d => d
  | listed _ => .ascending

def directive? : OrderParameter → Option Directive
  | sorted _ => none
  | listed d => some d

end OrderParameter

end TextQuery
