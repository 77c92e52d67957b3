import TextQuery.Settings.Basic
import TextQuery.Toml.Reader

/-!
# Files of settings

Settings are kept in a TOML document.
-/
namespace TextQuery

/-- The name under which a date or a time is the only entry of a table. -/
def momentName : String :=
  "$__toml_private_datetime"

/-- A TOML value as the value of a setting. A date or a time counts as a table. -/
def SettingValue.ofToml : Toml → SettingValue
  | .string s => text s
  | .boolean b => flag b
  | .integer n => if 0 ≤ n then count n.toNat else other
  | .float _ => other
  | .moment written => names [(momentName, written)]
  | .array items => match items.mapM Toml.string? with
    | some ss => texts ss
    | none => other
  | .table _ [(name, .table _ [])] | .table _ [(name, .array [])] => choice name
  | .table _ entries => match entries.mapM fun e => (Toml.string? e.2).map (e.1, ·) with
    | some pairs => names pairs
    | none => other
  | .tables _ _ => other

namespace Settings

def ofToml? (text : String) : Option Settings :=
  (Toml.ofText? text).bind fun entries =>
    ofValues? (entries.map fun e => (e.1, SettingValue.ofToml e.2))

/-- The validated settings of a file, given its content or the reason why there is none. -/
def load (path : String) (content : Except ReadFailure String) : Except SettingsError Settings :=
  match content with
  | .error failure => .error (.unreadable path failure)
  | .ok text =>
    match ofToml? text with
    | none => .error (.unparsable path)
    | some c =>
      match c.validate with
      | .ok () => .ok c
      | .error cause => .error (.invalid cause)

end Settings

end TextQuery
