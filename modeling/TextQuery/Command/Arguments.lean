import TextQuery.Text.Taken

/-!
# Command line arguments

Options of the program may stand before or behind the name of the command, options of the command
behind it. A value is the next argument or is attached: `--limit 5`, `--limit=5`, `-l 5`, `-l5`.
Arguments are taken from left to right, and the first that is wrong or asks for help decides.
-/
namespace TextQuery

/-- Which predicate the `check` command shows. -/
inductive Backend where
  | filter
  | mongo
deriving DecidableEq

def Backend.ofName? : String → Option Backend
  | "filter" => some filter
  | "mongo" => some mongo
  | _ => none

/-- What the program is asked to do. -/
inductive Command where
  | check (query : String) (backend : Backend) (pretty : Bool)
  | order (param : String)
  | search (query : String) (input order sort : Option String) (skip : Nat) (limit : Option Nat)
      (pretty : Bool)
  | docs
  | doc (category : String)

structure Invocation where
  /-- The path of the configuration file. -/
  config : Option String
  command : Command

namespace Arguments

inductive Flag where
  | config
  | verbose
  | help
  | version
  | backend
  | pretty
  | input
  | order
  | sort
  | skip
  | limit
deriving DecidableEq

namespace Flag

def long : Flag → String
  | config => "config"
  | verbose => "verbose"
  | help => "help"
  | version => "version"
  | backend => "backend"
  | pretty => "pretty"
  | input => "input"
  | order => "order"
  | sort => "sort"
  | skip => "skip"
  | limit => "limit"

def short? : Flag → Option Char
  | config => some 'c'
  | verbose => some 'v'
  | help => some 'h'
  | version => some 'V'
  | backend => some 'b'
  | pretty => some 'p'
  | input => some 'i'
  | order => some 'o'
  | sort => some 's'
  | skip => none
  | limit => some 'l'

def takesValue : Flag → Bool
  | verbose | help | version | pretty => false
  | _ => true

end Flag

/-- Why no command is run: the arguments are wrong, or information is all that is wanted. -/
inductive Stop where
  | usage
  | help
  | version
deriving DecidableEq

/-- The options and operands that may stand in one part of the command line. -/
structure Level where
  flags : List Flag
  operands : Nat
  /-- The names of commands, any of which ends the part. -/
  commands : List String

def programLevel : Level :=
  ⟨[.config, .verbose, .help, .version], 0, ["check", "order", "search", "docs", "doc", "help"]⟩

def commandLevel (flags : List Flag) (operands : Nat) : Level :=
  ⟨[.config, .verbose, .help] ++ flags, operands, []⟩

/-- What has been taken so far; a flag without a value has the empty text. -/
structure Taken where
  values : List (Flag × String) := []
  operands : List String := []

namespace Taken

def value? (t : Taken) (f : Flag) : Option String :=
  t.values.lookup f

def isSet (t : Taken) (f : Flag) : Bool :=
  (t.value? f).isSome

end Taken

/-- A number below `2^64`, possibly with a plus sign. -/
def number? (text : String) : Option Nat :=
  let digits := match text.toList with
    | '+' :: rest => rest
    | cs => cs
  if digits.isEmpty || !digits.all Char.isDigit then none
  else
    let n := Text.decimalNumber digits
    if n < Nat.pow 2 64 then some n else none

/-- Whether a text can be the value of an option. -/
def isValue (f : Flag) (text : String) : Bool :=
  match f with
  | .config | .input => !text.isEmpty
  | .skip | .limit => (number? text).isSome
  | .backend => (Backend.ofName? text).isSome
  | _ => true

/-- Takes an option with its value; no option may be given twice. -/
def setValue (t : Taken) (f : Flag) (text : String) : Except Stop Taken :=
  if t.isSet f || !isValue f text then .error .usage
  else .ok { t with values := (f, text) :: t.values }

/-- Takes an option that has no value. -/
def setFlag (t : Taken) (f : Flag) : Except Stop Taken :=
  match f with
  | .help => .error .help
  | .version => .error .version
  | _ => setValue t f ""

def addOperand (level : Level) (t : Taken) (text : String) : Except Stop Taken :=
  if t.operands.length < level.operands then .ok { t with operands := t.operands ++ [text] }
  else .error .usage

/-- Takes the letters of a cluster such as `-vp`. An option with a value takes what is behind its
letter; if that is nothing, the option is given back to wait for the next argument. -/
def takeLetters (level : Level) (t : Taken) : List Char → Except Stop (Taken × Option Flag)
  | [] => .ok (t, none)
  | c :: rest =>
    match level.flags.find? (·.short? == some c) with
    | none => .error .usage
    | some f =>
      if f.takesValue then
        match rest with
        | [] => .ok (t, some f)
        | '=' :: value => (setValue t f (String.ofList value)).map (·, none)
        | value => (setValue t f (String.ofList value)).map (·, none)
      else do takeLetters level (← setFlag t f) rest

/-- Takes an option that is given by its long name, without the two hyphens. -/
def takeLong (level : Level) (t : Taken) (text : List Char) :
    Except Stop (Taken × Option Flag) :=
  let name := String.ofList (text.takeWhile (· != '='))
  match level.flags.find? (·.long == name), text.dropWhile (· != '=') with
  | none, _ => .error .usage
  | some f, [] => if f.takesValue then .ok (t, some f) else (setFlag t f).map (·, none)
  | some f, _ :: value =>
    if f.takesValue then (setValue t f (String.ofList value)).map (·, none) else .error .usage

/-- Takes arguments up to the name of a command, which is given back with what stands behind it.
`waiting` is an option that the next argument must be the value of. -/
def takeAll (level : Level) (t : Taken) (waiting : Option Flag) :
    List String → Except Stop (Taken × Option (String × List String))
  | [] => if waiting.isSome then .error .usage else .ok (t, none)
  | arg :: rest =>
    match waiting, arg.toList with
    | some _, '-' :: _ :: _ => .error .usage
    | some f, _ => do takeAll level (← setValue t f arg) none rest
    | none, '-' :: '-' :: [] => do
      let t ← rest.foldlM (addOperand level) t
      pure (t, none)
    | none, '-' :: '-' :: text => do
      let (t, waiting) ← takeLong level t text
      takeAll level t waiting rest
    | none, '-' :: c :: letters => do
      let (t, waiting) ← takeLetters level t (c :: letters)
      takeAll level t waiting rest
    | none, _ =>
      if level.commands.contains arg then .ok (t, some (arg, rest))
      else do takeAll level (← addOperand level t arg) none rest

/-- The command of that name with the arguments behind it, and what was taken from these. -/
def readCommand (name : String) (args : List String) : Except Stop (Command × Taken) := do
  let take (flags : List Flag) (operands : Nat) : Except Stop Taken :=
    (takeAll (commandLevel flags operands) {} none args).map Prod.fst
  match name with
  | "check" => do
    let t ← take [.backend, .pretty] 1
    let [query] := t.operands | .error .usage
    let backend := ((t.value? .backend).bind Backend.ofName?).getD .filter
    pure (.check query backend (t.isSet .pretty), t)
  | "order" => do
    let t ← take [] 1
    let [param] := t.operands | .error .usage
    pure (.order param, t)
  | "search" => do
    let t ← take [.input, .order, .sort, .skip, .limit, .pretty] 1
    let [query] := t.operands | .error .usage
    let skip := ((t.value? .skip).bind number?).getD 0
    pure (.search query (t.value? .input) (t.value? .order) (t.value? .sort) skip
      ((t.value? .limit).bind number?) (t.isSet .pretty), t)
  | "docs" => do
    let t ← take [] 0
    pure (.docs, t)
  | "doc" => do
    let t ← take [] 1
    let [category] := t.operands | .error .usage
    pure (.doc category, t)
  | _ => .error .usage

/-- What the arguments ask for. A configuration named behind the command wins over one before. -/
def read (args : List String) : Except Stop Invocation := do
  let (program, command?) ← takeAll programLevel {} none args
  match command? with
  | none => .error .usage
  | some ("help", []) => .error .help
  | some ("help", [topic]) =>
    .error (if programLevel.commands.contains topic then .help else .usage)
  | some (name, rest) =>
    let (command, t) ← readCommand name rest
    pure ⟨(t.value? .config).or (program.value? .config), command⟩

end Arguments

end TextQuery
