import TextQuery.Command.Arguments
import TextQuery.Command.Manual
import TextQuery.Json.Reader
import TextQuery.Json.Writer
import TextQuery.Predicate.FilterJson
import TextQuery.Search
import TextQuery.Settings.File

/-!
# Running commands

Each command is a function of its arguments and of what it reads. How files and standard input are
read is left open, so that nothing here depends on the outside.
-/
namespace TextQuery

/-- Why a command fails. -/
inductive CommandError where
  | search (e : SearchError)
  | settings (e : SettingsError)
  | malformedJson
  | unreadable (failure : ReadFailure)
  | noInput
  /-- The input is JSON, but of this kind and no array. -/
  | notAnArray (kind : String)
  | unknownChapter (name : String)
deriving DecidableEq

def CommandError.message : CommandError → String
  | search e => "Query error: " ++ e.message
  | settings e => "Config error: " ++ e.message
  | malformedJson => "Invalid JSON: "
  | unreadable failure => "IO error: " ++ failure.message
  | noInput =>
    "No input provided. Use --input or pipe a JSON array of documents to stdin."
  | notAnArray kind => "Invalid input: expected a JSON array of documents, got " ++ kind
  | unknownChapter name =>
    "Unknown category: '" ++ name ++ "'\nRun 'searchql docs' to see available categories."

/-- The name of a kind of value, with its article. -/
def Json.kind : Json → String
  | null => "null"
  | bool _ => "a boolean"
  | number _ => "a number"
  | string _ => "a string"
  | array _ => "an array"
  | object _ => "an object"

/-- The outcome of a run: exit code and both outputs. -/
structure Exit where
  code : Nat
  out : String
  err : String
deriving DecidableEq

namespace Command

/-- The tree of a query and its predicate. -/
def checkResult (c : Searcher) (query : String) (backend : Backend) :
    Except CommandError Json :=
  match TextQuery.compile query with
  | .error e => .error (.search (.compile e))
  | .ok q =>
    let predicate := match backend with
      | .filter => (Filter.ofQuery c.schema q).map Filter.toJson
      | .mongo => Mongo.ofQuery c.schema q
    match predicate with
    | .ok p => .ok (.object [("tree", .string q.render), ("predicate", p)])
    | .error e => .error (.search (.unknownField e))

/-- The directive of an order parameter, if it is one. -/
def orderResult (param : String) : Except CommandError (Option Directive) :=
  (Directive.ofText? param).mapError fun e => .search (.order e)

/-- One page of the documents in `input` that a request asks for. -/
def searchResult (s : Settings) (input : Option String) (r : Request) :
    Except CommandError Json := do
  let some text := input | .error .noInput
  let some j := Json.ofText? text | .error .malformedJson
  let some documents := j.array? | .error (.notAnArray j.kind)
  let found ← ((Searcher.ofSettings s).answer (s.collection documents) r).mapError .search
  let hits := ((Number.ofNat? found.hits).map Json.number).getD .null
  pure (.object [("items", .array found.items), ("hits", hits)])

/-- The chapter of the manual of that name. -/
def chapter (name : String) : Except CommandError Chapter :=
  match Chapter.ofName? name with
  | some c => .ok c
  | none => .error (.unknownChapter name)

variable {m : Type → Type} [Monad m]

/-- What a command prints. -/
def output (readFile : String → m (Except ReadFailure String)) (readInput : m String)
    (settings : Settings) : Command → m (Except CommandError String)
  | check query backend pretty =>
    pure ((checkResult (.ofSettings settings) query backend).map fun j => j.write pretty ++ "\n")
  | order param =>
    pure ((orderResult param).map fun
      | some d => d.toJson.compact ++ "\n"
      | none => "no directive\n")
  | search query input orderText sort skip limit pretty => do
    let text ← match input with
      | some path => readFile path
      | none => Except.ok <$> readInput
    pure do
      let text ← text.mapError .unreadable
      let j ← searchResult settings (some text) { query, order := orderText, sort, skip, limit }
      pure (j.write pretty ++ "\n")
  | docs => pure (.ok manualOverview)
  | doc category => pure ((chapter category).map Chapter.text)

end Command

variable {m : Type → Type} [Monad m]

/-- The settings are read before the command does anything. -/
def Invocation.output (readFile : String → m (Except ReadFailure String)) (readInput : m String)
    (i : Invocation) : m (Except CommandError String) := do
  let settings ← match i.config with
    | some path => do pure (Settings.load path (← readFile path))
    | none => pure (.ok {})
  match settings with
  | .error e => pure (.error (.settings e))
  | .ok settings => i.command.output readFile readInput settings

def versionText : String :=
  "searchql 0.1.0\n"

def usageText : String :=
  "Usage: searchql [OPTIONS] <COMMAND>\n"

/-- Runs the program on its arguments. -/
def runProgram (readFile : String → m (Except ReadFailure String)) (readInput : m String)
    (args : List String) : m Exit :=
  match Arguments.read args with
  | .error .usage => pure ⟨2, "", usageText⟩
  | .error .help => pure ⟨0, usageText, ""⟩
  | .error .version => pure ⟨0, versionText, ""⟩
  | .ok invocation => do
    match ← invocation.output readFile readInput with
    | .ok text => pure ⟨0, text, ""⟩
    | .error e => pure ⟨1, "", e.message ++ "\n"⟩

end TextQuery
