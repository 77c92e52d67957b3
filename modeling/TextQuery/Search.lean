import TextQuery.Predicate.MongoFilter
import TextQuery.Query.Grammar
import TextQuery.Settings.Basic

/-!
# Answering search requests

A searcher knows the schema and the page size of a request that gives none. It turns query text
into predicates and answers requests from a collection.
-/
namespace TextQuery

/-- Why a request cannot be answered. -/
inductive SearchError where
  | compile (e : CompileError)
  | unknownField (e : UnknownField)
  | order (e : DirectiveError)
deriving DecidableEq

namespace SearchError

def message : SearchError → String
  | compile e => e.message
  | unknownField e => e.message
  | order e => DirectiveError.message e

/-- The offset of the fault in the text, where it has one. -/
def position? : SearchError → Option Nat
  | compile e => some e.position
  | unknownField _ => none
  | order e => some e.position

end SearchError

/-- What a caller asks for. -/
structure Request where
  query : String
  /-- The order parameter as given. -/
  order : Option String := none
  /-- The path of the field to sort by. -/
  sort : Option String := none
  skip : Nat := 0
  limit : Option Nat := none

structure Searcher where
  schema : Schema
  defaultLimit : Nat

namespace Searcher

def ofSettings (s : Settings) : Searcher :=
  ⟨s.schema, s.defaultLimit⟩

def ofSchema (s : Schema) : Searcher :=
  ⟨s, ({} : Settings).defaultLimit⟩

/-- Compiles a text and lowers it by `lower`. -/
def lowered {P : Type} (lower : Query → Except UnknownField P) (text : String) :
    Except SearchError P :=
  match compile text with
  | .error e => .error (.compile e)
  | .ok query => (lower query).mapError .unknownField

/-- The filter that a query text means. -/
def filterOf (s : Searcher) (text : String) : Except SearchError Filter :=
  lowered (Filter.ofQuery s.schema) text

/-- The MongoDB filter document that a query text means. -/
def mongoFilterOf (s : Searcher) (text : String) : Except SearchError Json :=
  lowered (Mongo.ofQuery s.schema) text

/-- The order and page that a request asks for. -/
def selectionOf (s : Searcher) (r : Request) : Except DirectiveError Selection := do
  let parameter ← r.order.mapM OrderParameter.ofText
  let direction := (parameter.map OrderParameter.direction).getD .ascending
  pure {
    directive := parameter.bind OrderParameter.directive?
    sort := r.sort.map (⟨·, direction⟩)
    skip := r.skip
    limit := r.limit.getD s.defaultLimit }

/-- Answers a request from a collection. A bad query is reported before a bad order parameter. -/
def answer (s : Searcher) (docs : Collection) (r : Request) : Except SearchError Page := do
  let filter ← s.filterOf r.query
  let selection ← (s.selectionOf r).mapError .order
  pure (docs.page filter selection)

end Searcher

end TextQuery
