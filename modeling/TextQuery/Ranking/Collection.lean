import TextQuery.Predicate.Filter
import TextQuery.Ranking.Directive

/-!
# Collections of documents

The matches of a filter are taken in the order they were inserted, sorted by a field, and those
that a directive lists are moved to the front; a page is cut from the outcome. Both sorts are
stable.
-/
namespace TextQuery

/-- Where results go that a directive does not list. -/
inductive Remainder where
  /-- They stay in the order they would have without the directive. -/
  | natural
  /-- They are sorted by identifier. -/
  | byKey
deriving DecidableEq

def Remainder.ofName? : String → Option Remainder
  | "natural" => some .natural
  | "by_key" => some .byKey
  | _ => none

structure SortKey where
  field : String
  direction : Direction

/-- Order and page of one search. -/
structure Selection where
  directive : Option Directive := none
  sort : Option SortKey := none
  skip : Nat := 0
  limit : Nat := 10

/-- One page of matches, and the number of all matches. -/
structure Page where
  items : List Json
  hits : Nat

structure Collection where
  documents : List Json
  /-- The path of the identifier that directives refer to. -/
  keyField : String := "nid"
  remainder : Remainder := .natural
  /-- No page is larger. -/
  maxLimit : Nat := 100

/-- Values come before missing ones; values among themselves are compared by `compare`. -/
def compareMissingLast {α : Type} (compare : α → α → Ordering) :
    Option α → Option α → Ordering
  | some x, some y => compare x y
  | some _, none => .lt
  | none, some _ => .gt
  | none, none => .eq

section
variable {α : Type} (compare : α → α → Ordering) (x y : α)

@[simp] theorem compareMissingLast_some_some :
    compareMissingLast compare (some x) (some y) = compare x y := rfl

@[simp] theorem compareMissingLast_some_none :
    compareMissingLast compare (some x) none = .lt := rfl

@[simp] theorem compareMissingLast_none_some :
    compareMissingLast compare none (some y) = .gt := rfl

@[simp] theorem compareMissingLast_none_none : compareMissingLast compare none none = .eq := rfl

end

namespace SortKey

def compareValues (s : SortKey) (a b : Json) : Ordering :=
  match s.direction with
  | .ascending => a.compare b
  | .descending => (a.compare b).swap

/-- Documents without the field go last in either direction. -/
def compare (s : SortKey) (a b : Json) : Ordering :=
  compareMissingLast s.compareValues (a.first? s.field) (b.first? s.field)

end SortKey

namespace Collection

def size (c : Collection) : Nat :=
  c.documents.length

def insert (c : Collection) (doc : Json) : Collection :=
  { c with documents := c.documents ++ [doc] }

/-- The identifier of a document. -/
def key? (c : Collection) (doc : Json) : Option Json :=
  doc.first? c.keyField

/-- The place of a document in a directive, if it is listed. -/
def rank? (c : Collection) (d : Directive) (doc : Json) : Option Nat :=
  ((c.key? doc).bind Json.keyText?).bind d.rank?

/-- The order of documents that the directive does not list. -/
def compareRemaining (c : Collection) (a b : Json) : Ordering :=
  match c.remainder with
  | .natural => .eq
  | .byKey => compareMissingLast Json.compare (c.key? a) (c.key? b)

/-- Listed documents come first, by their place in the directive. -/
def compareListed (c : Collection) (d : Directive) (a b : Json) : Ordering :=
  match c.rank? d a, c.rank? d b with
  | none, none => c.compareRemaining a b
  | x, y => compareMissingLast Ord.compare x y

def sortBy (compare : Json → Json → Ordering) (docs : List Json) : List Json :=
  docs.mergeSort fun a b => (compare a b).isLE

def matching (c : Collection) (f : Filter) : List Json :=
  c.documents.filter fun doc => f.accepts doc

/-- All matches in their final order. -/
def ordered (c : Collection) (f : Filter) (s : Selection) : List Json :=
  let sorted := match s.sort with
    | some sort => sortBy sort.compare (c.matching f)
    | none => c.matching f
  match s.directive with
  | some d => sortBy (c.compareListed d) sorted
  | none => sorted

/-- The page of matches that is asked for. -/
def page (c : Collection) (f : Filter) (s : Selection) : Page where
  items := ((c.ordered f s).drop s.skip).take (min s.limit c.maxLimit)
  hits := (c.matching f).length

end Collection

end TextQuery
