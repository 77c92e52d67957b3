import TextQuery.Predicate.Filter

/-!
# Filters as JSON

Every filter is written as an object with its operation and arguments. It is read from such an
object, members that are not asked for being ignored, or from an array of the two. The operation
may be spelled in other ways than by its name alone, and inside the arguments of an object in more
of them.
-/
namespace TextQuery.Filter

/-- An operation and its arguments. -/
def tagged (op : String) (args : Json) : Json :=
  .object [("args", args), ("op", .string op)]

mutual

def toJson : Filter → Json
  | contains fields word =>
    tagged "contains" (.object [("fields", .ofStrings fields), ("word", .string word)])
  | sequence fields words =>
    tagged "sequence" (.object [("fields", .ofStrings fields), ("words", .ofStrings words)])
  | not inner => tagged "not" (toJson inner)
  | all fs => tagged "and" (.array (toJsonList fs))
  | any fs => tagged "or" (.array (toJsonList fs))

def toJsonList : List Filter → List Json
  | [] => []
  | f :: fs => toJson f :: toJsonList fs

end

theorem sizeOf_lt_of_lookup {name : String} {j : Json} :
    ∀ {members : List (String × Json)}, members.lookup name = some j →
      sizeOf j < sizeOf members
  | [], h => by simp at h
  | (other, k) :: rest, h => by
    rw [List.lookup_cons] at h
    split at h
    · cases h
      simp only [List.cons.sizeOf_spec, Prod.mk.sizeOf_spec]
      omega
    · have := sizeOf_lt_of_lookup h
      simp only [List.cons.sizeOf_spec]
      omega

inductive Operation where
  | contains
  | sequence
  | not
  | all
  | any

namespace Operation

def ofName? : String → Option Operation
  | "contains" => some contains
  | "sequence" => some sequence
  | "not" => some not
  | "and" => some all
  | "or" => some any
  | _ => none

def ofNumber? : Nat → Option Operation
  | 0 => some contains
  | 1 => some sequence
  | 2 => some not
  | 3 => some all
  | 4 => some any
  | _ => none

/-- The operation of an object: a name, or an object whose only member has that name and holds
nothing. `enclosed` tells whether this is inside the arguments of an object; there an empty object
holds nothing, as null does. -/
def ofMember? (enclosed : Bool) : Json → Option Operation
  | .string name => ofName? name
  | .object [(name, .null)] => ofName? name
  | .object [(name, .object [])] => if enclosed then ofName? name else none
  | _ => none

/-- The operation of an array: a name, or inside the arguments of an object also a number. -/
def ofItem? (enclosed : Bool) : Json → Option Operation
  | .string name => ofName? name
  | .number (.integer n _) => if enclosed && 0 ≤ n then ofNumber? n.toNat else none
  | _ => none

end Operation

mutual

/-- The filter that a value describes, inside the arguments of an object if `enclosed`. -/
def read? (enclosed : Bool) : Json → Option Filter
  | .object members =>
    match _h : members.lookup "args", (members.lookup "op").bind (Operation.ofMember? enclosed) with
    | some args, some op => readArgs? true op args
    | _, _ => none
  | .array [op, args] => (Operation.ofItem? enclosed op).bind (readArgs? enclosed · args)
  | _ => none
termination_by j => 2 * sizeOf j
decreasing_by
  · have := sizeOf_lt_of_lookup _h
    simp only [Json.object.sizeOf_spec]
    omega
  · simp only [Json.array.sizeOf_spec, List.cons.sizeOf_spec]
    omega

/-- The filter of an operation and its arguments. -/
def readArgs? (enclosed : Bool) (op : Operation) (args : Json) : Option Filter :=
  match op, args with
  | .contains, args => do
    let fields ← (args.member? "fields").bind Json.strings?
    let word ← (args.member? "word").bind Json.string?
    some (.contains fields word)
  | .sequence, args => do
    let fields ← (args.member? "fields").bind Json.strings?
    let words ← (args.member? "words").bind Json.strings?
    some (.sequence fields words)
  | .not, args => (read? enclosed args).map .not
  | .all, .array items => (readList? enclosed items).map .all
  | .any, .array items => (readList? enclosed items).map .any
  | .all, _ | .any, _ => none
termination_by 2 * sizeOf args + 1
decreasing_by
  · omega
  all_goals simp only [Json.array.sizeOf_spec]; omega

def readList? (enclosed : Bool) : List Json → Option (List Filter)
  | [] => some []
  | j :: js => do
    let f ← read? enclosed j
    let fs ← readList? enclosed js
    some (f :: fs)
termination_by js => 2 * sizeOf js
decreasing_by all_goals simp only [List.cons.sizeOf_spec]; omega

end

/-- The filter that a JSON value describes. -/
def ofJson? (j : Json) : Option Filter :=
  read? false j

end TextQuery.Filter
