import TextQuery.Number.Decimal
import TextQuery.Number.Shortest

/-!
# JSON values

Integers from `-2^63` to `2^64 - 1` are kept as integers, all other numbers as doubles. The
members of an object are in ascending order of their names, each name once. Also the order of
values, and scalars as identifiers.
-/
namespace TextQuery

inductive Number where
  | integer (value : Int) (inRange : -Nat.pow 2 63 ≤ value ∧ value < Nat.pow 2 64)
  | real (value : Double)
deriving DecidableEq

namespace Number

/-- The text a number is printed as: of a double, the shortest that reads back. -/
def text : Number → String
  | integer n _ => toString n
  | real x => x.text

/-- The decimal that the number's text spells, where it is not too large or too small. -/
def decimal? (n : Number) : Option Decimal :=
  Decimal.ofText? n.text

/-- Numbers compare as these keys do when both are rounded to doubles. -/
def doubleKey : Number → Int
  | integer n _ => Double.keyOfInt n
  | real x => x.key

def ofNat? (n : Nat) : Option Number :=
  if h : (n : Int) < Nat.pow 2 64 then some (integer n ⟨by omega, h⟩) else none

/-- Numbers are compared as decimals if both can be, else as doubles. -/
def compare (a b : Number) : Ordering :=
  match a.decimal?, b.decimal? with
  | some x, some y => Ord.compare x.key y.key
  | _, _ => Ord.compare a.doubleKey b.doubleKey

end Number

inductive Json where
  | null
  | bool (value : Bool)
  | number (value : Number)
  | string (value : String)
  | array (items : List Json)
  | object (members : List (String × Json))
deriving Inhabited

namespace Json

/-- Puts a member into its place; a member of the same name is replaced. -/
def insertMember (name : String) (value : Json) : List (String × Json) → List (String × Json)
  | [] => [(name, value)]
  | (other, kept) :: rest =>
    if name = other then (name, value) :: rest
    else if name < other then (name, value) :: (other, kept) :: rest
    else (other, kept) :: insertMember name value rest

section
variable {name other : String} {value : Json} {members : List (String × Json)}

theorem lookup_cons_eq :
    ((name, value) :: members).lookup other =
      if other = name then some value else members.lookup other := by
  rw [List.lookup_cons]
  by_cases hother : other = name
  · rw [if_pos hother, beq_iff_eq.2 hother]
  · rw [if_neg hother, beq_false_of_ne hother]

theorem lookup_insertMember : (insertMember name value members).lookup other =
    if other = name then some value else members.lookup other := by
  induction members with
  | nil => exact lookup_cons_eq
  | cons m members ih =>
    obtain ⟨held, kept⟩ := m
    rw [insertMember]
    by_cases hname : name = held
    · rw [if_pos hname, lookup_cons_eq, lookup_cons_eq, ← hname]
      by_cases hother : other = name
      · rw [if_pos hother, if_pos hother]
      · rw [if_neg hother, if_neg hother, if_neg hother]
    · rw [if_neg hname]
      by_cases hlt : name < held
      · rw [if_pos hlt]
        exact lookup_cons_eq
      · rw [if_neg hlt, lookup_cons_eq, lookup_cons_eq, ih]
        by_cases hheld : other = held
        · have hne : other ≠ name := by
            rw [hheld]
            exact Ne.symm hname
          rw [if_pos hheld, if_neg hne, if_pos hheld]
        · rw [if_neg hheld, if_neg hheld]

end

/-- The object with these members; of several with one name the last counts. -/
def ofMembers (members : List (String × Json)) : Json :=
  .object (members.foldl (fun sorted m => insertMember m.1 m.2 sorted) [])

/-- The member of that name, if the value is an object that has one. -/
def member? (name : String) : Json → Option Json
  | .object members => members.lookup name
  | _ => none

def string? : Json → Option String
  | .string s => some s
  | _ => none

def bool? : Json → Option Bool
  | .bool b => some b
  | _ => none

def array? : Json → Option (List Json)
  | .array items => some items
  | _ => none

/-- A number below `2^64`. -/
def count? : Json → Option Nat
  | .number (.integer n _) => if 0 ≤ n then some n.toNat else none
  | _ => none

def strings? (j : Json) : Option (List String) :=
  j.array?.bind fun items => items.mapM string?

def ofStrings (texts : List String) : Json :=
  .array (texts.map .string)

@[simp] theorem strings?_ofStrings (texts : List String) :
    (ofStrings texts).strings? = some texts := by
  have hitems : (texts.map Json.string).mapM string? = some texts := by
    induction texts with
    | nil => rfl
    | cons text texts ih =>
      rw [List.map_cons, List.mapM_cons, ih]
      rfl
  exact hitems

/-- The place of a kind of value among the others. -/
def rank : Json → Nat
  | null => 0
  | bool _ => 1
  | number _ => 2
  | string _ => 3
  | array _ => 4
  | object _ => 5

/-- The order of values when sorting: by kind, then by value. Arrays are all alike, and so are
objects. -/
def compare : Json → Json → Ordering
  | bool x, bool y => Ord.compare x.toNat y.toNat
  | number x, number y => x.compare y
  | string x, string y => Ord.compare x y
  | x, y => Ord.compare x.rank y.rank

/-- A scalar read as an identifier: `1001` and `"1001"` are the same one. -/
def keyText? : Json → Option String
  | string s => some s
  | number n => some n.text
  | bool b => some (if b then "true" else "false")
  | _ => none

end Json

end TextQuery
