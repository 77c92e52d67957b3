import TextQuery.Json.Basic
import TextQuery.Text.Taken

/-!
# Reading JSON

Strict JSON text: no byte order mark, no trailing commas, no control characters inside strings, no
half of a surrogate pair, and no number outside the range of doubles. Arrays and objects may be
nested as deep as the reader is told. Of a number that is not kept as an integer the digits count
that make up a number below `2^64`; it is rounded once for them and once for its power of ten.
-/
namespace TextQuery

open Text (Taken Reader)

namespace Number

def isNumeralChar (c : Char) : Bool :=
  c.isDigit || c == '-' || c == '+' || c == '.' || c == 'e' || c == 'E'

/-- Splits a fraction off the front: its digits, of which a point needs at least one, and what is
left. -/
def splitFraction? : List Char → Option (List Char × List Char)
  | '.' :: rest =>
    let digits := rest.takeWhile Char.isDigit
    if digits.isEmpty then none else some (digits, rest.dropWhile Char.isDigit)
  | rest => some ([], rest)

/-- The exponent that is spelled behind an exponent mark. -/
def exponent? (text : List Char) : Option Int :=
  let (negative, digits) : Bool × List Char := match text with
    | '-' :: rest => (true, rest)
    | '+' :: rest => (false, rest)
    | _ => (false, text)
  if digits.isEmpty || !digits.all Char.isDigit then none
  else
    let n : Int := Text.decimalNumber digits
    some (if negative then -n else n)

/-- The number that digits make up behind `n`, as long as it stays below `2^64`, and the digits
from there on. -/
def takeDigits (n : Nat) : List Char → Nat × List Char
  | [] => (n, [])
  | c :: rest =>
    let next := n * 10 + (c.toNat - '0'.toNat)
    if next < Nat.pow 2 64 then takeDigits next rest else (n, c :: rest)

def ofInt? (n : Int) : Option Number :=
  if h : -Nat.pow 2 63 ≤ n ∧ n < Nat.pow 2 64 then some (integer n h) else none

/-- The double of digits before and behind the point and an exponent. Digits before the point that
do not count still raise the power of ten. -/
def ofDigits? (negative : Bool) (whole fraction : List Char) (exponent : Int) : Option Number :=
  let (n, uncounted) := takeDigits 0 whole
  let (digits, ignored) := takeDigits n fraction
  let places : Int := fraction.length - ignored.length
  (Double.ofScaled? negative digits (exponent + uncounted.length - places)).map real

/-- A literal without fraction and exponent: an integer if it is in range and not a negative
zero, else a double. -/
def ofWhole? (negative : Bool) (whole : List Char) : Option Number :=
  let n := Text.decimalNumber whole
  let real? := ofDigits? negative whole [] 0
  if negative && n = 0 then real?
  else (ofInt? (if negative then -(n : Int) else n)).or real?

def ofLiteral? (text : List Char) : Option Number := do
  let (negative, body) : Bool × List Char := match text with
    | '-' :: rest => (true, rest)
    | _ => (false, text)
  let whole := body.takeWhile Char.isDigit
  if whole.isEmpty || (whole.head? == some '0' && whole.length != 1) then none
  let (fraction, rest) ← splitFraction? (body.dropWhile Char.isDigit)
  match rest with
  | [] => if fraction.isEmpty then ofWhole? negative whole else ofDigits? negative whole fraction 0
  | mark :: written =>
    if mark == 'e' || mark == 'E' then ofDigits? negative whole fraction (← exponent? written)
    else none

end Number

namespace Json

def isSpace (c : Char) : Bool :=
  c == ' ' || c == '\t' || c == '\n' || c == '\r'

/-- The character of a one-letter escape. -/
def escaped? : Char → Option Char
  | '"' => some '"'
  | '\\' => some '\\'
  | '/' => some '/'
  | 'b' => some '\x08'
  | 'f' => some '\x0c'
  | 'n' => some '\n'
  | 'r' => some '\r'
  | 't' => some '\t'
  | _ => none

/-- The character of two surrogate halves. -/
def surrogatePair? (high low : Nat) : Option Char :=
  if 0xD800 ≤ high ∧ high < 0xDC00 ∧ 0xDC00 ≤ low ∧ low < 0xE000 then
    some (Char.ofNat (0x10000 + (high - 0xD800) * 0x400 + (low - 0xDC00)))
  else none

def scalar? (n : Nat) : Option Char :=
  if n < 0xD800 ∨ 0xE000 ≤ n then some (Char.ofNat n) else none

/-- Reads the inside of a string up to its closing quote. -/
def readString : (input : List Char) → Option (Taken (List Char) input)
  | [] => none
  | '"' :: rest => some ⟨[], rest, Text.length_lt_cons _ rest⟩
  | '\\' :: 'u' :: a :: b :: c :: d :: '\\' :: 'u' :: e :: f :: g :: h :: rest =>
    match (Text.hexNumber? [a, b, c, d]).bind scalar? with
    | some ch => (readString ('\\' :: 'u' :: e :: f :: g :: h :: rest)).map
        (·.lift (ch :: ·) (by simp only [List.length_cons]; omega))
    | none => do
      let ch ← surrogatePair? (← Text.hexNumber? [a, b, c, d]) (← Text.hexNumber? [e, f, g, h])
      (readString rest).map (·.lift (ch :: ·) (by simp only [List.length_cons]; omega))
  | '\\' :: 'u' :: a :: b :: c :: d :: rest => do
    let ch ← (Text.hexNumber? [a, b, c, d]).bind scalar?
    (readString rest).map (·.lift (ch :: ·) (by simp only [List.length_cons]; omega))
  | '\\' :: mark :: rest => do
    let ch ← escaped? mark
    (readString rest).map (·.lift (ch :: ·) (by simp only [List.length_cons]; omega))
  | c :: rest =>
    if c.toNat < 0x20 || c == '\\' then none
    else (readString rest).map (·.lift (c :: ·) (Nat.le_succ _))
termination_by input => input.length

/-- Reads a member of an object whose value `value` reads. -/
def readMember (value : Reader Json) : Reader (String × Json)
  | '"' :: rest => do
    let name ← readString rest
    match h : name.rest.dropWhile isSpace with
    | ':' :: more =>
      (value more).map (·.lift (String.ofList name.value, ·) (by
        have := Text.length_lt_of_dropWhile_eq h
        have := name.shorter
        simp only [List.length_cons]; omega))
    | _ => none
  | _ => none

/-- Reads a value that white space may stand before, with at most `budget` arrays and objects
inside each other. -/
def readValue (budget : Nat) : Reader Json :=
  Text.past isSpace fun
    | 'n' :: 'u' :: 'l' :: 'l' :: rest => some ⟨.null, rest, by simp only [List.length_cons]; omega⟩
    | 't' :: 'r' :: 'u' :: 'e' :: rest =>
      some ⟨.bool true, rest, by simp only [List.length_cons]; omega⟩
    | 'f' :: 'a' :: 'l' :: 's' :: 'e' :: rest =>
      some ⟨.bool false, rest, by simp only [List.length_cons]; omega⟩
    | '"' :: rest =>
      (readString rest).map (·.lift (fun cs => .string (String.ofList cs)) (Nat.le_succ _))
    | '[' :: rest =>
      match budget with
      | 0 => none
      | budget + 1 =>
        match h : rest.dropWhile isSpace with
        | ']' :: more =>
          some ⟨.array [], more, Nat.lt_succ_of_lt (Text.length_lt_of_dropWhile_eq h)⟩
        | _ => (Text.commaSeparated (readValue budget) isSpace ']' rest).map
            (·.lift .array (Nat.le_succ _))
    | '{' :: rest =>
      match budget with
      | 0 => none
      | budget + 1 =>
        match h : rest.dropWhile isSpace with
        | '}' :: more =>
          some ⟨.object [], more, Nat.lt_succ_of_lt (Text.length_lt_of_dropWhile_eq h)⟩
        | _ => (Text.commaSeparated (readMember (readValue budget)) isSpace '}' rest).map
            (·.lift ofMembers (Nat.le_succ _))
    | input =>
      if h : (input.dropWhile Number.isNumeralChar).length < input.length then
        (Number.ofLiteral? (input.takeWhile Number.isNumeralChar)).map fun n =>
          ⟨.number n, input.dropWhile Number.isNumeralChar, h⟩
      else none

/-- The deepest nesting of arrays and objects that is read. -/
def maxDepth : Nat := 127

/-- The value that a text spells, with at most `depth` arrays and objects inside each other. -/
def ofTextWithin? (depth : Nat) (text : String) : Option Json :=
  Text.readAll isSpace (readValue depth) text.toList

def ofText? (text : String) : Option Json :=
  ofTextWithin? maxDepth text

end Json

end TextQuery
