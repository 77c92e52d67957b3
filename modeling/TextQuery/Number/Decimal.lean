/-!
# Decimal numbers of bounded precision

A sign, a mantissa below `2^96` and a scale of at most 28 decimals, and how such a number is read
from text: in plain form, or in scientific form with an exponent of at most 28.
-/
namespace TextQuery

structure Decimal where
  negative : Bool
  mantissa : Nat
  scale : Nat
  mantissa_lt : mantissa < Nat.pow 2 96
  scale_le : scale ≤ 28

namespace Decimal

def of? (negative : Bool) (mantissa scale : Nat) : Option Decimal :=
  if h : mantissa < Nat.pow 2 96 ∧ scale ≤ 28 then some ⟨negative, mantissa, scale, h.1, h.2⟩
  else none

/-- The value in units of `10^-28`; decimals are equal, and ordered, as these numbers are. -/
def key (x : Decimal) : Int :=
  let magnitude : Int := x.mantissa * Nat.pow 10 (28 - x.scale)
  if x.negative then -magnitude else magnitude

/-- The value of an ASCII digit. -/
def digit? (c : Char) : Option Nat :=
  if c.isDigit then some (c.toNat - '0'.toNat) else none

/-- Whether nothing but digits and underscores is left, which is all that may stand behind a digit
that does not fit. -/
def isTail (text : List Char) : Bool :=
  text.all fun c => c.isDigit || c == '_'

/-- Rounds away the decimals from the digit `d` on, a half up. A mantissa that grows too large by
it gives up one decimal more. -/
def roundedAt (negative : Bool) (mantissa scale d : Nat) : Option Decimal :=
  if d < 5 then of? negative mantissa scale
  else if mantissa + 1 < Nat.pow 2 96 then of? negative (mantissa + 1) scale
  else if scale = 0 then none
  else of? negative ((mantissa + 5) / 10) (scale - 1)

/-- Whether a mantissa is so small that all its digits but the last are well within 64 bits. -/
def isSmall (mantissa : Nat) : Bool :=
  mantissa / 10 < (Nat.pow 2 64 - 1) / 10 - 255

/-- Reads on after `mantissa` with `scale` decimals. `point` tells whether the decimal point has
been met, `digits` whether a digit has. Only decimals may be too many. An underscore right behind
the last place there is ends a small mantissa, and nothing is rounded then; any other underscore
is skipped. -/
def readDigits (negative point digits : Bool) (mantissa scale : Nat) :
    List Char → Option Decimal
  | [] => if digits then of? negative mantissa scale else none
  | c :: rest =>
    match digit? c with
    | some d =>
      let next := mantissa * 10 + d
      if next < Nat.pow 2 96 ∧ scale < 28 then
        readDigits negative point true next (if point then scale + 1 else scale) rest
      else if point && isTail rest then roundedAt negative mantissa scale d
      else none
    | none =>
      if c == '.' && !point then readDigits negative true digits mantissa scale rest
      else if c == '_' && digits then
        if scale = 28 ∧ isSmall mantissa then
          if isTail rest then of? negative mantissa scale else none
        else readDigits negative point digits mantissa scale rest
      else none

/-- Plain form: an optional sign, digits with at most one point among them, and underscores
anywhere behind the first digit. -/
def ofPlain? : List Char → Option Decimal
  | '-' :: rest => readDigits true false false 0 0 rest
  | '+' :: rest => readDigits false false false 0 0 rest
  | text => readDigits false false false 0 0 text

/-- An exponent below `2^32`: digits behind an optional plus sign. -/
def exponent? (text : List Char) : Option Nat :=
  let digits := match text with
    | '+' :: rest => rest
    | _ => text
  if digits.isEmpty || !digits.all Char.isDigit then none
  else
    let n := digits.foldl (fun n c => n * 10 + (c.toNat - '0'.toNat)) 0
    if n < Nat.pow 2 32 then some n else none

/-- The quotient by a power of ten, rounded to the nearest number, a half up. -/
def dropDigits (mantissa n : Nat) : Nat :=
  (mantissa + Nat.pow 10 n / 2) / Nat.pow 10 n

/-- Moves the point `n` places to the left, at most 28. Decimals that become too many by it are
rounded away. -/
def shiftLeft? (x : Decimal) (n : Nat) : Option Decimal :=
  if 28 < n then none
  else of? x.negative (dropDigits x.mantissa (x.scale + n - 28)) (min (x.scale + n) 28)

/-- Moves the point `n` places to the right, at most 28 of them past the last decimal's place. -/
def shiftRight? (x : Decimal) (n : Nat) : Option Decimal :=
  if n ≤ x.scale then of? x.negative x.mantissa (x.scale - n)
  else if 28 < n then none
  else of? x.negative (x.mantissa * Nat.pow 10 (n - x.scale)) 0

def isExponentMark (c : Char) : Bool :=
  c == 'e' || c == 'E'

/-- Scientific form: a number in plain form, an exponent mark and an exponent. -/
def ofScientific? (text : List Char) : Option Decimal :=
  match text.dropWhile (fun c => !isExponentMark c) with
  | [] => none
  | _ :: exponent => do
    let base ← ofPlain? (text.takeWhile fun c => !isExponentMark c)
    match exponent with
    | '-' :: digits => base.shiftLeft? (← exponent? digits)
    | _ => base.shiftRight? (← exponent? exponent)

/-- The decimal that a text spells, in plain form or else in scientific form. -/
def ofText? (text : String) : Option Decimal :=
  (ofPlain? text.toList).or (ofScientific? text.toList)

end Decimal

end TextQuery
