/-!
# Finite binary64 numbers

A finite double is a sign and a magnitude: its 63 low bits as a natural number. Magnitudes are in
the order of the values they stand for, and every value is a whole number of units of `2^-1074`,
so rounding and comparing need natural numbers only.
-/
namespace TextQuery

/-- `n / d` rounded to the nearest whole number, halves to the even one. -/
def roundHalfEven (n d : Nat) : Nat :=
  let q := n / d
  let r := n % d
  if 2 * r < d then q else if d < 2 * r then q + 1 else q + q % 2

/-- The number of decimal digits; zero has one. -/
def decimalLength (n : Nat) : Nat :=
  if n < 10 then 1 else decimalLength (n / 10) + 1

structure Double where
  negative : Bool
  magnitude : Nat
  isFinite : magnitude < 0x7FF * Nat.pow 2 52
deriving DecidableEq

namespace Double

/-- The magnitude above all finite ones. -/
def infinity : Nat := 0x7FF * Nat.pow 2 52

/-- One, in units of the least positive magnitude. -/
def unitsOfOne : Nat := Nat.pow 2 1074

/-- The value of a magnitude in units of `2^-1074`. -/
def units (magnitude : Nat) : Nat :=
  if magnitude < Nat.pow 2 52 then magnitude
  else (Nat.pow 2 52 + magnitude % Nat.pow 2 52) * Nat.pow 2 (magnitude / Nat.pow 2 52 - 1)

/-- The magnitude nearest to `n / d` units, ties to even significands. It is no finite one when
the quotient is too large. -/
def nearest (n d : Nat) : Nat :=
  let shift := Nat.log2 (n / d) - 52
  shift * Nat.pow 2 52 + roundHalfEven n (d * Nat.pow 2 shift)

/-- The magnitude nearest to `digits * 10 ^ exponent`. -/
def nearestDecimal (digits : Nat) (exponent : Int) : Nat :=
  nearest (digits * Nat.pow 10 exponent.toNat * unitsOfOne) (Nat.pow 10 (-exponent).toNat)

/-- The double nearest to `digits * 10 ^ exponent`, if that is within range. Numbers far outside
the range of doubles are told by their digit count alone. -/
def ofDecimal? (negative : Bool) (digits : Nat) (exponent : Int) : Option Double :=
  let leading := decimalLength digits + exponent
  if digits = 0 ∨ leading < -325 then some ⟨negative, 0, by decide⟩
  else if 310 < leading then none
  else
    let magnitude := nearestDecimal digits exponent
    if h : magnitude < 0x7FF * Nat.pow 2 52 then some ⟨negative, magnitude, h⟩ else none

/-- The magnitude nearest to a whole number. -/
def ofNat (n : Nat) : Nat :=
  nearest (n * unitsOfOne) 1

/-- The magnitude of a product. -/
def times (a b : Nat) : Nat :=
  nearest (units a * units b) unitsOfOne

/-- The magnitude of a quotient. -/
def dividedBy (a b : Nat) : Nat :=
  nearest (units a * unitsOfOne) (units b)

/-- The largest exponent of ten within the range of doubles. -/
def maxExponent : Nat := 308

/-- A magnitude times a power of ten, by a product or a quotient with the double nearest to the
power, and so rounded once more than the exact value would be. A power below the range of doubles
is divided by in several steps. The result need not be finite. -/
def scaled (magnitude : Nat) (exponent : Int) : Nat :=
  if magnitude = 0 then 0
  else if maxExponent < exponent then infinity
  else if 0 ≤ exponent then times magnitude (ofNat (Nat.pow 10 exponent.toNat))
  else if -maxExponent ≤ exponent then dividedBy magnitude (ofNat (Nat.pow 10 (-exponent).toNat))
  else scaled (dividedBy magnitude (ofNat (Nat.pow 10 maxExponent))) (exponent + maxExponent)
termination_by (-exponent).toNat
decreasing_by unfold maxExponent at *; omega

/-- The double that `digits * 10 ^ exponent` comes out as when the digits are rounded to a double
first and scaled then, if that is finite. -/
def ofScaled? (negative : Bool) (digits : Nat) (exponent : Int) : Option Double :=
  let magnitude := scaled (ofNat digits) exponent
  if h : magnitude < 0x7FF * Nat.pow 2 52 then some ⟨negative, magnitude, h⟩ else none

/-- Doubles compare as these numbers do; the two zeros are equal. -/
def key (x : Double) : Int :=
  if x.negative then -(x.magnitude : Int) else x.magnitude

/-- The key of the double nearest to an integer. -/
def keyOfInt (n : Int) : Int :=
  let magnitude : Int := ofNat n.natAbs
  if n < 0 then -magnitude else magnitude

end Double

end TextQuery
