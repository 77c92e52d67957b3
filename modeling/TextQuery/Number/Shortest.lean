import TextQuery.Number.Double

/-!
# Shortest decimal text of a double

The digits are the fewest that read back as the same double and, of those, the nearest to it. The
decimal grids with one to seventeen digits are tried in turn, on each the two neighbours of the
value, and a neighbour is accepted by reading it back.
-/
namespace TextQuery.Double

/-- A decimal number `digits * 10 ^ exponent`. -/
structure Decimals where
  digits : Nat
  exponent : Int

/-- The exponent of the leading decimal digit of a positive magnitude. -/
def leadingExponent (magnitude : Nat) : Int :=
  (decimalLength (units magnitude * Nat.pow 10 400 / unitsOfOne) : Int) - 401

/-- The multiples of `10 ^ exponent` on both sides of the value, the nearer one first and of two
equally near ones the even one. -/
def neighbours (magnitude : Nat) (exponent : Int) : List Nat :=
  let n := units magnitude * Nat.pow 10 (-exponent).toNat
  let d := unitsOfOne * Nat.pow 10 exponent.toNat
  let below := n / d
  if roundHalfEven n d = below then [below, below + 1] else [below + 1, below]

/-- The first neighbour with `count` digits that reads back as the magnitude. -/
def withDigits? (magnitude count : Nat) : Option Decimals :=
  let exponent := leadingExponent magnitude - count + 1
  ((neighbours magnitude exponent).find? fun digits =>
    nearestDecimal digits exponent == magnitude).map fun digits => ⟨digits, exponent⟩

/-- The shortest decimal of a positive magnitude. Were seventeen digits not enough, all of them
would be given. -/
def shortest (magnitude : Nat) : Decimals :=
  ((List.range 17).findSome? fun i => withDigits? magnitude (i + 1)).getD
    ⟨units magnitude * Nat.pow 5 1074, -1074⟩

/-- The same decimal without zeros at the end of its digits. -/
def stripZeros (digits : Nat) (exponent : Int) : Decimals :=
  if digits = 0 ∨ digits % 10 ≠ 0 then ⟨digits, exponent⟩
  else stripZeros (digits / 10) (exponent + 1)
termination_by digits
decreasing_by omega

def zeros (n : Nat) : String :=
  String.ofList (List.replicate n '0')

/-- Digits whose first one stands for `10 ^ leading`, written out with a decimal point. -/
def positional (digits : List Char) (leading : Int) : String :=
  let whole := (leading + 1).toNat
  if leading < 0 then "0." ++ zeros (-leading - 1).toNat ++ String.ofList digits
  else if digits.length ≤ whole then
    String.ofList digits ++ zeros (whole - digits.length) ++ ".0"
  else String.ofList (digits.take whole) ++ "." ++ String.ofList (digits.drop whole)

/-- The same digits with one of them before the point and the exponent behind. -/
def scientific (digits : List Char) (leading : Int) : String :=
  String.ofList (digits.take 1) ++
    (if digits.length ≤ 1 then "" else "." ++ String.ofList (digits.drop 1)) ++
    (if leading < 0 then "e-" else "e+") ++ toString leading.natAbs

/-- The text of a positive decimal: positional where the first digit stands for `10^-5` to
`10^15`, and then always with a fraction; scientific otherwise. -/
def Decimals.text (d : Decimals) : String :=
  let s := stripZeros d.digits d.exponent
  let digits := (toString s.digits).toList
  let leading := s.exponent + digits.length - 1
  if -5 ≤ leading ∧ leading ≤ 15 then positional digits leading else scientific digits leading

def text (x : Double) : String :=
  (if x.negative then "-" else "") ++
    (if x.magnitude = 0 then "0.0" else (shortest x.magnitude).text)

end TextQuery.Double
