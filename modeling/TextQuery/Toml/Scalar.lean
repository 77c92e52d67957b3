import TextQuery.Number.Double
import TextQuery.Text.Blank
import TextQuery.Text.Taken
import TextQuery.Toml.Basic

/-!
# TOML scalars without quotes

Booleans, integers, floats, dates and times. Integers are 64-bit signed; underscores may stand
between two digits. Dates and times are brought into a normal form: a capital `T` between the two,
a capital `Z`, at most nine decimals of a second and no zeros behind them.
-/
namespace TextQuery.Toml

/-- The digits of a text without the underscores between them; each underscore must have a digit
on both sides. -/
def ungrouped? (isDigit : Char → Bool) (text : List Char) : Option (List Char) :=
  let groups := text.splitOn '_'
  if groups.all fun group => !group.isEmpty && group.all isDigit then some groups.flatten
  else none

/-- Decimal digits without a leading zero. -/
def wholeDigits? (text : List Char) : Option (List Char) :=
  (ungrouped? Char.isDigit text).filter fun digits =>
    digits.head? != some '0' || digits.length == 1

/-- A sign, if there is one, and what is left. -/
def splitSign : List Char → Bool × List Char
  | '-' :: rest => (true, rest)
  | '+' :: rest => (false, rest)
  | rest => (false, rest)

def integerInRange? (n : Int) : Option Toml :=
  if -Nat.pow 2 63 ≤ n ∧ n < Nat.pow 2 63 then some (.integer n) else none

/-- An integer of digits below `base`. -/
def integerInBase? (base : Nat) (text : List Char) : Option Toml := do
  let isDigit (c : Char) : Bool := (Text.hexValue? c).any (· < base)
  let digits ← ungrouped? isDigit text
  let values ← digits.mapM Text.hexValue?
  integerInRange? (values.foldl (fun n d => n * base + d) 0 : Nat)

def integer? : List Char → Option Toml
  | '0' :: 'x' :: digits => integerInBase? 16 digits
  | '0' :: 'o' :: digits => integerInBase? 8 digits
  | '0' :: 'b' :: digits => integerInBase? 2 digits
  | text => do
    let (negative, written) := splitSign text
    let n : Int := Text.decimalNumber (← wholeDigits? written)
    integerInRange? (if negative then -n else n)

def isExponentMark (c : Char) : Bool :=
  c == 'e' || c == 'E'

/-- The exponent behind the digits of a float: none, or a mark and digits with a sign. -/
def exponent? : List Char → Option Int
  | [] => some 0
  | _ :: written => do
    let (negative, digits) := splitSign written
    let n : Int := Text.decimalNumber (← ungrouped? Char.isDigit digits)
    some (if negative then -n else n)

/-- A float: a fraction or an exponent or both behind whole digits, or one of the special values.
A positive one must be in the range of doubles. -/
def float? (text : List Char) : Option Toml := do
  let (negative, written) := splitSign text
  if written == "inf".toList || written == "nan".toList then
    return .float (String.ofList text)
  let mantissa := written.takeWhile fun c => !isExponentMark c
  let exponent ← exponent? (written.dropWhile fun c => !isExponentMark c)
  let whole ← wholeDigits? (mantissa.takeWhile (· != '.'))
  let fraction ← match mantissa.dropWhile (· != '.') with
    | [] => some []
    | _ :: digits => ungrouped? Char.isDigit digits
  if mantissa.length == written.length && fraction.isEmpty then none
  let value? := Double.ofDecimal? negative (Text.decimalNumber (whole ++ fraction))
    (exponent - fraction.length)
  if value?.isSome || negative then some (.float (String.ofList text)) else none

/-- The number that two digits spell. -/
def twoDigits? (a b : Char) : Option Nat :=
  if a.isDigit && b.isDigit then some (Text.decimalNumber [a, b]) else none

def daysInMonth (year month : Nat) : Nat :=
  if month = 2 then
    if year % 4 = 0 ∧ (year % 100 ≠ 0 ∨ year % 400 = 0) then 29 else 28
  else if month ∈ [4, 6, 9, 11] then 30 else 31

/-- A date at the front of a text, and what is left behind it. -/
def splitDate? : List Char → Option (List Char × List Char)
  | a :: b :: c :: d :: '-' :: e :: f :: '-' :: g :: h :: rest => do
    let year := (← twoDigits? a b) * 100 + (← twoDigits? c d)
    let month ← twoDigits? e f
    let day ← twoDigits? g h
    if 1 ≤ month ∧ month ≤ 12 ∧ 1 ≤ day ∧ day ≤ daysInMonth year month then
      some ([a, b, c, d, '-', e, f, '-', g, h], rest)
    else none
  | _ => none

/-- The fraction of a second that some decimals spell, cut off to nanoseconds. -/
def secondFraction (decimals : List Char) : List Char :=
  match (decimals.take 9).reverse.dropWhile (· == '0') with
  | [] => []
  | kept => '.' :: kept.reverse

/-- A time of day at the front of a text, and what is left behind it; a leap second is allowed. -/
def splitTime? : List Char → Option (List Char × List Char)
  | a :: b :: ':' :: c :: d :: ':' :: e :: f :: rest => do
    let hour ← twoDigits? a b
    let minute ← twoDigits? c d
    let second ← twoDigits? e f
    if hour < 24 ∧ minute < 60 ∧ second ≤ 60 then
      let time := [a, b, ':', c, d, ':', e, f]
      match rest with
      | '.' :: behind =>
        let decimals := behind.takeWhile Char.isDigit
        if decimals.isEmpty then none
        else some (time ++ secondFraction decimals, behind.dropWhile Char.isDigit)
      | _ => some (time, rest)
    else none
  | _ => none

/-- The offset of a time zone that a text spells; a zero has a plus sign. -/
def offset? : List Char → Option (List Char)
  | [c] => if c == 'Z' || c == 'z' then some ['Z'] else none
  | [sign, a, b, ':', c, d] => do
    let hours ← twoDigits? a b
    let minutes ← twoDigits? c d
    if (sign == '+' || sign == '-') && hours < 24 && minutes < 60 then
      some ((if hours = 0 ∧ minutes = 0 then '+' else sign) :: [a, b, ':', c, d])
    else none
  | _ => none

/-- The time with an optional zone that a text spells. -/
def zonedTime? (text : List Char) : Option (List Char) := do
  let (time, rest) ← splitTime? text
  if rest.isEmpty then some time else (offset? rest).map (time ++ ·)

/-- The moment of a date and the text of a time. -/
def onDate? (date time : List Char) : Option Toml :=
  (zonedTime? time).map fun time => .moment (String.ofList (date ++ 'T' :: time))

/-- The date with a time, the date, or the time without a zone that a text spells. -/
def moment? (text : List Char) : Option Toml :=
  match splitDate? text with
  | some (date, []) => some (.moment (String.ofList date))
  | some (date, mark :: time) => if mark == 'T' || mark == 't' then onDate? date time else none
  | none =>
    match splitTime? text with
    | some (time, []) => some (.moment (String.ofList time))
    | _ => none

/-- The value of an unquoted scalar. -/
def ofBare? (text : List Char) : Option Toml :=
  if text == "true".toList then some (.boolean true)
  else if text == "false".toList then some (.boolean false)
  else (moment? text).or ((integer? text).or (float? text))

end TextQuery.Toml
