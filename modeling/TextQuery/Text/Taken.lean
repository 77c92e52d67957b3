/-!
# Reading off the front of a text

What a reader took, what it left, and the proof that it left less than it was given, so that
reading again and again comes to an end.
-/
namespace TextQuery.Text

structure Taken (α : Type) (input : List Char) where
  value : α
  rest : List Char
  shorter : rest.length < input.length

abbrev Reader (α : Type) := (input : List Char) → Option (Taken α input)

theorem length_lt_cons (c : Char) (rest : List Char) : rest.length < (c :: rest).length :=
  Nat.lt_succ_self _

/-- What was taken from a tail, as taken from the whole. -/
def Taken.lift {α β : Type} {tail input : List Char} (f : α → β)
    (le : tail.length ≤ input.length) (t : Taken α tail) : Taken β input :=
  ⟨f t.value, t.rest, Nat.lt_of_lt_of_le t.shorter le⟩

/-- Reads what stands behind some characters that are skipped. -/
def past {α : Type} (skip : Char → Bool) (r : Reader α) : Reader α :=
  fun input => (r (input.dropWhile skip)).map (·.lift id (List.dropWhile_suffix _).length_le)

/-- What a reader takes, if nothing but skipped characters is left behind it. -/
def readAll {α : Type} (skip : Char → Bool) (r : Reader α) (text : List Char) : Option α :=
  (r text).bind fun t => if t.rest.all skip then some t.value else none

theorem length_lt_of_dropWhile_eq {p : Char → Bool} {input more : List Char} {c : Char}
    (h : input.dropWhile p = c :: more) : more.length < input.length := by
  have := (List.dropWhile_suffix p (l := input)).length_le
  rw [h, List.length_cons] at this
  omega

/-- Items separated by commas up to the character `close`, with characters to skip around them.
There is at least one item, and no comma behind the last. -/
def commaSeparated {α : Type} (item : Reader α) (skip : Char → Bool) (close : Char)
    (input : List Char) : Option (Taken (List α) input) :=
  match past skip item input with
  | none => none
  | some t =>
    match h : t.rest.dropWhile skip with
    | [] => none
    | c :: more =>
      have hlt := Nat.lt_trans (length_lt_of_dropWhile_eq h) t.shorter
      if c == close then some ⟨[t.value], more, hlt⟩
      else if c == ',' then
        (commaSeparated item skip close more).map (·.lift (t.value :: ·) (Nat.le_of_lt hlt))
      else none
termination_by input.length

/-- The value of a hexadecimal digit. -/
def hexValue? (c : Char) : Option Nat :=
  if c.isDigit then some (c.toNat - '0'.toNat)
  else if 'a' ≤ c ∧ c ≤ 'f' then some (c.toNat - 'a'.toNat + 10)
  else if 'A' ≤ c ∧ c ≤ 'F' then some (c.toNat - 'A'.toNat + 10)
  else none

/-- The number that some hexadecimal digits spell. -/
def hexNumber? (digits : List Char) : Option Nat :=
  digits.foldlM (fun n c => (hexValue? c).map (n * 16 + ·)) 0

/-- The number that some decimal digits spell. -/
def decimalNumber (digits : List Char) : Nat :=
  digits.foldl (fun n c => n * 10 + (c.toNat - '0'.toNat)) 0

end TextQuery.Text
