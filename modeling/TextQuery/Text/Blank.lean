/-!
# White space and control characters

Sets of characters as ranges of code points. White space is the Unicode property White_Space; the
tab, the line ends and U+0085 are both white space and control characters. Also the ways of cutting
text at white space.
-/
namespace TextQuery.Text

/-- A set of characters given by inclusive ranges of code points in ascending order. -/
structure CharRanges where
  ranges : List (Nat × Nat)

/-- Whether a range of an ascending list holds `n`; the search ends at the first range above. -/
def inRanges : List (Nat × Nat) → Nat → Bool
  | [], _ => false
  | (first, last) :: rest, n =>
    if n < first then false else n ≤ last || inRanges rest n

def CharRanges.contains (s : CharRanges) (c : Char) : Bool :=
  inRanges s.ranges c.toNat

/-- The code points with property White_Space. -/
def blanks : CharRanges := ⟨[
    (0x9, 0xD), (0x20, 0x20), (0x85, 0x85), (0xA0, 0xA0), (0x1680, 0x1680), (0x2000, 0x200A),
    (0x2028, 0x2029), (0x202F, 0x202F), (0x205F, 0x205F), (0x3000, 0x3000)]⟩

def isBlank (c : Char) : Bool :=
  blanks.contains c

/-- The code points of general category Cc. -/
def controls : CharRanges := ⟨[(0x0, 0x1F), (0x7F, 0x9F)]⟩

def isControl (c : Char) : Bool :=
  controls.contains c

/-- The non-empty pieces between the characters that satisfy `isCut`. -/
def pieces (isCut : Char → Bool) (text : List Char) : List (List Char) :=
  (text.splitOnP isCut).filter (fun piece => !piece.isEmpty)

@[simp] theorem pieces_nil (isCut : Char → Bool) : pieces isCut [] = [] := rfl

/-- The maximal runs of characters that are not white space. -/
def blankSeparated (text : List Char) : List (List Char) :=
  pieces isBlank text

def trimStart (text : List Char) : List Char :=
  text.dropWhile isBlank

/-- The text without the white space at its two ends. -/
def trim (text : List Char) : List Char :=
  (trimStart (trimStart text).reverse).reverse

end TextQuery.Text
