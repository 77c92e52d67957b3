import TextQuery.Query.Token
import TextQuery.Text.Blank

/-!
# Splitting a query into tokens

A scanner stands at an offset of the query and gives one token at a time. `Scanner.next` is a
single step, `tokenize` the whole text. A step that finds a fault leaves the scanner where the
fault was noticed, so that stepping may go on.
-/
namespace TextQuery

/-- What can be wrong with the characters of a query. -/
inductive ScanCause where
  | unterminatedPhrase
  | invalidCharacter (c : Char)
deriving DecidableEq

def ScanCause.describe : ScanCause → String
  | unterminatedPhrase => "unterminated phrase"
  | invalidCharacter c => "invalid character " ++ Text.quotedSingle c

abbrev ScanError := Located ScanCause

def ScanError.message (e : ScanError) : String :=
  Located.messageWith e e.cause.describe

/-- The characters that bare words and field names are made of. -/
def isQueryChar (c : Char) : Bool :=
  !Text.isBlank c && !Text.isControl c && c != '"' && c != '(' && c != ')'

/-- The characters that a bare word is continued with: a colon would end a field name. -/
def continuesWord (c : Char) : Bool :=
  isQueryChar c && c != ':'

/-- Equality up to the case of ASCII letters. -/
def equalsIgnoringAsciiCase (a b : List Char) : Bool :=
  a.map Char.toLower == b.map Char.toLower

/-- The token of a bare word: a keyword in any letter case, or the word itself. -/
def bareToken (text : List Char) : Token :=
  if equalsIgnoringAsciiCase text "and".toList then .and
  else if equalsIgnoringAsciiCase text "or".toList then .or
  else .word (String.ofList text)

/-- The word that starts with `first`, or the field name if a colon is right behind it, and how
many characters it takes. -/
def readWord (first : Char) (rest : List Char) : Token × Nat :=
  let text := first :: rest.takeWhile continuesWord
  if (rest.dropWhile continuesWord).head? = some ':' then
    (.field (String.ofList text), text.length + 1)
  else (bareToken text, text.length)

/-- The outcome of reading the text behind an opening quote. -/
inductive PhraseReading where
  /-- The text of the phrase, and how many characters it takes with its closing quote. -/
  | closed (text : List Char) (width : Nat)
  /-- The query ends inside the phrase. -/
  | unterminated
  /-- A control character, and how many characters stand before it. -/
  | invalid (c : Char) (offset : Nat)

/-- The reading of a text that begins with `width` more characters, which spell `c`. -/
def PhraseReading.after (width : Nat) (c : Char) : PhraseReading → PhraseReading
  | closed text w => closed (c :: text) (width + w)
  | unterminated => unterminated
  | invalid d offset => invalid d (width + offset)

namespace PhraseReading

variable (width : Nat) (c : Char)

@[simp] theorem after_closed (text : List Char) (w : Nat) :
    (closed text w).after width c = closed (c :: text) (width + w) := rfl

@[simp] theorem after_unterminated : unterminated.after width c = unterminated := rfl

@[simp] theorem after_invalid (d : Char) (offset : Nat) :
    (invalid d offset).after width c = invalid d (width + offset) := rfl

variable {width c} {r : PhraseReading}

/-- A phrase that is closed behind one more character was closed without it, at a smaller width. -/
theorem after_eq_closed_iff {w : Nat} {text : List Char} :
    r.after width c = .closed text w ↔
      ∃ t v, r = .closed t v ∧ text = c :: t ∧ w = width + v := by
  cases r with
  | closed t v =>
    constructor
    · rintro ⟨⟩
      exact ⟨t, v, rfl, rfl, rfl⟩
    · rintro ⟨_, _, ⟨⟩, rfl, rfl⟩
      rfl
  | unterminated | invalid => simp

theorem after_eq_invalid_iff {offset : Nat} {d : Char} :
    r.after width c = .invalid d offset ↔ ∃ o, r = .invalid d o ∧ width + o = offset := by
  cases r with
  | invalid e o =>
    constructor
    · rintro ⟨⟩
      exact ⟨o, rfl, rfl⟩
    · rintro ⟨_, ⟨⟩, rfl⟩
      rfl
  | unterminated | closed => simp

end PhraseReading

/-- Reads up to the closing quote. A backslash takes the character after it as it is. -/
def readPhrase : List Char → PhraseReading
  | [] => .unterminated
  | '"' :: _ => .closed [] 1
  | ['\\'] => .unterminated
  | '\\' :: c :: rest => (readPhrase rest).after 2 c
  | c :: rest =>
    if Text.isControl c && !Text.isBlank c then .invalid c 0
    else (readPhrase rest).after 1 c

@[simp] theorem readPhrase_nil : readPhrase [] = .unterminated := by
  rw [readPhrase]

@[simp] theorem readPhrase_quote (rest : List Char) : readPhrase ('"' :: rest) = .closed [] 1 := by
  rw [readPhrase]

@[simp] theorem readPhrase_backslash : readPhrase ['\\'] = .unterminated := by
  rw [readPhrase]

@[simp] theorem readPhrase_escaped (c : Char) (rest : List Char) :
    readPhrase ('\\' :: c :: rest) = (readPhrase rest).after 2 c := by
  rw [readPhrase]

section
variable {c : Char} (hquote : c ≠ '"') (hslash : c ≠ '\\')
include hquote hslash

/-- A character that ends nothing, and is no control character but a white one, is taken as it is.
-/
theorem readPhrase_cons (hc : Text.isControl c = true → Text.isBlank c = true) (rest : List Char) :
    readPhrase (c :: rest) = (readPhrase rest).after 1 c := by
  have hvalid : ¬(Text.isControl c && !Text.isBlank c) = true := by
    cases hb : Text.isBlank c <;> simp_all
  rw [readPhrase, if_neg hvalid] <;> simp_all

theorem readPhrase_cons_invalid (hc : (Text.isControl c && !Text.isBlank c) = true)
    (rest : List Char) : readPhrase (c :: rest) = .invalid c 0 := by
  rw [readPhrase, if_pos hc] <;> simp_all

end

/-- The reader of phrases gets to its last case only with a character that is no backslash. -/
theorem ne_backslash_of_readPhrase {c : Char} {rest : List Char}
    (hend : c = '\\' → rest = [] → False)
    (hescape : ∀ d more, c = '\\' → rest = d :: more → False) : c ≠ '\\' := by
  intro hc
  cases rest with
  | nil => exact hend hc rfl
  | cons d more => exact hescape d more hc rfl

/-- A place in a query: the offset and the characters from there on. -/
structure Scanner where
  position : Nat
  remaining : List Char

namespace Scanner

def ofString (query : String) : Scanner :=
  ⟨0, query.toList⟩

/-- The place `width` characters farther on. -/
def advance (s : Scanner) (width : Nat) : Scanner :=
  ⟨s.position + width, s.remaining.drop width⟩

@[simp] theorem advance_mk (position : Nat) (remaining : List Char) (width : Nat) :
    (mk position remaining).advance width = ⟨position + width, remaining.drop width⟩ := rfl

@[simp] theorem advance_position (s : Scanner) (width : Nat) :
    (s.advance width).position = s.position + width := rfl

@[simp] theorem advance_remaining (s : Scanner) (width : Nat) :
    (s.advance width).remaining = s.remaining.drop width := rfl

def skipBlanks (s : Scanner) : Scanner :=
  s.advance (s.remaining.takeWhile Text.isBlank).length

/-- One step from a place that no white space follows. -/
def nextHere (s : Scanner) : Except (Fault ScanCause) Lexeme × Scanner :=
  let found (token : Token) (width : Nat) : Except (Fault ScanCause) Lexeme × Scanner :=
    (.ok ⟨token, s.position⟩, s.advance width)
  match s.remaining with
  | [] => found .finish 0
  | '(' :: _ => found .openGroup 1
  | ')' :: _ => found .closeGroup 1
  | '-' :: _ => found .exclude 1
  | '+' :: _ => found .require 1
  | '"' :: rest =>
    match readPhrase rest with
    | .closed text width => found (.phrase (String.ofList text)) (width + 1)
    | .unterminated =>
      (.error ⟨.unterminatedPhrase, s.position⟩, s.advance s.remaining.length)
    | .invalid c offset =>
      (.error ⟨.invalidCharacter c, s.position + 1 + offset⟩, s.advance (1 + offset))
  | c :: rest =>
    if Text.isControl c then (.error ⟨.invalidCharacter c, s.position⟩, s)
    else found (readWord c rest).1 (readWord c rest).2

/-- The next token, past any white space. At the end it is `finish`, however often one asks. -/
def next (s : Scanner) : Except (Fault ScanCause) Lexeme × Scanner :=
  s.skipBlanks.nextHere

/-- The outcomes of `n` steps, whatever they are. -/
def steps : Nat → Scanner → List (Except (Fault ScanCause) Lexeme)
  | 0, _ => []
  | n + 1, s => s.next.1 :: steps n s.next.2

end Scanner

theorem readWord_width_pos (first : Char) (rest : List Char) : 0 < (readWord first rest).2 := by
  unfold readWord
  dsimp only
  split <;> simp

namespace Scanner

theorem length_advance_le (s : Scanner) (width : Nat) :
    (s.advance width).remaining.length ≤ s.remaining.length := by
  simp

theorem length_advance_lt {s : Scanner} {width : Nat} (hs : s.remaining ≠ [])
    (hw : 0 < width) : (s.advance width).remaining.length < s.remaining.length := by
  have := List.length_pos_iff.2 hs
  simp only [advance, List.length_drop]
  omega

/-- A token other than the end takes at least one character. -/
theorem length_nextHere_lt {s s' : Scanner} {l : Lexeme} (h : s.nextHere = (.ok l, s'))
    (hl : l.token ≠ .finish) : s'.remaining.length < s.remaining.length := by
  unfold nextHere at h
  split at h
  · simp only [Prod.mk.injEq, Except.ok.injEq] at h
    exact absurd (by rw [← h.1]) hl
  case h_6 rest heq =>
    split at h
    · simp only [Prod.mk.injEq] at h
      exact h.2 ▸ length_advance_lt (by simp [heq]) (Nat.succ_pos _)
    · simp at h
    · simp at h
  case h_7 c rest _ _ _ _ _ heq =>
    split at h
    · simp at h
    · simp only [Prod.mk.injEq] at h
      exact h.2 ▸ length_advance_lt (by simp [heq]) (readWord_width_pos c rest)
  all_goals
    next rest heq =>
      simp only [Prod.mk.injEq] at h
      exact h.2 ▸ length_advance_lt (by simp [heq]) Nat.one_pos

theorem length_next_lt {s s' : Scanner} {l : Lexeme} (h : s.next = (.ok l, s'))
    (hl : l.token ≠ .finish) : s'.remaining.length < s.remaining.length :=
  Nat.lt_of_lt_of_le (length_nextHere_lt h hl) (length_advance_le _ _)

/-- All tokens from here on; the last one is the end. -/
def tokens (s : Scanner) : Except (Fault ScanCause) (List Lexeme) :=
  match _h : s.next with
  | (.error fault, _) => .error fault
  | (.ok l, s') =>
    if _hl : l.token = .finish then .ok [l]
    else (tokens s').map (l :: ·)
termination_by s.remaining.length
decreasing_by exact length_next_lt _h _hl

end Scanner

/-- The tokens of a query text, the last one being the end. -/
def tokenize (query : String) : Except ScanError (List Lexeme) :=
  (Scanner.ofString query).tokens.mapError (·.inText query)

end TextQuery
