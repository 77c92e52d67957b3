import TextQuery.Query.Basic
import TextQuery.Query.Scanner

/-!
# Tokens, one after another

What the scanner makes of the next characters, for each way a token can be spelled, and what it
therefore makes of a text that was put together from spelled tokens.
-/
namespace TextQuery

/-- The last lexeme, and no other, is the end of the query. -/
def EndsOnce (lexemes : List Lexeme) : Prop :=
  ∃ before position, lexemes = before ++ [⟨.finish, position⟩] ∧
    ∀ l ∈ before, l.token ≠ .finish

theorem tokenize_eq_ok_iff {text : String} {lexemes : List Lexeme} :
    tokenize text = .ok lexemes ↔ (Scanner.ofString text).tokens = .ok lexemes := by
  unfold tokenize
  cases (Scanner.ofString text).tokens with
  | error fault => exact ⟨nofun, nofun⟩
  | ok found =>
    constructor <;> intro h <;> cases h <;> rfl

namespace Scanner

variable {s s' : Scanner} {l : Lexeme}

theorem tokens_of_next_error {fault : Fault ScanCause} (h : s.next = (.error fault, s')) :
    s.tokens = .error fault := by
  rw [tokens]
  split <;> simp_all

theorem tokens_of_next_finish (h : s.next = (.ok l, s')) (hl : l.token = .finish) :
    s.tokens = .ok [l] := by
  rw [tokens]
  split <;> simp_all

theorem tokens_of_next (h : s.next = (.ok l, s')) (hl : l.token ≠ .finish) :
    s.tokens = s'.tokens.map (l :: ·) := by
  rw [tokens]
  split <;> simp_all

theorem tokens_of_next_eq {t : Scanner} (h : s.next = t.next) : s.tokens = t.tokens := by
  obtain ⟨⟨outcome, s'⟩, ht⟩ : ∃ o, t.next = o := ⟨_, rfl⟩
  rw [ht] at h
  cases outcome with
  | error fault => rw [tokens_of_next_error h, tokens_of_next_error ht]
  | ok l =>
    by_cases hl : l.token = .finish
    · rw [tokens_of_next_finish h hl, tokens_of_next_finish ht hl]
    · rw [tokens_of_next h hl, tokens_of_next ht hl]

theorem tokens_nil {position : Nat} :
    (Scanner.mk position []).tokens = .ok [⟨.finish, position⟩] := by
  have hnext : (Scanner.mk position []).next =
      (.ok ⟨.finish, position⟩, Scanner.mk position []) := rfl
  exact tokens_of_next_finish hnext rfl

/-- White space makes no token; it only moves the offsets of those behind it. -/
theorem tokens_of_isBlank (position : Nat) {c : Char} {cs : List Char}
    (hc : Text.isBlank c = true) :
    (Scanner.mk position (c :: cs)).tokens = (Scanner.mk (position + 1) cs).tokens := by
  apply tokens_of_next_eq
  simp [next, skipBlanks, hc, Nat.add_assoc, Nat.add_comm 1]

theorem next_of_not_isBlank {position : Nat} {c : Char} {cs : List Char}
    (hc : Text.isBlank c = false) :
    (Scanner.mk position (c :: cs)).next = (Scanner.mk position (c :: cs)).nextHere := by
  simp [next, skipBlanks, hc]

theorem tokens_of_nextHere {position : Nat} {c : Char} {cs : List Char}
    (hc : Text.isBlank c = false) (h : (Scanner.mk position (c :: cs)).nextHere = (.ok l, s'))
    (hl : l.token ≠ .finish) :
    (Scanner.mk position (c :: cs)).tokens = s'.tokens.map (l :: ·) :=
  tokens_of_next ((next_of_not_isBlank hc).trans h) hl

theorem position_of_nextHere (h : s.nextHere = (.ok l, s')) : l.position = s.position := by
  unfold nextHere at h
  split at h
  case h_6 =>
    split at h <;> cases h
    rfl
  case h_7 =>
    split at h <;> cases h
    rfl
  all_goals
    cases h
    rfl

/-- Where no white space stands, the first lexeme does. -/
theorem position_of_tokens {position : Nat} {c : Char} {cs : List Char} {lexemes : List Lexeme}
    (hc : Text.isBlank c = false) (h : (Scanner.mk position (c :: cs)).tokens = .ok lexemes) :
    ∀ l ∈ lexemes.head?, l.position = position := by
  obtain ⟨⟨outcome, s'⟩, hnext⟩ : ∃ o, (Scanner.mk position (c :: cs)).next = o := ⟨_, rfl⟩
  cases outcome with
  | error fault => simp [tokens_of_next_error hnext] at h
  | ok l =>
    have hl : l.position = position :=
      position_of_nextHere ((next_of_not_isBlank hc).symm.trans hnext)
    by_cases hfinish : l.token = .finish
    · rw [tokens_of_next_finish hnext hfinish] at h
      cases h
      simpa using hl
    · rw [tokens_of_next hnext hfinish] at h
      cases hs : s'.tokens with
      | error fault => simp [hs, Except.map] at h
      | ok ls =>
        simp only [hs, Except.map, Except.ok.injEq] at h
        subst h
        simpa using hl

/-- The tokens that are spelled with one character. -/
def mark? : Char → Option Token
  | '(' => some .openGroup
  | ')' => some .closeGroup
  | '-' => some .exclude
  | '+' => some .require
  | _ => none

/-- A mark is read as its token, whatever follows. -/
theorem tokens_mark (position : Nat) {c : Char} {cs : List Char} {token : Token}
    (hc : mark? c = some token) : (Scanner.mk position (c :: cs)).tokens =
      (Scanner.mk (position + 1) cs).tokens.map (⟨token, position⟩ :: ·) := by
  unfold mark? at hc
  split at hc
  case h_5 => cases hc
  all_goals
    cases hc
    exact tokens_of_nextHere (by decide) rfl (by simp)

/-- The first character of `rest` could not be part of a word. -/
def Closes (rest : List Char) : Prop :=
  ∀ c ∈ rest.head?, isQueryChar c = false

@[simp] theorem closes_nil : Closes [] := nofun

theorem isBlank_of_isQueryChar {c : Char} (hc : isQueryChar c = true) : Text.isBlank c = false := by
  unfold isQueryChar at hc
  simp_all

/-- What is no mark and no quote begins a word or a field name. -/
theorem nextHere_word {position : Nat} {c : Char} {cs : List Char} (hc : isQueryChar c = true)
    (hmark : mark? c = none) : (Scanner.mk position (c :: cs)).nextHere =
      (.ok ⟨(readWord c cs).1, position⟩,
        (Scanner.mk position (c :: cs)).advance (readWord c cs).2) := by
  unfold isQueryChar at hc
  unfold nextHere
  split
  case h_1 heq => cases heq
  case h_6 heq =>
    cases heq
    simp at hc
  case h_7 heq =>
    cases heq
    rw [if_neg (by simp_all)]
  all_goals
    next heq =>
      cases heq
      simp [mark?] at hmark

theorem takeWhile_continuesWord {cs rest : List Char} (hcs : ∀ c ∈ cs, continuesWord c = true)
    (hrest : ∀ c ∈ rest.head?, continuesWord c = false) :
    (cs ++ rest).takeWhile continuesWord = cs ∧ (cs ++ rest).dropWhile continuesWord = rest := by
  rw [List.takeWhile_append_of_pos hcs, List.dropWhile_append_of_pos hcs]
  cases rest with
  | nil => simp
  | cons c rest =>
    have hc : continuesWord c = false := hrest c rfl
    simp [hc]

theorem bareToken_ne_finish {text : List Char} : bareToken text ≠ .finish := by
  unfold bareToken
  split
  · simp
  · split <;> simp

/-- A word is read as far as it cannot go on. The token is left to `bareToken`, as the word may be a
keyword. -/
theorem tokens_bare (position : Nat) {c : Char} {cs rest : List Char} (hc : isQueryChar c = true)
    (hmark : mark? c = none) (hcs : ∀ d ∈ cs, continuesWord d = true) (hrest : Closes rest) :
    (Scanner.mk position (c :: cs ++ rest)).tokens =
      (Scanner.mk (position + (c :: cs).length) rest).tokens.map
        (⟨bareToken (c :: cs), position⟩ :: ·) := by
  have hstop : ∀ d ∈ rest.head?, continuesWord d = false := by
    intro d hd
    simp [continuesWord, hrest d hd]
  obtain ⟨htake, hdrop⟩ := takeWhile_continuesWord hcs hstop
  have hcolon : rest.head? ≠ some ':' := by
    intro h
    have := hrest ':' h
    revert this
    decide
  have hread : readWord c (cs ++ rest) = (bareToken (c :: cs), (c :: cs).length) := by
    simp [readWord, htake, hdrop, hcolon]
  rw [List.cons_append]
  refine tokens_of_nextHere (isBlank_of_isQueryChar hc) ?_ bareToken_ne_finish
  rw [nextHere_word hc hmark, hread]
  simp

/-- A bare word between two blanks, with both of them. -/
theorem tokens_bare_between (position : Nat) {c : Char} {cs rest : List Char}
    (hc : isQueryChar c = true) (hmark : mark? c = none)
    (hcs : ∀ d ∈ cs, continuesWord d = true) :
    (Scanner.mk position (' ' :: (c :: cs ++ ' ' :: rest))).tokens =
      (Scanner.mk (position + (cs.length + 3)) rest).tokens.map
        (⟨bareToken (c :: cs), position + 1⟩ :: ·) := by
  have hblank : Text.isBlank ' ' = true := by decide
  have hcloses : Closes (' ' :: rest) := by
    rintro d ⟨⟩
    decide
  rw [tokens_of_isBlank _ hblank, tokens_bare _ hc hmark hcs hcloses, tokens_of_isBlank _ hblank]
  have hlength : position + 1 + (c :: cs).length + 1 = position + (cs.length + 3) := by
    rw [List.length_cons]
    omega
  rw [hlength]

/-- The colon ends a field name, so it does not matter what follows. -/
theorem tokens_field (position : Nat) {c : Char} {cs rest : List Char}
    (hc : isQueryChar c = true) (hmark : mark? c = none)
    (hcs : ∀ d ∈ cs, continuesWord d = true) :
    (Scanner.mk position (c :: cs ++ ':' :: rest)).tokens =
      (Scanner.mk (position + (c :: cs).length + 1) rest).tokens.map
        (⟨.field (String.ofList (c :: cs)), position⟩ :: ·) := by
  have hstop : ∀ d ∈ (':' :: rest).head?, continuesWord d = false := by
    rintro d ⟨⟩
    decide
  obtain ⟨htake, hdrop⟩ := takeWhile_continuesWord hcs hstop
  have hread : readWord c (cs ++ ':' :: rest) =
      (.field (String.ofList (c :: cs)), (c :: cs).length + 1) := by
    simp [readWord, htake, hdrop]
  rw [List.cons_append]
  refine tokens_of_nextHere (isBlank_of_isQueryChar hc) ?_ (by simp)
  rw [nextHere_word hc hmark, hread]
  simp [Nat.add_assoc]

theorem escapeInPhrase_cons (c : Char) (text : List Char) :
    Query.escapeInPhrase (c :: text) =
      (if c == '"' || c == '\\' then ['\\', c] else [c]) ++ Query.escapeInPhrase text :=
  rfl

/-- The closing quote is found behind an escaped text, and the escapes are undone. -/
theorem readPhrase_escapeInPhrase {text rest : List Char}
    (htext : ∀ c ∈ text, Text.isControl c = true → Text.isBlank c = true) :
    readPhrase (Query.escapeInPhrase text ++ '"' :: rest) =
      .closed text ((Query.escapeInPhrase text).length + 1) := by
  induction text with
  | nil => rfl
  | cons c text ih =>
    obtain ⟨hc, htext⟩ := List.forall_mem_cons.1 htext
    rw [escapeInPhrase_cons]
    by_cases hescaped : c = '"' ∨ c = '\\'
    · rw [if_pos (by simpa using hescaped)]
      simp only [List.cons_append, List.nil_append]
      rw [readPhrase_escaped, ih htext]
      simp only [PhraseReading.after_closed, List.length_cons, PhraseReading.closed.injEq, true_and]
      omega
    · rw [if_neg (by simpa using hescaped)]
      simp only [List.cons_append, List.nil_append]
      rw [readPhrase_cons (fun h => hescaped (.inl h)) (fun h => hescaped (.inr h)) hc _, ih htext]
      simp [Nat.add_comm]

/-- An escaped text in quotes is read as a phrase of the text, whatever follows. -/
theorem tokens_phrase (position : Nat) {text rest : List Char}
    (htext : ∀ c ∈ text, Text.isControl c = true → Text.isBlank c = true) :
    (Scanner.mk position ('"' :: Query.escapeInPhrase text ++ '"' :: rest)).tokens =
      (Scanner.mk (position + (Query.escapeInPhrase text).length + 2) rest).tokens.map
        (⟨.phrase (String.ofList text), position⟩ :: ·) := by
  rw [List.cons_append]
  refine tokens_of_nextHere (by decide) ?_ (by simp)
  simp [nextHere, readPhrase_escapeInPhrase htext, Nat.add_assoc]

end Scanner

end TextQuery
