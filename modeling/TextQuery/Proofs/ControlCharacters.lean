import TextQuery.Proofs.Failures

/-!
# Control characters

Quotes alone tell where in a query text a control character is let through. A quote opens a phrase,
the next one closes it, and a backslash in a phrase takes the character behind it as it is. Behind
such a backslash any character becomes part of the phrase; anywhere else, a control character that
is not white space makes the scanner refuse the whole text.
-/
namespace TextQuery

/-- The control characters that are not white space. -/
def isForbidden (c : Char) : Bool :=
  Text.isControl c && !Text.isBlank c

/-- Neither a quote nor forbidden. -/
def isBare (c : Char) : Bool :=
  c != '"' && !isForbidden c

theorem isBare_iff {c : Char} : isBare c = true ↔ c ≠ '"' ∧ isForbidden c = false := by
  simp [isBare]

theorem isBare_of_isBlank {c : Char} (hc : Text.isBlank c = true) : isBare c = true := by
  rw [isBare_iff]
  refine ⟨?_, by simp [isForbidden, hc]⟩
  intro heq
  rw [heq] at hc
  exact absurd hc (by decide)

theorem isBare_of_isQueryChar {c : Char} (hc : isQueryChar c = true) : isBare c = true := by
  unfold isQueryChar at hc
  simp_all [isBare, isForbidden]

/-- Where in a query text the next character stands. -/
inductive Place where
  | outside
  | inPhrase
  /-- Behind a backslash in a phrase. -/
  | escaped
deriving DecidableEq

namespace Place

def next : Place → Char → Place
  | outside, c => if c = '"' then inPhrase else outside
  | inPhrase, c => if c = '"' then outside else if c = '\\' then escaped else inPhrase
  | escaped, _ => inPhrase

@[simp] theorem next_outside (c : Char) :
    outside.next c = if c = '"' then inPhrase else outside := rfl

@[simp] theorem next_inPhrase (c : Char) :
    inPhrase.next c = if c = '"' then outside else if c = '\\' then escaped else inPhrase := rfl

@[simp] theorem next_escaped (c : Char) : escaped.next c = inPhrase := rfl

/-- The place behind a text. -/
def behind (place : Place) (text : List Char) : Place :=
  text.foldl next place

/-- Behind the text no phrase is open, and in it forbidden characters stand only where they are
escaped. -/
structure Admits (place : Place) (text : List Char) : Prop where
  closed : place.behind text = outside
  escaped : ∀ before c rest, text = before ++ c :: rest → isForbidden c = true →
    place.behind before = escaped

variable {place : Place} {c : Char} {cs text : List Char}

@[simp] theorem admits_nil : place.Admits [] ↔ place = outside := by
  constructor
  · intro h
    exact h.closed
  · intro h
    refine ⟨h, ?_⟩
    intro before c rest hsplit
    simp at hsplit

@[simp] theorem admits_cons : place.Admits (c :: cs) ↔
    (isForbidden c = true → place = .escaped) ∧ (place.next c).Admits cs := by
  constructor
  · intro h
    refine ⟨h.escaped [] c cs rfl, h.closed, ?_⟩
    intro before d rest hsplit
    exact h.escaped (c :: before) d rest (by rw [hsplit]; rfl)
  · intro ⟨hc, h⟩
    refine ⟨h.closed, ?_⟩
    intro before d rest hsplit
    rcases List.cons_eq_append_iff.1 hsplit with ⟨hbefore, hd⟩ | ⟨more, hbefore, hmore⟩
    · cases hd
      rw [hbefore]
      exact hc
    · rw [hbefore]
      exact h.escaped more d rest hmore

/-- Outside of phrases, bare characters do not matter. -/
theorem outside_admits_append (h : ∀ d ∈ text, isBare d = true) (cs : List Char) :
    outside.Admits (text ++ cs) ↔ outside.Admits cs := by
  induction text with
  | nil => rfl
  | cons d text ih =>
    obtain ⟨hbare, h⟩ := List.forall_mem_cons.1 h
    obtain ⟨hquote, hd⟩ := isBare_iff.1 hbare
    have hnext : outside.next d = outside := if_neg hquote
    rw [List.cons_append, admits_cons, hnext, ih h]
    simp [hd]

theorem outside_admits_quote : outside.Admits ('"' :: cs) ↔ inPhrase.Admits cs := by
  have hquote : isForbidden '"' = false := by decide
  simp [hquote]

/-- One character more in front of a phrase shifts its end. -/
theorem exists_after_eq_closed_iff {P : Nat → Prop} {width : Nat} {r : PhraseReading} :
    (∃ text w, r.after width c = .closed text w ∧ P w) ↔
      ∃ text w, r = .closed text w ∧ P (width + w) := by
  cases r <;> simp

/-- In a phrase, a text is admitted if it closes the phrase and what follows is admitted. -/
theorem inPhrase_admits_iff : inPhrase.Admits cs ↔
    ∃ text width, readPhrase cs = .closed text width ∧ outside.Admits (cs.drop width) := by
  induction cs using readPhrase.induct with
  | case1 => simp
  | case2 rest =>
    have hquote : isForbidden '"' = false := by decide
    simp [hquote]
  | case3 => simp
  | case4 c rest ih =>
    have hslash : isForbidden '\\' = false := by decide
    have hescape : inPhrase.Admits ('\\' :: c :: rest) ↔ inPhrase.Admits rest := by
      simp [hslash]
    rw [hescape, ih, readPhrase_escaped, exists_after_eq_closed_iff]
    simp [Nat.add_comm 2]
  | case5 c rest hquote hend hescape hinvalid =>
    have hread := readPhrase_cons_invalid hquote (ne_backslash_of_readPhrase hend hescape) hinvalid
    constructor
    · intro h
      cases (admits_cons.1 h).1 hinvalid
    · intro h
      obtain ⟨text, width, hclosed, -⟩ := h
      rw [hread] at hclosed
      cases hclosed
  | case6 c rest hquote hend hescape hvalid ih =>
    have hslash := ne_backslash_of_readPhrase hend hescape
    have hnext : inPhrase.next c = inPhrase := by
      rw [next_inPhrase, if_neg hquote, if_neg hslash]
    have hc : isForbidden c = true → inPhrase = .escaped := fun hc => absurd hc hvalid
    rw [admits_cons, hnext, ih, and_iff_right hc,
      readPhrase_cons hquote hslash (by simpa using hvalid), exists_after_eq_closed_iff]
    simp [Nat.add_comm 1]

end Place

theorem InEitherCase.all {p : Char → Bool} {word letters : List Char}
    (h : InEitherCase word letters)
    (hword : word.all (fun small => p small && p small.toUpper) = true) : letters.all p = true := by
  induction h with
  | nil => rfl
  | @cons small d word letters hd tail ih =>
    rw [List.all_cons, Bool.and_eq_true, Bool.and_eq_true] at hword
    obtain ⟨⟨hsmall, hupper⟩, hword⟩ := hword
    rw [List.all_cons, ih hword, Bool.and_true]
    rcases hd with heq | heq
    · rwa [heq]
    · rwa [heq]

namespace Token

variable {t : Token} {spelling : List Char}

/-- The characters that a token carries. -/
def text : Token → List Char
  | word text | phrase text | field text => text.toList
  | exclude | require | openGroup | closeGroup | and | or | finish => []

/-- Only phrases are spelled with other characters than bare ones. -/
theorem Spelled.isBare (h : t.Spelled spelling) (hproper : t.Proper)
    (hphrase : ∀ text, t ≠ .phrase text) : ∀ d ∈ spelling, isBare d = true := by
  cases h with
  | word => exact fun d hd => isBare_of_isQueryChar (hproper.queryChars d hd)
  | phrase hbody => exact absurd rfl (hphrase _)
  | field =>
    rw [List.forall_mem_append]
    exact ⟨fun d hd => isBare_of_isQueryChar (hproper.queryChars d hd),
      List.all_eq_true.1 (by decide)⟩
  | and hletters | or hletters => exact List.all_eq_true.1 (hletters.all (by decide))
  | exclude | require | openGroup | closeGroup => exact List.all_eq_true.1 (by decide)

end Token

theorem filter_isForbidden_of_isBare {text : List Char} (h : ∀ d ∈ text, isBare d = true) :
    text.filter isForbidden = [] := by
  rw [List.filter_eq_nil_iff]
  intro d hd
  simp [(isBare_iff.1 (h d hd)).2]

/-- No backslash of a phrase is forbidden, so taking them away leaves the forbidden characters. -/
theorem Unescapes.filter_isForbidden {body text : List Char} (h : Unescapes body text) :
    body.filter isForbidden = text.filter isForbidden := by
  have hslash : isForbidden '\\' = false := by decide
  induction h with
  | nil => rfl
  | plain hquote hslash tail ih => rw [List.filter_cons, List.filter_cons, ih]
  | escaped tail ih => simp [List.filter_cons, hslash, ih]

namespace Token

variable {t : Token} {spelling : List Char}

/-- A token carries the forbidden characters that it is spelled with. -/
theorem Spelled.filter_isForbidden (h : t.Spelled spelling) (hproper : t.Proper) :
    spelling.filter isForbidden = t.text.filter isForbidden := by
  have hquote : isForbidden '"' = false := by decide
  have hcolon : isForbidden ':' = false := by decide
  cases h with
  | word => rfl
  | phrase hbody => simp [hquote, hbody.filter_isForbidden, text]
  | field => simp [hcolon, text]
  | and hletters =>
    exact filter_isForbidden_of_isBare ((Spelled.and hletters).isBare trivial (by simp))
  | or hletters =>
    exact filter_isForbidden_of_isBare ((Spelled.or hletters).isBare trivial (by simp))
  | exclude | require | openGroup | closeGroup => decide

theorem isPhrase_of_isForbidden (hproper : t.Proper) {c : Char} (hc : c ∈ t.text)
    (hforbidden : isForbidden c = true) : ∃ text, t = .phrase text := by
  cases t with
  | phrase text => exact ⟨text, rfl⟩
  | word text | field text =>
    have hbare := isBare_of_isQueryChar (hproper.queryChars c hc)
    simp [(isBare_iff.1 hbare).2] at hforbidden
  | exclude | require | openGroup | closeGroup | and | or | finish => cases hc

end Token

theorem LaidOut.filter_isForbidden {position : Nat} {text : List Char} {lexemes : List Lexeme}
    (h : LaidOut position text lexemes) :
    (lexemes.flatMap fun l => l.token.text).filter isForbidden = text.filter isForbidden := by
  induction h with
  | finish hblanks =>
    rw [filter_isForbidden_of_isBare fun c hc => isBare_of_isBlank (hblanks c hc)]
    rfl
  | cons hblanks hspelled hproper tail ih =>
    have hbare := filter_isForbidden_of_isBare fun c hc => isBare_of_isBlank (hblanks c hc)
    rw [List.flatMap_cons, List.filter_append, List.filter_append, List.filter_append, ih, hbare,
      hspelled.filter_isForbidden hproper, List.nil_append]

namespace Scanner
open Place (outside inPhrase)

variable {s s' : Scanner} {l : Lexeme} {fault : Fault ScanCause}

theorem outside_admits_skipBlanks :
    outside.Admits s.remaining ↔ outside.Admits s.skipBlanks.remaining := by
  have hblanks : ∀ c ∈ s.remaining.takeWhile Text.isBlank, isBare c = true := fun c hc =>
    isBare_of_isBlank (List.all_eq_true.1 List.all_takeWhile c hc)
  have hadmits := Place.outside_admits_append hblanks s.skipBlanks.remaining
  rwa [← s.takes_skipBlanks.remaining] at hadmits

/-- A step that finds a token does not change what is admitted from there on. -/
theorem outside_admits_iff_of_nextHere
    (hblank : ∀ c ∈ s.remaining.head?, Text.isBlank c = false) (h : s.nextHere = (.ok l, s')) :
    outside.Admits s.remaining ↔ outside.Admits s'.remaining := by
  obtain ⟨position, remaining⟩ := s
  cases remaining with
  | nil =>
    cases h
    rfl
  | cons c cs =>
    by_cases hquote : c = '"'
    · have hmark : mark? c = none := by
        rw [hquote]
        rfl
      rw [nextHere_cons, hmark] at h
      dsimp only at h
      rw [if_pos hquote] at h
      cases hread : readPhrase cs with
      | unterminated => simp [hread] at h
      | invalid d offset => simp [hread] at h
      | closed text width =>
        simp only [hread] at h
        cases h
        rw [hquote, Place.outside_admits_quote, Place.inPhrase_admits_iff, hread]
        simp
    · obtain ⟨hnil, -⟩ | ⟨spelling, htakes, hspelled, hproper⟩ := takes_of_nextHere hblank h
      · cases hnil
      · have hphrase : ∀ text, l.token ≠ .phrase text := by
          intro text htoken
          have hremaining := htakes.remaining
          rw [htoken] at hspelled
          cases hspelled
          cases hremaining
          exact hquote rfl
        rw [htakes.remaining]
        exact Place.outside_admits_append (hspelled.isBare hproper hphrase) _

/-- What a step refuses is not admitted. -/
theorem not_outside_admits_of_nextHere
    (hblank : ∀ c ∈ s.remaining.head?, Text.isBlank c = false)
    (h : s.nextHere = (.error fault, s')) :
    ¬ outside.Admits s.remaining := by
  obtain ⟨position, remaining⟩ := s
  cases remaining with
  | nil => cases h
  | cons c cs =>
    rw [nextHere_cons] at h
    cases hmark : mark? c with
    | some token => simp [hmark] at h
    | none =>
      simp only [hmark] at h
      by_cases hquote : c = '"'
      · rw [if_pos hquote] at h
        dsimp only
        rw [hquote, Place.outside_admits_quote, Place.inPhrase_admits_iff]
        intro hclosed
        obtain ⟨text, width, hread, -⟩ := hclosed
        simp [hread] at h
      · rw [if_neg hquote] at h
        split at h
        · next hcontrol =>
          have hforbidden : isForbidden c = true := by simp [isForbidden, hcontrol, hblank c rfl]
          intro hadmits
          cases (Place.admits_cons.1 hadmits).1 hforbidden
        · cases h

/-- A scan succeeds just on what is admitted outside of phrases. -/
theorem exists_tokens_iff (s : Scanner) :
    (∃ lexemes, s.tokens = .ok lexemes) ↔ outside.Admits s.remaining := by
  induction s using tokens.induct with
  | case1 s fault s' hnext =>
    have hadmits := not_outside_admits_of_nextHere s.isBlank_head?_skipBlanks hnext
    rw [tokens_of_next_error hnext, outside_admits_skipBlanks]
    simp [hadmits]
  | case2 s l s' hnext hl =>
    rw [tokens_of_next_finish hnext hl]
    obtain ⟨blanks, hblanks, -, ⟨hremaining, -⟩ | ⟨spelling, -, hspelled, -⟩⟩ := takes_of_next hnext
    · have hbare : ∀ c ∈ blanks, isBare c = true := fun c hc => isBare_of_isBlank (hblanks c hc)
      have hadmits := Place.outside_admits_append hbare []
      rw [List.append_nil, ← hremaining, Place.admits_nil] at hadmits
      simp [hadmits]
    · exact absurd hl hspelled.ne_finish
  | case3 s l s' hnext hl ih =>
    rw [tokens_of_next hnext hl, outside_admits_skipBlanks,
      outside_admits_iff_of_nextHere s.isBlank_head?_skipBlanks hnext, ← ih]
    cases s'.tokens <;> simp [Except.map]

end Scanner

/-- A text is split into tokens just if its phrases are closed and each control character in it that
is not white space stands behind a backslash in a phrase. The tokens carry all these characters, in
their order, and only phrases carry any. -/
theorem exists_tokenize_iff_escaped (text : String) :
    ((∃ lexemes, tokenize text = .ok lexemes) ↔ Place.outside.Admits text.toList) ∧
      ∀ lexemes, tokenize text = .ok lexemes →
        (lexemes.flatMap fun l => l.token.text).filter isForbidden =
          text.toList.filter isForbidden ∧
        ∀ l ∈ lexemes, ∀ c ∈ l.token.text, isForbidden c = true → ∃ t, l.token = .phrase t := by
  constructor
  · simp only [tokenize_eq_ok_iff]
    exact (Scanner.ofString text).exists_tokens_iff
  · intro lexemes htokens
    have hlaid := laidOut_tokenize htokens
    refine ⟨hlaid.filter_isForbidden, ?_⟩
    intro l hl c hc hforbidden
    exact Token.isPhrase_of_isForbidden (hlaid.proper l hl) hc hforbidden

theorem exists_tokenize_iff_escaped_bell :
    let text := "a \"b\\\x07c\"\t-d"
    let lexemes : List Lexeme := [⟨.word "a", 0⟩, ⟨.phrase "b\x07c", 2⟩, ⟨.exclude, 9⟩,
      ⟨.word "d", 10⟩, ⟨.finish, 11⟩]
    tokenize text = .ok lexemes ∧ Place.outside.Admits text.toList ∧
      (lexemes.flatMap fun l => l.token.text).filter isForbidden =
        text.toList.filter isForbidden ∧
      isForbidden '\x07' = true ∧ ∃ t, Token.phrase "b\x07c" = .phrase t := by
  intro text lexemes
  have htokens : tokenize text = .ok lexemes := by decide +kernel
  have hforbidden : isForbidden '\x07' = true := by decide
  obtain ⟨haccepted, hcarried⟩ := exists_tokenize_iff_escaped text
  obtain ⟨hfilter, hphrase⟩ := hcarried lexemes htokens
  refine ⟨htokens, haccepted.1 ⟨lexemes, htokens⟩, hfilter, hforbidden, ?_⟩
  exact hphrase ⟨.phrase "b\x07c", 2⟩ (by simp [lexemes]) '\x07' (by simp [Token.text]) hforbidden

/-- A backslash lets a control character through. -/
theorem exists_tokenize_forbidden :
    '\x01' ∈ "\"\\\x01\"".toList ∧ isForbidden '\x01' = true ∧
      tokenize "\"\\\x01\"" = .ok [⟨.phrase "\x01", 0⟩, ⟨.finish, 4⟩] := by
  refine ⟨?_, by decide, by decide +kernel⟩
  simp

end TextQuery
