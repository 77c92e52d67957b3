import Mathlib.Data.List.Chain
import Mathlib.Data.List.Forall2
import TextQuery.Proofs.Ascii
import TextQuery.Proofs.WellFormed

/-!
# How tokens are spelled

The characters that each token takes in a query text. A step of the scanner takes white space and
then the spelling of the token that it gives, so that the text of a query can be put together
again from its lexemes, but for the white space and the letter case of keywords.
-/
namespace TextQuery

/-- The body of a phrase as it is written: a backslash goes before every quote and backslash of
the text, and may go before any other character. -/
inductive Unescapes : List Char → List Char → Prop where
  | nil : Unescapes [] []
  | plain {c : Char} {body text : List Char} (hquote : c ≠ '"') (hslash : c ≠ '\\')
      (tail : Unescapes body text) : Unescapes (c :: body) (c :: text)
  | escaped {c : Char} {body text : List Char} (tail : Unescapes body text) :
      Unescapes ('\\' :: c :: body) (c :: text)

/-- The letters of a small word, each of them small or capital. -/
def InEitherCase (word letters : List Char) : Prop :=
  List.Forall₂ (fun small c => c = small ∨ c = small.toUpper) word letters

/-- The characters that a token is written with; the end of the query has none. -/
inductive Token.Spelled : Token → List Char → Prop where
  | word {text : String} : Spelled (.word text) text.toList
  | phrase {text : String} {body : List Char} (hbody : Unescapes body text.toList) :
      Spelled (.phrase text) ('"' :: body ++ ['"'])
  | exclude : Spelled .exclude ['-']
  | require : Spelled .require ['+']
  | field {name : String} : Spelled (.field name) (name.toList ++ [':'])
  | openGroup : Spelled .openGroup ['(']
  | closeGroup : Spelled .closeGroup [')']
  | and {letters : List Char} (hletters : InEitherCase "and".toList letters) : Spelled .and letters
  | or {letters : List Char} (hletters : InEitherCase "or".toList letters) : Spelled .or letters

/-- What the scanner sees to: words and field names are such that it takes them in one piece. -/
def Token.Proper : Token → Prop
  | word text => IsTerm text
  | field name => IsName name
  | _ => True

theorem Token.Spelled.ne_nil {t : Token} {spelling : List Char} (h : t.Spelled spelling)
    (hproper : t.Proper) : spelling ≠ [] := by
  cases h with
  | word => exact hproper.ne_nil
  | and hletters | or hletters =>
    rintro rfl
    cases hletters
  | phrase | exclude | require | field | openGroup | closeGroup => simp

theorem Token.Spelled.ne_finish {t : Token} {spelling : List Char} (h : t.Spelled spelling) :
    t ≠ .finish := by
  rintro rfl
  cases h

theorem inEitherCase_of_equalsIgnoringAsciiCase {word letters : List Char}
    (hword : word.map Char.toLower = word) (h : equalsIgnoringAsciiCase letters word = true) :
    InEitherCase word letters := by
  have hmap : letters.map Char.toLower = word := by
    simpa [equalsIgnoringAsciiCase, hword] using h
  rw [← hmap, InEitherCase, List.forall₂_map_left_iff, List.forall₂_same]
  exact fun c _ => Text.eq_toLower_or c

/-- A keyword is spelled in any letter case, and a word as it is. -/
theorem spelled_bareToken (text : List Char) : (bareToken text).Spelled text := by
  unfold bareToken
  split
  · next hand => exact .and (inEitherCase_of_equalsIgnoringAsciiCase rfl hand)
  · split
    · next hor => exact .or (inEitherCase_of_equalsIgnoringAsciiCase rfl hor)
    · have hword := @Token.Spelled.word (String.ofList text)
      rwa [String.toList_ofList] at hword

theorem proper_bareToken {text : List Char} (h : IsName (String.ofList text)) :
    (bareToken text).Proper := by
  unfold bareToken
  split
  · trivial
  · split
    · trivial
    · next hand hor =>
      exact ⟨h, by simpa using hand, by simpa using hor⟩

/-- A word of the scanner is a name: it is made of the right characters from the first on. -/
theorem isName_ofList_cons {c : Char} {cs : List Char} (hc : isQueryChar c = true)
    (hmark : Scanner.mark? c = none) (hcs : ∀ d ∈ cs, continuesWord d = true) :
    IsName (String.ofList (c :: cs)) := by
  have hchars : ∀ d ∈ cs, isQueryChar d = true ∧ d ≠ ':' := by
    intro d hd
    simpa [continuesWord] using hcs d hd
  refine ⟨by simp, ?_, ?_, ?_⟩
  · rw [String.toList_ofList]
    exact List.forall_mem_cons.2 ⟨hc, fun d hd => (hchars d hd).1⟩
  · rw [String.toList_ofList]
    rintro d ⟨⟩
    constructor <;> rintro rfl <;> cases hmark
  · rw [String.toList_ofList]
    exact fun hcolon => (hchars ':' hcolon).2 rfl

/-- The word or field name that is read is spelled by what is taken for it. -/
theorem exists_spelled_readWord (c : Char) (cs : List Char) :
    ∃ spelling more, c :: cs = spelling ++ more ∧ (readWord c cs).2 = spelling.length ∧
      (readWord c cs).1.Spelled spelling ∧
      (isQueryChar c = true → Scanner.mark? c = none → (readWord c cs).1.Proper) := by
  have hsplit : cs.takeWhile continuesWord ++ cs.dropWhile continuesWord = cs :=
    List.takeWhile_append_dropWhile
  have hname : isQueryChar c = true → Scanner.mark? c = none →
      IsName (String.ofList (c :: cs.takeWhile continuesWord)) := fun hc hmark =>
    isName_ofList_cons hc hmark (List.all_eq_true.1 List.all_takeWhile)
  unfold readWord
  dsimp only
  split
  · next hcolon =>
    obtain ⟨more, hmore⟩ := List.head?_eq_some_iff.1 hcolon
    have hfield := @Token.Spelled.field (String.ofList (c :: cs.takeWhile continuesWord))
    rw [String.toList_ofList] at hfield
    refine ⟨_, more, ?_, ?_, hfield, hname⟩
    · rw [hmore] at hsplit
      simp [hsplit]
    · simp
  · refine ⟨_, cs.dropWhile continuesWord, ?_, rfl, spelled_bareToken _, ?_⟩
    · rw [List.cons_append, hsplit]
    · exact fun hc hmark => proper_bareToken (hname hc hmark)

/-- A phrase that is closed has a body that is undone to its text, and then a quote. -/
theorem exists_unescapes_of_readPhrase {cs text : List Char} {width : Nat}
    (h : readPhrase cs = .closed text width) :
    ∃ body more, cs = body ++ '"' :: more ∧ width = body.length + 1 ∧ Unescapes body text := by
  induction cs using readPhrase.induct generalizing text width with
  | case1 => simp at h
  | case2 rest =>
    simp only [readPhrase_quote, PhraseReading.closed.injEq] at h
    obtain ⟨rfl, rfl⟩ := h
    exact ⟨[], rest, rfl, rfl, .nil⟩
  | case3 => simp at h
  | case4 c rest ih =>
    rw [readPhrase_escaped, PhraseReading.after_eq_closed_iff] at h
    obtain ⟨t, v, hread, rfl, rfl⟩ := h
    obtain ⟨body, more, rfl, rfl, hbody⟩ := ih hread
    exact ⟨'\\' :: c :: body, more, rfl, by simp only [List.length_cons]; omega, hbody.escaped⟩
  | case5 c rest hquote hend hescape hinvalid =>
    have hslash := ne_backslash_of_readPhrase hend hescape
    rw [readPhrase_cons_invalid hquote hslash hinvalid] at h
    cases h
  | case6 c rest hquote hend hescape hvalid ih =>
    have hslash := ne_backslash_of_readPhrase hend hescape
    rw [readPhrase_cons hquote hslash (by simpa using hvalid),
      PhraseReading.after_eq_closed_iff] at h
    obtain ⟨t, v, hread, rfl, rfl⟩ := h
    obtain ⟨body, more, rfl, rfl, hbody⟩ := ih hread
    exact ⟨c :: body, more, rfl, by simp only [List.length_cons]; omega, hbody.plain hquote hslash⟩

namespace Scanner

variable {s s' : Scanner} {l : Lexeme}

/-- The scanner gets from one place to the other over these characters. -/
structure Takes (s : Scanner) (taken : List Char) (s' : Scanner) : Prop where
  remaining : s.remaining = taken ++ s'.remaining
  position : s'.position = s.position + taken.length

/-- The offset at which the query ends. -/
def endPosition (s : Scanner) : Nat :=
  s.position + s.remaining.length

theorem Takes.endPosition_eq {taken : List Char} (h : s.Takes taken s') :
    s'.endPosition = s.endPosition := by
  unfold endPosition
  rw [h.remaining, h.position, List.length_append]
  omega

theorem takes_advance (taken : List Char) {more : List Char} (h : s.remaining = taken ++ more) :
    s.Takes taken (s.advance taken.length) :=
  ⟨by simp [h], rfl⟩

theorem takes_skipBlanks (s : Scanner) :
    s.Takes (s.remaining.takeWhile Text.isBlank) s.skipBlanks :=
  takes_advance _ List.takeWhile_append_dropWhile.symm

theorem isBlank_head?_skipBlanks (s : Scanner) :
    ∀ c ∈ s.skipBlanks.remaining.head?, Text.isBlank c = false := by
  have hsplit : s.remaining.takeWhile Text.isBlank ++ s.remaining.dropWhile Text.isBlank =
      s.remaining := List.takeWhile_append_dropWhile
  have hdrop : s.skipBlanks.remaining = s.remaining.dropWhile Text.isBlank :=
    List.append_cancel_left (s.takes_skipBlanks.remaining.symm.trans hsplit.symm)
  intro c hc
  have hhead := List.head?_dropWhile_not Text.isBlank s.remaining
  rw [← hdrop] at hhead
  simpa [Option.mem_def.1 hc] using hhead

/-- Marks are spelled by themselves. -/
theorem spelled_of_mark? {c : Char} {token : Token} (h : mark? c = some token) :
    token.Spelled [c] ∧ token.Proper := by
  unfold mark? at h
  split at h <;> cases h
  · exact ⟨.openGroup, trivial⟩
  · exact ⟨.closeGroup, trivial⟩
  · exact ⟨.exclude, trivial⟩
  · exact ⟨.require, trivial⟩

/-- Where no white space stands, a step finds the end of the query, or it takes the spelling of
the token that it gives. -/
theorem takes_of_nextHere (hblank : ∀ c ∈ s.remaining.head?, Text.isBlank c = false)
    (h : s.nextHere = (.ok l, s')) :
    s.remaining = [] ∧ l.token = .finish ∨
      ∃ spelling, s.Takes spelling s' ∧ l.token.Spelled spelling ∧ l.token.Proper := by
  unfold nextHere at h
  split at h
  case h_1 heq =>
    cases h
    exact .inl ⟨heq, rfl⟩
  case h_6 rest heq =>
    split at h
    · next text width hread =>
      cases h
      obtain ⟨body, more, rfl, rfl, hbody⟩ := exists_unescapes_of_readPhrase hread
      have htakes := takes_advance ('"' :: body ++ ['"']) (by simpa using heq)
      rw [List.length_append] at htakes
      have hspelled : (Token.phrase (String.ofList text)).Spelled ('"' :: body ++ ['"']) :=
        .phrase (by rwa [String.toList_ofList])
      exact .inr ⟨_, htakes, hspelled, trivial⟩
    · cases h
    · cases h
  case h_7 c rest hopen hclose hminus hplus hquote heq =>
    split at h
    · cases h
    · next hcontrol =>
      cases h
      obtain ⟨spelling, more, hsplit, hwidth, hspelled, hproper⟩ := exists_spelled_readWord c rest
      have hc : isQueryChar c = true := by
        have hb := hblank c (by simp [heq])
        simp_all [isQueryChar]
      have hmark : mark? c = none := by
        unfold mark?
        split <;> simp_all
      rw [hwidth]
      exact .inr ⟨_, takes_advance spelling (heq.trans hsplit), hspelled, hproper hc hmark⟩
  all_goals
    next rest heq =>
      cases h
      refine .inr ⟨_, takes_advance [_] heq, spelled_of_mark? ?_⟩
      rfl

/-- A step takes white space, and then the spelling of its token unless this is the end. -/
theorem takes_of_next (h : s.next = (.ok l, s')) :
    ∃ blanks, (∀ c ∈ blanks, Text.isBlank c = true) ∧ l.position = s.position + blanks.length ∧
      (s.remaining = blanks ∧ l.token = .finish ∨
        ∃ spelling, s.Takes (blanks ++ spelling) s' ∧ l.token.Spelled spelling ∧
          l.token.Proper) := by
  have hskip := s.takes_skipBlanks
  have hposition := position_of_nextHere h
  refine ⟨s.remaining.takeWhile Text.isBlank, List.all_eq_true.1 List.all_takeWhile,
    hposition, ?_⟩
  rcases takes_of_nextHere s.isBlank_head?_skipBlanks h with
    ⟨hnil, hl⟩ | ⟨spelling, htakes, hspelled, hproper⟩
  · have hremaining := hskip.remaining
    rw [hnil, List.append_nil] at hremaining
    exact .inl ⟨hremaining, hl⟩
  · refine .inr ⟨spelling, ⟨?_, ?_⟩, hspelled, hproper⟩
    · rw [List.append_assoc, ← htakes.remaining, ← hskip.remaining]
    · rw [htakes.position, List.length_append, ← Nat.add_assoc]
      rfl

/-- A step that finds a token goes on in the same query. -/
theorem endPosition_of_next (h : s.next = (.ok l, s')) (hl : l.token ≠ .finish) :
    s'.endPosition = s.endPosition := by
  obtain ⟨blanks, -, -, ⟨-, hfinish⟩ | ⟨spelling, htakes, -⟩⟩ := takes_of_next h
  · exact absurd hfinish hl
  · exact htakes.endPosition_eq

end Scanner

/-- From `position` on the text is spelled by the lexemes, with white space before each of them. -/
inductive LaidOut : Nat → List Char → List Lexeme → Prop where
  | finish {position : Nat} {blanks : List Char} (hblanks : ∀ c ∈ blanks, Text.isBlank c = true) :
      LaidOut position blanks [⟨.finish, position + blanks.length⟩]
  | cons {position : Nat} {blanks spelling rest : List Char} {token : Token}
      {lexemes : List Lexeme} (hblanks : ∀ c ∈ blanks, Text.isBlank c = true)
      (hspelled : token.Spelled spelling) (hproper : token.Proper)
      (tail : LaidOut (position + blanks.length + spelling.length) rest lexemes) :
      LaidOut position (blanks ++ spelling ++ rest) (⟨token, position + blanks.length⟩ :: lexemes)

/-- The induction follows the steps of the scanner. -/
theorem Scanner.laidOut_tokens {s : Scanner} {lexemes : List Lexeme}
    (h : s.tokens = .ok lexemes) : LaidOut s.position s.remaining lexemes := by
  induction s using tokens.induct generalizing lexemes with
  | case1 s fault s' hnext => simp [tokens_of_next_error hnext] at h
  | case2 s l s' hnext hl =>
    rw [tokens_of_next_finish hnext hl] at h
    cases h
    obtain ⟨blanks, hblanks, hposition, ⟨hrest, -⟩ | ⟨spelling, -, hspelled, -⟩⟩ :=
      takes_of_next hnext
    · obtain ⟨token, position⟩ := l
      cases hl
      cases hposition
      rw [hrest]
      exact .finish hblanks
    · exact absurd hl hspelled.ne_finish
  | case3 s l s' hnext hl ih =>
    rw [tokens_of_next hnext hl] at h
    obtain ⟨blanks, hblanks, hposition, ⟨-, hfinish⟩ | ⟨spelling, htakes, hspelled, hproper⟩⟩ :=
      takes_of_next hnext
    · exact absurd hfinish hl
    · cases hs : s'.tokens with
      | error fault => simp [hs, Except.map] at h
      | ok ls =>
        simp only [hs, Except.map, Except.ok.injEq] at h
        have htail := ih hs
        rw [htakes.position, List.length_append, ← Nat.add_assoc] at htail
        obtain ⟨token, position⟩ := l
        cases hposition
        rw [← h, htakes.remaining]
        exact .cons hblanks hspelled hproper htail

namespace LaidOut

variable {position : Nat} {text : List Char} {lexemes : List Lexeme}

theorem proper (h : LaidOut position text lexemes) : ∀ l ∈ lexemes, l.token.Proper := by
  induction h with
  | finish hblanks => simp [Token.Proper]
  | cons hblanks hspelled hproper tail ih => exact List.forall_mem_cons.2 ⟨hproper, ih⟩

/-- White space stands before the first lexeme. -/
theorem exists_blanks (h : LaidOut position text lexemes) : ∀ l ∈ lexemes.head?,
    ∃ blanks more, text = blanks ++ more ∧ (∀ c ∈ blanks, Text.isBlank c = true) ∧
      l.position = position + blanks.length := by
  cases h with
  | finish hblanks =>
    rintro l ⟨⟩
    exact ⟨text, [], by simp, hblanks, rfl⟩
  | @cons _ blanks spelling rest token lexemes hblanks hspelled hproper tail =>
    rintro l ⟨⟩
    exact ⟨blanks, spelling ++ rest, by simp, hblanks, rfl⟩

theorem position_le (h : LaidOut position text lexemes) : ∀ l ∈ lexemes, position ≤ l.position := by
  induction h with
  | finish hblanks => simp
  | cons hblanks hspelled hproper tail ih =>
    refine List.forall_mem_cons.2 ⟨Nat.le_add_right _ _, fun l hl => ?_⟩
    have hle := ih l hl
    omega

theorem increasing (h : LaidOut position text lexemes) :
    lexemes.Pairwise fun a b => a.position < b.position := by
  induction h with
  | finish hblanks => exact List.pairwise_singleton _ _
  | cons hblanks hspelled hproper tail ih =>
    refine List.pairwise_cons.2 ⟨fun l hl => ?_, ih⟩
    have hle := tail.position_le l hl
    have hpos := List.length_pos_iff.2 (hspelled.ne_nil hproper)
    dsimp only
    omega

/-- The last lexeme is the end of the query, which stands behind all of the text. -/
theorem ends (h : LaidOut position text lexemes) :
    ∃ before, lexemes = before ++ [⟨.finish, position + text.length⟩] ∧
      ∀ l ∈ before, l.token ≠ .finish := by
  induction h with
  | finish hblanks => exact ⟨[], rfl, by simp⟩
  | @cons position blanks spelling rest token lexemes hblanks hspelled hproper tail ih =>
    obtain ⟨before, rfl, hbefore⟩ := ih
    refine ⟨⟨token, position + blanks.length⟩ :: before, ?_,
      List.forall_mem_cons.2 ⟨hspelled.ne_finish, hbefore⟩⟩
    simp only [List.length_append, List.cons_append, Nat.add_assoc]

end LaidOut

theorem Scanner.endsOnce_tokens {s : Scanner} {lexemes : List Lexeme}
    (h : s.tokens = .ok lexemes) : EndsOnce lexemes := by
  obtain ⟨before, hends, hbefore⟩ := (laidOut_tokens h).ends
  exact ⟨before, _, hends, hbefore⟩

/-- The text between two neighbouring lexemes is the spelling of the first and white space. -/
def SpelledBetween (text : List Char) (a b : Lexeme) : Prop :=
  ∃ spelling blanks, text.extract a.position b.position = spelling ++ blanks ∧
    a.token.Spelled spelling ∧ ∀ c ∈ blanks, Text.isBlank c = true

theorem extract_middle (front middle back : List Char) :
    (front ++ middle ++ back).extract front.length (front.length + middle.length) = middle := by
  simp [List.extract_eq_take_drop, List.append_assoc]

theorem LaidOut.spelledBetween {position : Nat} {text front : List Char} {lexemes : List Lexeme}
    (h : LaidOut position text lexemes) (hfront : front.length = position) :
    lexemes.IsChain (SpelledBetween (front ++ text)) := by
  induction h generalizing front with
  | finish hblanks => exact .singleton _
  | @cons position blanks spelling rest token lexemes hblanks hspelled hproper tail ih =>
    have hlength : (front ++ blanks).length = position + blanks.length := by
      rw [List.length_append, hfront]
    have htail := @ih (front ++ blanks ++ spelling) (by rw [List.length_append, hlength])
    have htext : front ++ (blanks ++ spelling ++ rest) = front ++ blanks ++ spelling ++ rest := by
      simp only [List.append_assoc]
    rw [htext]
    refine List.isChain_cons.2 ⟨fun l hl => ?_, htail⟩
    obtain ⟨gap, more, rfl, hgap, hposition⟩ := tail.exists_blanks l hl
    have hgather : front ++ blanks ++ spelling ++ (gap ++ more) =
        front ++ blanks ++ (spelling ++ gap) ++ more := by
      simp only [List.append_assoc]
    have hextract := extract_middle (front ++ blanks) (spelling ++ gap) more
    rw [hlength, List.length_append, ← Nat.add_assoc, ← hposition] at hextract
    exact ⟨spelling, gap, by rw [hgather, hextract], hspelled, hgap⟩

/-- The text is put together from the spellings of the lexemes and white space: before the first
there is only white space, between the offsets of two neighbours only the first of them and white
space, and the last, which alone is the end, stands behind the whole text. -/
structure SpelledOut (text : String) (lexemes : List Lexeme) : Prop where
  increasing : lexemes.Pairwise fun a b => a.position < b.position
  ends : ∃ before, lexemes = before ++ [⟨.finish, text.length⟩] ∧ ∀ l ∈ before, l.token ≠ .finish
  blankBefore : ∀ l ∈ lexemes.head?, ∀ c ∈ text.toList.take l.position, Text.isBlank c = true
  between : lexemes.IsChain (SpelledBetween text.toList)

theorem laidOut_tokenize {text : String} {lexemes : List Lexeme}
    (h : tokenize text = .ok lexemes) : LaidOut 0 text.toList lexemes :=
  Scanner.laidOut_tokens (tokenize_eq_ok_iff.1 h)

/-- Nothing of a text is lost when it is split into tokens. -/
theorem spelledOut_tokenize {text : String} {lexemes : List Lexeme}
    (h : tokenize text = .ok lexemes) : SpelledOut text lexemes := by
  have hlaid := laidOut_tokenize h
  have hends := hlaid.ends
  rw [Nat.zero_add, String.length_toList] at hends
  refine ⟨hlaid.increasing, hends, fun l hl => ?_, hlaid.spelledBetween List.length_nil⟩
  obtain ⟨blanks, more, htext, hblanks, hposition⟩ := hlaid.exists_blanks l hl
  rw [Nat.zero_add] at hposition
  rwa [htext, hposition, List.take_left]

theorem spelledOut_tokenize_mixed :
    tokenize " é:(-\"a\\\"\\b\" oR x )\t" = .ok [⟨.field "é", 1⟩, ⟨.openGroup, 3⟩, ⟨.exclude, 4⟩,
      ⟨.phrase "a\"b", 5⟩, ⟨.or, 13⟩, ⟨.word "x", 16⟩, ⟨.closeGroup, 18⟩, ⟨.finish, 20⟩] ∧
    SpelledOut " é:(-\"a\\\"\\b\" oR x )\t" [⟨.field "é", 1⟩, ⟨.openGroup, 3⟩, ⟨.exclude, 4⟩,
      ⟨.phrase "a\"b", 5⟩, ⟨.or, 13⟩, ⟨.word "x", 16⟩, ⟨.closeGroup, 18⟩, ⟨.finish, 20⟩] := by
  have h : tokenize " é:(-\"a\\\"\\b\" oR x )\t" = .ok [⟨.field "é", 1⟩, ⟨.openGroup, 3⟩,
      ⟨.exclude, 4⟩, ⟨.phrase "a\"b", 5⟩, ⟨.or, 13⟩, ⟨.word "x", 16⟩, ⟨.closeGroup, 18⟩,
      ⟨.finish, 20⟩] := by decide +kernel
  exact ⟨h, spelledOut_tokenize h⟩

end TextQuery
