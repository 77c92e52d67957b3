import TextQuery.Proofs.AlikeLexemes
import TextQuery.Proofs.Composition

/-!
# How reading fails

The counterpart of what the readers read. Where a scan fails stands the character that the fault is
about. For each reader of the grammar follow the ways in which it can fail: with a fault of its own,
or with the fault of a reader that it calls. A group is left for one of two reasons only, since
nothing but a closing parenthesis or the end of the query comes behind a disjunction.
-/
namespace TextQuery

/-- The character that stands where the scanner finds the fault. -/
def ScanCause.character : ScanCause → Char
  | unterminatedPhrase => '"'
  | invalidCharacter c => c

/-- The reader of a phrase refuses the control characters that are not white space. -/
theorem of_readPhrase_invalid {cs : List Char} {c : Char} {offset : Nat}
    (h : readPhrase cs = .invalid c offset) :
    cs[offset]? = some c ∧ Text.isControl c = true ∧ Text.isBlank c = false := by
  induction cs using readPhrase.induct generalizing offset with
  | case1 => simp at h
  | case2 rest => simp at h
  | case3 => simp at h
  | case4 d rest ih =>
    rw [readPhrase_escaped, PhraseReading.after_eq_invalid_iff] at h
    obtain ⟨o, hrest, hoffset⟩ := h
    rw [← hoffset, Nat.add_comm]
    exact ih hrest
  | case5 d rest hquote hend hescape hinvalid =>
    rw [readPhrase_cons_invalid hquote (ne_backslash_of_readPhrase hend hescape) hinvalid] at h
    cases h
    exact ⟨rfl, by simpa using hinvalid⟩
  | case6 d rest hquote hend hescape hvalid ih =>
    rw [readPhrase_cons hquote (ne_backslash_of_readPhrase hend hescape) (by simpa using hvalid),
      PhraseReading.after_eq_invalid_iff] at h
    obtain ⟨o, hrest, hoffset⟩ := h
    rw [← hoffset, Nat.add_comm]
    exact ih hrest

namespace Scanner

variable {s s' : Scanner} {taken : List Char} {position : Nat} {c : Char}
  {fault : Fault ScanCause}

/-- The character stands at the offset, which the scanner has not passed. -/
def Sees (s : Scanner) (position : Nat) (c : Char) : Prop :=
  ∃ k, position = s.position + k ∧ s.remaining[k]? = some c

theorem Takes.sees (h : s.Takes taken s') (hsees : s'.Sees position c) : s.Sees position c := by
  obtain ⟨k, hposition, hk⟩ := hsees
  refine ⟨taken.length + k, ?_, ?_⟩
  · rw [hposition, h.position, Nat.add_assoc]
  · rw [h.remaining, List.getElem?_append_right (Nat.le_add_right _ _), Nat.add_sub_cancel_left]
    exact hk

/-- All that a step can do that finds no token: it passes the rest of the query with a phrase that is
not terminated, or it stops before a control character that is not white space. -/
theorem takes_of_nextHere_error (hblank : ∀ c ∈ s.remaining.head?, Text.isBlank c = false)
    (h : s.nextHere = (.error fault, s')) :
    ∃ taken, s.Takes taken s' ∧
      (fault = ⟨.unterminatedPhrase, s.position⟩ ∧ s.remaining.head? = some '"' ∧
          s'.remaining = [] ∨
        ∃ c rest, fault = ⟨.invalidCharacter c, s'.position⟩ ∧ s'.remaining = c :: rest ∧
          Text.isControl c = true ∧ Text.isBlank c = false) := by
  obtain ⟨position, remaining⟩ := s
  cases remaining with
  | nil => cases h
  | cons c cs =>
    rw [nextHere_cons] at h
    cases hmark : mark? c with
    | some token => simp [hmark] at h
    | none =>
      simp only [hmark] at h
      by_cases hquote : c = '"'
      · rw [if_pos hquote] at h
        cases hread : readPhrase cs with
        | closed text width => simp [hread] at h
        | unterminated =>
          simp only [hread] at h
          cases h
          refine ⟨c :: cs, takes_advance _ (List.append_nil _).symm, .inl ⟨rfl, ?_, ?_⟩⟩
          · exact congrArg some hquote
          · simp
        | invalid d offset =>
          simp only [hread] at h
          cases h
          obtain ⟨hd, hforbidden⟩ := of_readPhrase_invalid hread
          obtain ⟨hoffset, hd⟩ := List.getElem?_eq_some_iff.1 hd
          have hdrop : cs.drop offset = d :: cs.drop (offset + 1) := by
            rw [List.drop_eq_getElem_cons hoffset, hd]
          refine ⟨c :: cs.take offset, ⟨?_, ?_⟩, .inr ⟨d, cs.drop (offset + 1), ?_, ?_,
            hforbidden⟩⟩
          · simp [Nat.add_comm 1]
          · simp [Nat.min_eq_left hoffset.le, Nat.add_comm 1]
          · simp [Nat.add_assoc]
          · simpa [Nat.add_comm 1] using hdrop
      · rw [if_neg hquote] at h
        split at h
        · next hcontrol =>
          cases h
          exact ⟨[], ⟨rfl, rfl⟩, .inr ⟨c, cs, rfl, rfl, hcontrol, hblank c rfl⟩⟩
        · cases h

theorem sees_of_nextHere (hblank : ∀ c ∈ s.remaining.head?, Text.isBlank c = false)
    (h : s.nextHere = (.error fault, s')) :
    s.Sees fault.position fault.cause.character := by
  obtain ⟨taken, htakes, ⟨rfl, hhead, -⟩ | ⟨c, rest, rfl, hrest, -⟩⟩ :=
    takes_of_nextHere_error hblank h
  · exact ⟨0, rfl, by rwa [← List.head?_eq_getElem?]⟩
  · exact htakes.sees ⟨0, rfl, by simp [hrest, ScanCause.character]⟩

/-- Where a scan fails stands the character that the fault is about. -/
theorem sees_of_tokens (h : s.tokens = .error fault) :
    s.Sees fault.position fault.cause.character := by
  induction s using tokens.induct with
  | case1 s fault' s' hnext =>
    rw [tokens_of_next_error hnext] at h
    cases h
    exact s.takes_skipBlanks.sees (sees_of_nextHere s.isBlank_head?_skipBlanks hnext)
  | case2 s l s' hnext hl => simp [tokens_of_next_finish hnext hl] at h
  | case3 s l s' hnext hl ih =>
    rw [tokens_of_next hnext hl] at h
    obtain ⟨blanks, -, -, ⟨-, hfinish⟩ | ⟨spelling, htakes, -, -⟩⟩ := takes_of_next hnext
    · exact absurd hfinish hl
    · apply htakes.sees
      apply ih
      cases hs : s'.tokens with
      | error fault' => simpa [hs, Except.map] using h
      | ok ls => simp [hs, Except.map] at h

end Scanner

open Grammar TextQuery.Derivation

namespace Grammar

variable {α β : Type} {separator : Token} {item : Reader α} {operand : Reader Query}
  {tail input more rest : List Lexeme} {fault : Fault GrammarCause} {budget position : Nat}

@[simp] theorem fails_lift {f : α → β} {le : tail.length ≤ input.length} {r : Reading α tail} :
    (r.lift f le).Fails fault ↔ r.Fails fault := by
  constructor
  · intro h
    obtain ⟨left, leftOpen, heq⟩ := h
    cases r with
    | done value rest shorter => cases heq
    | failed fault' rest leftOpen' =>
      cases heq
      exact ⟨left, leftOpen, rfl⟩
  · intro h
    exact h.lift f le

@[simp] theorem fails_failed {fault' : Fault GrammarCause} {leftOpen : Nat} :
    (Reading.failed fault' rest leftOpen : Reading α input).Fails fault ↔ fault = fault' := by
  constructor
  · intro h
    obtain ⟨left, leftOpen', heq⟩ := h
    cases heq
    rfl
  · intro h
    exact ⟨rest, leftOpen, by rw [h]⟩

@[simp] theorem not_fails_done {value : α} {shorter : rest.length < input.length} :
    ¬ (Reading.done value rest shorter).Fails fault := by
  intro h
  obtain ⟨left, leftOpen, heq⟩ := h
  cases heq

/-- All the ways in which separated items fail: in the first item, for want of an item behind a
separator, or in the items behind it. -/
theorem of_joined_fails (h : (joined separator item input).Fails fault) :
    (item input).Fails fault ∨
      ∃ value l more, (item input).Gives value (l :: more) ∧ l.token = separator ∧
        (fault = ⟨.missingOperand separator, l.position⟩ ∨
          startsItem more = true ∧ (joined separator item more).Fails fault) := by
  rw [joined] at h
  cases hread : item input with
  | failed fault' rest leftOpen =>
    simp only [hread, fails_failed] at h
    exact .inl (fails_failed.2 h)
  | done value rest shorter =>
    right
    cases rest with
    | nil => simp [hread] at h
    | cons l more =>
      by_cases hl : l.token = separator
      · refine ⟨value, l, more, gives_done.2 ⟨rfl, rfl⟩, hl, ?_⟩
        cases hstarts : startsItem more with
        | false => exact .inl (by simpa [hread, hl, hstarts] using h)
        | true =>
          cases htail : joined separator item more with
          | failed fault' rest leftOpen =>
            right
            simpa [hread, hl, hstarts, htail] using h
          | done values rest shorter' => simp [hread, hl, hstarts, htail] at h
      · simp [hread, hl] at h

theorem of_adjacent_fails (h : (adjacent item input).Fails fault) :
    (item input).Fails fault ∨
      ∃ value rest, (item input).Gives value rest ∧ startsItem rest = true ∧
        (adjacent item rest).Fails fault := by
  rw [adjacent] at h
  cases hread : item input with
  | failed fault' rest leftOpen =>
    simp only [hread, fails_failed] at h
    exact .inl (fails_failed.2 h)
  | done value rest shorter =>
    right
    cases hstarts : startsItem rest with
    | false => simp [hread, hstarts] at h
    | true =>
      simp only [hread, hstarts, if_true, fails_lift] at h
      exact ⟨value, rest, gives_done.2 ⟨rfl, rfl⟩, hstarts, h⟩

theorem of_sequence_fails (h : (sequence operand input).Fails fault) :
    startsItem input = false ∧ fault = unexpectedNext input ∨
      startsItem input = true ∧ (adjacent (conjunction operand) input).Fails fault := by
  unfold sequence at h
  cases hstarts : startsItem input with
  | false => exact .inl ⟨rfl, by simpa [hstarts] using h⟩
  | true => exact .inr ⟨rfl, by simpa [hstarts] using h⟩

/-- All the ways in which an exclusion fails, seen from its `-`. -/
theorem of_prefixed_exclude_fails
    (h : (prefixed operand (⟨.exclude, position⟩ :: more)).Fails fault) :
    fault = ⟨.doubleExclusion, position⟩ ∨ fault = ⟨.missingOperand .exclude, position⟩ ∨
      touches (position + 1) more = true ∧ (operand more).Fails fault := by
  simp only [prefixed] at h
  by_cases hdouble : more.head? = some ⟨.exclude, position + 1⟩
  · rw [if_pos hdouble, fails_failed] at h
    exact .inl h
  · rw [if_neg hdouble] at h
    cases htouches : touches (position + 1) more with
    | false => exact .inr (.inl (by simpa [htouches] using h))
    | true =>
      cases hread : operand more with
      | failed fault' rest leftOpen =>
        right
        right
        simpa [htouches, hread] using h
      | done q rest shorter =>
        left
        cases hq : q.isExclusion with
        | false => simp [htouches, hread, hq] at h
        | true => simpa [htouches, hread, hq] using h

theorem of_prefixed_require_fails
    (h : (prefixed operand (⟨.require, position⟩ :: more)).Fails fault) :
    fault = ⟨.missingOperand .require, position⟩ ∨
      touches (position + 1) more = true ∧ (operand more).Fails fault := by
  simp only [prefixed] at h
  cases htouches : touches (position + 1) more with
  | false => exact .inl (by simpa [htouches] using h)
  | true => exact .inr ⟨rfl, by simpa [htouches] using h⟩

theorem of_prefixed_plain_fails (hex : next? input ≠ some .exclude)
    (hreq : next? input ≠ some .require) (h : (prefixed operand input).Fails fault) :
    (operand input).Fails fault := by
  unfold prefixed at h
  split at h
  · simp at hex
  · simp at hreq
  · exact fails_lift.1 h

theorem not_operand_word_fails {text : String} :
    ¬ (Grammar.operand budget (⟨.word text, position⟩ :: more)).Fails fault := by
  simp

theorem of_operand_phrase_fails {text : String}
    (h : (Grammar.operand budget (⟨.phrase text, position⟩ :: more)).Fails fault) :
    Text.blankSeparated text.toList = [] ∧ fault = ⟨.emptyPhrase, position⟩ := by
  unfold Grammar.operand at h
  split at h <;> simp_all

/-- All the ways in which a field scope fails, seen from its field name. -/
theorem of_operand_field_fails {name : String}
    (h : (Grammar.operand budget (⟨.field name, position⟩ :: more)).Fails fault) :
    fault = ⟨.missingOperand (.field name), position⟩ ∨
      budget = 0 ∧ fault = ⟨.nestingTooDeep, position⟩ ∨
      ∃ b, budget = b + 1 ∧ touches (position + name.length + 1) more = true ∧
        (Grammar.operand b more).Fails fault := by
  cases htouches : touches (position + name.length + 1) more with
  | false =>
    left
    cases budget <;> simpa [htouches] using h
  | true =>
    right
    cases budget with
    | zero => exact .inl ⟨rfl, by simpa [htouches] using h⟩
    | succ b =>
      cases hread : Grammar.operand b more with
      | failed fault' rest leftOpen =>
        right
        refine ⟨b, rfl, rfl, ?_⟩
        rw [hread]
        simpa [htouches, hread] using h
      | done q rest shorter => simp [htouches, hread] at h

theorem of_closed_fails {inner : Query} {shorter : rest.length < input.length}
    (h : (closed position inner rest shorter).Fails fault) :
    next? rest ≠ some .closeGroup ∧
      (atEnd rest = true ∧ fault = ⟨.unclosedGroup, position⟩ ∨
        atEnd rest = false ∧ fault = unexpectedNext rest) := by
  by_cases hnext : next? rest = some .closeGroup
  · cases rest with
    | nil => cases hnext
    | cons l more =>
      obtain ⟨token, close⟩ := l
      cases hnext
      simp [closed] at h
  · refine ⟨hnext, ?_⟩
    rw [closed_of_next?_ne hnext] at h
    cases hend : atEnd rest with
    | false => exact .inr ⟨rfl, by simpa [hend] using h⟩
    | true => exact .inl ⟨rfl, by simpa [hend] using h⟩

/-- Nothing that a disjunction could go on with is left behind it. -/
theorem ends_of_disjunction_gives {q : Query} (h : (disjunction operand input).Gives q rest) :
    Ends rest ∧ next? rest ≠ some .or := by
  obtain ⟨qs, hjoined, -⟩ := disjunction_gives_iff.1 h
  obtain ⟨hor, mid, q', hsequence⟩ := hjoined.exists_last
  obtain ⟨-, os, hadjacent, -⟩ := sequence_gives_iff.1 hsequence
  obtain ⟨-, mid, o, hconjunction⟩ := hadjacent.exists_last
  obtain ⟨os, hchain, -⟩ := conjunction_gives_iff.1 hconjunction
  exact ⟨⟨hchain.exists_last.1, startsItem_rest_of_disjunction_gives h⟩, hor⟩

/-- What is left behind a disjunction is the end of the query, or a group is closed there. -/
theorem next?_of_disjunction_gives {q : Query} (h : (disjunction operand input).Gives q rest)
    (hend : atEnd rest = false) : next? rest = some .closeGroup := by
  obtain ⟨⟨hand, hitem⟩, hor⟩ := ends_of_disjunction_gives h
  cases rest with
  | nil => cases hend
  | cons l more =>
    obtain ⟨token, position⟩ := l
    cases token with
    | closeGroup => rfl
    | and => exact absurd rfl hand
    | or => exact absurd rfl hor
    | finish => cases hend
    | word | phrase | exclude | require | field | openGroup => cases hitem

/-- All the ways in which a group fails, seen from its opening parenthesis. -/
theorem of_operand_openGroup_fails
    (h : (Grammar.operand budget (⟨.openGroup, position⟩ :: more)).Fails fault) :
    next? more = some .closeGroup ∧ fault = ⟨.emptyGroup, position⟩ ∨
      atEnd more = true ∧ fault = ⟨.unclosedGroup, position⟩ ∨
      budget = 0 ∧ fault = ⟨.nestingTooDeep, position⟩ ∨
      ∃ b, budget = b + 1 ∧ atEnd more = false ∧
        ((disjunction (Grammar.operand b) more).Fails fault ∨
          ∃ q rest, (disjunction (Grammar.operand b) more).Gives q rest ∧ atEnd rest = true ∧
            fault = ⟨.unclosedGroup, position⟩) := by
  by_cases hclose : more.head?.map Lexeme.token = some .closeGroup
  · left
    refine ⟨hclose, ?_⟩
    cases budget <;> simpa [hclose] using h
  right
  cases hend : atEnd more with
  | true =>
    left
    refine ⟨rfl, ?_⟩
    cases budget <;> simpa [hclose, hend] using h
  | false =>
    right
    cases budget with
    | zero => exact .inl ⟨rfl, by simpa [hclose, hend] using h⟩
    | succ b =>
      right
      refine ⟨b, rfl, rfl, ?_⟩
      cases hread : disjunction (Grammar.operand b) more with
      | failed fault' rest leftOpen =>
        exact .inl (by simpa [hclose, hend, hread] using h)
      | done q rest shorter =>
        simp only [Grammar.operand, hclose, hend, hread, if_false, Bool.false_eq_true] at h
        obtain ⟨hnext, ⟨hrest, hfault⟩ | ⟨hrest, -⟩⟩ := of_closed_fails h
        · exact .inr ⟨q, rest, gives_done.2 ⟨rfl, rfl⟩, hrest, hfault⟩
        · exact absurd (next?_of_disjunction_gives ⟨shorter, hread⟩ hrest) hnext

end Grammar

end TextQuery
