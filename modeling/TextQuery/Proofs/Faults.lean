import TextQuery.Proofs.Failures
import TextQuery.Proofs.Openings
import TextQuery.Proofs.WhiteSpace

/-!
# Where the faults of a text are

Each fault of a text is told with an offset, and at this offset stands what its cause is about: for
the scanner a character, for the grammar a token, with what the cause says of the tokens before and
behind it. The readers are gone through one by one; what is open around the input of a reader and
what it may open yet add up to the same number everywhere.
-/
namespace TextQuery

open Grammar TextQuery.Derivation

/-- What the cause says of the lexeme that the fault is told of, of what is open around this lexeme,
and of the lexemes behind it. -/
def GrammarCause.Concerns (around : List Opener) (l : Lexeme) (behind : List Lexeme) :
    GrammarCause → Prop
  | unexpected token =>
    l.token = token ∧ (token = .closeGroup ∨ token = .and ∨ token = .or)
  | missingOperand token =>
    l.token = token ∧ (token = .exclude ∨ token = .require ∨ (∃ name, token = .field name) ∨
      token = .and ∨ token = .or)
  | emptyGroup => l.token = .openGroup ∧ next? behind = some .closeGroup
  | unclosedGroup => l.token = .openGroup ∧ ¬ ClosesGroup (behind.map Lexeme.token)
  | doubleExclusion => l.token = .exclude
  | emptyPhrase => ∃ text, l.token = .phrase text ∧ ∀ c ∈ text.toList, Text.isBlank c = true
  | emptyQuery => l.token = .finish
  | nestingTooDeep =>
    (l.token = .openGroup ∨ ∃ name, l.token = .field name) ∧ around.length = maxNesting

namespace Fault

variable {cause : GrammarCause} {fault : Fault GrammarCause} {around : List Opener} {l : Lexeme}
  {token : Token} {position : Nat} {behind taken rest : List Lexeme}

/-- Among these lexemes, with `around` open before them, is one at the offset of the fault of which
the cause is true. -/
def StandsIn (fault : Fault GrammarCause) (around : List Opener) (input : List Lexeme) : Prop :=
  ∃ before l behind, input = before ++ l :: behind ∧ l.position = fault.position ∧
    fault.cause.Concerns (openAfter around (before.map Lexeme.token)) l behind

/-- The lexemes are those of a query that is not empty, and the fault is told of one of them. -/
structure FoundIn (fault : Fault GrammarCause) (around : List Opener) (input : List Lexeme) :
    Prop where
  not_empty : fault.cause ≠ .emptyQuery
  stands : fault.StandsIn around input

/-- A fault at the first lexeme, of which its cause is true. -/
theorem foundIn_cons (hcause : cause ≠ .emptyQuery)
    (h : cause.Concerns around ⟨token, position⟩ behind) :
    (Fault.mk cause position).FoundIn around (⟨token, position⟩ :: behind) :=
  ⟨hcause, [], ⟨token, position⟩, behind, rfl, rfl, h⟩

/-- A fault behind some lexemes is one among all of them, with what they leave open around it. -/
theorem FoundIn.append (h : fault.FoundIn (openAfter around (taken.map Lexeme.token)) rest) :
    fault.FoundIn around (taken ++ rest) := by
  obtain ⟨hcause, before, l, behind, hrest, hposition, hconcerns⟩ := h
  refine ⟨hcause, taken ++ before, l, behind, ?_, hposition, ?_⟩
  · rw [hrest, List.append_assoc]
  · rw [List.map_append, openAfter_append]
    exact hconcerns

theorem FoundIn.cons (h : fault.FoundIn (openBehind around l.token) rest) :
    fault.FoundIn around (l :: rest) := by
  have h : fault.FoundIn (openAfter around ([l].map Lexeme.token)) rest := h
  exact h.append

end Fault

namespace EndsOnce

variable {taken rest : List Lexeme} {l : Lexeme}

theorem of_append (h : EndsOnce (taken ++ rest)) (hrest : rest ≠ []) : EndsOnce rest := by
  obtain ⟨before, position, heq, hbefore⟩ := h
  obtain ⟨front, last, hfront⟩ := (List.eq_nil_or_concat rest).resolve_left hrest
  rw [List.concat_eq_append] at hfront
  rw [hfront, ← List.append_assoc] at heq
  obtain ⟨htaken, hlast⟩ := List.append_inj' heq rfl
  refine ⟨front, position, by rw [hfront, hlast], ?_⟩
  intro l hl
  apply hbefore
  rw [← htaken]
  exact List.mem_append_right _ hl

theorem of_cons (h : EndsOnce (l :: rest)) (hl : l.token ≠ .finish) : EndsOnce rest := by
  have happend : EndsOnce ([l] ++ rest) := h
  apply happend.of_append
  intro hrest
  obtain ⟨before, position, heq, -⟩ := h
  rw [hrest] at heq
  cases before with
  | nil =>
    cases heq
    exact hl rfl
  | cons b before => simp at heq

end EndsOnce

namespace Grammar

variable {α : Type} {separator : Token} {item : Reader α} {operand : Reader Query}
  {input rest : List Lexeme} {fault : Fault GrammarCause} {budget : Nat} {around : List Opener}

/-- What the reader takes leaves nothing open, and closes nothing that was open before. -/
def Passes (reader : Reader α) (around : List Opener) : Prop :=
  ∀ ⦃input value rest⦄, (reader input).Gives value rest →
    ∃ taken, input = taken ++ rest ∧ openAfter around (taken.map Lexeme.token) = around

theorem exists_taken_of_spans {tokens : List Token} (h : Spans tokens input rest)
    (hopen : openAfter around tokens = around) :
    ∃ taken, input = taken ++ rest ∧ openAfter around (taken.map Lexeme.token) = around := by
  obtain ⟨taken, htaken, hmap⟩ := h.taken
  exact ⟨taken, htaken.symm, by rw [hmap, hopen]⟩

section Passes

variable (hsound : Sound operand budget) (hsettled : Settled around)

include hsound hsettled

/-- What is read as a prefixed operand derives, so it leaves nothing open. -/
theorem passes_prefixed : Passes (prefixed operand) around := by
  intro input o rest h
  obtain ⟨p, hspans, -⟩ := Prefixed.of_gives hsound h
  exact exists_taken_of_spans hspans (p.openAfter_tokens hsettled)

theorem passes_conjunction : Passes (conjunction operand) around := by
  intro input o rest h
  obtain ⟨os, hjoined, -⟩ := conjunction_gives_iff.1 h
  obtain ⟨c, hspans, -⟩ := Chain.of_joined hsound hjoined
  exact exists_taken_of_spans hspans (c.openAfter_tokens hsettled)

theorem passes_sequence : Passes (sequence operand) around := by
  intro input q rest h
  obtain ⟨s, hspans, -⟩ := Sequence.of_gives hsound h
  exact exists_taken_of_spans hspans (s.openAfter_tokens hsettled)

theorem passes_disjunction : Passes (disjunction operand) around := by
  intro input q rest h
  obtain ⟨c, hspans, -⟩ := Choice.of_gives hsound h
  exact exists_taken_of_spans hspans (c.openAfter_tokens hsettled)

end Passes

/-- From an input that the reader is called with, it tells every fault of a lexeme of this input of
which the cause is true. -/
def Locates (reader : Reader α) (around : List Opener) (Called : List Lexeme → Prop) : Prop :=
  ∀ ⦃input fault⦄, EndsOnce input → Called input → (reader input).Fails fault →
    fault.FoundIn around input

/-- What comes next and starts no item is unexpected whatever is open around it. -/
theorem foundIn_unexpectedNext (hstarts : startsItem input = false) (hend : atEnd input = false) :
    (unexpectedNext input).FoundIn around input := by
  cases input with
  | nil => cases hend
  | cons l more =>
    obtain ⟨token, position⟩ := l
    apply Fault.foundIn_cons (by simp)
    refine ⟨rfl, ?_⟩
    cases token with
    | closeGroup | and | or => simp
    | finish => cases hend
    | word | phrase | exclude | require | field | openGroup => cases hstarts

/-- Faults among separated items are located if those of an item are. By induction on the length of
the input: behind a separator the same reader goes on. -/
theorem locates_joined {Called : List Lexeme → Prop}
    (hseparator : separator = .and ∨ separator = .or)
    (hcalled : ∀ more, startsItem more = true → Called more) (hpasses : Passes item around)
    (hitem : Locates item around Called) : Locates (joined separator item) around Called := by
  intro input fault hends hinput hfails
  induction hn : input.length using Nat.strong_induction_on generalizing input with
  | _ n ih =>
  subst hn
  rcases of_joined_fails hfails with hfirst | ⟨value, l, more, hgives, hl, hcase⟩
  · exact hitem hends hinput hfirst
  obtain ⟨taken, htaken, hopen⟩ := hpasses hgives
  have hshorter : more.length < input.length := by
    rw [htaken, List.length_append, List.length_cons]
    omega
  subst htaken
  apply Fault.FoundIn.append
  rw [hopen]
  rcases hcase with hfault | ⟨hstarts, htail⟩
  · subst hfault
    apply Fault.foundIn_cons (by simp)
    exact ⟨hl, .inr (.inr (.inr hseparator))⟩
  · have hfinish : l.token ≠ .finish := by
      rcases hseparator with heq | heq <;> simp [hl, heq]
    have hmore := (hends.of_append (by simp)).of_cons hfinish
    have hbehind : openBehind around l.token = around := by
      rcases hseparator with heq | heq <;> rw [hl, heq] <;> rfl
    apply Fault.FoundIn.cons
    rw [hbehind]
    exact ih more.length hshorter hmore (hcalled more hstarts) htail rfl

theorem locates_adjacent (hpasses : Passes item around)
    (hitem : Locates item around (startsItem · = true)) :
    Locates (adjacent item) around (startsItem · = true) := by
  intro input fault hends hinput hfails
  induction hn : input.length using Nat.strong_induction_on generalizing input with
  | _ n ih =>
  subst hn
  rcases of_adjacent_fails hfails with hfirst | ⟨value, rest, hgives, hstarts, htail⟩
  · exact hitem hends hinput hfirst
  have hshorter : rest.length < input.length := by
    obtain ⟨shorter, -⟩ := hgives
    exact shorter
  obtain ⟨taken, htaken, hopen⟩ := hpasses hgives
  subst htaken
  have hne : rest ≠ [] := by
    intro hrest
    rw [hrest] at hstarts
    cases hstarts
  apply Fault.FoundIn.append
  rw [hopen]
  exact ih rest.length hshorter (hends.of_append hne) hstarts htail rfl

/-- An operand comes first. -/
def StartsOperand (input : List Lexeme) : Prop :=
  ∃ l more, input = l :: more ∧ l.token.startsOperand = true

theorem startsOperand_of_touches {position : Nat} (h : touches position input = true) :
    StartsOperand input := by
  cases input with
  | nil => cases h
  | cons l more =>
    simp only [touches, Bool.and_eq_true] at h
    exact ⟨l, more, rfl, h.1⟩

section Levels

variable (hoperand : Locates operand around StartsOperand)

include hoperand

theorem locates_prefixed : Locates (prefixed operand) around (startsItem · = true) := by
  intro input fault hends hstarts hfails
  cases input with
  | nil => cases hstarts
  | cons l more =>
    obtain ⟨token, position⟩ := l
    by_cases hex : token = .exclude
    · subst hex
      rcases of_prefixed_exclude_fails hfails with hfault | hfault | ⟨htouches, hinner⟩
      · subst hfault
        exact Fault.foundIn_cons (by simp) rfl
      · subst hfault
        exact Fault.foundIn_cons (by simp) ⟨rfl, .inl rfl⟩
      · apply Fault.FoundIn.cons
        exact hoperand (hends.of_cons (by simp)) (startsOperand_of_touches htouches) hinner
    by_cases hreq : token = .require
    · subst hreq
      rcases of_prefixed_require_fails hfails with hfault | ⟨htouches, hinner⟩
      · subst hfault
        exact Fault.foundIn_cons (by simp) ⟨rfl, .inr (.inl rfl)⟩
      · apply Fault.FoundIn.cons
        exact hoperand (hends.of_cons (by simp)) (startsOperand_of_touches htouches) hinner
    · have htoken : token.startsOperand = true := by
        simpa [startsItem, Token.startsItem, hex, hreq] using hstarts
      apply hoperand hends ⟨_, more, rfl, htoken⟩
      exact of_prefixed_plain_fails (by simpa using hex) (by simpa using hreq) hfails

variable (hsound : Sound operand budget) (hsettled : Settled around)

include hsound hsettled

theorem locates_conjunction : Locates (conjunction operand) around (startsItem · = true) := by
  intro input fault hends hstarts hfails
  have hjoined := locates_joined (.inl rfl) (fun _ h => h) (passes_prefixed hsound hsettled)
    (locates_prefixed hoperand)
  exact hjoined hends hstarts (fails_lift.1 hfails)

theorem locates_sequence : Locates (sequence operand) around (atEnd · = false) := by
  intro input fault hends hinput hfails
  rcases of_sequence_fails hfails with ⟨hstarts, hfault⟩ | ⟨hstarts, hadjacent⟩
  · subst hfault
    exact foundIn_unexpectedNext hstarts hinput
  · exact locates_adjacent (passes_conjunction hsound hsettled)
      (locates_conjunction hoperand hsound hsettled) hends hstarts hadjacent

theorem locates_disjunction : Locates (disjunction operand) around (atEnd · = false) := by
  intro input fault hends hinput hfails
  have hjoined := locates_joined (.inr rfl) (fun _ h => startsItem_not_atEnd h)
    (passes_sequence hsound hsettled) (locates_sequence hoperand hsound hsettled)
  exact hjoined hends hinput (fails_lift.1 hfails)

end Levels

/-- Once a disjunction has been read to the end of the query, no group before it is closed. -/
theorem not_closesGroup_of_disjunction_gives {q : Query} (hsound : Sound operand budget)
    (hends : EndsOnce input) (h : (disjunction operand input).Gives q rest)
    (hrest : atEnd rest = true) : ¬ ClosesGroup (input.map Lexeme.token) := by
  obtain ⟨c, hspans, -⟩ := Choice.of_gives hsound h
  obtain ⟨taken, htaken, hmap⟩ := hspans.taken
  subst htaken
  have hfinish : Token.finish ∉ taken.map Lexeme.token := by
    rw [hmap]
    exact c.finish_not_mem
  obtain ⟨position, hlast⟩ := hends.eq_singleton hfinish hrest
  rw [hlast, List.map_append, hmap]
  exact c.balanced_tokens.not_closesGroup

theorem not_closesGroup_of_atEnd (hends : EndsOnce rest) (h : atEnd rest = true) :
    ¬ ClosesGroup (rest.map Lexeme.token) := by
  have hends : EndsOnce ([] ++ rest) := hends
  obtain ⟨position, hlast⟩ := hends.eq_singleton (by simp) h
  rw [hlast]
  exact Balanced.nil.not_closesGroup

/-- Faults in an operand are located. By induction on the budget: a group or field scope that is
opened takes from it what it adds to `around`. -/
theorem locates_operand (hopen : around.length + budget = maxNesting) :
    Locates (Grammar.operand budget) around StartsOperand := by
  induction budget using Nat.strong_induction_on generalizing around with
  | _ budget ih =>
  intro input fault hends hstarts hfails
  obtain ⟨⟨token, position⟩, more, hinput, hl⟩ := hstarts
  subst hinput
  cases token with
  | word text => exact absurd hfails not_operand_word_fails
  | phrase text =>
    obtain ⟨hblank, hfault⟩ := of_operand_phrase_fails hfails
    subst hfault
    apply Fault.foundIn_cons (by simp)
    refine ⟨text, rfl, ?_⟩
    by_contra hsome
    exact Text.exists_not_isBlank_iff.1 (by simpa using hsome) hblank
  | field name =>
    rcases of_operand_field_fails hfails with hfault | ⟨hzero, hfault⟩ | ⟨b, hb, htouches, hinner⟩
    · subst hfault
      exact Fault.foundIn_cons (by simp) ⟨rfl, .inr (.inr (.inl ⟨name, rfl⟩))⟩
    · subst hfault
      exact Fault.foundIn_cons (by simp) ⟨.inr ⟨name, rfl⟩, by omega⟩
    · have hscope : (Opener.scope :: around).length + b = maxNesting := by
        rw [List.length_cons]
        omega
      apply Fault.FoundIn.cons
      exact ih b (by omega) hscope (hends.of_cons (by simp)) (startsOperand_of_touches htouches)
        hinner
  | openGroup =>
    have hmore : EndsOnce more := hends.of_cons (by simp)
    rcases of_operand_openGroup_fails hfails with ⟨hclose, hfault⟩ | ⟨hend, hfault⟩ |
      ⟨hzero, hfault⟩ | ⟨b, hb, hend, hinner | ⟨q, rest, hgives, hrest, hfault⟩⟩
    · subst hfault
      exact Fault.foundIn_cons (by simp) ⟨rfl, hclose⟩
    · subst hfault
      exact Fault.foundIn_cons (by simp) ⟨rfl, not_closesGroup_of_atEnd hmore hend⟩
    · subst hfault
      exact Fault.foundIn_cons (by simp) ⟨.inl rfl, by omega⟩
    · have hgroup : (Opener.group :: around).length + b = maxNesting := by
        rw [List.length_cons]
        omega
      apply Fault.FoundIn.cons
      exact locates_disjunction (ih b (by omega) hgroup) (sound_operand b) (settled_group around)
        hmore hend hinner
    · subst hfault
      apply Fault.foundIn_cons (by simp)
      exact ⟨rfl, not_closesGroup_of_disjunction_gives (sound_operand b) hmore hgives hrest⟩
  | exclude | require | closeGroup | and | or | finish => cases hl

end Grammar

/-- Reading all of a query fails for want of any token, or of one of the tokens. -/
theorem Session.foundIn_of_read {s : Session} {e : GrammarError} (hends : EndsOnce s.remaining)
    (hbudget : s.budget = maxNesting) (h : s.read.1 = .error e) :
    e.text = s.text ∧
      (atEnd s.remaining = true ∧ e.toFault = ⟨.emptyQuery, s.text.length⟩ ∨
        atEnd s.remaining = false ∧ e.toFault.FoundIn [] s.remaining) := by
  have hsound : Sound (Grammar.operand s.budget) s.budget := sound_operand s.budget
  have hopen : ([] : List Opener).length + s.budget = maxNesting := by simpa using hbudget
  have hlocates := locates_disjunction (locates_operand hopen) hsound settled_nil
  unfold read at h
  cases hend : atEnd s.remaining with
  | true =>
    simp only [hend, if_true] at h
    cases h
    exact ⟨rfl, .inl ⟨rfl, rfl⟩⟩
  | false =>
    simp only [hend, Bool.false_eq_true, if_false] at h
    cases hread : disjunction (Grammar.operand s.budget) s.remaining with
    | failed fault rest leftOpen =>
      simp only [hread] at h
      cases h
      exact ⟨rfl, .inr ⟨rfl, hlocates hends hend ⟨rest, leftOpen, hread⟩⟩⟩
    | done q rest shorter =>
      simp only [hread] at h
      cases hrest : atEnd rest with
      | true => simp [hrest] at h
      | false =>
        simp only [hrest, Bool.false_eq_true, if_false] at h
        cases h
        have hgives : (disjunction (Grammar.operand s.budget) s.remaining).Gives q rest :=
          ⟨shorter, hread⟩
        obtain ⟨taken, htaken, hpassed⟩ := passes_disjunction hsound settled_nil hgives
        refine ⟨rfl, .inr ⟨rfl, ?_⟩⟩
        rw [htaken]
        apply Fault.FoundIn.append
        rw [hpassed]
        exact foundIn_unexpectedNext (ends_of_disjunction_gives hgives).1.noItem hrest

theorem LaidOut.position_le_end {position : Nat} {text : List Char} {lexemes : List Lexeme}
    (h : LaidOut position text lexemes) :
    ∀ l ∈ lexemes, l.position ≤ position + text.length := by
  obtain ⟨before, hends, -⟩ := h.ends
  have hincreasing := h.increasing
  rw [hends, List.pairwise_append] at hincreasing
  intro l hl
  rw [hends, List.mem_append, List.mem_singleton] at hl
  rcases hl with hl | hl
  · exact Nat.le_of_lt (hincreasing.2.2 l hl _ (List.mem_singleton_self _))
  · exact Nat.le_of_eq (congrArg Lexeme.position hl)

theorem LaidOut.isBlank_of_atEnd {position : Nat} {text : List Char} {lexemes : List Lexeme}
    (h : LaidOut position text lexemes) (hend : atEnd lexemes = true) :
    ∀ c ∈ text, Text.isBlank c = true := by
  cases h with
  | finish hblanks => exact hblanks
  | cons hblanks hspelled hproper tail => exact absurd (beq_iff_eq.1 hend) hspelled.ne_finish

/-- All of a text is white space exactly if it has no token but its end. -/
theorem tokenize_blank_iff {text : String} :
    (∃ lexemes, tokenize text = .ok lexemes ∧ atEnd lexemes = true) ↔
      ∀ c ∈ text.toList, Text.isBlank c = true := by
  constructor
  · intro ⟨lexemes, htokens, hend⟩
    exact (laidOut_tokenize htokens).isBlank_of_atEnd hend
  · intro hblank
    exact ⟨_, tokenize_eq_ok_iff.2 (Scanner.tokens_of_forall_isBlank 0 hblank), rfl⟩

namespace CompileError

/-- The error quotes the text, and at its offset is what it names: a character, or a token of the
text of which the cause is true. -/
def PointsIn (text : String) : CompileError → Prop
  | scan e => e.text = text ∧ text.toList[e.position]? = some e.cause.character
  | grammar e => e.text = text ∧
      ∃ lexemes, tokenize text = .ok lexemes ∧ e.toFault.StandsIn [] lexemes

theorem PointsIn.position_le {text : String} {e : CompileError} (h : e.PointsIn text) :
    e.position ≤ text.length := by
  cases e with
  | scan e =>
    obtain ⟨hlt, -⟩ := List.getElem?_eq_some_iff.1 h.2
    rw [String.length_toList] at hlt
    exact Nat.le_of_lt hlt
  | grammar e =>
    obtain ⟨-, lexemes, htokens, before, l, behind, hsplit, hposition, -⟩ := h
    have hle := (laidOut_tokenize htokens).position_le_end l (by simp [hsplit])
    rw [Nat.zero_add, String.length_toList, hposition] at hle
    exact hle

end CompileError

/-- The character that a scan fails at is in the text. -/
theorem pointsIn_of_tokenize {text : String} {e : ScanError} (h : tokenize text = .error e) :
    (CompileError.scan e).PointsIn text := by
  unfold tokenize at h
  cases hscan : (Scanner.ofString text).tokens with
  | ok lexemes => simp [hscan, Except.mapError] at h
  | error fault =>
    rw [hscan] at h
    cases h
    obtain ⟨k, hposition, hk⟩ := Scanner.sees_of_tokens hscan
    have hposition : fault.position = k := hposition.trans (Nat.zero_add k)
    refine ⟨rfl, ?_⟩
    show text.toList[fault.position]? = some fault.cause.character
    rw [hposition]
    exact hk

/-- A text that fails to compile fails to be split into tokens, or its tokens fail to be read. -/
theorem compile_eq_error_cases {text : String} {e : CompileError} (h : compile text = .error e) :
    (∃ scan, e = .scan scan ∧ tokenize text = .error scan) ∨
      ∃ lexemes fault, e = .grammar fault ∧ tokenize text = .ok lexemes ∧
        (Session.mk text lexemes maxNesting).read.1 = .error fault := by
  unfold compile Session.start at h
  cases htokens : tokenize text with
  | error scan =>
    rw [htokens] at h
    cases h
    exact .inl ⟨scan, rfl, rfl⟩
  | ok lexemes =>
    right
    rw [htokens] at h
    cases hread : (Session.mk text lexemes maxNesting).read.1 with
    | error fault =>
      simp only [Except.map, hread, Except.mapError] at h
      cases h
      exact ⟨lexemes, fault, rfl, rfl, hread⟩
    | ok q => simp [Except.map, hread, Except.mapError] at h

theorem pointsIn_of_compile {text : String} {e : CompileError} (h : compile text = .error e) :
    e.PointsIn text := by
  rcases compile_eq_error_cases h with ⟨scan, he, hscan⟩ | ⟨lexemes, fault, he, htokens, hread⟩
  · rw [he]
    exact pointsIn_of_tokenize hscan
  · rw [he]
    have hends := Scanner.endsOnce_tokens (tokenize_eq_ok_iff.1 htokens)
    obtain ⟨htext, ⟨-, hempty⟩ | ⟨-, hfound⟩⟩ := Session.foundIn_of_read hends rfl hread
    · obtain ⟨before, hlast, -⟩ := (spelledOut_tokenize htokens).ends
      refine ⟨htext, lexemes, htokens, ?_⟩
      rw [hempty]
      exact ⟨before, _, [], hlast, rfl, rfl⟩
    · exact ⟨htext, lexemes, htokens, hfound.stands⟩

/-- Whatever is wrong with a text, the error quotes the text and points into it or at its end, and
what it names is there. It is that the query is empty exactly if the text is all white space. -/
theorem compile_error_points (text : String) :
    (∀ e, compile text = .error e → e.position ≤ text.length ∧ e.PointsIn text) ∧
      ((∃ e, compile text = .error (.grammar e) ∧ e.cause = .emptyQuery) ↔
        ∀ c ∈ text.toList, Text.isBlank c = true) := by
  refine ⟨?_, ?_⟩
  · intro e h
    have hpoints := pointsIn_of_compile h
    exact ⟨hpoints.position_le, hpoints⟩
  rw [← tokenize_blank_iff]
  constructor
  · intro ⟨e, h, hcause⟩
    rcases compile_eq_error_cases h with ⟨scan, he, -⟩ | ⟨lexemes, fault, he, htokens, hread⟩
    · cases he
    · cases he
      have hends := Scanner.endsOnce_tokens (tokenize_eq_ok_iff.1 htokens)
      obtain ⟨-, ⟨hend, -⟩ | ⟨-, hfound⟩⟩ := Session.foundIn_of_read hends rfl hread
      · exact ⟨lexemes, htokens, hend⟩
      · exact absurd hcause hfound.not_empty
  · intro ⟨lexemes, htokens, hend⟩
    refine ⟨Fault.inText ⟨.emptyQuery, text.length⟩ text, ?_, rfl⟩
    simp [compile, Session.start, htokens, Except.map, Session.read, hend, Except.mapError]

theorem compile_error_points_nested :
    let text := "a:(b) (d (\"e\") -f"
    let e : CompileError := .grammar (Fault.inText ⟨.unclosedGroup, 6⟩ text)
    compile text = .error e ∧ e.position ≤ text.length ∧ e.PointsIn text := by
  intro text e
  have h : compile text = .error e := by decide +kernel
  exact ⟨h, (compile_error_points text).1 e h⟩

end TextQuery
