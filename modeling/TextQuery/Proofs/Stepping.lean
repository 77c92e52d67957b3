import TextQuery.Proofs.Failures

/-!
# Stepping on

A scanner can be stepped on whatever it has found. Up to the end of the query or the first fault the
steps give the tokens, one after another. A scanner that has found either does not move any more: it
stands at the end of the query or at a control character that it refuses, and finds the same there
with every further step.
-/
namespace TextQuery

namespace Scanner

variable {s s' : Scanner} {outcome : Except (Fault ScanCause) Lexeme}

/-- The outcomes that end a scan: the end of the query, and every fault. -/
def Ends : Except (Fault ScanCause) Lexeme → Prop
  | .ok l => l.token = .finish
  | .error _ => True

/-- What a further step finds in a query that ends at `position`, when `outcome` has ended the scan.
A phrase that is not terminated has been passed together with the rest of the query. -/
def foundAfter (position : Nat) :
    Except (Fault ScanCause) Lexeme → Except (Fault ScanCause) Lexeme
  | .error ⟨.unterminatedPhrase, _⟩ => .ok ⟨.finish, position⟩
  | outcome => outcome

theorem nextHere_of_remaining_eq_nil (h : s.remaining = []) :
    s.nextHere = (.ok ⟨.finish, s.endPosition⟩, s) := by
  obtain ⟨position, remaining⟩ := s
  cases h
  rfl

theorem next_of_remaining_eq_nil (h : s.remaining = []) :
    s.next = (.ok ⟨.finish, s.endPosition⟩, s) := by
  obtain ⟨position, remaining⟩ := s
  cases h
  rfl

theorem next_of_isControl {c : Char} {rest : List Char} (hs : s.remaining = c :: rest)
    (hcontrol : Text.isControl c = true) (hblank : Text.isBlank c = false) :
    s.next = (.error ⟨.invalidCharacter c, s.position⟩, s) := by
  obtain ⟨position, remaining⟩ := s
  cases hs
  have hmark : mark? c = none := by
    unfold mark?
    split <;> first | rfl | exact absurd hcontrol (by decide)
  have hquote : c ≠ '"' := by
    intro heq
    rw [heq] at hcontrol
    exact absurd hcontrol (by decide)
  rw [next_of_not_isBlank hblank, nextHere_cons, hmark]
  dsimp only
  rw [if_neg hquote, if_pos hcontrol]

/-- What ends a scan leaves the scanner at a place that no further step leaves. -/
theorem next_of_ends (h : s.next = (outcome, s')) (hends : Ends outcome) :
    s'.next = (foundAfter s.endPosition outcome, s') := by
  have hskip := s.takes_skipBlanks
  cases outcome with
  | ok l =>
    rcases takes_of_nextHere s.isBlank_head?_skipBlanks h with ⟨hnil, -⟩ | ⟨spelling, -, hspelled, -⟩
    · cases (nextHere_of_remaining_eq_nil hnil).symm.trans h
      exact next_of_remaining_eq_nil hnil
    · exact absurd hends hspelled.ne_finish
  | error fault =>
    obtain ⟨taken, htakes, ⟨rfl, -, hnil⟩ | ⟨c, rest, rfl, hrest, hcontrol, hblank⟩⟩ :=
      takes_of_nextHere_error s.isBlank_head?_skipBlanks h
    · rw [next_of_remaining_eq_nil hnil, htakes.endPosition_eq, hskip.endPosition_eq]
      rfl
    · exact next_of_isControl hrest hcontrol hblank

theorem steps_of_next_eq_self (h : s.next = (outcome, s)) (n : Nat) :
    s.steps n = List.replicate n outcome := by
  induction n with
  | zero => rfl
  | succ n ih => rw [steps, h, ih, List.replicate_succ]

theorem steps_of_ends (h : s.next = (outcome, s')) (hends : Ends outcome) (n : Nat) :
    s.steps n = [outcome].take n ++ List.replicate (n - 1) (foundAfter s.endPosition outcome) := by
  cases n with
  | zero => rfl
  | succ n =>
    rw [steps, h, steps_of_next_eq_self (next_of_ends h hends)]
    simp

/-- From any place the steps find tokens, no more of them than there are characters, then one
outcome that ends the scan, and then the same with each further step. By the cases of `tokens`: a
fault, the end, and a token before the rest of the run. -/
theorem exists_steps_eq (s : Scanner) :
    ∃ (before : List Lexeme) (last : Except (Fault ScanCause) Lexeme),
      (∀ l ∈ before, l.token ≠ .finish) ∧ Ends last ∧ before.length ≤ s.remaining.length ∧
      s.tokens = last.map (fun l => before ++ [l]) ∧
      ∀ n, s.steps n = (before.map Except.ok ++ [last]).take n ++
        List.replicate (n - (before.length + 1)) (foundAfter s.endPosition last) := by
  induction s using tokens.induct with
  | case1 s fault s' hnext =>
    exact ⟨[], .error fault, by simp, trivial, Nat.zero_le _, tokens_of_next_error hnext,
      steps_of_ends hnext trivial⟩
  | case2 s l s' hnext hl =>
    exact ⟨[], .ok l, by simp, hl, Nat.zero_le _, tokens_of_next_finish hnext hl,
      steps_of_ends hnext hl⟩
  | case3 s l s' hnext hl ih =>
    obtain ⟨before, last, hbefore, hlast, hlength, htokens, hsteps⟩ := ih
    refine ⟨l :: before, last, List.forall_mem_cons.2 ⟨hl, hbefore⟩, hlast, ?_, ?_, ?_⟩
    · have hlt := length_next_lt hnext hl
      rw [List.length_cons]
      omega
    · rw [tokens_of_next hnext hl, htokens]
      cases last <;> rfl
    · intro n
      cases n with
      | zero => simp [steps]
      | succ n =>
        rw [steps, hnext, hsteps, endPosition_of_next hnext hl, List.length_cons,
          Nat.add_sub_add_right]
        rfl

end Scanner

/-- Stepping agrees with splitting a text into tokens. The steps find the tokens up to the end of
the query or up to the fault that makes the splitting fail, whichever there is, and this after at
most as many tokens as the text has characters. From then on each step finds the end of the query or
the forbidden character again, or the end of the query behind a phrase that is not terminated. -/
theorem steps_agree_with_tokenize (text : String) :
    ∃ (before : List Lexeme) (last : Except (Fault ScanCause) Lexeme),
      (∀ l ∈ before, l.token ≠ .finish) ∧ Scanner.Ends last ∧ before.length ≤ text.length ∧
      tokenize text = (last.map fun l => before ++ [l]).mapError (·.inText text) ∧
      ∀ n, (Scanner.ofString text).steps n = (before.map Except.ok ++ [last]).take n ++
        List.replicate (n - (before.length + 1)) (Scanner.foundAfter text.length last) := by
  obtain ⟨before, last, hbefore, hlast, hlength, htokens, hsteps⟩ :=
    (Scanner.ofString text).exists_steps_eq
  have hend : (Scanner.ofString text).endPosition = text.length := by
    rw [← String.length_toList]
    exact Nat.zero_add _
  rw [hend] at hsteps
  refine ⟨before, last, hbefore, hlast, ?_, ?_, hsteps⟩
  · rwa [← String.length_toList]
  · rw [tokenize, htokens]

/-- A phrase that is not terminated is reported once, a control character again and again. -/
example : (Scanner.ofString "a \"b").steps 4 =
      [.ok ⟨.word "a", 0⟩, .error ⟨.unterminatedPhrase, 2⟩, .ok ⟨.finish, 4⟩, .ok ⟨.finish, 4⟩] ∧
    (Scanner.ofString "a \"\x07").steps 4 =
      [.ok ⟨.word "a", 0⟩, .error ⟨.invalidCharacter '\x07', 3⟩,
        .error ⟨.invalidCharacter '\x07', 3⟩, .error ⟨.invalidCharacter '\x07', 3⟩] :=
  by decide +kernel

end TextQuery
