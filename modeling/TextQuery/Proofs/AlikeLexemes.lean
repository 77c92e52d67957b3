import TextQuery.Proofs.Acceptance

/-!
# Lexemes that are read alike

Of a phrase the readers of the grammar see only its words, and of an offset only whether a prefix
touches what comes behind it. From inputs that agree in this much they read the same query, or they
fail for the same cause.
-/
namespace TextQuery

/-- The same token, but for the white space in a phrase. -/
inductive Token.Alike : Token → Token → Prop where
  | refl (token : Token) : Alike token token
  | phrase {u v : String} (h : Text.blankSeparated u.toList = Text.blankSeparated v.toList) :
      Alike (.phrase u) (.phrase v)

/-- The first lexeme is a prefix, and the second begins where it ends. -/
def Lexeme.Meets (a b : Lexeme) : Prop :=
  ∃ width, a.token.prefixWidth? = some width ∧ b.position = a.position + width

/-- Lexemes with tokens that are alike, where the same prefixes meet what comes behind them. It is
left open whether they meet the end of the query, which is no operand anyway. -/
inductive Alike : List Lexeme → List Lexeme → Prop where
  | nil : Alike [] []
  | cons {a b : Lexeme} {as bs : List Lexeme} (token : a.token.Alike b.token)
      (meets : ∀ l ∈ as.head?, ∀ m ∈ bs.head?, l.token ≠ .finish → (a.Meets l ↔ b.Meets m))
      (tail : Alike as bs) : Alike (a :: as) (b :: bs)

namespace Token.Alike

variable {t u : Token}

theorem startsOperand_eq (h : t.Alike u) : t.startsOperand = u.startsOperand := by
  cases h <;> rfl

theorem startsItem_eq (h : t.Alike u) : t.startsItem = u.startsItem := by
  cases h <;> rfl

theorem prefixWidth?_eq (h : t.Alike u) : t.prefixWidth? = u.prefixWidth? := by
  cases h <;> rfl

/-- Only phrases can be alike without being the same. -/
theorem eq_iff (h : t.Alike u) {token : Token} (htoken : ∀ text, token ≠ .phrase text) :
    t = token ↔ u = token := by
  cases h with
  | refl => rfl
  | phrase h => exact ⟨fun heq => absurd heq.symm (htoken _), fun heq => absurd heq.symm (htoken _)⟩

/-- A phrase starts an item, so tokens that start none are the same when they are alike. -/
theorem eq_of_startsItem_eq_false (h : t.Alike u) (hstarts : t.startsItem = false) : t = u := by
  cases h with
  | refl => rfl
  | phrase h => cases hstarts

end Token.Alike

namespace Alike
open Grammar

variable {as bs : List Lexeme} {a b : Lexeme} {p q width : Nat} {token : Token}

theorem atEnd_eq (h : Alike as bs) : atEnd as = atEnd bs := by
  cases h with
  | nil => rfl
  | cons token meets tail =>
    rw [atEnd, atEnd, Bool.eq_iff_iff, beq_iff_eq, beq_iff_eq]
    exact token.eq_iff (by simp)

theorem startsItem_eq (h : Alike as bs) : startsItem as = startsItem bs := by
  cases h with
  | nil => rfl
  | cons token meets tail => exact token.startsItem_eq

theorem next?_eq_iff (h : Alike as bs) (htoken : ∀ text, token ≠ .phrase text) :
    next? as = some token ↔ next? bs = some token := by
  cases h with
  | nil => rfl
  | cons alike meets tail =>
    rw [next?_cons, next?_cons, Option.some.injEq, Option.some.injEq]
    exact alike.eq_iff htoken

/-- The cause holds the token that is unexpected, so this may be no phrase. -/
theorem cause_unexpectedNext_eq (h : Alike as bs) (hstarts : startsItem as = false) :
    (unexpectedNext as).cause = (unexpectedNext bs).cause := by
  cases h with
  | nil => rfl
  | cons token meets tail =>
    exact congrArg GrammarCause.unexpected (token.eq_of_startsItem_eq_false hstarts)

/-- A prefix of the one meets what comes behind it where the same prefix of the other does. -/
theorem position_eq_iff (h : Alike (a :: as) (b :: bs)) (hwidth : a.token.prefixWidth? = some width)
    {l m : Lexeme} (hl : l ∈ as.head?) (hm : m ∈ bs.head?) (hfinish : l.token ≠ .finish) :
    l.position = a.position + width ↔ m.position = b.position + width := by
  cases h with
  | cons token meets tail =>
    have hmeets := meets l hl m hm hfinish
    simpa [Lexeme.Meets, ← token.prefixWidth?_eq, hwidth] using hmeets

/-- A prefix that touches an operand in the one input does so in the other. -/
theorem touches_eq (h : Alike (⟨token, p⟩ :: as) (⟨token, q⟩ :: bs))
    (hwidth : token.prefixWidth? = some width) :
    touches (p + width) as = touches (q + width) bs := by
  have hposition := fun l m => @h.position_eq_iff _ _ _ _ width hwidth l m
  cases h with
  | cons _ meets tail =>
    cases tail with
    | nil => rfl
    | @cons l m _ _ alike _ _ =>
      cases hstarts : l.token.startsOperand with
      | false => simp [touches, hstarts, ← alike.startsOperand_eq]
      | true =>
        have hfinish : l.token ≠ .finish := by
          intro heq
          rw [heq] at hstarts
          cases hstarts
        simp only [touches, hstarts, ← alike.startsOperand_eq, Bool.true_and]
        rw [Bool.eq_iff_iff, beq_iff_eq, beq_iff_eq]
        exact hposition l m rfl rfl hfinish

/-- A `-` right behind another is found in both inputs or in neither. -/
theorem head?_eq_exclude_iff (h : Alike (⟨.exclude, p⟩ :: as) (⟨.exclude, q⟩ :: bs)) :
    as.head? = some ⟨.exclude, p + 1⟩ ↔ bs.head? = some ⟨.exclude, q + 1⟩ := by
  have hposition := fun l m => @h.position_eq_iff _ _ _ _ 1 rfl l m
  cases h with
  | cons _ meets tail =>
    cases tail with
    | nil => simp
    | @cons l m _ _ alike _ _ =>
      have htoken : l.token = .exclude ↔ m.token = .exclude := alike.eq_iff (by simp)
      have heq : ∀ (l : Lexeme) (k : Nat),
          l = ⟨.exclude, k⟩ ↔ l.token = .exclude ∧ l.position = k := by
        rintro ⟨token, position⟩ k
        simp
      rw [List.head?_cons, List.head?_cons, Option.some.injEq, Option.some.injEq, heq, heq, ← htoken]
      refine and_congr_right fun hl => hposition l m rfl rfl ?_
      rw [hl]
      simp

end Alike

namespace Grammar

/-- The same value with rests that are alike, or failures for the same cause. -/
inductive Reading.Alike {α : Type} {input input' : List Lexeme} :
    Reading α input → Reading α input' → Prop where
  | done {value : α} {rest rest' : List Lexeme} {shorter : rest.length < input.length}
      {shorter' : rest'.length < input'.length} (h : TextQuery.Alike rest rest') :
      Alike (.done value rest shorter) (.done value rest' shorter')
  | failed {fault fault' : Fault GrammarCause} {rest rest' : List Lexeme}
      {leftOpen leftOpen' : Nat} (h : fault.cause = fault'.cause) :
      Alike (.failed fault rest leftOpen) (.failed fault' rest' leftOpen')

/-- From inputs that are alike, the reader reads alike. -/
def ReadsAlike {α : Type} (reader : Reader α) : Prop :=
  ∀ ⦃input input' : List Lexeme⦄, TextQuery.Alike input input' →
    (reader input).Alike (reader input')

variable {α β : Type} {input input' tail tail' : List Lexeme} {operand : Reader Query}

theorem Reading.Alike.lift {r : Reading α tail} {r' : Reading α tail'} (h : r.Alike r') (f : α → β)
    (le : tail.length ≤ input.length) (le' : tail'.length ≤ input'.length) :
    (r.lift f le).Alike (r'.lift f le') := by
  cases h with
  | done h => exact .done h
  | failed h => exact .failed h

/-- Separated items are read alike if the items are. By induction on the length of the first input.
-/
theorem readsAlike_joined {separator : Token} (hseparator : ∀ text, separator ≠ .phrase text)
    {item : Reader α} (hitem : ReadsAlike item) : ReadsAlike (joined separator item) := by
  intro input input' h
  induction hn : input.length using Nat.strong_induction_on generalizing input input' with
  | _ n ih =>
  subst hn
  have hfirst := hitem h
  rw [joined.eq_1 separator item input, joined.eq_1 separator item input']
  generalize item input = r at hfirst ⊢
  generalize item input' = r' at hfirst ⊢
  cases hfirst with
  | failed h => exact .failed h
  | @done value rest rest' shorter shorter' hrest =>
    cases hrest with
    | nil => exact .done .nil
    | @cons l m more more' token meets tail =>
      have hl : l.token = separator ↔ m.token = separator := token.eq_iff hseparator
      by_cases hm : m.token = separator
      · simp only [hl.2 hm, hm, if_true, tail.startsItem_eq]
        cases startsItem more' with
        | false => exact .failed rfl
        | true =>
          have hmore := ih more.length (Nat.lt_of_succ_lt shorter) tail rfl
          simp only [if_true]
          generalize joined separator item more = s at hmore ⊢
          generalize joined separator item more' = s' at hmore ⊢
          cases hmore with
          | done h => exact .done h
          | failed h => exact .failed h
      · simp only [hm, mt hl.1 hm, if_false]
        exact .done (.cons token meets tail)

/-- Neighbouring items are read alike if the items are. By induction on the length of the first
input. -/
theorem readsAlike_adjacent {item : Reader α} (hitem : ReadsAlike item) :
    ReadsAlike (adjacent item) := by
  intro input input' h
  induction hn : input.length using Nat.strong_induction_on generalizing input input' with
  | _ n ih =>
  subst hn
  have hfirst := hitem h
  rw [adjacent.eq_1 item input, adjacent.eq_1 item input']
  generalize item input = r at hfirst ⊢
  generalize item input' = r' at hfirst ⊢
  cases hfirst with
  | failed h => exact .failed h
  | @done value rest rest' shorter shorter' hrest =>
    simp only [hrest.startsItem_eq]
    cases startsItem rest' with
    | false => exact .done hrest
    | true =>
      exact (ih rest.length shorter hrest rfl).lift _ (Nat.le_of_lt shorter) (Nat.le_of_lt shorter')

/-- A prefixed operand is read alike if the operand is; offsets take part in this only by whether a
prefix meets what comes behind it. -/
theorem readsAlike_prefixed (hoperand : ReadsAlike operand) : ReadsAlike (prefixed operand) := by
  intro input input' h
  have hplain := (hoperand h).lift (Operand.mk .optional) (Nat.le_refl _) (Nat.le_refl _)
  cases h with
  | nil => exact hplain
  | @cons a b as bs token meets tail =>
    have h : Alike (a :: as) (b :: bs) := .cons token meets tail
    obtain ⟨t, p⟩ := a
    obtain ⟨u, q⟩ := b
    cases token with
    | phrase htext => exact hplain
    | refl =>
      cases t with
      | exclude =>
        simp only [prefixed, h.head?_eq_exclude_iff, h.touches_eq rfl]
        split
        · exact .failed rfl
        · split
          · exact .failed rfl
          · have hread := hoperand tail
            generalize operand as = r at hread ⊢
            generalize operand bs = r' at hread ⊢
            cases hread with
            | failed h => exact .failed h
            | done h =>
              dsimp only
              split
              · exact .failed rfl
              · exact .done h
      | require =>
        simp only [prefixed, h.touches_eq rfl]
        split
        · exact .failed rfl
        · exact (hoperand tail).lift _ _ _
      | _ => exact hplain

/-- Choices are read alike if their operands are. -/
theorem readsAlike_disjunction (hoperand : ReadsAlike operand) :
    ReadsAlike (disjunction operand) := by
  have hconjunction : ReadsAlike (conjunction operand) := fun _ _ h =>
    (readsAlike_joined (by simp) (readsAlike_prefixed hoperand) h).lift _ _ _
  have hsequence : ReadsAlike (sequence operand) := by
    intro input input' h
    rw [sequence, sequence, h.startsItem_eq]
    split
    · exact (readsAlike_adjacent hconjunction h).lift _ _ _
    · next hstarts =>
      rw [Bool.not_eq_true, ← h.startsItem_eq] at hstarts
      exact .failed (h.cause_unexpectedNext_eq hstarts)
  exact fun _ _ h => (readsAlike_joined (by simp) hsequence h).lift _ _ _

theorem startsItem_rest_of_sequence_gives {q : Query} {rest : List Lexeme}
    (h : (sequence operand input).Gives q rest) : startsItem rest = false := by
  obtain ⟨-, os, hadjacent, -⟩ := sequence_gives_iff.1 h
  exact hadjacent.exists_last.1

/-- No operand comes next behind a disjunction, so that no phrase can be unexpected there. -/
theorem startsItem_rest_of_disjunction_gives {q : Query} {rest : List Lexeme}
    (h : (disjunction operand input).Gives q rest) : startsItem rest = false := by
  obtain ⟨qs, hjoined, -⟩ := disjunction_gives_iff.1 h
  obtain ⟨-, mid, q', hsequence⟩ := hjoined.exists_last
  exact startsItem_rest_of_sequence_gives hsequence

theorem closed_of_next?_ne {position : Nat} {inner : Query} {rest : List Lexeme}
    (h : next? rest ≠ some .closeGroup) (shorter : rest.length < input.length) :
    (closed position inner rest shorter : Reading Query input) =
      if atEnd rest then .failed ⟨.unclosedGroup, position⟩ rest 1
      else .failed (unexpectedNext rest) rest 1 := by
  unfold closed
  split
  · exact absurd rfl h
  · rfl

/-- A group is closed alike. That no item starts behind it means that no phrase is unexpected there.
-/
theorem alike_closed {p q : Nat} {inner : Query} {rest rest' : List Lexeme}
    (h : TextQuery.Alike rest rest') (hstarts : startsItem rest = false)
    (shorter : rest.length < input.length) (shorter' : rest'.length < input'.length) :
    (closed p inner rest shorter).Alike (closed q inner rest' shorter') := by
  have hnext : next? rest = some .closeGroup ↔ next? rest' = some .closeGroup :=
    h.next?_eq_iff (by simp)
  by_cases hclose : next? rest' = some .closeGroup
  · have hclose' := hnext.2 hclose
    cases h with
    | nil => cases hclose
    | @cons a b as bs token meets tail =>
      obtain ⟨t, i⟩ := a
      obtain ⟨u, j⟩ := b
      cases hclose
      cases hclose'
      exact .done tail
  · rw [closed_of_next?_ne hclose, closed_of_next?_ne (mt hnext.1 hclose), h.atEnd_eq]
    split
    · exact .failed rfl
    · exact .failed (h.cause_unexpectedNext_eq hstarts)

theorem operand_of_not_startsOperand (budget : Nat)
    (h : ∀ l ∈ input.head?, l.token.startsOperand = false) :
    Grammar.operand budget input = .failed (unexpectedNext input) input.tail 0 := by
  cases input with
  | nil => simp
  | cons l more =>
    obtain ⟨token, position⟩ := l
    have hl : token.startsOperand = false := h _ rfl
    cases token with
    | word | phrase | field | openGroup => cases hl
    | _ => simp

section Nested

variable {budget : Nat} {as bs : List Lexeme} {p q : Nat}

theorem alike_operand_phrase {u v : String}
    (htext : Text.blankSeparated u.toList = Text.blankSeparated v.toList)
    (h : TextQuery.Alike as bs) : (Grammar.operand budget (⟨.phrase u, p⟩ :: as)).Alike
      (Grammar.operand budget (⟨.phrase v, q⟩ :: bs)) := by
  simp only [Grammar.operand, htext]
  split
  · exact .failed rfl
  · exact .done h

variable (hinner : ∀ b, budget = b + 1 → ReadsAlike (Grammar.operand b))

include hinner

theorem alike_operand_field {name : String}
    (h : TextQuery.Alike (⟨.field name, p⟩ :: as) (⟨.field name, q⟩ :: bs))
    (htail : TextQuery.Alike as bs) : (Grammar.operand budget (⟨.field name, p⟩ :: as)).Alike
      (Grammar.operand budget (⟨.field name, q⟩ :: bs)) := by
  have htouches : touches (p + name.length + 1) as = touches (q + name.length + 1) bs :=
    h.touches_eq rfl
  cases budget with
  | zero =>
    simp only [Grammar.operand, htouches]
    split <;> exact .failed rfl
  | succ budget =>
    have hread := hinner budget rfl htail
    simp only [Grammar.operand, htouches]
    generalize Grammar.operand budget as = r at hread ⊢
    generalize Grammar.operand budget bs = r' at hread ⊢
    split
    · exact .failed rfl
    · cases hread with
      | failed h => exact .failed h
      | done h => exact .done h

theorem alike_operand_openGroup (h : TextQuery.Alike as bs) :
    (Grammar.operand budget (⟨.openGroup, p⟩ :: as)).Alike
      (Grammar.operand budget (⟨.openGroup, q⟩ :: bs)) := by
  have hclose : as.head?.map Lexeme.token = some .closeGroup ↔
      bs.head?.map Lexeme.token = some .closeGroup := h.next?_eq_iff (by simp)
  cases budget with
  | zero =>
    simp only [Grammar.operand, hclose, h.atEnd_eq]
    split
    · exact .failed rfl
    · split <;> exact .failed rfl
  | succ budget =>
    have hread := readsAlike_disjunction (hinner budget rfl) h
    have hstarts := fun {q rest} =>
      @startsItem_rest_of_disjunction_gives as (Grammar.operand budget) q rest
    simp only [Grammar.operand, hclose, h.atEnd_eq]
    generalize disjunction (Grammar.operand budget) as = r at hread hstarts ⊢
    generalize disjunction (Grammar.operand budget) bs = r' at hread ⊢
    split
    · exact .failed rfl
    · split
      · exact .failed rfl
      · cases hread with
        | failed h => exact .failed h
        | @done inner _ _ shorter _ h => exact alike_closed h (hstarts ⟨shorter, rfl⟩) _ _

theorem readsAlike_operand_of_inner : ReadsAlike (Grammar.operand budget) := by
  intro input input' h
  cases h with
  | nil =>
    rw [operand_of_not_startsOperand budget (by simp)]
    exact .failed rfl
  | @cons a b as bs token meets tail =>
    have h : Alike (a :: as) (b :: bs) := .cons token meets tail
    obtain ⟨t, p⟩ := a
    obtain ⟨u, q⟩ := b
    cases token with
    | phrase htext => exact alike_operand_phrase htext tail
    | refl =>
      cases t with
      | word text =>
        rw [Grammar.operand, Grammar.operand]
        exact .done tail
      | phrase text => exact alike_operand_phrase rfl tail
      | field name => exact alike_operand_field hinner h tail
      | openGroup => exact alike_operand_openGroup hinner tail
      | _ =>
        rw [operand_of_not_startsOperand, operand_of_not_startsOperand]
        · exact .failed rfl
        all_goals
          rintro l ⟨⟩
          rfl

end Nested

/-- Operands are read alike. By induction on the budget, which groups and field scopes take from. -/
theorem readsAlike_operand (budget : Nat) : ReadsAlike (Grammar.operand budget) := by
  induction budget with
  | zero => exact readsAlike_operand_of_inner nofun
  | succ budget ih =>
    refine readsAlike_operand_of_inner ?_
    rintro b ⟨⟩
    exact ih

end Grammar

/-- Sessions with the same budget end alike on lexemes that are alike. -/
theorem Session.cause_read_eq {s t : Session} (h : Alike s.remaining t.remaining)
    (hbudget : s.budget = t.budget) :
    s.read.1.mapError (·.cause) = t.read.1.mapError (·.cause) := by
  have hread := Grammar.readsAlike_disjunction (Grammar.readsAlike_operand t.budget) h
  have hstarts := fun {q rest} =>
    @Grammar.startsItem_rest_of_disjunction_gives s.remaining (Grammar.operand t.budget) q rest
  simp only [Session.read, h.atEnd_eq, hbudget]
  generalize Grammar.disjunction (Grammar.operand t.budget) s.remaining = r at hread hstarts ⊢
  generalize Grammar.disjunction (Grammar.operand t.budget) t.remaining = r' at hread ⊢
  split
  · rfl
  · cases hread with
    | failed h => exact congrArg Except.error h
    | @done q rest rest' shorter shorter' h =>
      have hcause := h.cause_unexpectedNext_eq (hstarts ⟨shorter, rfl⟩)
      dsimp only
      rw [h.atEnd_eq]
      split
      · rfl
      · exact congrArg Except.error hcause

end TextQuery
