import Mathlib.Data.List.Nodup
import TextQuery.Proofs.Acceptance

/-!
# Groups and field scopes that are open

What is open around a place among the tokens is found by going through the tokens before it, with a
stack. Whether a group is closed is found by counting parentheses behind it. Neither asks for a
derivation, and any tokens have an answer. The tokens of a derivation leave nothing open, and they
close no group that they have not opened.
-/
namespace TextQuery

/-- What can be open around a token. -/
inductive Opener where
  | group
  | scope
deriving DecidableEq

/-- What is open behind a token, if `around` is open before it; the innermost comes first. A word, a
phrase and a group that is closed are operands, which end the field scopes directly around them. -/
def openBehind (around : List Opener) : Token → List Opener
  | .field _ => .scope :: around
  | .openGroup => .group :: around
  | .word _ | .phrase _ => around.dropWhile (· == .scope)
  | .closeGroup => ((around.dropWhile (· == .scope)).drop 1).dropWhile (· == .scope)
  | .exclude | .require | .and | .or | .finish => around

/-- What is open behind some tokens, if `around` is open before them. -/
def openAfter (around : List Opener) (tokens : List Token) : List Opener :=
  tokens.foldl openBehind around

/-- Of the tokens before, only what they leave open matters to those behind. -/
theorem openAfter_append (around : List Opener) (tokens more : List Token) :
    openAfter around (tokens ++ more) = openAfter (openAfter around tokens) more :=
  List.foldl_append

/-- No field scope waits for its operand. -/
def Settled (around : List Opener) : Prop :=
  around.dropWhile (· == .scope) = around

theorem settled_nil : Settled [] := rfl

/-- In a group that has just been opened, no field scope waits. -/
theorem settled_group (around : List Opener) : Settled (.group :: around) := rfl

/-- A group that is opened right before these tokens is closed among them: as many groups are closed
as opened before some closing parenthesis. -/
def ClosesGroup (tokens : List Token) : Prop :=
  ∃ inside rest, tokens = inside ++ .closeGroup :: rest ∧
    inside.count .closeGroup = inside.count .openGroup

/-- Every group that is opened among the tokens is closed among them, and no other is. -/
structure Balanced (tokens : List Token) : Prop where
  count_eq : tokens.count .closeGroup = tokens.count .openGroup
  count_le : ∀ front back, tokens = front ++ back →
    front.count .closeGroup ≤ front.count .openGroup

namespace Balanced

variable {s t : List Token}

theorem nil : Balanced [] := by
  refine ⟨rfl, ?_⟩
  intro front back h
  rw [(List.append_eq_nil_iff.1 h.symm).1]
  rfl

theorem append (hs : Balanced s) (ht : Balanced t) : Balanced (s ++ t) := by
  constructor
  · rw [List.count_append, List.count_append, hs.count_eq, ht.count_eq]
  · intro front back h
    rcases List.append_eq_append_iff.1 h with ⟨mid, hfront, hmid⟩ | ⟨mid, hmid, -⟩
    · have hle := ht.count_le mid back hmid
      have heq := hs.count_eq
      rw [hfront, List.count_append, List.count_append]
      omega
    · exact hs.count_le front mid hmid

/-- A token that is no parenthesis closes and opens nothing. -/
theorem singleton {token : Token} (hopen : token ≠ .openGroup) (hclose : token ≠ .closeGroup) :
    Balanced [token] := by
  constructor
  · simp [hopen, hclose]
  · intro front back h
    have hcount : front.count .closeGroup ≤ [token].count .closeGroup := by
      rw [h, List.count_append]
      omega
    rw [List.count_singleton, if_neg (by simpa using hclose)] at hcount
    omega

/-- Before the last parenthesis one more group is open than in the tokens inside, so none too many
can be closed. -/
theorem group (h : Balanced t) : Balanced (.openGroup :: t ++ [.closeGroup]) := by
  constructor
  · simp [h.count_eq]
  · intro front back hsplit
    cases front with
    | nil => rfl
    | cons token front =>
      rw [List.cons_append, List.cons_append] at hsplit
      obtain ⟨htoken, hrest⟩ := List.cons.inj hsplit
      subst htoken
      have hinner : front.count .closeGroup ≤ front.count .openGroup + 1 := by
        rcases List.append_eq_append_iff.1 hrest with ⟨mid, hfront, hmid⟩ | ⟨mid, hmid, -⟩
        · have heq := h.count_eq
          have hlength := congrArg List.length hmid
          have hle : mid.count .closeGroup ≤ mid.length := List.count_le_length
          rw [List.length_append, List.length_singleton] at hlength
          rw [hfront, List.count_append, List.count_append]
          omega
        · have hle := h.count_le front mid hmid
          omega
      rw [List.count_cons_of_ne (by simp), List.count_cons_self]
      exact hinner

/-- The end of the query behind such tokens leaves a group before them unclosed. -/
theorem not_closesGroup (h : Balanced t) : ¬ ClosesGroup (t ++ [.finish]) := by
  intro ⟨inside, rest, hsplit, hcount⟩
  rcases List.append_eq_append_iff.1 hsplit with ⟨mid, -, hmid⟩ | ⟨mid, hmid, hrest⟩
  · have hmem : Token.closeGroup ∈ [Token.finish] := by simp [hmid]
    simp at hmem
  · cases mid with
    | nil => simp at hrest
    | cons token mid =>
      obtain ⟨htoken, -⟩ := List.cons.inj hrest
      subst htoken
      have hle := h.count_le (inside ++ [.closeGroup]) mid (by simp [hmid])
      rw [List.count_append, List.count_append, List.count_singleton_self,
        List.count_cons_of_ne (by simp), List.count_nil] at hle
      omega

end Balanced

namespace Derivation

mutual

/-- An operand ends the field scopes directly around it, and opens nothing. -/
theorem Primary.openAfter_tokens (p : Primary) (around : List Opener) :
    openAfter around p.tokens = around.dropWhile (· == .scope) := by
  match p with
  | .word text => rfl
  | .phrase text => rfl
  | .scoped field inner => exact inner.openAfter_tokens (.scope :: around)
  | .group inner =>
    have hinner := inner.openAfter_tokens (settled_group around)
    have hclosed := openAfter_append around (.openGroup :: inner.tokens) [.closeGroup]
    rw [Primary.tokens, hclosed]
    change openAfter (openAfter (.group :: around) inner.tokens) [.closeGroup] = _
    rw [hinner]
    rfl

/-- Where no field scope waits, a prefixed operand leaves open what was open before it. -/
theorem Prefixed.openAfter_tokens (p : Prefixed) {around : List Opener} (h : Settled around) :
    openAfter around p.tokens = around := by
  match p with
  | .plain operand | .excluded operand | .required operand =>
    exact (operand.openAfter_tokens around).trans h

theorem Chain.openAfter_tokens (c : Chain) {around : List Opener} (h : Settled around) :
    openAfter around c.tokens = around := by
  match c with
  | .one operand => exact operand.openAfter_tokens h
  | .more operand rest =>
    rw [Chain.tokens, openAfter_append, operand.openAfter_tokens h]
    exact rest.openAfter_tokens h

theorem Sequence.openAfter_tokens (s : Sequence) {around : List Opener} (h : Settled around) :
    openAfter around s.tokens = around := by
  match s with
  | .one chain => exact chain.openAfter_tokens h
  | .more chain rest =>
    rw [Sequence.tokens, openAfter_append, chain.openAfter_tokens h]
    exact rest.openAfter_tokens h

theorem Choice.openAfter_tokens (c : Choice) {around : List Opener} (h : Settled around) :
    openAfter around c.tokens = around := by
  match c with
  | .one first => exact first.openAfter_tokens h
  | .more first rest =>
    rw [Choice.tokens, openAfter_append, first.openAfter_tokens h]
    exact rest.openAfter_tokens h

end

mutual

/-- A derivation has no parentheses but the pairs around its groups. -/
theorem Primary.balanced_tokens (p : Primary) : Balanced p.tokens := by
  match p with
  | .word text => exact .singleton (by simp) (by simp)
  | .phrase text => exact .singleton (by simp) (by simp)
  | .scoped field inner =>
    exact (Balanced.singleton (by simp) (by simp)).append inner.balanced_tokens
  | .group inner => exact inner.balanced_tokens.group

theorem Prefixed.balanced_tokens (p : Prefixed) : Balanced p.tokens := by
  match p with
  | .plain operand => exact operand.balanced_tokens
  | .excluded operand | .required operand =>
    exact (Balanced.singleton (by simp) (by simp)).append operand.balanced_tokens

theorem Chain.balanced_tokens (c : Chain) : Balanced c.tokens := by
  match c with
  | .one operand => exact operand.balanced_tokens
  | .more operand rest =>
    have hand : Balanced [Token.and] := .singleton (by simp) (by simp)
    exact operand.balanced_tokens.append (hand.append rest.balanced_tokens)

theorem Sequence.balanced_tokens (s : Sequence) : Balanced s.tokens := by
  match s with
  | .one chain => exact chain.balanced_tokens
  | .more chain rest => exact chain.balanced_tokens.append rest.balanced_tokens

theorem Choice.balanced_tokens (c : Choice) : Balanced c.tokens := by
  match c with
  | .one first => exact first.balanced_tokens
  | .more first rest =>
    have hor : Balanced [Token.or] := .singleton (by simp) (by simp)
    exact first.balanced_tokens.append (hor.append rest.balanced_tokens)

end

end Derivation

end TextQuery
