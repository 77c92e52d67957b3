import TextQuery.Proofs.Acceptance

/-!
# The grammar is unambiguous

Tokens have at most one derivation. For each line of the grammar, two derivations that spell the
same tokens up to what follows them are one, provided that nothing follows that could have gone on
with either: behind a chain no `AND`, behind a sequence no item, and behind a choice no `OR`.
-/
namespace TextQuery

/-- No chain goes on behind this token. -/
def Token.EndsChain (t : Token) : Prop :=
  t ≠ .and

/-- No sequence goes on behind this token. -/
def Token.EndsSequence (t : Token) : Prop :=
  t.EndsChain ∧ t.startsItem = false

/-- No choice goes on behind this token. -/
def Token.EndsChoice (t : Token) : Prop :=
  t.EndsSequence ∧ t ≠ .or

theorem Token.endsChain_of_startsItem {t : Token} (h : t.startsItem = true) : t.EndsChain := by
  rintro rfl
  cases h

theorem Token.endsSequence_or : Token.or.EndsSequence :=
  ⟨nofun, rfl⟩

theorem Token.endsChoice_closeGroup : Token.closeGroup.EndsChoice :=
  ⟨⟨nofun, rfl⟩, nofun⟩

namespace Derivation

/-- An operand does not begin with a `-` or `+`, nor with anything else that starts none. -/
theorem Primary.ne_prefix (p : Primary) {t : Token} {rest more : List Token}
    (ht : t.startsOperand = false) : p.tokens ++ rest ≠ t :: more := by
  obtain ⟨head, tail, heq, hhead⟩ := p.tokens_head
  intro h
  rw [heq] at h
  rw [(List.cons.inj h).1, ht] at hhead
  cases hhead

/-- What a sequence starts with does not go on with the chain before it. -/
theorem Sequence.endsChain_head (s : Sequence) (rest : List Token) :
    ∀ t ∈ (s.tokens ++ rest).head?, t.EndsChain := by
  obtain ⟨head, tail, heq, hhead⟩ := s.tokens_head
  rw [heq]
  rintro t ⟨⟩
  exact Token.endsChain_of_startsItem hhead

theorem Sequence.not_endsSequence_head (s : Sequence) {rest : List Token}
    (h : ∀ t ∈ (s.tokens ++ rest).head?, t.EndsSequence) : False := by
  obtain ⟨head, tail, heq, hhead⟩ := s.tokens_head
  rw [heq] at h
  have hends := (h head rfl).2
  rw [hhead] at hends
  cases hends

mutual

/-- An operand ends by itself: the tokens of one are never the beginning of those of another. -/
theorem Primary.eq_of_append {p p' : Primary} {rest rest' : List Token}
    (h : p.tokens ++ rest = p'.tokens ++ rest') : p = p' ∧ rest = rest' := by
  match p, p' with
  | .word text, .word text' =>
    obtain ⟨htoken, hrest⟩ := List.cons.inj h
    exact ⟨by rw [Token.word.inj htoken], hrest⟩
  | .phrase text, .phrase text' =>
    obtain ⟨htoken, hrest⟩ := List.cons.inj h
    exact ⟨by rw [Token.phrase.inj htoken], hrest⟩
  | .scoped field inner, .scoped field' inner' =>
    obtain ⟨htoken, htail⟩ := List.cons.inj h
    obtain ⟨rfl, hrest⟩ := Primary.eq_of_append htail
    exact ⟨by rw [Token.field.inj htoken], hrest⟩
  | .group inner, .group inner' =>
    have hclose : ∀ more, ∀ t ∈ (Token.closeGroup :: more).head?, t.EndsChoice := by
      rintro more t ⟨⟩
      exact Token.endsChoice_closeGroup
    have htail : inner.tokens ++ [.closeGroup] ++ rest = inner'.tokens ++ [.closeGroup] ++ rest' :=
      (List.cons.inj h).2
    rw [List.append_assoc, List.append_assoc] at htail
    obtain ⟨rfl, hrest⟩ := Choice.eq_of_append htail (hclose rest) (hclose rest')
    exact ⟨rfl, (List.cons.inj hrest).2⟩
  | .word _, .phrase _ | .word _, .scoped _ _ | .word _, .group _
  | .phrase _, .word _ | .phrase _, .scoped _ _ | .phrase _, .group _
  | .scoped _ _, .word _ | .scoped _ _, .phrase _ | .scoped _ _, .group _
  | .group _, .word _ | .group _, .phrase _ | .group _, .scoped _ _ =>
    cases (List.cons.inj h).1

theorem Prefixed.eq_of_append {p p' : Prefixed} {rest rest' : List Token}
    (h : p.tokens ++ rest = p'.tokens ++ rest') : p = p' ∧ rest = rest' := by
  match p, p' with
  | .plain operand, .plain operand' =>
    obtain ⟨rfl, hrest⟩ := Primary.eq_of_append h
    exact ⟨rfl, hrest⟩
  | .excluded operand, .excluded operand' =>
    obtain ⟨rfl, hrest⟩ := Primary.eq_of_append (List.cons.inj h).2
    exact ⟨rfl, hrest⟩
  | .required operand, .required operand' =>
    obtain ⟨rfl, hrest⟩ := Primary.eq_of_append (List.cons.inj h).2
    exact ⟨rfl, hrest⟩
  | .plain operand, .excluded _ | .plain operand, .required _ =>
    exact absurd h (operand.ne_prefix rfl)
  | .excluded _, .plain operand' | .required _, .plain operand' =>
    exact absurd h.symm (operand'.ne_prefix rfl)
  | .excluded _, .required _ | .required _, .excluded _ =>
    cases (List.cons.inj h).1

theorem Chain.eq_of_append {c c' : Chain} {rest rest' : List Token}
    (h : c.tokens ++ rest = c'.tokens ++ rest') (hrest : ∀ t ∈ rest.head?, t.EndsChain)
    (hrest' : ∀ t ∈ rest'.head?, t.EndsChain) : c = c' ∧ rest = rest' := by
  match c, c' with
  | .one operand, .one operand' =>
    obtain ⟨rfl, hrests⟩ := Prefixed.eq_of_append h
    exact ⟨rfl, hrests⟩
  | .one operand, .more operand' more' =>
    rw [Chain.tokens, Chain.tokens, List.append_assoc] at h
    obtain ⟨-, rfl⟩ := Prefixed.eq_of_append h
    exact absurd rfl (hrest .and rfl)
  | .more operand more, .one operand' =>
    rw [Chain.tokens, Chain.tokens, List.append_assoc] at h
    obtain ⟨-, rfl⟩ := Prefixed.eq_of_append h
    exact absurd rfl (hrest' .and rfl)
  | .more operand more, .more operand' more' =>
    rw [Chain.tokens, Chain.tokens, List.append_assoc, List.append_assoc] at h
    obtain ⟨rfl, htail⟩ := Prefixed.eq_of_append h
    obtain ⟨rfl, hrests⟩ := Chain.eq_of_append (List.cons.inj htail).2 hrest hrest'
    exact ⟨rfl, hrests⟩

/-- Other than an operand, a sequence ends only where what comes behind does not go on it. -/
theorem Sequence.eq_of_append {s s' : Sequence} {rest rest' : List Token}
    (h : s.tokens ++ rest = s'.tokens ++ rest') (hrest : ∀ t ∈ rest.head?, t.EndsSequence)
    (hrest' : ∀ t ∈ rest'.head?, t.EndsSequence) : s = s' ∧ rest = rest' := by
  have hchain : ∀ t ∈ rest.head?, t.EndsChain := fun t ht => (hrest t ht).1
  have hchain' : ∀ t ∈ rest'.head?, t.EndsChain := fun t ht => (hrest' t ht).1
  match s, s' with
  | .one chain, .one chain' =>
    obtain ⟨rfl, hrests⟩ := Chain.eq_of_append h hchain hchain'
    exact ⟨rfl, hrests⟩
  | .one chain, .more chain' more' =>
    rw [Sequence.tokens, Sequence.tokens, List.append_assoc] at h
    obtain ⟨-, rfl⟩ := Chain.eq_of_append h hchain (more'.endsChain_head rest')
    exact (more'.not_endsSequence_head hrest).elim
  | .more chain more, .one chain' =>
    rw [Sequence.tokens, Sequence.tokens, List.append_assoc] at h
    obtain ⟨-, rfl⟩ := Chain.eq_of_append h (more.endsChain_head rest) hchain'
    exact (more.not_endsSequence_head hrest').elim
  | .more chain more, .more chain' more' =>
    rw [Sequence.tokens, Sequence.tokens, List.append_assoc, List.append_assoc] at h
    obtain ⟨rfl, htail⟩ :=
      Chain.eq_of_append h (more.endsChain_head rest) (more'.endsChain_head rest')
    obtain ⟨rfl, hrests⟩ := Sequence.eq_of_append htail hrest hrest'
    exact ⟨rfl, hrests⟩

theorem Choice.eq_of_append {c c' : Choice} {rest rest' : List Token}
    (h : c.tokens ++ rest = c'.tokens ++ rest') (hrest : ∀ t ∈ rest.head?, t.EndsChoice)
    (hrest' : ∀ t ∈ rest'.head?, t.EndsChoice) : c = c' ∧ rest = rest' := by
  have hsequence : ∀ t ∈ rest.head?, t.EndsSequence := fun t ht => (hrest t ht).1
  have hsequence' : ∀ t ∈ rest'.head?, t.EndsSequence := fun t ht => (hrest' t ht).1
  have hor : ∀ more, ∀ t ∈ (Token.or :: more).head?, t.EndsSequence := by
    rintro more t ⟨⟩
    exact Token.endsSequence_or
  match c, c' with
  | .one first, .one first' =>
    obtain ⟨rfl, hrests⟩ := Sequence.eq_of_append h hsequence hsequence'
    exact ⟨rfl, hrests⟩
  | .one first, .more first' more' =>
    rw [Choice.tokens, Choice.tokens, List.append_assoc] at h
    obtain ⟨-, rfl⟩ := Sequence.eq_of_append h hsequence (hor _)
    exact absurd rfl (hrest .or rfl).2
  | .more first more, .one first' =>
    rw [Choice.tokens, Choice.tokens, List.append_assoc] at h
    obtain ⟨-, rfl⟩ := Sequence.eq_of_append h (hor _) hsequence'
    exact absurd rfl (hrest' .or rfl).2
  | .more first more, .more first' more' =>
    rw [Choice.tokens, Choice.tokens, List.append_assoc, List.append_assoc] at h
    obtain ⟨rfl, htail⟩ := Sequence.eq_of_append h (hor _) (hor _)
    obtain ⟨rfl, hrests⟩ := Choice.eq_of_append (List.cons.inj htail).2 hrest hrest'
    exact ⟨rfl, hrests⟩

end

/-- A derivation is determined by its tokens. -/
theorem Choice.tokens_injective : Function.Injective Choice.tokens := by
  intro c c' h
  have hnil : ∀ t ∈ ([] : List Token).head?, t.EndsChoice := by simp
  exact (Choice.eq_of_append (congrArg (· ++ []) h) hnil hnil).1

/-- Lexemes derive from the grammar in one way at most. -/
theorem Choice.Derives.unique {c c' : Choice} {lexemes : List Lexeme} (h : c.Derives lexemes)
    (h' : c'.Derives lexemes) : c = c' :=
  Choice.tokens_injective (List.append_cancel_right (h.tokens.symm.trans h'.tokens))

end Derivation

end TextQuery
