import Mathlib.Data.Nat.Basic
import TextQuery.Proofs.Reading
import TextQuery.Proofs.Spelling
import TextQuery.Proofs.Splitting

/-!
# The readers accept what derives

Soundness and completeness of the readers against the grammar. What a reader takes is spelled by
some derivation that obeys the side conditions; and from lexemes that a derivation spells, the
readers take exactly these and give the query that the derivation stands for.
-/
namespace TextQuery.Derivation
open Grammar

/-- Where every operand restricts, the place of the alternatives is not asked for. -/
theorem filterMap_conjunctAt?_of_restricts {place : Nat → Option Query} {os : List Operand}
    (h : ∀ o ∈ os, o.restricts = true) (k : Nat) :
    (os.zipIdx k).filterMap (conjunctAt? place) = os.map Operand.query := by
  induction os generalizing k with
  | nil => rfl
  | cons o os ih =>
    obtain ⟨ho, hos⟩ := List.forall_mem_cons.1 h
    simp [conjunctAt?, ho, ih hos]

/-- Behind the place of the alternatives only restrictions are left. -/
theorem filterMap_conjunctAt?_of_place {place : Nat → Option Query} {os : List Operand} {k : Nat}
    (h : ∀ i, k ≤ i → place i = none) :
    (os.zipIdx k).filterMap (conjunctAt? place) =
      (os.filter Operand.restricts).map Operand.query := by
  induction os generalizing k with
  | nil => rfl
  | cons o os ih =>
    have ih := ih fun i hi => h i (Nat.le_of_succ_le hi)
    cases ho : o.restricts <;> simp [conjunctAt?, ho, ih, h k (Nat.le_refl k)]

theorem findIdx?_append_cons {p : Operand → Bool} {leading more : List Operand} {o : Operand}
    (hl : ∀ a ∈ leading, p a = false) (ho : p o = true) :
    (leading ++ o :: more).findIdx? p = some leading.length := by
  rw [List.findIdx?_append, List.findIdx?_eq_none_iff.2 hl]
  simp [List.findIdx?_cons, ho]

/-- The reader splits the operands where the first alternative stands, and the grammar numbers them;
both put the alternatives in the same place. -/
theorem conditions_eq_conjuncts (os : List Operand) : conditions os = conjuncts os := by
  have hl : ∀ o ∈ os.takeWhile Operand.restricts, o.restricts = true :=
    List.all_eq_true.1 List.all_takeWhile
  have hsplit := List.takeWhile_append_dropWhile (p := Operand.restricts) (l := os)
  have hhead := List.head?_dropWhile_not Operand.restricts os
  dsimp only [conditions, conjuncts]
  generalize os.takeWhile Operand.restricts = leading at *
  generalize os.dropWhile Operand.restricts = others at *
  subst hsplit
  have hnone : leading.filter (fun o => !o.restricts) = [] := by simpa using hl
  rw [List.zipIdx_append, List.filterMap_append, filterMap_conjunctAt?_of_restricts hl,
    List.filter_append, hnone, List.nil_append, List.append_assoc, Nat.zero_add]
  congr 1
  cases others with
  | nil => rfl
  | cons o more =>
    have ho : o.restricts = false := by simpa using hhead
    have hfirst : (leading ++ o :: more).findIdx? (fun o => !o.restricts) = some leading.length :=
      findIdx?_append_cons (by simpa using hl) (by simpa using ho)
    rw [hfirst, List.zipIdx_cons, List.filterMap_cons, filterMap_conjunctAt?_of_place]
    · simp [conjunctAt?, ho]
    · intro i hi
      rw [if_neg]
      intro h
      cases h
      omega

/-- Lexemes with these tokens stand in `input` before `rest`, and they keep the side conditions
that do not depend on the derivation. -/
structure Spans (tokens : List Token) (input rest : List Lexeme) : Prop where
  taken : ∃ taken, taken ++ rest = input ∧ taken.map Lexeme.token = tokens
  wellBound : WellBound rest → WellBound input

namespace Spans

variable {s t : List Token} {input mid more rest : List Lexeme} {l : Lexeme}

theorem append (h : Spans s input mid) (h' : Spans t mid rest) : Spans (s ++ t) input rest := by
  obtain ⟨⟨a, rfl, rfl⟩, hb⟩ := h
  obtain ⟨⟨b, rfl, rfl⟩, hb'⟩ := h'
  exact ⟨⟨a ++ b, by simp, by simp⟩, hb ∘ hb'⟩

theorem cons (hb : ∀ b ∈ more.head?, l.Binds b) (hs : l.token.Spoken) (h : Spans t more rest) :
    Spans (l.token :: t) (l :: more) rest := by
  obtain ⟨⟨a, rfl, rfl⟩, hbound⟩ := h
  exact ⟨⟨l :: a, rfl, rfl⟩, fun hrest => wellBound_cons_iff.2 ⟨hb, hs, hbound hrest⟩⟩

theorem nil : Spans [] rest rest :=
  ⟨⟨[], rfl, rfl⟩, id⟩

/-- A token that is neither a prefix nor a phrase binds nothing. -/
theorem cons_free (hw : l.token.prefixWidth? = none) (hs : l.token.Spoken)
    (h : Spans t more rest) : Spans (l.token :: t) (l :: more) rest :=
  cons (fun _ _ _ hw' => by simp [hw] at hw') hs h

/-- A prefix that touches what follows. -/
theorem cons_prefix {width : Nat} (hw : l.token.prefixWidth? = some width)
    (hs : l.token.Spoken) (ht : touches (l.position + width) more = true)
    (h : Spans t more rest) : Spans (l.token :: t) (l :: more) rest := by
  refine cons (fun b hb w hw' => ?_) hs h
  rw [hw] at hw'
  cases hw'
  cases more with
  | nil => simp at hb
  | cons c more =>
    cases hb
    simpa [touches] using ht

end Spans

/-- An operand as it takes part in a chain. -/
def Prefixed.operand (p : Prefixed) : Operand :=
  ⟨p.role, p.tree⟩

def Chain.parts : Chain → List Operand
  | .one p => [p.operand]
  | .more p rest => p.operand :: rest.parts

theorem Chain.map_query_parts : ∀ c : Chain, c.parts.map Operand.query = c.trees
  | .one _ => by simp [parts, Prefixed.operand]
  | .more _ rest => by simp [parts, Prefixed.operand, rest.map_query_parts]

/-- A chain takes part in a sequence as the reader makes one operand of its parts. -/
theorem Chain.chained_parts : ∀ c : Chain, chained c.parts = c.operand
  | .one _ => by simp [parts, chained, Prefixed.operand]
  | .more _ rest => by
    have hrest := rest.map_query_parts
    cases hp : rest.parts with
    | nil => cases rest <;> simp [parts] at hp
    | cons o os => simp [parts, chained, hp, Prefixed.operand, ← hrest]

/-- What the reader gives is always what some derivation stands for, in at most `budget` groups
and field scopes. -/
def Sound (r : Reader Query) (budget : Nat) : Prop :=
  ∀ {input rest q}, (r input).Gives q rest → ∃ p : Primary, Spans p.tokens input rest ∧
    p.ExcludesOnce ∧ p.nesting ≤ budget ∧ p.tree = q

section Soundness
variable {r : Reader Query} {budget : Nat} {input rest : List Lexeme}

/-- An operand is derived with the prefix that comes next in the input. -/
theorem Prefixed.of_gives {o : Operand} (hr : Sound r budget)
    (h : (prefixed r input).Gives o rest) : ∃ p : Prefixed, Spans p.tokens input rest ∧
      p.ExcludesOnce ∧ p.nesting ≤ budget ∧ p.operand = o := by
  by_cases hex : next? input = some .exclude
  · obtain ⟨⟨_, position⟩, more, rfl, rfl⟩ : ∃ l more, input = l :: more ∧ l.token = .exclude := by
      cases input <;> simp_all [next?]
    obtain ⟨ht, q, hq, hne, rfl⟩ := prefixed_exclude_gives_iff.1 h
    obtain ⟨p, hp, ho, hn, rfl⟩ := hr hq
    exact ⟨.excluded p, hp.cons_prefix (l := ⟨.exclude, position⟩) rfl trivial ht, ⟨ho, hne⟩, hn,
      rfl⟩
  by_cases hreq : next? input = some .require
  · obtain ⟨⟨_, position⟩, more, rfl, rfl⟩ : ∃ l more, input = l :: more ∧ l.token = .require := by
      cases input <;> simp_all [next?]
    obtain ⟨ht, q, hq, rfl⟩ := prefixed_require_gives_iff.1 h
    obtain ⟨p, hp, ho, hn, rfl⟩ := hr hq
    exact ⟨.required p, hp.cons_prefix (l := ⟨.require, position⟩) rfl trivial ht, ho, hn, rfl⟩
  · obtain ⟨q, hq, rfl⟩ := (prefixed_plain_gives_iff hex hreq).1 h
    obtain ⟨p, hp, ho, hn, rfl⟩ := hr hq
    exact ⟨.plain p, hp, ho, hn, rfl⟩

/-- The operands that are joined by `AND` are derived as a chain, in the order in which they are
read. -/
theorem Chain.of_joined {os : List Operand} (hr : Sound r budget)
    (h : Joined .and (prefixed r) input os rest) : ∃ c : Chain, Spans c.tokens input rest ∧
      c.ExcludesOnce ∧ c.nesting ≤ budget ∧ c.parts = os := by
  induction h with
  | last head stop =>
    obtain ⟨p, hp, ho, hn, rfl⟩ := Prefixed.of_gives hr head
    exact ⟨.one p, hp, ho, hn, rfl⟩
  | @cons _ _ _ l _ _ head separated starts tail ih =>
    obtain ⟨p, hp, ho, hn, rfl⟩ := Prefixed.of_gives hr head
    obtain ⟨c, hc, ho', hn', rfl⟩ := ih
    obtain ⟨_, position⟩ := l
    cases separated
    exact ⟨.more p c, hp.append (hc.cons_free (l := ⟨.and, position⟩) rfl trivial), ⟨ho, ho'⟩,
      max_le hn hn', rfl⟩

theorem Sequence.of_adjacent {os : List Operand} (hr : Sound r budget)
    (h : Adjacent (conjunction r) input os rest) : ∃ s : Sequence, Spans s.tokens input rest ∧
      s.ExcludesOnce ∧ s.nesting ≤ budget ∧ s.operands = os := by
  induction h with
  | last head stop =>
    obtain ⟨os, hj, rfl⟩ := conjunction_gives_iff.1 head
    obtain ⟨c, hc, ho, hn, rfl⟩ := Chain.of_joined hr hj
    exact ⟨.one c, hc, ho, hn, by simp [c.chained_parts]⟩
  | cons head starts tail ih =>
    obtain ⟨os, hj, rfl⟩ := conjunction_gives_iff.1 head
    obtain ⟨c, hc, ho, hn, rfl⟩ := Chain.of_joined hr hj
    obtain ⟨s, hs, ho', hn', rfl⟩ := ih
    exact ⟨.more c s, hc.append hs, ⟨ho, ho'⟩, max_le hn hn', by simp [c.chained_parts]⟩

/-- What is read as a sequence derives, and its conditions are the conjuncts of the derivation. -/
theorem Sequence.of_gives {q : Query} (hr : Sound r budget)
    (h : (sequence r input).Gives q rest) : ∃ s : Sequence, Spans s.tokens input rest ∧
      s.ExcludesOnce ∧ s.nesting ≤ budget ∧ s.tree = q := by
  obtain ⟨-, os, ha, rfl⟩ := sequence_gives_iff.1 h
  obtain ⟨s, hs, ho, hn, rfl⟩ := Sequence.of_adjacent hr ha
  exact ⟨s, hs, ho, hn, by rw [tree, conditions_eq_conjuncts]⟩

theorem Choice.of_joined {qs : List Query} (hr : Sound r budget)
    (h : Joined .or (sequence r) input qs rest) : ∃ c : Choice, Spans c.tokens input rest ∧
      c.ExcludesOnce ∧ c.nesting ≤ budget ∧ c.trees = qs := by
  induction h with
  | last head stop =>
    obtain ⟨s, hs, ho, hn, rfl⟩ := Sequence.of_gives hr head
    exact ⟨.one s, hs, ho, hn, rfl⟩
  | @cons _ _ _ l _ _ head separated starts tail ih =>
    obtain ⟨s, hs, ho, hn, rfl⟩ := Sequence.of_gives hr head
    obtain ⟨c, hc, ho', hn', rfl⟩ := ih
    obtain ⟨_, position⟩ := l
    cases separated
    exact ⟨.more s c, hs.append (hc.cons_free (l := ⟨.or, position⟩) rfl trivial), ⟨ho, ho'⟩,
      max_le hn hn', rfl⟩

/-- What is read as a choice derives, if what is read as its operands does. -/
theorem Choice.of_gives {q : Query} (hr : Sound r budget)
    (h : (disjunction r input).Gives q rest) : ∃ c : Choice, Spans c.tokens input rest ∧
      c.ExcludesOnce ∧ c.nesting ≤ budget ∧ c.tree = q := by
  obtain ⟨qs, hj, rfl⟩ := disjunction_gives_iff.1 h
  obtain ⟨c, hc, ho, hn, rfl⟩ := Choice.of_joined hr hj
  exact ⟨c, hc, ho, hn, rfl⟩

end Soundness

/-- What is read as an operand derives. By induction on the budget: fields and groups read what is
inside of them with less. -/
theorem sound_operand (budget : Nat) : Sound (Grammar.operand budget) budget := by
  induction budget using Nat.strong_induction_on with
  | _ budget ih =>
  intro input rest q h
  obtain ⟨⟨token, position⟩, more, rfl, hl⟩ := startsOperand_of_operand_gives h
  cases token with
  | word text =>
    obtain ⟨rfl, rfl⟩ := operand_word_gives_iff.1 h
    exact ⟨.word text, Spans.nil.cons_free (l := ⟨.word text, position⟩) rfl trivial, trivial,
      Nat.zero_le _, rfl⟩
  | phrase text =>
    obtain ⟨hne, rfl, rfl⟩ := operand_phrase_gives_iff.1 h
    exact ⟨.phrase text, Spans.nil.cons_free (l := ⟨.phrase text, position⟩) rfl
      (Text.exists_not_isBlank_iff.2 hne), trivial, Nat.zero_le _, rfl⟩
  | field name =>
    obtain ⟨ht, b, inner, rfl, hinner, rfl⟩ := operand_field_gives_iff.1 h
    obtain ⟨p, hp, ho, hn, rfl⟩ := ih b (Nat.lt_succ_self b) hinner
    exact ⟨.scoped name p, hp.cons_prefix (l := ⟨.field name, position⟩) rfl trivial ht, ho,
      Nat.succ_le_succ hn, rfl⟩
  | openGroup =>
    obtain ⟨b, close, rfl, hd⟩ := operand_openGroup_gives_iff.1 h
    obtain ⟨c, hc, ho, hn, rfl⟩ := Choice.of_gives (ih b (Nat.lt_succ_self b)) hd
    have hclose := (@Spans.nil rest).cons_free (l := ⟨.closeGroup, close⟩) rfl trivial
    exact ⟨.group c, (hc.append hclose).cons_free (l := ⟨.openGroup, position⟩) rfl trivial, ho,
      Nat.succ_le_succ hn, rfl⟩
  | exclude | require | closeGroup | and | or | finish => cases hl

/-- Every derivation begins with a token that the reader takes for the start of one. -/
theorem Primary.tokens_head : ∀ p : Primary, ∃ t ts, p.tokens = t :: ts ∧ t.startsOperand = true
  | .word text => ⟨.word text, [], rfl, rfl⟩
  | .phrase text => ⟨.phrase text, [], rfl, rfl⟩
  | .scoped name inner => ⟨.field name, inner.tokens, rfl, rfl⟩
  | .group inner => ⟨.openGroup, inner.tokens ++ [.closeGroup], rfl, rfl⟩

theorem Prefixed.tokens_head : ∀ p : Prefixed, ∃ t ts, p.tokens = t :: ts ∧ t.startsItem = true
  | .plain p => by
    obtain ⟨t, ts, heq, ht⟩ := p.tokens_head
    exact ⟨t, ts, heq, by simp [Token.startsItem, ht]⟩
  | .excluded p => ⟨.exclude, p.tokens, rfl, rfl⟩
  | .required p => ⟨.require, p.tokens, rfl, rfl⟩

theorem Chain.tokens_head : ∀ c : Chain, ∃ t ts, c.tokens = t :: ts ∧ t.startsItem = true
  | .one p => p.tokens_head
  | .more p rest => by
    obtain ⟨t, ts, heq, ht⟩ := p.tokens_head
    exact ⟨t, ts ++ .and :: rest.tokens, by simp [heq], ht⟩

theorem Sequence.tokens_head : ∀ s : Sequence, ∃ t ts, s.tokens = t :: ts ∧ t.startsItem = true
  | .one c => c.tokens_head
  | .more c rest => by
    obtain ⟨t, ts, heq, ht⟩ := c.tokens_head
    exact ⟨t, ts ++ rest.tokens, by simp [heq], ht⟩

theorem Choice.tokens_head : ∀ c : Choice, ∃ t ts, c.tokens = t :: ts ∧ t.startsItem = true
  | .one s => s.tokens_head
  | .more s rest => by
    obtain ⟨t, ts, heq, ht⟩ := s.tokens_head
    exact ⟨t, ts ++ .or :: rest.tokens, by simp [heq], ht⟩

theorem startsItem_of_tokens_head {tokens : List Token} {taken rest : List Lexeme}
    (h : ∃ t ts, tokens = t :: ts ∧ t.startsItem = true)
    (hmap : taken.map Lexeme.token = tokens) : startsItem (taken ++ rest) = true := by
  obtain ⟨t, ts, heq, ht⟩ := h
  obtain ⟨l, ls, rfl, rfl, -⟩ := List.map_eq_cons_iff.1 (hmap.trans heq)
  exact ht

/-- A prefix in front of an operand that derives touches it, since its lexeme binds the next one. -/
theorem touches_of_wellBound {l : Lexeme} {taken rest : List Lexeme} {width : Nat} {p : Primary}
    (h : WellBound (l :: (taken ++ rest))) (hw : l.token.prefixWidth? = some width)
    (hp : taken.map Lexeme.token = p.tokens) :
    touches (l.position + width) (taken ++ rest) = true := by
  obtain ⟨t, ts, heq, ht⟩ := p.tokens_head
  rw [heq] at hp
  obtain ⟨c, cs, rfl, rfl, -⟩ := List.map_eq_cons_iff.1 hp
  obtain ⟨-, hpos⟩ := (wellBound_cons_iff.1 h).1 c rfl width hw
  simp [Grammar.touches, ht, hpos]

theorem next?_ne_and_of_startsItem {ls : List Lexeme} (h : startsItem ls = true) :
    next? ls ≠ some .and := by
  cases ls with
  | nil => simp [next?]
  | cons l ls =>
    intro heq
    simp only [next?_cons, Option.some.injEq] at heq
    simp [startsItem, heq, Token.startsItem, Token.startsOperand] at h

/-- Nothing that goes on a sequence comes next. -/
structure Ends (rest : List Lexeme) : Prop where
  noAnd : next? rest ≠ some .and
  noItem : startsItem rest = false

mutual

/-- What derives is read, if no more may be open than the budget allows. The recursion is on the
derivation, and each reader stops at what comes behind as that does not go on the derivation. -/
theorem Primary.gives (p : Primary) {budget : Nat} {taken rest : List Lexeme}
    (ho : p.ExcludesOnce) (hn : p.nesting ≤ budget) (ht : taken.map Lexeme.token = p.tokens)
    (hb : WellBound (taken ++ rest)) :
    (Grammar.operand budget (taken ++ rest)).Gives p.tree rest := by
  match p with
  | .word text =>
    obtain ⟨⟨_, position⟩, ls, rfl, rfl, hls⟩ := List.map_eq_cons_iff.1 ht
    cases List.map_eq_nil_iff.1 hls
    exact operand_word_gives_iff.2 ⟨rfl, rfl⟩
  | .phrase text =>
    obtain ⟨⟨_, position⟩, ls, rfl, rfl, hls⟩ := List.map_eq_cons_iff.1 ht
    cases List.map_eq_nil_iff.1 hls
    have hs := (wellBound_cons_iff.1 hb).2.1
    exact operand_phrase_gives_iff.2 ⟨Text.exists_not_isBlank_iff.1 hs, rfl, rfl⟩
  | .scoped name inner =>
    obtain ⟨⟨_, position⟩, ls, rfl, rfl, hls⟩ := List.map_eq_cons_iff.1 ht
    obtain ⟨b, rfl⟩ := Nat.exists_eq_add_of_le' (Nat.le_trans (Nat.le_add_left 1 _) hn)
    have htouch := touches_of_wellBound hb rfl hls
    exact operand_field_gives_iff.2 ⟨htouch, b, inner.tree, rfl,
      inner.gives ho (Nat.le_of_succ_le_succ hn) hls (wellBound_cons_iff.1 hb).2.2, rfl⟩
  | .group inner =>
    obtain ⟨⟨_, position⟩, ls, rfl, rfl, hls⟩ := List.map_eq_cons_iff.1 ht
    obtain ⟨ls, close, rfl, hinner, hclose⟩ := List.map_eq_append_iff.1 hls
    obtain ⟨⟨_, close⟩, cs, rfl, rfl, hcs⟩ := List.map_eq_cons_iff.1 hclose
    cases List.map_eq_nil_iff.1 hcs
    obtain ⟨b, rfl⟩ := Nat.exists_eq_add_of_le' (Nat.le_trans (Nat.le_add_left 1 _) hn)
    rw [List.cons_append, List.append_assoc] at hb ⊢
    have hj := inner.joined ho (Nat.le_of_succ_le_succ hn) hinner (wellBound_cons_iff.1 hb).2.2
      ⟨by simp, rfl⟩ (by simp)
    exact operand_openGroup_gives_iff.2 ⟨b, close, rfl,
      disjunction_gives_iff.2 ⟨inner.trees, hj, rfl⟩⟩

theorem Prefixed.gives (p : Prefixed) {budget : Nat} {taken rest : List Lexeme}
    (ho : p.ExcludesOnce) (hn : p.nesting ≤ budget) (ht : taken.map Lexeme.token = p.tokens)
    (hb : WellBound (taken ++ rest)) :
    (prefixed (Grammar.operand budget) (taken ++ rest)).Gives p.operand rest := by
  match p with
  | .plain inner =>
    obtain ⟨t, ts, heq, hstarts⟩ := inner.tokens_head
    obtain ⟨l, ls, rfl, rfl, -⟩ := List.map_eq_cons_iff.1 (ht.trans heq)
    have hex : l.token ≠ .exclude := by
      intro h
      simp [h, Token.startsOperand] at hstarts
    have hreq : l.token ≠ .require := by
      intro h
      simp [h, Token.startsOperand] at hstarts
    exact (prefixed_plain_gives_iff (by simpa using hex) (by simpa using hreq)).2
      ⟨inner.tree, inner.gives ho hn ht hb, rfl⟩
  | .excluded inner =>
    obtain ⟨⟨_, position⟩, ls, rfl, rfl, hls⟩ := List.map_eq_cons_iff.1 ht
    have htouch := touches_of_wellBound hb rfl hls
    exact prefixed_exclude_gives_iff.2 ⟨htouch, inner.tree,
      inner.gives ho.1 hn hls (wellBound_cons_iff.1 hb).2.2, ho.2, rfl⟩
  | .required inner =>
    obtain ⟨⟨_, position⟩, ls, rfl, rfl, hls⟩ := List.map_eq_cons_iff.1 ht
    have htouch := touches_of_wellBound hb rfl hls
    exact prefixed_require_gives_iff.2 ⟨htouch, inner.tree,
      inner.gives ho hn hls (wellBound_cons_iff.1 hb).2.2, rfl⟩

theorem Chain.joined (c : Chain) {budget : Nat} {taken rest : List Lexeme}
    (ho : c.ExcludesOnce) (hn : c.nesting ≤ budget) (ht : taken.map Lexeme.token = c.tokens)
    (hb : WellBound (taken ++ rest)) (hrest : next? rest ≠ some .and) :
    Joined .and (prefixed (Grammar.operand budget)) (taken ++ rest) c.parts rest := by
  match c with
  | .one p => exact .last (p.gives ho hn ht hb) hrest
  | .more p c =>
    obtain ⟨taken, more, rfl, hp, hmore⟩ := List.map_eq_append_iff.1 ht
    obtain ⟨⟨_, position⟩, more, rfl, rfl, hc⟩ := List.map_eq_cons_iff.1 hmore
    rw [List.append_assoc] at hb ⊢
    exact .cons (p.gives ho.1 (le_trans (le_max_left _ _) hn) hp hb) rfl
      (startsItem_of_tokens_head c.tokens_head hc)
      (c.joined ho.2 (le_trans (le_max_right _ _) hn) hc
        (wellBound_cons_iff.1 hb.of_append).2.2 hrest)

theorem Sequence.adjacent (s : Sequence) {budget : Nat} {taken rest : List Lexeme}
    (ho : s.ExcludesOnce) (hn : s.nesting ≤ budget) (ht : taken.map Lexeme.token = s.tokens)
    (hb : WellBound (taken ++ rest)) (hrest : Ends rest) :
    Adjacent (conjunction (Grammar.operand budget)) (taken ++ rest) s.operands rest := by
  match s with
  | .one c =>
    exact .last (conjunction_gives_iff.2 ⟨c.parts, c.joined ho hn ht hb hrest.noAnd,
      c.chained_parts⟩) hrest.noItem
  | .more c s =>
    obtain ⟨taken, more, rfl, hc, hs⟩ := List.map_eq_append_iff.1 ht
    rw [List.append_assoc] at hb ⊢
    have hmore : startsItem (more ++ rest) = true := startsItem_of_tokens_head s.tokens_head hs
    exact .cons (conjunction_gives_iff.2 ⟨c.parts, c.joined ho.1 (le_trans (le_max_left _ _) hn)
      hc hb (next?_ne_and_of_startsItem hmore), c.chained_parts⟩) hmore
      (s.adjacent ho.2 (le_trans (le_max_right _ _) hn) hs hb.of_append hrest)

theorem Choice.joined (c : Choice) {budget : Nat} {taken rest : List Lexeme}
    (ho : c.ExcludesOnce) (hn : c.nesting ≤ budget) (ht : taken.map Lexeme.token = c.tokens)
    (hb : WellBound (taken ++ rest)) (hrest : Ends rest) (hor : next? rest ≠ some .or) :
    Joined .or (sequence (Grammar.operand budget)) (taken ++ rest) c.trees rest := by
  match c with
  | .one s =>
    exact .last (sequence_gives_iff.2 ⟨startsItem_of_tokens_head s.tokens_head ht,
      s.operands, s.adjacent ho hn ht hb hrest, by rw [conditions_eq_conjuncts]⟩) hor
  | .more s c =>
    obtain ⟨taken, more, rfl, hs, hmore⟩ := List.map_eq_append_iff.1 ht
    obtain ⟨⟨_, position⟩, more, rfl, rfl, hc⟩ := List.map_eq_cons_iff.1 hmore
    rw [List.append_assoc] at hb ⊢
    exact .cons (sequence_gives_iff.2 ⟨startsItem_of_tokens_head s.tokens_head hs,
        s.operands, s.adjacent ho.1 (le_trans (le_max_left _ _) hn) hs hb ⟨by simp, rfl⟩,
        by rw [conditions_eq_conjuncts]⟩) rfl
      (startsItem_of_tokens_head c.tokens_head hc)
      (c.joined ho.2 (le_trans (le_max_right _ _) hn) hc
        (wellBound_cons_iff.1 hb.of_append).2.2 hrest hor)

end

mutual

/-- The end of the query is in no derivation. -/
theorem Primary.finish_not_mem : ∀ p : Primary, Token.finish ∉ p.tokens
  | .word _ | .phrase _ => by simp
  | .scoped _ inner => by simp [inner.finish_not_mem]
  | .group inner => by simp [inner.finish_not_mem]

theorem Prefixed.finish_not_mem : ∀ p : Prefixed, Token.finish ∉ p.tokens
  | .plain p | .excluded p | .required p => by simp [p.finish_not_mem]

theorem Chain.finish_not_mem : ∀ c : Chain, Token.finish ∉ c.tokens
  | .one p => p.finish_not_mem
  | .more p c => by simp [p.finish_not_mem, c.finish_not_mem]

theorem Sequence.finish_not_mem : ∀ s : Sequence, Token.finish ∉ s.tokens
  | .one c => c.finish_not_mem
  | .more c s => by simp [c.finish_not_mem, s.finish_not_mem]

theorem Choice.finish_not_mem : ∀ c : Choice, Token.finish ∉ c.tokens
  | .one s => s.finish_not_mem
  | .more s c => by simp [s.finish_not_mem, c.finish_not_mem]

end

end TextQuery.Derivation

namespace TextQuery
open Grammar TextQuery.Derivation

/-- A session gives the query of a choice that only the end comes behind. -/
theorem Session.read_eq_ok_iff {s : Session} {q : Query} :
    s.read.1 = .ok q ↔ atEnd s.remaining = false ∧
      ∃ rest, (disjunction (Grammar.operand s.budget) s.remaining).Gives q rest ∧
        atEnd rest = true := by
  unfold read
  cases hend : atEnd s.remaining with
  | true => simp
  | false =>
    cases hd : disjunction (Grammar.operand s.budget) s.remaining with
    | failed fault rest leftOpen => simp
    | done q' rest shorter =>
      by_cases hrest : atEnd rest = true
      · simp only [hrest, if_true, Except.ok.injEq, Bool.false_eq_true, if_false, true_and]
        constructor
        · rintro rfl
          exact ⟨rest, gives_done.2 ⟨rfl, rfl⟩, hrest⟩
        · rintro ⟨_, h, -⟩
          exact (gives_done.1 h).1.symm
      · simp [hrest]

/-- What is left at the end of a query, once everything else has been taken, is its end. -/
theorem EndsOnce.eq_singleton {taken rest : List Lexeme} (h : EndsOnce (taken ++ rest))
    (htaken : Token.finish ∉ taken.map Lexeme.token) (hrest : atEnd rest = true) :
    ∃ position, rest = [⟨.finish, position⟩] := by
  obtain ⟨before, position, heq, hbefore⟩ := h
  refine ⟨position, ?_⟩
  induction before generalizing taken with
  | nil =>
    cases taken with
    | nil => exact heq
    | cons l taken =>
      simp only [List.cons_append, List.nil_append, List.cons.injEq] at heq
      simp [heq.1] at htaken
  | cons b before ih =>
    obtain ⟨hb, hbefore⟩ := List.forall_mem_cons.1 hbefore
    cases taken with
    | nil =>
      rw [List.nil_append] at heq
      simp [heq, atEnd, hb] at hrest
    | cons l taken =>
      simp only [List.cons_append, List.cons.injEq] at heq
      exact ih (fun hm => htaken (List.mem_cons_of_mem _ hm)) heq.2 hbefore

/-- A session whose lexemes end once reads just the queries that derive from them. -/
theorem Session.read_eq_ok_iff_derives {s : Session} (he : EndsOnce s.remaining)
    (hb : s.budget = maxNesting) {q : Query} :
    s.read.1 = .ok q ↔ ∃ c : Choice, c.Derives s.remaining ∧ c.tree = q := by
  rw [read_eq_ok_iff]
  constructor
  · rintro ⟨-, rest, hd, hrest⟩
    obtain ⟨c, ⟨⟨taken, htaken, hmap⟩, hbound⟩, ho, hn, rfl⟩ :=
      Choice.of_gives (sound_operand s.budget) hd
    rw [← htaken] at he
    obtain ⟨position, rfl⟩ := he.eq_singleton (hmap ▸ c.finish_not_mem) hrest
    exact ⟨c, ⟨by rw [← htaken, List.map_append, hmap]; rfl, hbound (wellBound_finish position), ho,
      hb ▸ hn⟩, rfl⟩
  · rintro ⟨c, hc, rfl⟩
    obtain ⟨taken, last, htaken, hmap, hlast⟩ := List.map_eq_append_iff.1 hc.tokens
    obtain ⟨⟨_, position⟩, ls, rfl, rfl, hls⟩ := List.map_eq_cons_iff.1 hlast
    cases List.map_eq_nil_iff.1 hls
    have hn : c.nesting ≤ s.budget := hb ▸ hc.nesting
    have hj := c.joined hc.excludesOnce hn hmap (htaken ▸ hc.wellBound) ⟨by simp, rfl⟩ (by simp)
    rw [htaken]
    exact ⟨startsItem_not_atEnd (startsItem_of_tokens_head c.tokens_head hmap),
      [⟨.finish, position⟩], disjunction_gives_iff.2 ⟨c.trees, hj, rfl⟩, rfl⟩

theorem Session.start_eq_ok_iff {text : String} {s : Session} :
    Session.start text = .ok s ↔
      tokenize text = .ok s.remaining ∧ s.text = text ∧ s.budget = maxNesting := by
  unfold start
  cases tokenize text with
  | error e => simp [Except.map]
  | ok lexemes =>
    obtain ⟨text', remaining, budget⟩ := s
    simp [Except.map, eq_comm, and_left_comm]

theorem compile_eq_ok_iff {text : String} {q : Query} :
    compile text = .ok q ↔ ∃ s, Session.start text = .ok s ∧ s.read.1 = .ok q := by
  unfold compile
  cases Session.start text with
  | error e => simp
  | ok s => cases h : s.read.1 <;> simp [h, Except.mapError]

/-- A text compiles to the queries that derive from its lexemes, and to nothing else. -/
theorem compile_eq_ok_iff_derives {text : String} {q : Query} :
    compile text = .ok q ↔ ∃ lexemes, tokenize text = .ok lexemes ∧
      ∃ c : Choice, c.Derives lexemes ∧ c.tree = q := by
  rw [compile_eq_ok_iff]
  constructor
  · rintro ⟨s, hs, hq⟩
    obtain ⟨ht, -, hb⟩ := Session.start_eq_ok_iff.1 hs
    have he := Scanner.endsOnce_tokens (tokenize_eq_ok_iff.1 ht)
    exact ⟨s.remaining, ht, (Session.read_eq_ok_iff_derives he hb).1 hq⟩
  · rintro ⟨lexemes, ht, hc⟩
    have he := Scanner.endsOnce_tokens (tokenize_eq_ok_iff.1 ht)
    exact ⟨⟨text, lexemes, maxNesting⟩, Session.start_eq_ok_iff.2 ⟨ht, rfl, rfl⟩,
      (Session.read_eq_ok_iff_derives he rfl).2 hc⟩

/-- From a text that can be split into tokens, a new session reads a query exactly when the tokens
derive from the grammar, and then it is the query that the derivation stands for. -/
theorem start_reads_derived {text : String} {lexemes : List Lexeme}
    (h : tokenize text = .ok lexemes) :
    ∃ s, Session.start text = .ok s ∧
      ∀ q, s.read.1 = .ok q ↔ ∃ c : Choice, c.Derives lexemes ∧ c.tree = q := by
  have he := Scanner.endsOnce_tokens (tokenize_eq_ok_iff.1 h)
  exact ⟨⟨text, lexemes, maxNesting⟩, Session.start_eq_ok_iff.2 ⟨h, rfl, rfl⟩,
    fun _ => Session.read_eq_ok_iff_derives he rfl⟩

theorem start_reads_derived_mixed :
    tokenize "-a t:(b +c) d" = .ok [⟨.exclude, 0⟩, ⟨.word "a", 1⟩, ⟨.field "t", 3⟩, ⟨.openGroup, 5⟩,
      ⟨.word "b", 6⟩, ⟨.require, 8⟩, ⟨.word "c", 9⟩, ⟨.closeGroup, 10⟩, ⟨.word "d", 12⟩,
      ⟨.finish, 13⟩] ∧
    ∃ s, Session.start "-a t:(b +c) d" = .ok s ∧
      s.read.1 = .ok (.all [.exclude (.term "a"),
        .any [.within "t" (.all [.term "b", .term "c"]), .term "d"]]) ∧
      ∃ c : Choice, c.Derives [⟨.exclude, 0⟩, ⟨.word "a", 1⟩, ⟨.field "t", 3⟩, ⟨.openGroup, 5⟩,
        ⟨.word "b", 6⟩, ⟨.require, 8⟩, ⟨.word "c", 9⟩, ⟨.closeGroup, 10⟩, ⟨.word "d", 12⟩,
        ⟨.finish, 13⟩] ∧
      c.tree = .all [.exclude (.term "a"),
        .any [.within "t" (.all [.term "b", .term "c"]), .term "d"]] := by
  have ht : tokenize "-a t:(b +c) d" = .ok [⟨.exclude, 0⟩, ⟨.word "a", 1⟩, ⟨.field "t", 3⟩,
      ⟨.openGroup, 5⟩, ⟨.word "b", 6⟩, ⟨.require, 8⟩, ⟨.word "c", 9⟩, ⟨.closeGroup, 10⟩,
      ⟨.word "d", 12⟩, ⟨.finish, 13⟩] := by decide +kernel
  let c : Choice := .one (.more (.one (.excluded (.word "a"))) (.more
    (.one (.plain (.scoped "t" (.group (.one (.more (.one (.plain (.word "b")))
      (.one (.one (.required (.word "c"))))))))))
    (.one (.one (.plain (.word "d"))))))
  have hc : c.Derives [⟨.exclude, 0⟩, ⟨.word "a", 1⟩, ⟨.field "t", 3⟩, ⟨.openGroup, 5⟩,
      ⟨.word "b", 6⟩, ⟨.require, 8⟩, ⟨.word "c", 9⟩, ⟨.closeGroup, 10⟩, ⟨.word "d", 12⟩,
      ⟨.finish, 13⟩] := by
    refine ⟨rfl, ⟨?_, by simp [Token.Spoken]⟩, ⟨⟨trivial, rfl⟩, ⟨trivial, trivial⟩, trivial⟩,
      by decide⟩
    simp [Lexeme.Binds, Token.prefixWidth?, Token.startsOperand]
    rfl
  obtain ⟨s, hs, hread⟩ := start_reads_derived ht
  exact ⟨ht, s, hs, (hread _).2 ⟨c, hc, rfl⟩, c, hc, rfl⟩

end TextQuery
