import TextQuery.Proofs.Acceptance

/-!
# From a query to its text and back

Every well-formed query has a text in the language of queries itself, with each compound operand
in parentheses, and compiling this text gives the query again. The text is shown to spell the
tokens of a derivation whose query it is; that a derivation is found is known from elsewhere.
-/
namespace TextQuery
namespace Query

/-- Whether the query must stand in parentheses to be an operand. -/
def isCompound : Query → Bool
  | exclude _ | all _ | any _ => true
  | _ => false

/-- The text of an operand, given the text of the query alone. -/
def inParentheses (q : Query) (text : List Char) : List Char :=
  if q.isCompound then '(' :: text ++ [')'] else text

/-- The openings in the text of an operand, given those in the text of the query alone. -/
def addOpening (q : Query) (openings : Nat) : Nat :=
  if q.isCompound then openings + 1 else openings

mutual

def parenthesisedChars : Query → List Char
  | term word => word.toList
  | phrase ws => renderPhrase ws
  | within field inner => field.toList ++ ':' :: inner.inParentheses (parenthesisedChars inner)
  | exclude inner => '-' :: inner.inParentheses (parenthesisedChars inner)
  | all qs => List.intercalate " AND ".toList (parenthesisedList qs)
  | any qs => List.intercalate " OR ".toList (parenthesisedList qs)

def parenthesisedList : List Query → List (List Char)
  | [] => []
  | q :: qs => q.inParentheses (parenthesisedChars q) :: parenthesisedList qs

end

/-- The query as a text that can be compiled. -/
def parenthesised (q : Query) : String :=
  String.ofList (parenthesisedChars q)

mutual

/-- The most groups and field scopes of the parenthesised text that are open at once. -/
def openings : Query → Nat
  | term _ | phrase _ => 0
  | within _ inner => inner.addOpening inner.openings + 1
  | exclude inner => inner.addOpening inner.openings
  | all qs | any qs => openingsList qs

def openingsList : List Query → Nat
  | [] => 0
  | q :: qs => max (q.addOpening q.openings) (openingsList qs)

end

/-- The words of a phrase with one blank between them. -/
def unquoted (words : List String) : List Char :=
  List.intercalate [' '] (words.map String.toList)

/-- Escaping leaves the blanks between the words alone. -/
theorem renderPhrase_eq (words : List String) :
    renderPhrase words = '"' :: escapeInPhrase (unquoted words) ++ ['"'] := by
  suffices h : List.intercalate [' '] (words.map fun w => escapeInPhrase w.toList) =
      escapeInPhrase (unquoted words) by
    rw [renderPhrase, h]
  unfold unquoted
  induction words with
  | nil => rfl
  | cons w words ih =>
    cases words with
    | nil => simp
    | cons v words =>
      simp only [List.map_cons, List.intercalate_cons_cons] at ih ⊢
      rw [ih]
      simp [escapeInPhrase]

/-- The words of a phrase can be told apart by the blanks between them. -/
theorem blankSeparated_unquoted {words : List String} (hne : ∀ w ∈ words, w.toList ≠ [])
    (hblank : ∀ w ∈ words, ∀ c ∈ w.toList, Text.isBlank c = false) :
    Text.blankSeparated (unquoted words) = words.map String.toList :=
  Text.pieces_intercalate (by decide) (by simpa using hne) (by simpa using hblank)

end Query

open Grammar TextQuery.Derivation

/-- Wherever the text stands, if what follows could not be part of a word, it is read as lexemes
of these tokens. -/
def Spells (text : List Char) (tokens : List Token) : Prop :=
  ∀ ⦃position : Nat⦄ ⦃rest : List Char⦄ ⦃more : List Lexeme⦄, Scanner.Closes rest →
    (Scanner.mk (position + text.length) rest).tokens = .ok more →
    ∃ lexemes, (Scanner.mk position (text ++ rest)).tokens = .ok lexemes ∧
      Spans tokens lexemes more

/-- Wherever the text stands, it is read as this token, whatever follows. -/
def ReadsAs (text : List Char) (token : Token) (start : Nat) : Prop :=
  ∀ position rest, (Scanner.mk position (text ++ rest)).tokens =
    (Scanner.mk (position + text.length) rest).tokens.map (⟨token, position + start⟩ :: ·)

namespace ReadsAs

theorem openGroup : ReadsAs ['('] .openGroup 0 :=
  fun position _ => Scanner.tokens_mark position rfl

theorem closeGroup : ReadsAs [')'] .closeGroup 0 :=
  fun position _ => Scanner.tokens_mark position rfl

theorem exclude : ReadsAs ['-'] .exclude 0 :=
  fun position _ => Scanner.tokens_mark position rfl

theorem and : ReadsAs " AND ".toList .and 1 := by
  intro position rest
  have hkeyword : bareToken ['A', 'N', 'D'] = .and := rfl
  have hword : ∀ c ∈ ['N', 'D'], continuesWord c = true := List.all_eq_true.1 (by decide)
  rw [← hkeyword]
  exact @Scanner.tokens_bare_between position 'A' _ rest (by decide) rfl hword

theorem or : ReadsAs " OR ".toList .or 1 := by
  intro position rest
  have hkeyword : bareToken ['O', 'R'] = .or := rfl
  have hword : ∀ c ∈ ['R'], continuesWord c = true := List.all_eq_true.1 (by decide)
  rw [← hkeyword]
  exact @Scanner.tokens_bare_between position 'O' _ rest (by decide) rfl hword

theorem field {name : String} (h : IsName name) :
    ReadsAs (name.toList ++ [':']) (.field name) 0 := by
  intro position rest
  obtain ⟨c, cs, hname, hc, hmark, hcs⟩ := h.exists_cons
  have htokens := @Scanner.tokens_field position _ _ rest hc hmark hcs
  rw [← hname, String.ofList_toList] at htokens
  simpa [Nat.add_assoc] using htokens

theorem phrase {words : List String}
    (h : ∀ w ∈ words, ∀ c ∈ w.toList, Text.isControl c = true → Text.isBlank c = true) :
    ReadsAs (Query.renderPhrase words) (.phrase (String.ofList (Query.unquoted words))) 0 := by
  intro position rest
  have htext : ∀ c ∈ Query.unquoted words, Text.isControl c = true → Text.isBlank c = true :=
    Text.forall_mem_intercalate (by decide) (by simpa using h)
  have htokens := @Scanner.tokens_phrase position _ rest htext
  rw [Query.renderPhrase_eq]
  simpa [Nat.add_assoc] using htokens

end ReadsAs

namespace Spells

variable {s t : List Char} {ts us : List Token} {token : Token} {start : Nat}

theorem of_readsAs (hs : ReadsAs s token start) (hw : token.prefixWidth? = none)
    (hspoken : token.Spoken) : Spells s [token] := by
  intro position rest more hrest hmore
  have htokens := hs position rest
  rw [hmore] at htokens
  exact ⟨_, htokens, Spans.nil.cons_free (l := ⟨token, position + start⟩) hw hspoken⟩

theorem word {word : String} (h : IsTerm word) : Spells word.toList [.word word] := by
  intro position rest more hrest hmore
  obtain ⟨c, cs, hword, hc, hmark, hcs⟩ := h.toIsName.exists_cons
  have htokens := Scanner.tokens_bare position hc hmark hcs hrest
  rw [← hword, h.bareToken_eq, hmore] at htokens
  exact ⟨_, htokens, Spans.nil.cons_free (l := ⟨.word word, position⟩) rfl trivial⟩

/-- The first text ends where the second begins. -/
theorem append (hs : Spells s ts) (ht : Spells t us)
    (hcloses : ∀ rest, Scanner.Closes (t ++ rest)) : Spells (s ++ t) (ts ++ us) := by
  intro position rest more hrest hmore
  rw [List.length_append, ← Nat.add_assoc] at hmore
  obtain ⟨mid, hmid, hspans⟩ := ht hrest hmore
  obtain ⟨lexemes, hlexemes, hspans'⟩ := hs (hcloses rest) hmid
  exact ⟨lexemes, by rw [List.append_assoc, hlexemes], hspans'.append hspans⟩

theorem cons_free (hs : ReadsAs s token start) (hw : token.prefixWidth? = none)
    (hspoken : token.Spoken) (ht : Spells t us) : Spells (s ++ t) (token :: us) := by
  intro position rest more hrest hmore
  rw [List.length_append, ← Nat.add_assoc] at hmore
  obtain ⟨mid, hmid, hspans⟩ := ht hrest hmore
  have htokens := hs position (t ++ rest)
  rw [hmid] at htokens
  exact ⟨_, by rw [List.append_assoc, htokens]; rfl,
    hspans.cons_free (l := ⟨token, position + start⟩) hw hspoken⟩

/-- Where no white space stands, an operand starts at once. -/
theorem touches_of_tokens {p : Primary} {position : Nat} {c : Char} {cs : List Char}
    {lexemes more : List Lexeme} (hc : Text.isBlank c = false)
    (htokens : (Scanner.mk position (c :: cs)).tokens = .ok lexemes)
    (hspans : Spans p.tokens lexemes more) : touches position lexemes = true := by
  have hposition := Scanner.position_of_tokens hc htokens
  obtain ⟨t, ts, hhead, hstart⟩ := p.tokens_head
  obtain ⟨taken, rfl, htaken⟩ := hspans.taken
  obtain ⟨l, ls, rfl, hl, -⟩ := List.map_eq_cons_iff.1 (htaken.trans hhead)
  have hl' : l.position = position := hposition l rfl
  simp [touches, hl, hl', hstart]

/-- A prefix that is followed by an operand at once. -/
theorem cons_prefix {p : Primary} (hs : ReadsAs s token 0)
    (hw : token.prefixWidth? = some s.length) (hspoken : token.Spoken) (ht : Spells t p.tokens)
    (hstarts : ∃ c cs, t = c :: cs ∧ Text.isBlank c = false) :
    Spells (s ++ t) (token :: p.tokens) := by
  intro position rest more hrest hmore
  rw [List.length_append, ← Nat.add_assoc] at hmore
  obtain ⟨mid, hmid, hspans⟩ := ht hrest hmore
  obtain ⟨c, cs, rfl, hc⟩ := hstarts
  have htouches := touches_of_tokens hc hmid hspans
  have hread := hs position (c :: cs ++ rest)
  rw [hmid] at hread
  exact ⟨_, by rw [List.append_assoc, hread]; rfl,
    hspans.cons_prefix (l := ⟨token, position⟩) hw hspoken htouches⟩

end Spells

namespace Derivation

/-- The text spells an operand that stands for the query and opens at most `n` groups and field
scopes at once. -/
structure Primary.Writes (p : Primary) (q : Query) (text : List Char) (n : Nat) : Prop where
  tree : p.tree = q
  excludesOnce : p.ExcludesOnce
  nesting : p.nesting ≤ n
  spells : Spells text p.tokens
  starts : ∃ c cs, text = c :: cs ∧ Text.isBlank c = false

structure Choice.Writes (c : Choice) (q : Query) (text : List Char) (n : Nat) : Prop where
  tree : c.tree = q
  excludesOnce : c.ExcludesOnce
  nesting : c.nesting ≤ n
  spells : Spells text c.tokens

variable {q : Query} {text : List Char} {n : Nat}

theorem conjuncts_singleton (o : Operand) : conjuncts [o] = [o.query] := by
  cases ho : o.restricts <;> simp [conjuncts, conjunctAt?, ho, Query.collapse]

theorem Chain.query_operand (c : Chain) : c.operand.query = .collapse .all c.trees := by
  cases c with
  | one operand => rfl
  | more operand rest => cases rest <;> rfl

theorem Choice.trees_one (c : Chain) :
    (Choice.one (.one c)).trees = [.collapse .all c.trees] := by
  simp [conjuncts_singleton, Chain.query_operand, Query.collapse]

/-- Two or more queries are not collapsed. -/
theorem collapse_of_two_le {combine : List Query → Query} {qs : List Query} (h : 2 ≤ qs.length) :
    Query.collapse combine qs = combine qs := by
  match qs with
  | [] => rfl
  | [_] => simp at h
  | _ :: _ :: _ => rfl

namespace Primary.Writes

variable {p : Primary}

theorem word {w : String} (h : IsTerm w) : (Primary.word w).Writes (.term w) w.toList 0 := by
  obtain ⟨c, cs, hw, hc, -⟩ := h.toIsName.exists_cons
  exact ⟨rfl, trivial, le_rfl, .word h, c, cs, hw, Scanner.isBlank_of_isQueryChar hc⟩

theorem phrase {words : List String} (hne : words ≠ []) (hwords : ∀ w ∈ words, w.toList ≠ [])
    (hblank : ∀ w ∈ words, ∀ c ∈ w.toList, Text.isBlank c = false)
    (hcontrol : ∀ w ∈ words, ∀ c ∈ w.toList, Text.isControl c = false) :
    (Primary.phrase (String.ofList (Query.unquoted words))).Writes (.phrase words)
      (Query.renderPhrase words) 0 := by
  have hpieces := Query.blankSeparated_unquoted hwords hblank
  have hspoken : ∃ c ∈ (String.ofList (Query.unquoted words)).toList, Text.isBlank c = false := by
    rw [String.toList_ofList, Text.exists_not_isBlank_iff, hpieces]
    simpa using hne
  have hread : ReadsAs (Query.renderPhrase words) _ 0 :=
    .phrase fun w hw c hc h => absurd h (by simp [hcontrol w hw c hc])
  refine ⟨?_, trivial, le_rfl, .of_readsAs hread rfl hspoken, '"', _, rfl, by decide⟩
  rw [Primary.tree, String.toList_ofList, hpieces]
  simp

theorem mono {m : Nat} (h : p.Writes q text n) (hm : n ≤ m) : p.Writes q text m :=
  ⟨h.tree, h.excludesOnce, le_trans h.nesting hm, h.spells, h.starts⟩

theorem field {name : String} (hname : IsName name) (h : p.Writes q text n) :
    (Primary.scoped name p).Writes (.within name q) (name.toList ++ ':' :: text) (n + 1) := by
  obtain ⟨c, cs, heq, hc, -⟩ := hname.exists_cons
  have hwidth : (Token.field name).prefixWidth? = some (name.toList ++ [':']).length := by
    rw [List.length_append, String.length_toList]
    rfl
  have hspells := Spells.cons_prefix (.field hname) hwidth trivial h.spells h.starts
  rw [List.append_assoc] at hspells
  exact ⟨by rw [Primary.tree, h.tree], h.excludesOnce, Nat.succ_le_succ h.nesting, hspells,
    c, cs ++ ':' :: text, by rw [heq]; rfl, Scanner.isBlank_of_isQueryChar hc⟩

theorem alone (h : p.Writes q text n) :
    (Choice.one (.one (.one (.plain p)))).Writes q text n :=
  ⟨by rw [Choice.tree, Choice.trees_one]; exact h.tree, h.excludesOnce, h.nesting, h.spells⟩

theorem excluded (hq : q.isExclusion = false) (h : p.Writes q text n) :
    (Choice.one (.one (.one (.excluded p)))).Writes (.exclude q) ('-' :: text) n := by
  have hspells := Spells.cons_prefix .exclude rfl trivial h.spells h.starts
  refine ⟨?_, ⟨h.excludesOnce, h.tree ▸ hq⟩, h.nesting, hspells⟩
  rw [Choice.tree, Choice.trees_one]
  exact congrArg Query.exclude h.tree

end Primary.Writes

theorem Choice.Writes.group {c : Choice} (h : c.Writes q text n) :
    (Primary.group c).Writes q ('(' :: text ++ [')']) (n + 1) := by
  have hcloses : ∀ rest, Scanner.Closes ([')'] ++ rest) := by
    rintro rest d ⟨⟩
    decide
  have hclose : Spells [')'] [.closeGroup] := .of_readsAs .closeGroup rfl trivial
  have hspells := Spells.cons_free .openGroup rfl trivial (h.spells.append hclose hcloses)
  exact ⟨h.tree, h.excludesOnce, Nat.succ_le_succ h.nesting, hspells, '(', text ++ [')'], rfl,
    by decide⟩

/-- The query in parentheses if it needs them, from the query without. -/
theorem exists_writes_inParentheses {c : Choice} (hc : c.Writes q text n)
    (hp : q.isCompound = false → ∃ p : Primary, p.Writes q text n) :
    ∃ p : Primary, p.Writes q (q.inParentheses text) (q.addOpening n) := by
  unfold Query.inParentheses Query.addOpening
  cases hq : q.isCompound with
  | true => exact ⟨_, hc.group⟩
  | false => exact hp hq

theorem closes_keyword {keyword rest : List Char} : Scanner.Closes (' ' :: keyword ++ rest) := by
  rintro d ⟨⟩
  decide

section
variable {α : Type} (query : α → Query) {write : α → List Char} {xs : List α}

theorem exists_chain (hne : xs ≠ [])
    (h : ∀ x ∈ xs, ∃ p : Primary, p.Writes (query x) (write x) n) :
    ∃ c : Chain, c.trees = xs.map query ∧ c.ExcludesOnce ∧ c.nesting ≤ n ∧
      Spells (List.intercalate " AND ".toList (xs.map write)) c.tokens := by
  induction xs with
  | nil => contradiction
  | cons x xs ih =>
    obtain ⟨⟨p, hp⟩, h⟩ := List.forall_mem_cons.1 h
    cases xs with
    | nil =>
      refine ⟨.one (.plain p), congrArg ([·]) hp.tree, hp.excludesOnce, hp.nesting, ?_⟩
      rw [List.map_singleton, List.intercalate_singleton]
      exact hp.spells
    | cons y xs =>
      obtain ⟨c, htrees, ho, hn, hspells⟩ := ih (by simp) h
      refine ⟨.more (.plain p) c, ?_, ⟨hp.excludesOnce, ho⟩, max_le hp.nesting hn, ?_⟩
      · rw [Chain.trees, htrees]
        exact congrArg (· :: (y :: xs).map query) hp.tree
      · rw [List.map_cons, List.map_cons, List.intercalate_cons_cons, List.append_assoc]
        exact hp.spells.append (.cons_free .and rfl trivial hspells) fun _ => closes_keyword

theorem exists_choice (hne : xs ≠ [])
    (h : ∀ x ∈ xs, ∃ p : Primary, p.Writes (query x) (write x) n) :
    ∃ c : Choice, c.trees = xs.map query ∧ c.ExcludesOnce ∧ c.nesting ≤ n ∧
      Spells (List.intercalate " OR ".toList (xs.map write)) c.tokens := by
  induction xs with
  | nil => contradiction
  | cons x xs ih =>
    obtain ⟨⟨p, hp⟩, h⟩ := List.forall_mem_cons.1 h
    have hone : (Choice.one (.one (.one (.plain p)))).trees = [query x] := by
      rw [Choice.trees_one]
      exact congrArg ([·]) hp.tree
    cases xs with
    | nil =>
      refine ⟨.one (.one (.one (.plain p))), hone, hp.excludesOnce, hp.nesting, ?_⟩
      rw [List.map_singleton, List.intercalate_singleton]
      exact hp.spells
    | cons y xs =>
      obtain ⟨c, htrees, ho, hn, hspells⟩ := ih (by simp) h
      refine ⟨.more (.one (.one (.plain p))) c, ?_, ⟨hp.excludesOnce, ho⟩, max_le hp.nesting hn, ?_⟩
      · rw [Choice.trees, htrees]
        exact congrArg (· ++ (y :: xs).map query) hone
      · rw [List.map_cons, List.map_cons, List.intercalate_cons_cons, List.append_assoc]
        exact hp.spells.append (.cons_free .or rfl trivial hspells) fun _ => closes_keyword

/-- Operands with `AND` between them spell their conjunction. -/
theorem exists_writes_all (htwo : 2 ≤ xs.length)
    (h : ∀ x ∈ xs, ∃ p : Primary, p.Writes (query x) (write x) n) :
    ∃ c : Choice, c.Writes (.all (xs.map query))
      (List.intercalate " AND ".toList (xs.map write)) n := by
  have hne : xs ≠ [] := List.ne_nil_of_length_pos (Nat.lt_of_lt_of_le Nat.two_pos htwo)
  obtain ⟨c, htrees, ho, hn, hspells⟩ := exists_chain query hne h
  refine ⟨.one (.one c), ?_, ho, hn, hspells⟩
  rw [Choice.tree, Choice.trees_one, htrees]
  exact collapse_of_two_le (htwo.trans_eq (List.length_map query).symm)

/-- Operands with `OR` between them spell their disjunction. -/
theorem exists_writes_any (htwo : 2 ≤ xs.length)
    (h : ∀ x ∈ xs, ∃ p : Primary, p.Writes (query x) (write x) n) :
    ∃ c : Choice, c.Writes (.any (xs.map query))
      (List.intercalate " OR ".toList (xs.map write)) n := by
  have hne : xs ≠ [] := List.ne_nil_of_length_pos (Nat.lt_of_lt_of_le Nat.two_pos htwo)
  obtain ⟨c, htrees, ho, hn, hspells⟩ := exists_choice query hne h
  refine ⟨c, ?_, ho, hn, hspells⟩
  rw [Choice.tree, htrees]
  exact collapse_of_two_le (htwo.trans_eq (List.length_map query).symm)

end

end Derivation

namespace Query

theorem parenthesisedList_eq_map (qs : List Query) :
    parenthesisedList qs = qs.map fun q => q.inParentheses q.parenthesisedChars := by
  induction qs with
  | nil => rfl
  | cons q qs ih => rw [parenthesisedList, ih, List.map_cons]

/-- What all of some queries may open is enough for each of them as an operand. -/
theorem addOpening_le_openingsList {q : Query} {qs : List Query} (h : q ∈ qs) :
    q.addOpening q.openings ≤ openingsList qs := by
  induction qs with
  | nil => cases h
  | cons r qs ih =>
    rw [openingsList]
    cases h with
    | head => exact le_max_left _ _
    | tail _ h => exact le_trans (ih h) (le_max_right _ _)

/-- The text of a well-formed query spells a derivation of it, and so does the text as an operand
that needs no parentheses. -/
theorem exists_writes {q : Query} (h : q.Everywhere (Proper isVisible)) :
    (∃ c : Choice, c.Writes q q.parenthesisedChars q.openings) ∧
      (q.isCompound = false → ∃ p : Primary, p.Writes q q.parenthesisedChars q.openings) := by
  induction h with
  | @intro q node below ih =>
    have hoperand : ∀ child ∈ q.children, ∃ p : Primary,
        p.Writes child (child.inParentheses child.parenthesisedChars)
          (child.addOpening child.openings) := by
      intro child hchild
      obtain ⟨⟨c, hc⟩, hp⟩ := ih child hchild
      exact exists_writes_inParentheses hc hp
    have hmembers : ∀ qs ⊆ q.children, ∀ r ∈ qs, ∃ p : Primary,
        p.Writes r (r.inParentheses r.parenthesisedChars) (openingsList qs) :=
      fun qs hqs r hr =>
        (hoperand r (hqs hr)).imp fun _ hp => hp.mono (addOpening_le_openingsList hr)
    cases q with
    | term w =>
      have hw := Primary.Writes.word node
      exact ⟨⟨_, hw.alone⟩, fun _ => ⟨_, hw⟩⟩
    | phrase ws =>
      obtain ⟨hne, hwords⟩ := node
      have hchars : ∀ w ∈ ws, ∀ c ∈ w.toList, Text.isBlank c = false ∧ Text.isControl c = false :=
        fun w hw c hc => by simpa [isVisible] using (hwords w hw).2 c hc
      have hphrase := Primary.Writes.phrase hne (fun w hw => (hwords w hw).1)
        (fun w hw c hc => (hchars w hw c hc).1) (fun w hw c hc => (hchars w hw c hc).2)
      exact ⟨⟨_, hphrase.alone⟩, fun _ => ⟨_, hphrase⟩⟩
    | within f inner =>
      obtain ⟨p, hp⟩ := hoperand inner (by simp)
      have hfield := hp.field node
      exact ⟨⟨_, hfield.alone⟩, fun _ => ⟨_, hfield⟩⟩
    | exclude inner =>
      obtain ⟨p, hp⟩ := hoperand inner (by simp)
      exact ⟨⟨_, hp.excluded node⟩, by simp [isCompound]⟩
    | all qs =>
      obtain ⟨c, hc⟩ := exists_writes_all id node (hmembers qs (List.Subset.refl qs))
      rw [List.map_id, ← parenthesisedList_eq_map] at hc
      exact ⟨⟨c, hc⟩, by simp [isCompound]⟩
    | any qs =>
      obtain ⟨c, hc⟩ := exists_writes_any id node (hmembers qs (List.Subset.refl qs))
      rw [List.map_id, ← parenthesisedList_eq_map] at hc
      exact ⟨⟨c, hc⟩, by simp [isCompound]⟩

end Query

/-- A well-formed query is what its parenthesised text compiles to. -/
theorem compile_parenthesised {q : Query} (h : q.Everywhere (Query.Proper isVisible))
    (hopenings : q.openings ≤ maxNesting) : compile q.parenthesised = .ok q := by
  obtain ⟨⟨c, hc⟩, -⟩ := Query.exists_writes h
  obtain ⟨lexemes, htokens, hspans⟩ := @hc.spells 0 _ _ Scanner.closes_nil Scanner.tokens_nil
  rw [List.append_nil] at htokens
  obtain ⟨taken, htaken, hmap⟩ := hspans.taken
  have hderives : c.Derives lexemes :=
    ⟨by rw [← htaken, List.map_append, hmap]; rfl,
      hspans.wellBound (wellBound_finish _), hc.excludesOnce,
      le_trans hc.nesting hopenings⟩
  refine compile_eq_ok_iff_derives.2 ⟨lexemes, tokenize_eq_ok_iff.2 ?_, c, hderives, hc.tree⟩
  rw [Scanner.ofString, Query.parenthesised, String.toList_ofList, htokens]

theorem compile_parenthesised_mixed :
    let q : Query := .any [.all [.exclude (.within ":" (.term ":x")), .term "a-b"],
      .within "AND" (.exclude (.any [.phrase ["say", "\"no\\"], .term ":"])), .term "c"]
    q.Everywhere (Query.Proper isVisible) ∧ q.openings ≤ maxNesting ∧
      q.parenthesised = "((-:::x) AND a-b) OR AND:(-(\"say \\\"no\\\\\" OR :)) OR c" ∧
      compile q.parenthesised = .ok q := by
  intro q
  have h : q.Everywhere (Query.Proper isVisible) := by decide
  have hopenings : q.openings ≤ maxNesting := by decide
  exact ⟨h, hopenings, by decide, compile_parenthesised h hopenings⟩

end TextQuery
