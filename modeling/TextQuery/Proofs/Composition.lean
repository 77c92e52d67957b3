import TextQuery.Proofs.RoundTrip

/-!
# Query texts put together

A text that compiles keeps its lexemes, but for their offsets, when it is put into another text in
parentheses. The derivation of its query is then a part of the derivation of the whole, so that
texts can be composed as queries are.
-/
namespace TextQuery

def Lexeme.shift (k : Nat) (l : Lexeme) : Lexeme :=
  ⟨l.token, l.position + k⟩

theorem readPhrase_append {cs text : List Char} {width : Nat} (rest : List Char)
    (h : readPhrase cs = .closed text width) : readPhrase (cs ++ rest) = .closed text width := by
  induction cs using readPhrase.induct generalizing text width with
  | case1 => simp at h
  | case2 more => simpa using h
  | case3 => simp at h
  | case4 c more ih =>
    rw [readPhrase_escaped, PhraseReading.after_eq_closed_iff] at h
    obtain ⟨t, v, hread, rfl, rfl⟩ := h
    rw [List.cons_append, List.cons_append, readPhrase_escaped, ih hread]
    rfl
  | case5 c more hquote hend hescape hinvalid =>
    rw [readPhrase_cons_invalid hquote (ne_backslash_of_readPhrase hend hescape) hinvalid] at h
    cases h
  | case6 c more hquote hend hescape hvalid ih =>
    have hslash := ne_backslash_of_readPhrase hend hescape
    have hvalid : Text.isControl c = true → Text.isBlank c = true := by simpa using hvalid
    rw [readPhrase_cons hquote hslash hvalid, PhraseReading.after_eq_closed_iff] at h
    obtain ⟨t, v, hread, rfl, rfl⟩ := h
    rw [List.cons_append, readPhrase_cons hquote hslash hvalid, ih hread]
    rfl

/-- What cannot be part of a word leaves the word before it as it is. -/
theorem readWord_append (c : Char) (cs : List Char) {rest : List Char}
    (hrest : Scanner.Closes rest) : readWord c (cs ++ rest) = readWord c cs := by
  have hstop : ∀ d ∈ rest.head?, continuesWord d = false := by
    intro d hd
    simp [continuesWord, hrest d hd]
  have hcolon : rest.head? ≠ some ':' := by
    intro h
    have := hrest ':' h
    revert this
    decide
  have hword : cs.takeWhile continuesWord ++ cs.dropWhile continuesWord = cs :=
    List.takeWhile_append_dropWhile
  have htaken : ∀ d ∈ cs.takeWhile continuesWord, continuesWord d = true :=
    List.all_eq_true.1 List.all_takeWhile
  have hdropped : ∀ d ∈ (cs.dropWhile continuesWord ++ rest).head?, continuesWord d = false := by
    intro d hd
    have hhead := List.head?_dropWhile_not continuesWord cs
    cases hcs : cs.dropWhile continuesWord with
    | nil => exact hstop d (by simpa [hcs] using hd)
    | cons e es =>
      rw [hcs] at hhead hd
      cases hd
      simpa using hhead
  obtain ⟨htake, hdrop⟩ := Scanner.takeWhile_continuesWord htaken hdropped
  rw [← List.append_assoc, hword] at htake hdrop
  unfold readWord
  rw [htake, hdrop]
  cases hcs : cs.dropWhile continuesWord with
  | nil => simp [hcolon]
  | cons e es => rfl

namespace Scanner

/-- The first step on a text that starts with a given character, case by case. -/
theorem nextHere_cons (position : Nat) (c : Char) (cs : List Char) :
    let s := Scanner.mk position (c :: cs)
    s.nextHere =
      match mark? c with
      | some token => (.ok ⟨token, position⟩, s.advance 1)
      | none =>
        if c = '"' then
          match readPhrase cs with
          | .closed text width =>
            (.ok ⟨.phrase (String.ofList text), position⟩, s.advance (width + 1))
          | .unterminated =>
            (.error ⟨.unterminatedPhrase, position⟩, s.advance (c :: cs).length)
          | .invalid d offset =>
            (.error ⟨.invalidCharacter d, position + 1 + offset⟩, s.advance (1 + offset))
        else if Text.isControl c then (.error ⟨.invalidCharacter c, position⟩, s)
        else (.ok ⟨(readWord c cs).1, position⟩, s.advance (readWord c cs).2) := by
  intro s
  unfold nextHere
  split
  case h_1 heq => cases heq
  case h_6 heq =>
    cases heq
    rfl
  case h_7 hopen hclose hminus hplus hquote heq =>
    cases heq
    have hmark : mark? c = none := by
      unfold mark?
      split <;> simp_all
    rw [hmark]
    dsimp only
    rw [if_neg hquote]
  all_goals
    next heq =>
      cases heq
      rfl

/-- The place in a text that goes on behind its end, and that starts `k` characters later. -/
def within (s : Scanner) (k : Nat) (rest : List Char) : Scanner :=
  ⟨s.position + k, s.remaining ++ rest⟩

theorem within_advance (s : Scanner) {k width : Nat} {rest : List Char}
    (h : width ≤ s.remaining.length) :
    (s.within k rest).advance width = (s.advance width).within k rest := by
  simp [within, List.drop_append_of_le_length h, Nat.add_right_comm]

variable {s s' : Scanner} {l : Lexeme} {k : Nat} {rest : List Char}

/-- A step that finds a token finds the same token if the text goes on. -/
theorem nextHere_within (hrest : Closes rest) (hs : s.remaining ≠ [])
    (h : s.nextHere = (.ok l, s')) :
    (s.within k rest).nextHere = (.ok (l.shift k), s'.within k rest) := by
  obtain ⟨position, remaining⟩ := s
  obtain ⟨c, cs, rfl⟩ := List.exists_cons_of_ne_nil hs
  have hwhole : (Scanner.mk position (c :: cs)).within k rest =
      Scanner.mk (position + k) (c :: (cs ++ rest)) := rfl
  rw [hwhole, nextHere_cons, ← hwhole]
  rw [nextHere_cons] at h
  cases hmark : mark? c with
  | some token =>
    simp only [hmark] at h ⊢
    cases h
    rw [within_advance _ (by simp)]
    rfl
  | none =>
    simp only [hmark] at h ⊢
    split at h
    · next hquote =>
      split at h
      · next text width hread =>
        cases h
        obtain ⟨body, more, rfl, rfl, -⟩ := exists_unescapes_of_readPhrase hread
        rw [if_pos hquote, readPhrase_append rest hread]
        dsimp only
        rw [within_advance _ (by simp)]
        rfl
      · cases h
      · cases h
    · next hquote =>
      split at h
      · cases h
      · next hcontrol =>
        cases h
        obtain ⟨spelling, more, hsplit, hwidth, -⟩ := exists_spelled_readWord c cs
        have hlength : (readWord c cs).2 ≤ (c :: cs).length := by
          rw [hwidth, hsplit, List.length_append]
          exact Nat.le_add_right _ _
        rw [if_neg hquote, if_neg hcontrol, readWord_append c cs hrest, within_advance _ hlength]
        rfl

theorem tokens_blanks (position : Nat) {blanks : List Char}
    (hblanks : ∀ c ∈ blanks, Text.isBlank c = true) :
    (Scanner.mk position (blanks ++ rest)).tokens =
      (Scanner.mk (position + blanks.length) rest).tokens := by
  induction blanks generalizing position with
  | nil => rfl
  | cons c blanks ih =>
    obtain ⟨hc, hblanks⟩ := List.forall_mem_cons.1 hblanks
    rw [List.cons_append, tokens_of_isBlank _ hc, ih _ hblanks, List.length_cons, Nat.add_assoc,
      Nat.add_comm 1]

theorem skipBlanks_within (h : s.skipBlanks.remaining ≠ []) :
    (s.within k rest).skipBlanks = s.skipBlanks.within k rest := by
  have hshorter : (s.remaining.takeWhile Text.isBlank).length < s.remaining.length := by
    have hlength := congrArg List.length s.takes_skipBlanks.remaining
    have hpos := List.length_pos_iff.2 h
    rw [List.length_append] at hlength
    omega
  have hblanks : (s.remaining ++ rest).takeWhile Text.isBlank =
      s.remaining.takeWhile Text.isBlank := by
    rw [List.takeWhile_append, if_neg (Nat.ne_of_lt hshorter)]
  change (s.within k rest).advance ((s.remaining ++ rest).takeWhile Text.isBlank).length = _
  rw [hblanks, within_advance _ (Nat.le_of_lt hshorter)]
  rfl

theorem next_within (hrest : Closes rest) (h : s.next = (.ok l, s')) (hl : l.token ≠ .finish) :
    (s.within k rest).next = (.ok (l.shift k), s'.within k rest) := by
  have hne : s.skipBlanks.remaining ≠ [] := by
    rcases takes_of_nextHere s.isBlank_head?_skipBlanks h with
      ⟨-, hfinish⟩ | ⟨spelling, htakes, hspelled, hproper⟩
    · exact absurd hfinish hl
    · rw [htakes.remaining]
      exact List.append_ne_nil_of_left_ne_nil (hspelled.ne_nil hproper) _
  rw [next, skipBlanks_within hne]
  exact nextHere_within hrest hne h

/-- A text that goes on is read as it is read alone, and then what follows is. -/
theorem tokens_within {lexemes : List Lexeme} (h : s.tokens = .ok lexemes) :
    ∃ before, lexemes = before ++ [⟨.finish, s.endPosition⟩] ∧
      ∀ k rest, Closes rest → (s.within k rest).tokens =
        (Scanner.mk (s.endPosition + k) rest).tokens.map
          (before.map (Lexeme.shift k) ++ ·) := by
  induction s using tokens.induct generalizing lexemes with
  | case1 s fault s' hnext => simp [tokens_of_next_error hnext] at h
  | case2 s l s' hnext hl =>
    rw [tokens_of_next_finish hnext hl] at h
    cases h
    obtain ⟨blanks, hblanks, hposition, ⟨hremaining, -⟩ | ⟨spelling, -, hspelled, -⟩⟩ :=
      takes_of_next hnext
    · refine ⟨[], ?_, fun k rest _ => ?_⟩
      · obtain ⟨token, position⟩ := l
        cases hl
        cases hposition
        rw [endPosition, hremaining]
        rfl
      · rw [within, hremaining, tokens_blanks _ hblanks, endPosition, hremaining,
          Nat.add_right_comm]
        cases (Scanner.mk (s.position + blanks.length + k) rest).tokens <;> rfl
    · exact absurd hl hspelled.ne_finish
  | case3 s l s' hnext hl ih =>
    rw [tokens_of_next hnext hl] at h
    cases hs' : s'.tokens with
    | error fault => simp [hs', Except.map] at h
    | ok ls =>
      simp only [hs', Except.map, Except.ok.injEq] at h
      obtain ⟨before, hends, hbefore⟩ := ih hs'
      rw [endPosition_of_next hnext hl] at hends hbefore
      refine ⟨l :: before, by rw [← h, hends]; rfl, fun k rest hrest => ?_⟩
      rw [tokens_of_next (next_within hrest hnext hl) hl, hbefore k rest hrest]
      cases (Scanner.mk (s.endPosition + k) rest).tokens <;> rfl

end Scanner

open Grammar TextQuery.Derivation

variable {text : String} {lexemes : List Lexeme}

theorem Lexeme.Binds.shift {a b : Lexeme} (k : Nat) (h : a.Binds b) :
    (a.shift k).Binds (b.shift k) := by
  intro width hwidth
  obtain ⟨hstarts, hposition⟩ := h width hwidth
  exact ⟨hstarts, by simp only [Lexeme.shift, hposition, Nat.add_right_comm]⟩

/-- What the end of a query can follow, anything can follow. -/
theorem Lexeme.Binds.of_finish {a : Lexeme} {position : Nat} (h : a.Binds ⟨.finish, position⟩)
    (b : Lexeme) : a.Binds b := by
  intro width hwidth
  cases (h width hwidth).1

theorem WellBound.shift_append {before more : List Lexeme} {position : Nat}
    (h : WellBound (before ++ [⟨.finish, position⟩])) (k : Nat) (hmore : WellBound more) :
    WellBound (before.map (Lexeme.shift k) ++ more) := by
  obtain ⟨hbefore, -, hlast⟩ := List.isChain_append.1 h.binds
  refine ⟨List.isChain_append.2 ⟨?_, hmore.binds, ?_⟩, ?_⟩
  · rw [List.isChain_map]
    exact hbefore.imp fun a b hab => hab.shift k
  · intro a ha b hb
    rw [List.getLast?_map] at ha
    obtain ⟨last, hlast', rfl⟩ := Option.map_eq_some_iff.1 ha
    exact ((hlast last hlast' _ rfl).shift k).of_finish b
  · rw [List.forall_mem_append, List.forall_mem_map]
    exact ⟨fun l hl => h.spoken l (List.mem_append_left _ hl), hmore.spoken⟩

/-- A text that derives from the grammar spells the tokens of its derivation wherever it stands. -/
theorem Derivation.Choice.Derives.spells {c : Choice} (h : c.Derives lexemes)
    (htokens : tokenize text = .ok lexemes) : Spells text.toList c.tokens := by
  intro position rest more hrest hmore
  obtain ⟨before, rfl, hwithin⟩ := Scanner.tokens_within (tokenize_eq_ok_iff.1 htokens)
  have hread := hwithin position rest hrest
  have hbegin : (Scanner.ofString text).within position rest =
      Scanner.mk position (text.toList ++ rest) := by
    simp [Scanner.within, Scanner.ofString]
  have hgo : (Scanner.ofString text).endPosition + position = position + text.toList.length := by
    simp [Scanner.endPosition, Scanner.ofString, Nat.add_comm]
  rw [hbegin, hgo, hmore] at hread
  have hmap := h.tokens
  rw [List.map_append] at hmap
  refine ⟨_, hread, ⟨before.map (Lexeme.shift position), rfl, ?_⟩, fun hrest => ?_⟩
  · rw [List.map_map, ← (List.append_inj' hmap rfl).1]
    rfl
  · exact h.wellBound.shift_append position hrest

theorem Derivation.Choice.Derives.writes {c : Choice} (h : c.Derives lexemes)
    (htokens : tokenize text = .ok lexemes) : c.Writes c.tree text.toList c.nesting :=
  ⟨rfl, h.excludesOnce, le_rfl, h.spells htokens⟩

/-- A text that spells some tokens is read as these and the end of the query. -/
theorem Spells.exists_tokenize {tokens : List Token} (h : Spells text.toList tokens) :
    ∃ lexemes, tokenize text = .ok lexemes ∧ lexemes.map Lexeme.token = tokens ++ [.finish] ∧
      WellBound lexemes := by
  obtain ⟨lexemes, htokens, hspans⟩ := @h 0 _ _ Scanner.closes_nil Scanner.tokens_nil
  rw [List.append_nil] at htokens
  obtain ⟨taken, htaken, hmap⟩ := hspans.taken
  refine ⟨lexemes, tokenize_eq_ok_iff.2 htokens, ?_,
    hspans.wellBound (wellBound_finish _)⟩
  rw [← htaken, List.map_append, hmap]
  rfl

/-- The text derives from the grammar with at most `n` groups and field scopes open at once. -/
def OpensAtMost (n : Nat) (text : String) : Prop :=
  ∃ lexemes, tokenize text = .ok lexemes ∧ ∃ c : Choice, c.Derives lexemes ∧ c.nesting ≤ n

theorem exists_choice_writes {q : Query} {n : Nat} (h : compile text = .ok q)
    (hopen : OpensAtMost n text) : ∃ c : Choice, c.Writes q text.toList n := by
  obtain ⟨lexemes, htokens, c, hc, hn⟩ := hopen
  have hq : compile text = .ok c.tree := compile_eq_ok_iff_derives.2 ⟨lexemes, htokens, c, hc, rfl⟩
  rw [h] at hq
  cases hq
  exact ⟨c, rfl, hc.excludesOnce, hn, hc.spells htokens⟩

namespace Derivation

variable {q q₁ q₂ : Query} {n : Nat}

/-- A text that spells a derivation in full derives from the grammar in this way. -/
theorem Choice.Writes.exists_derives {c : Choice} {chars : List Char} (h : c.Writes q chars n)
    (hn : n ≤ maxNesting) (htext : text.toList = chars) :
    ∃ lexemes, tokenize text = .ok lexemes ∧ c.Derives lexemes := by
  subst htext
  obtain ⟨lexemes, htokens, hmap, hbound⟩ := h.spells.exists_tokenize
  exact ⟨lexemes, htokens, hmap, hbound, h.excludesOnce, le_trans h.nesting hn⟩

/-- It compiles to the query that the derivation stands for. -/
theorem Choice.Writes.compile_eq {c : Choice} {chars : List Char} (h : c.Writes q chars n)
    (hn : n ≤ maxNesting) (htext : text.toList = chars) : compile text = .ok q := by
  obtain ⟨lexemes, htokens, hderives⟩ := h.exists_derives hn htext
  exact compile_eq_ok_iff_derives.2 ⟨lexemes, htokens, c, hderives, h.tree⟩

theorem Choice.Writes.opensAtMost {c : Choice} {chars : List Char} {m : Nat}
    (h : c.Writes q chars n) (hn : n ≤ maxNesting) (htext : text.toList = chars) (hm : n ≤ m) :
    OpensAtMost m text := by
  obtain ⟨lexemes, htokens, hderives⟩ := h.exists_derives hn htext
  exact ⟨lexemes, htokens, c, hderives, le_trans h.nesting hm⟩

variable {t₁ t₂ : List Char} {p₁ p₂ : Primary}

theorem exists_operand_of_pair (h₁ : p₁.Writes q₁ t₁ n) (h₂ : p₂.Writes q₂ t₂ n) :
    ∀ x ∈ [(q₁, t₁), (q₂, t₂)], ∃ p : Primary, p.Writes x.1 x.2 n := by
  simpa using ⟨⟨p₁, h₁⟩, ⟨p₂, h₂⟩⟩

end Derivation

namespace Grammar

/-- The reading ends with this fault. -/
def Reading.Fails {α : Type} {input : List Lexeme} (r : Reading α input)
    (fault : Fault GrammarCause) : Prop :=
  ∃ rest leftOpen, r = .failed fault rest leftOpen

variable {α β : Type} {tail input more : List Lexeme} {fault : Fault GrammarCause}
  {operand : Reader Query}

theorem Reading.Fails.lift {r : Reading α tail} (h : r.Fails fault) (f : α → β)
    (le : tail.length ≤ input.length) : (r.lift f le).Fails fault := by
  obtain ⟨rest, leftOpen, rfl⟩ := h
  exact ⟨rest, leftOpen, rfl⟩

theorem joined_fails {separator : Token} {item : Reader α} (h : (item input).Fails fault) :
    (joined separator item input).Fails fault := by
  obtain ⟨rest, leftOpen, heq⟩ := h
  rw [joined, heq]
  exact ⟨rest, leftOpen, rfl⟩

theorem adjacent_fails {item : Reader α} (h : (item input).Fails fault) :
    (adjacent item input).Fails fault := by
  obtain ⟨rest, leftOpen, heq⟩ := h
  rw [adjacent, heq]
  exact ⟨rest, leftOpen, rfl⟩

/-- The fault of the first operand is the fault of the whole. -/
theorem disjunction_fails (hs : startsItem input = true) (h : (prefixed operand input).Fails fault) :
    (disjunction operand input).Fails fault := by
  have hconjunction : (conjunction operand input).Fails fault :=
    (joined_fails h).lift _ (Nat.le_refl _)
  have hsequence : (sequence operand input).Fails fault := by
    rw [sequence, if_pos hs]
    exact (adjacent_fails hconjunction).lift _ (Nat.le_refl _)
  exact (joined_fails hsequence).lift _ (Nat.le_refl _)

theorem prefixed_exclude_fails {position : Nat} {rest : List Lexeme} {q : Query}
    (ht : touches (position + 1) more = true) (h : (operand more).Gives q rest)
    (hq : q.isExclusion = true) : (prefixed operand (⟨.exclude, position⟩ :: more)).Fails
      ⟨.doubleExclusion, position⟩ := by
  obtain ⟨shorter, heq⟩ := h
  refine ⟨rest, 0, ?_⟩
  simp only [prefixed, head?_ne_exclude_of_touches ht, ht, heq, hq, if_false, if_true,
    Bool.not_true, Bool.false_eq_true]

end Grammar

theorem compile_eq_error {fault : Fault GrammarCause} (htokens : tokenize text = .ok lexemes)
    (hend : atEnd lexemes = false)
    (h : (disjunction (Grammar.operand maxNesting) lexemes).Fails fault) :
    compile text = .error (.grammar (fault.inText text)) := by
  obtain ⟨rest, leftOpen, heq⟩ := h
  simp [compile, Session.start, htokens, Except.map, Session.read, hend, heq, Except.mapError]

/-- An operand whose query is an exclusion cannot be excluded, and the fault is that of the `-`. -/
theorem Derivation.Primary.Writes.compile_excluded {p : Primary} {q : Query} {chars : List Char}
    {n : Nat} (h : p.Writes q chars n) (hn : n ≤ maxNesting) (hq : q.isExclusion = true)
    (htext : text.toList = '-' :: chars) :
    compile text = .error (.grammar (Fault.inText ⟨.doubleExclusion, 0⟩ text)) := by
  obtain ⟨mid, hmid, hspans⟩ := @h.spells 1 _ _ Scanner.closes_nil Scanner.tokens_nil
  rw [List.append_nil] at hmid
  have htokens : tokenize text = .ok (⟨.exclude, 0⟩ :: mid) := by
    rw [tokenize_eq_ok_iff, Scanner.ofString, htext, Scanner.tokens_mark 0 rfl, hmid]
    rfl
  have htouches : touches 1 mid = true := by
    obtain ⟨c, cs, rfl, hc⟩ := h.starts
    exact Spells.touches_of_tokens hc hmid hspans
  have hbound := hspans.wellBound (wellBound_finish _)
  obtain ⟨taken, rfl, hmap⟩ := hspans.taken
  have hgives := p.gives h.excludesOnce (le_trans h.nesting hn) hmap hbound
  refine compile_eq_error htokens rfl (disjunction_fails rfl ?_)
  exact prefixed_exclude_fails htouches hgives (h.tree ▸ hq)

/-- A query in parentheses stands for itself, and from queries in parentheses the grammar composes
conjunctions, disjunctions, field scopes and exclusions. Only an exclusion cannot be excluded. -/
theorem compile_composed {q₁ q₂ : Query} {text₁ text₂ field : String}
    (h₁ : compile text₁ = .ok q₁) (h₂ : compile text₂ = .ok q₂) (hopen₁ : OpensAtMost 126 text₁)
    (hopen₂ : OpensAtMost 126 text₂) (hfield : IsName field) :
    compile ("(" ++ text₁ ++ ")") = .ok q₁ ∧
      compile ("(" ++ text₁ ++ ") AND (" ++ text₂ ++ ")") = .ok (.all [q₁, q₂]) ∧
      compile ("(" ++ text₁ ++ ") OR (" ++ text₂ ++ ")") = .ok (.any [q₁, q₂]) ∧
      compile (field ++ ":(" ++ text₁ ++ ")") = .ok (.within field q₁) ∧
      (q₁.isExclusion = false → compile ("-(" ++ text₁ ++ ")") = .ok (.exclude q₁)) ∧
      (q₁.isExclusion = true → compile ("-(" ++ text₁ ++ ")") =
        .error (.grammar (Fault.inText ⟨.doubleExclusion, 0⟩ ("-(" ++ text₁ ++ ")")))) := by
  obtain ⟨c₁, hc₁⟩ := exists_choice_writes h₁ hopen₁
  obtain ⟨c₂, hc₂⟩ := exists_choice_writes h₂ hopen₂
  have hgroup := hc₁.group
  have hpair := exists_operand_of_pair hgroup hc₂.group
  have htwo : 2 ≤ [(q₁, '(' :: text₁.toList ++ [')']), (q₂, '(' :: text₂.toList ++ [')'])].length :=
    Nat.le_refl 2
  obtain ⟨all, hall⟩ := exists_writes_all Prod.fst htwo hpair
  obtain ⟨any, hany⟩ := exists_writes_any Prod.fst htwo hpair
  have hgrouped : 126 + 1 ≤ maxNesting := by decide
  refine ⟨hgroup.alone.compile_eq hgrouped (by simp), hall.compile_eq hgrouped (by simp),
    hany.compile_eq hgrouped (by simp), (hgroup.field hfield).alone.compile_eq (by decide) (by simp),
    fun hq => (hgroup.excluded hq).compile_eq hgrouped (by simp),
    fun hq => hgroup.compile_excluded hgrouped hq (by simp)⟩

theorem compile_composed_excluded :
    compile "-x" = .ok (.exclude (.term "x")) ∧
      compile "a t:(b OR c)" = .ok (.any [.term "a", .within "t" (.any [.term "b", .term "c"])]) ∧
      OpensAtMost 126 "-x" ∧ OpensAtMost 126 "a t:(b OR c)" ∧ IsName ":" ∧
      compile "(-x) AND (a t:(b OR c))" = .ok (.all [.exclude (.term "x"),
        .any [.term "a", .within "t" (.any [.term "b", .term "c"])]]) ∧
      compile "::(-x)" = .ok (.within ":" (.exclude (.term "x"))) ∧
      compile "-(-x)" = .error (.grammar (Fault.inText ⟨.doubleExclusion, 0⟩ "-(-x)")) := by
  have h₁ : compile "-x" = .ok (.exclude (.term "x")) := by decide +kernel
  have h₂ : compile "a t:(b OR c)" = .ok (.any [.term "a", .within "t" (.any [.term "b",
      .term "c"])]) := by decide +kernel
  have ht₁ : tokenize "-x" = .ok [⟨.exclude, 0⟩, ⟨.word "x", 1⟩, ⟨.finish, 2⟩] := by decide +kernel
  have ht₂ : tokenize "a t:(b OR c)" = .ok [⟨.word "a", 0⟩, ⟨.field "t", 2⟩, ⟨.openGroup, 4⟩,
      ⟨.word "b", 5⟩, ⟨.or, 7⟩, ⟨.word "c", 10⟩, ⟨.closeGroup, 11⟩, ⟨.finish, 12⟩] := by decide +kernel
  have hopen₁ : OpensAtMost 126 "-x" := by
    refine ⟨_, ht₁, .one (.one (.one (.excluded (.word "x")))), ⟨rfl, ⟨?_, ?_⟩, ⟨trivial, rfl⟩,
      by decide⟩, by decide⟩
    · simp [Lexeme.Binds, Token.prefixWidth?, Token.startsOperand]
    · simp [Token.Spoken]
  have hopen₂ : OpensAtMost 126 "a t:(b OR c)" := by
    refine ⟨_, ht₂, .one (.more (.one (.plain (.word "a"))) (.one (.one (.plain (.scoped "t"
      (.group (.more (.one (.one (.plain (.word "b")))) (.one (.one (.one (.plain
        (.word "c")))))))))))), ⟨rfl, ⟨?_, ?_⟩, ⟨trivial, trivial, trivial⟩, by decide⟩, by decide⟩
    · simp [Lexeme.Binds, Token.prefixWidth?, Token.startsOperand]
      rfl
    · simp [Token.Spoken]
  have hname : IsName ":" := by decide
  obtain ⟨-, hand, -, hfield, -, hexclude⟩ := compile_composed h₁ h₂ hopen₁ hopen₂ hname
  exact ⟨h₁, h₂, hopen₁, hopen₂, hname, hand, hfield, hexclude rfl⟩

end TextQuery
