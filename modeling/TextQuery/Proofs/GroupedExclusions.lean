import TextQuery.Proofs.Composition
import TextQuery.Proofs.Conservation
import TextQuery.Proofs.FieldNames
import TextQuery.Proofs.Meaning
import TextQuery.Proofs.UniqueDerivations

/-!
# Exclusions in a group

Exclusions behind a query restrict it, each on its own. In parentheses a single exclusion restricts
it all the same. Several exclusions in parentheses make a conjunction, though, which counts as one
more alternative of the operands around the group. The two texts compile alike, and the documents
that they are told apart by are found exactly.
-/
namespace TextQuery
open Grammar
namespace Derivation

/-- What the operand asks of a document if it is no alternative. -/
def Neighbour.Met (n : Neighbour) : Prop :=
  if n.role = .excluded then ¬ n.truth else n.truth

section
variable {ns ms : List Neighbour}

theorem together_iff : Together ns ↔ (∀ n ∈ ns, ¬ n.IsAlternative → n.Met) ∧
    ((∃ n ∈ ns, n.IsAlternative) → ∃ n ∈ ns, n.IsAlternative ∧ n.truth) := by
  constructor
  · intro h
    refine ⟨fun n hn halone => ?_, h.alternatives⟩
    unfold Neighbour.Met
    cases hrole : n.role with
    | required => simpa using h.required n hn hrole
    | excluded => simpa using h.excluded n hn hrole
    | optional =>
      have hneg : n.tree.isNegation = true := by
        by_contra hneg
        exact halone ⟨hrole, by simpa using hneg⟩
      simpa using h.negated n hn hrole hneg
  · rintro ⟨hmet, halternatives⟩
    refine ⟨fun n hn hrole => ?_, fun n hn hrole => ?_, fun n hn hrole hneg => ?_, halternatives⟩
    · simpa [Neighbour.Met, hrole] using hmet n hn (by simp [Neighbour.IsAlternative, hrole])
    · simpa [Neighbour.Met, hrole] using hmet n hn (by simp [Neighbour.IsAlternative, hrole])
    · simpa [Neighbour.Met, hrole] using hmet n hn (by simp [Neighbour.IsAlternative, hneg])

/-- Restrictions do not touch the operands beside them. -/
theorem together_append_restrictions (hms : ∀ m ∈ ms, ¬ m.IsAlternative) :
    Together (ns ++ ms) ↔ Together ns ∧ ∀ m ∈ ms, m.Met := by
  have hsome : ∀ P : Neighbour → Prop,
      (∃ n ∈ ns ++ ms, n.IsAlternative ∧ P n) ↔ ∃ n ∈ ns, n.IsAlternative ∧ P n := by
    intro P
    constructor
    · rintro ⟨n, hn, ha, hP⟩
      exact ⟨n, (List.mem_append.1 hn).resolve_right fun hm => hms n hm ha, ha, hP⟩
    · rintro ⟨n, hn, ha, hP⟩
      exact ⟨n, List.mem_append_left _ hn, ha, hP⟩
  have hexists := hsome fun _ => True
  simp only [and_true] at hexists
  rw [together_iff, together_iff, List.forall_mem_append, hexists, hsome]
  have hmet : (∀ m ∈ ms, ¬ m.IsAlternative → m.Met) ↔ ∀ m ∈ ms, m.Met :=
    forall₂_congr fun m hm => imp_iff_right (hms m hm)
  rw [hmet, and_right_comm]

/-- One more alternative makes the others needless where it is true. -/
theorem together_append_alternative {a : Neighbour} (ha : a.IsAlternative) :
    Together (ns ++ [a]) ↔ (∀ n ∈ ns, ¬ n.IsAlternative → n.Met) ∧
      ((∃ n ∈ ns, n.IsAlternative ∧ n.truth) ∨ a.truth) := by
  rw [together_iff, List.forall_mem_append]
  have hmet : ∀ m ∈ [a], ¬ m.IsAlternative → m.Met := by
    rintro m hm hnot
    rw [List.mem_singleton.1 hm] at hnot
    exact absurd ha hnot
  have hexists : ∃ n ∈ ns ++ [a], n.IsAlternative := ⟨a, by simp, ha⟩
  have htrue : (∃ n ∈ ns ++ [a], n.IsAlternative ∧ n.truth) ↔
      (∃ n ∈ ns, n.IsAlternative ∧ n.truth) ∨ a.truth := by
    simp [or_and_right, exists_or, ha]
  rw [imp_iff_right hexists, htrue, and_iff_left hmet]

end

def Sequence.append : Sequence → Sequence → Sequence
  | .one c, t => .more c t
  | .more c s, t => .more c (s.append t)

/-- The derivation with more operands in its last sequence. -/
def Choice.append : Choice → Sequence → Choice
  | .one s, t => .one (s.append t)
  | .more s c, t => .more s (c.append t)

/-- The last of the sequences. -/
def Choice.last : Choice → Sequence
  | .one s => s
  | .more _ c => c.last

/-- The sequences before the last one. -/
def Choice.earlier : Choice → List Sequence
  | .one _ => []
  | .more s c => s :: c.earlier

@[simp] theorem Sequence.tokens_append (s t : Sequence) :
    (s.append t).tokens = s.tokens ++ t.tokens := by
  cases s with
  | one c => rfl
  | more c s => rw [append, tokens, tokens, s.tokens_append t, List.append_assoc]

@[simp] theorem Choice.tokens_append (c : Choice) (t : Sequence) :
    (c.append t).tokens = c.tokens ++ t.tokens := by
  cases c with
  | one s => exact s.tokens_append t
  | more s c => rw [append, tokens, tokens, c.tokens_append t, List.append_assoc, List.cons_append]

@[simp] theorem Sequence.nesting_append (s t : Sequence) :
    (s.append t).nesting = max s.nesting t.nesting := by
  cases s with
  | one c => rfl
  | more c s => rw [append, nesting, nesting, s.nesting_append t, max_assoc]

@[simp] theorem Choice.nesting_append (c : Choice) (t : Sequence) :
    (c.append t).nesting = max c.nesting t.nesting := by
  cases c with
  | one s => exact s.nesting_append t
  | more s c => rw [append, nesting, nesting, c.nesting_append t, max_assoc]

@[simp] theorem Sequence.excludesOnce_append (s t : Sequence) :
    (s.append t).ExcludesOnce ↔ s.ExcludesOnce ∧ t.ExcludesOnce := by
  cases s with
  | one c => rfl
  | more c s => rw [append, ExcludesOnce, ExcludesOnce, s.excludesOnce_append t, and_assoc]

@[simp] theorem Choice.excludesOnce_append (c : Choice) (t : Sequence) :
    (c.append t).ExcludesOnce ↔ c.ExcludesOnce ∧ t.ExcludesOnce := by
  cases c with
  | one s => exact s.excludesOnce_append t
  | more s c => rw [append, ExcludesOnce, ExcludesOnce, c.excludesOnce_append t, and_assoc]

section
variable {s : Schema} {doc : Json} {scope : Scope}

@[simp] theorem Sequence.neighbours_append (q t : Sequence) : (q.append t).neighbours s doc scope =
    q.neighbours s doc scope ++ t.neighbours s doc scope := by
  cases q with
  | one c => rfl
  | more c q => rw [append, neighbours, neighbours, q.neighbours_append t, List.cons_append]

theorem Choice.holds_append (c : Choice) (t : Sequence) : (c.append t).Holds s doc scope ↔
    (∃ q ∈ c.earlier, Together (q.neighbours s doc scope)) ∨
      Together (c.last.neighbours s doc scope ++ t.neighbours s doc scope) := by
  cases c with
  | one q => simp [append, earlier, last, q.neighbours_append t]
  | more q c => simp [append, earlier, last, c.holds_append t, or_assoc]

end

/-- Exclusions next to each other. -/
def Sequence.excluding (p : Primary) : List Primary → Sequence
  | [] => .one (.one (.excluded p))
  | e :: es => .more (.one (.excluded p)) (excluding e es)

/-- The sequence in parentheses, as a single operand. -/
def Sequence.grouped (t : Sequence) : Sequence :=
  .one (.one (.plain (.group (.one t))))

section
variable (p : Primary) (es : List Primary)

theorem Sequence.excludesOnce_excluding : (excluding p es).ExcludesOnce ↔
    ∀ e ∈ p :: es, (Prefixed.excluded e).ExcludesOnce := by
  induction es generalizing p with
  | nil => simp [excluding]
  | cons e es ih => rw [excluding, ExcludesOnce, ih, List.forall_mem_cons (a := p)]; rfl

theorem Sequence.operands_excluding :
    (excluding p es).operands = (p :: es).map fun e => ⟨.excluded, .exclude e.tree⟩ := by
  induction es generalizing p with
  | nil => rfl
  | cons e es ih => rw [excluding, operands, ih]; rfl

theorem Sequence.neighbours_excluding (s : Schema) (doc : Json) (scope : Scope) :
    (excluding p es).neighbours s doc scope =
      (p :: es).map fun e => ⟨.excluded, e.tree, e.Holds s doc scope⟩ := by
  induction es generalizing p with
  | nil => rfl
  | cons e es ih => rw [excluding, neighbours, ih]; rfl

/-- Only a single exclusion is still one in parentheses. -/
theorem Sequence.isNegation_grouped_excluding :
    (Primary.group (.one (excluding p es))).tree.isNegation = es.isEmpty := by
  have hrestricts : ∀ o ∈ (excluding p es).operands, o.restricts = true := by
    rw [operands_excluding]
    simp [Operand.restricts]
  have htree : (Primary.group (.one (excluding p es))).tree =
      .collapse .all ((excluding p es).operands.map Operand.query) :=
    congrArg (Query.collapse .all) (filterMap_conjunctAt?_of_restricts hrestricts 0)
  rw [htree, operands_excluding]
  cases es with
  | nil => rfl
  | cons e es => rfl

variable {s : Schema} {doc : Json} {scope : Scope} {ns : List Neighbour}

theorem together_append_excluding :
    Together (ns ++ (Sequence.excluding p es).neighbours s doc scope) ↔
      Together ns ∧ ∀ e ∈ p :: es, ¬ e.Holds s doc scope := by
  rw [Sequence.neighbours_excluding, together_append_restrictions]
  · simp [Neighbour.Met]
  · simp [Neighbour.IsAlternative]

/-- The group of exclusions is true when each of them is. -/
theorem together_excluding : Together ((Sequence.excluding p es).neighbours s doc scope) ↔
    ∀ e ∈ p :: es, ¬ e.Holds s doc scope := by
  have hnone : Together [] := together_iff.2 ⟨by simp, by simp⟩
  have h : Together ([] ++ (Sequence.excluding p es).neighbours s doc scope) ↔ _ :=
    together_append_excluding p es
  rwa [List.nil_append, and_iff_right hnone] at h

variable {p es}

/-- In parentheses, a single exclusion restricts the operands beside it, and several exclusions make
one more alternative. -/
theorem together_append_grouped :
    Together (ns ++ (Sequence.excluding p es).grouped.neighbours s doc scope) ↔
      if es = [] then Together ns ∧ ∀ e ∈ p :: es, ¬ e.Holds s doc scope
      else (∀ n ∈ ns, ¬ n.IsAlternative → n.Met) ∧
        ((∃ n ∈ ns, n.IsAlternative ∧ n.truth) ∨ ∀ e ∈ p :: es, ¬ e.Holds s doc scope) := by
  have htruth : Together ((Sequence.excluding p es).neighbours s doc scope) ↔ _ :=
    together_excluding p es
  have htree := Sequence.isNegation_grouped_excluding p es
  have hneighbours : (Sequence.excluding p es).grouped.neighbours s doc scope =
      [⟨.optional, (Primary.group (.one (.excluding p es))).tree,
        Together ((Sequence.excluding p es).neighbours s doc scope)⟩] := rfl
  generalize (Primary.group (.one (.excluding p es))).tree = group at htree hneighbours
  rw [hneighbours]
  split
  · next hes =>
    subst hes
    rw [together_append_restrictions]
    · simp [Neighbour.Met, htruth]
    · simp [Neighbour.IsAlternative, htree]
  · next hes =>
    rw [together_append_alternative ⟨rfl, by simpa [htree] using hes⟩, htruth]

/-- When the parentheses do not matter, if `E` is all that could make up for the operands. -/
theorem together_grouped_iff (E : Prop) :
    ((E ∨ Together (ns ++ (Sequence.excluding p es).neighbours s doc scope)) ↔
        (E ∨ Together (ns ++ (Sequence.excluding p es).grouped.neighbours s doc scope))) ↔
      es = [] ∨ E ∨ (∃ n ∈ ns, ¬ n.IsAlternative ∧ ¬ n.Met) ∨ (∀ n ∈ ns, ¬ n.IsAlternative) ∨
        ((∃ n ∈ ns, n.IsAlternative ∧ n.truth) ↔ ∀ e ∈ p :: es, ¬ e.Holds s doc scope) := by
  rw [together_append_excluding, together_append_grouped]
  by_cases hes : es = []
  · simp [hes]
  · have hsome : (∃ n ∈ ns, n.IsAlternative ∧ n.truth) → ∃ n ∈ ns, n.IsAlternative :=
      fun ⟨n, hn, ha, _⟩ => ⟨n, hn, ha⟩
    have hfails : (∃ n ∈ ns, ¬ n.IsAlternative ∧ ¬ n.Met) ↔
        ¬ ∀ n ∈ ns, ¬ n.IsAlternative → n.Met := by
      simp
    have hnone : (∀ n ∈ ns, ¬ n.IsAlternative) ↔ ¬ ∃ n ∈ ns, n.IsAlternative := by
      simp
    rw [if_neg hes, together_iff, hfails, hnone, or_iff_right hes]
    generalize (∃ n ∈ ns, n.IsAlternative ∧ n.truth) = someTrue at *
    generalize (∃ n ∈ ns, n.IsAlternative) = some at *
    generalize (∀ n ∈ ns, ¬ n.IsAlternative → n.Met) = met at *
    generalize (∀ e ∈ p :: es, ¬ e.Holds s doc scope) = excluded at *
    grind

end

end Derivation

/-- A text with more operands behind it. -/
def beside (text : String) (operands : List String) : String :=
  text ++ " " ++ " ".intercalate operands

/-- A text with a group of operands behind it. -/
def besideGroup (text : String) (operands : List String) : String :=
  text ++ " (" ++ " ".intercalate operands ++ ")"

example : besideGroup "a" ["-b", "-c"] = "a (-b -c)" := rfl

open TextQuery.Derivation

/-- The text is an exclusion of `p`, a `-` and its operand, and nothing else. -/
def Excludes (text : String) (p : Primary) : Prop :=
  ∃ lexemes, tokenize text = .ok lexemes ∧ (Choice.one (.one (.one (.excluded p)))).Derives lexemes

namespace Spells

variable {s t : List Char} {ts us : List Token}

theorem blank (ht : Spells t us) : Spells (' ' :: t) us := by
  intro position rest more hrest hmore
  have hlength : position + (' ' :: t).length = position + 1 + t.length := by
    rw [List.length_cons, Nat.add_assoc, Nat.add_comm 1]
  rw [hlength] at hmore
  obtain ⟨lexemes, hlexemes, hspans⟩ := ht hrest hmore
  exact ⟨lexemes, (Scanner.tokens_of_isBlank position (by decide)).trans hlexemes, hspans⟩

theorem beside (hs : Spells s ts) (ht : Spells t us) : Spells (s ++ ' ' :: t) (ts ++ us) := by
  refine hs.append ht.blank ?_
  rintro rest c ⟨⟩
  decide

/-- The lexemes of a text that spells these tokens. -/
theorem map_token {text : String} {lexemes : List Lexeme} (h : Spells text.toList ts)
    (htokens : tokenize text = .ok lexemes) : lexemes.map Lexeme.token = ts ++ [.finish] := by
  obtain ⟨found, hfound, hmap, -⟩ := h.exists_tokenize
  cases htokens.symm.trans hfound
  exact hmap

end Spells

theorem excludes_of_writes {text : String} {p : Primary} {q : Query} {chars : List Char} {n : Nat}
    (h : p.Writes q chars n) (hn : n ≤ maxNesting) (hq : q.isExclusion = false)
    (htext : text.toList = '-' :: chars) : Excludes text p :=
  (h.excluded hq).exists_derives hn htext

theorem Excludes.spells {text : String} {p : Primary} (h : Excludes text p) :
    Spells text.toList (.exclude :: p.tokens) := by
  obtain ⟨lexemes, htokens, hderives⟩ := h
  exact hderives.spells htokens

theorem Excludes.excludesOnce {text : String} {p : Primary} (h : Excludes text p) :
    (Prefixed.excluded p).ExcludesOnce := by
  obtain ⟨lexemes, -, hderives⟩ := h
  exact hderives.excludesOnce

namespace Derivation

section
variable {text : String} {lexemes : List Lexeme} {c : Choice} {x : String} {xs : List String}
  {p : Primary} {es : List Primary}

theorem spells_excluding (h : List.Forall₂ Excludes (x :: xs) (p :: es)) :
    Spells (" ".intercalate (x :: xs)).toList (Sequence.excluding p es).tokens := by
  rw [String.toList_intercalate]
  induction xs generalizing x p es with
  | nil =>
    cases h with
    | cons hx hxs =>
      cases hxs
      simpa [Sequence.excluding] using hx.spells
  | cons y ys ih =>
    cases h with
    | cons hx hxs =>
      cases es with
      | nil => cases hxs
      | cons e es =>
        have hmore := hx.spells.beside (ih hxs)
        rw [List.map_cons, List.map_cons, List.intercalate_cons_cons]
        simpa [Sequence.excluding] using hmore

theorem writes_excluding (h : List.Forall₂ Excludes (x :: xs) (p :: es)) :
    (Choice.one (.excluding p es)).Writes (Choice.one (.excluding p es)).tree
      (" ".intercalate (x :: xs)).toList (Sequence.excluding p es).nesting := by
  have hboth := h.flip.imp fun e text hexcludes =>
    And.intro (Excludes.excludesOnce hexcludes) hexcludes
  have honce := ((List.forall₂_and_left _ _).1 hboth).1
  exact ⟨rfl, (Sequence.excludesOnce_excluding p es).2 honce, le_rfl, spells_excluding h⟩

theorem Choice.Writes.beside {t : Sequence} {q r : Query} {chars more : List Char} {m n : Nat}
    (hc : c.Writes q chars m) (ht : (Choice.one t).Writes r more n) :
    (c.append t).Writes (c.append t).tree (chars ++ ' ' :: more) (max m n) := by
  refine ⟨rfl, (c.excludesOnce_append t).2 ⟨hc.excludesOnce, ht.excludesOnce⟩, ?_, ?_⟩
  · rw [c.nesting_append]
    exact max_le_max hc.nesting ht.nesting
  · rw [c.tokens_append]
    exact hc.spells.beside ht.spells

/-- The operands behind the text, each on its own, make the derivation longer. -/
theorem writes_beside (hc : c.Derives lexemes) (htokens : tokenize text = .ok lexemes)
    (h : List.Forall₂ Excludes (x :: xs) (p :: es)) :
    (c.append (.excluding p es)).Writes (c.append (.excluding p es)).tree
      (beside text (x :: xs)).toList (max c.nesting (Sequence.excluding p es).nesting) := by
  have hwrites := (hc.writes htokens).beside (writes_excluding h)
  simpa [beside] using hwrites

theorem writes_besideGroup (hc : c.Derives lexemes) (htokens : tokenize text = .ok lexemes)
    (h : List.Forall₂ Excludes (x :: xs) (p :: es)) :
    (c.append (Sequence.excluding p es).grouped).Writes
      (c.append (Sequence.excluding p es).grouped).tree (besideGroup text (x :: xs)).toList
      (max c.nesting ((Sequence.excluding p es).nesting + 1)) := by
  have hwrites := (hc.writes htokens).beside (writes_excluding h).group.alone
  simpa [besideGroup, Sequence.grouped] using hwrites

/-- The openings of a text are those of any derivation of its tokens. -/
theorem nesting_le_of_spells {n : Nat} (h : Spells text.toList c.tokens)
    (hopen : OpensAtMost n text) : c.nesting ≤ n := by
  obtain ⟨lexemes, htokens, c', hc', hn⟩ := hopen
  have hsame : c.tokens = c'.tokens :=
    List.append_cancel_right ((h.map_token htokens).symm.trans hc'.tokens)
  rwa [Choice.tokens_injective hsame]

end

/-- The field names of a query are those of the tokens it derives from. -/
theorem Choice.scopes_perm_tokens (c : Choice) :
    c.tree.scopes.Perm (c.tokens.filterMap Token.fieldName?) := by
  rw [List.filterMap_eq_flatMap_toList, ← Multiset.coe_eq_coe, coe_flatMap, Choice.tree,
    total_collapse Query.addsUp_scopes (.inr rfl)]
  exact c.total_trees Query.addsUp_scopes

/-- Parentheses do not change the field names. -/
theorem Choice.scopes_append_grouped (c : Choice) (t : Sequence) :
    (c.append t.grouped).tree.scopes.Perm (c.append t).tree.scopes := by
  refine (Choice.scopes_perm_tokens _).trans (.trans ?_ (Choice.scopes_perm_tokens _).symm)
  have hgroup : t.grouped.tokens = .openGroup :: t.tokens ++ [.closeGroup] := rfl
  rw [c.tokens_append, c.tokens_append, hgroup]
  simp [List.filterMap_cons, Token.fieldName?]

end Derivation

namespace Searcher

variable {s : Searcher} {text : String} {f : Filter}

/-- A text that compiles has a filter if no field name is refused. -/
theorem exists_filterOf_iff {q : Query} (h : compile text = .ok q) :
    (∃ f, s.filterOf text = .ok f) ↔ ∀ name ∈ q.scopes, s.schema.refuses name = false := by
  simp [filterOf_eq_ok_iff, h, Filter.ofQuery_eq_ok_iff]

theorem accepts_iff_holds {c : Choice} (h : compile text = .ok c.tree)
    (hf : s.filterOf text = .ok f) (doc : Json) :
    f.accepts doc = true ↔ c.Holds s.schema doc .anywhere := by
  obtain ⟨q, hq, hlower⟩ := filterOf_eq_ok_iff.1 hf
  cases h.symm.trans hq
  rw [Query.accepts_of_lowerIn _ hlower, c.holds_tree_iff]

end Searcher

/-- Exclusions behind a text compile, on their own and in a group, and under every schema both are
lowered or neither is. Their filters agree on a document just if there is a single exclusion, or an
earlier sequence of the text is true, or the last sequence has a restriction that is not met, or it
has no alternatives, or one of these is true just when all the exclusions are. -/
theorem besideGroup_agrees_iff {text : String} {lexemes : List Lexeme} {c : Choice}
    {xs : List String} {es : List Primary} (htokens : tokenize text = .ok lexemes)
    (hc : c.Derives lexemes) (hxs : List.Forall₂ Excludes xs es) (hne : xs ≠ [])
    (hopen : OpensAtMost 127 (beside text xs)) :
    (∃ q, compile (beside text xs) = .ok q) ∧ (∃ q, compile (besideGroup text xs) = .ok q) ∧
      ∀ s : Searcher,
        ((∃ f, s.filterOf (beside text xs) = .ok f) ↔
          ∃ g, s.filterOf (besideGroup text xs) = .ok g) ∧
        ∀ f g, s.filterOf (beside text xs) = .ok f → s.filterOf (besideGroup text xs) = .ok g →
          ∀ doc, f.accepts doc = g.accepts doc ↔
            xs.length = 1 ∨
            (∃ q ∈ c.earlier, Together (q.neighbours s.schema doc .anywhere)) ∨
            (∃ n ∈ c.last.neighbours s.schema doc .anywhere, ¬ n.IsAlternative ∧ ¬ n.Met) ∨
            (∀ n ∈ c.last.neighbours s.schema doc .anywhere, ¬ n.IsAlternative) ∨
            ((∃ n ∈ c.last.neighbours s.schema doc .anywhere, n.IsAlternative ∧ n.truth) ↔
              ∀ e ∈ es, ¬ e.Holds s.schema doc .anywhere) := by
  cases hxs with
  | nil => exact absurd rfl hne
  | @cons x p xs es hx hmore =>
    have hall := List.Forall₂.cons hx hmore
    have hflat := writes_beside hc htokens hall
    have hgroup := writes_besideGroup hc htokens hall
    have hnesting := nesting_le_of_spells hflat.spells hopen
    rw [Choice.nesting_append] at hnesting
    have hmax : maxNesting = 128 := rfl
    have hflatc := hflat.compile_eq (by omega) rfl
    have hgroupc := hgroup.compile_eq (by omega) rfl
    refine ⟨⟨_, hflatc⟩, ⟨_, hgroupc⟩, fun s => ⟨?_, fun f g hf hg doc => ?_⟩⟩
    · rw [Searcher.exists_filterOf_iff hflatc, Searcher.exists_filterOf_iff hgroupc]
      exact forall_congr' fun name => imp_congr_left (c.scopes_append_grouped _).mem_iff.symm
    · have hlength : (x :: xs).length = 1 ↔ es = [] := by
        rw [hall.length_eq, List.length_cons, Nat.add_eq_right, List.length_eq_zero_iff]
      rw [Bool.eq_iff_iff, Searcher.accepts_iff_holds hflatc hf,
        Searcher.accepts_iff_holds hgroupc hg, c.holds_append, c.holds_append, hlength]
      exact together_grouped_iff _

theorem besideGroup_agrees_iff_scoped :
    ∃ f g, (Searcher.ofSchema .standard).filterOf (beside "u OR +r a" ["-b", "-t:c"]) = .ok f ∧
      (Searcher.ofSchema .standard).filterOf (besideGroup "u OR +r a" ["-b", "-t:c"]) = .ok g ∧
      ∀ doc, f.accepts doc = g.accepts doc ↔
        Found .standard doc .anywhere ["u"] ∨ ¬ Found .standard doc .anywhere ["r"] ∨
          (Found .standard doc .anywhere ["a"] ↔
            ¬ Found .standard doc .anywhere ["b"] ∧ ¬ Found .standard doc (.field "t") ["c"]) := by
  have htokens : tokenize "u OR +r a" = .ok [⟨.word "u", 0⟩, ⟨.or, 2⟩, ⟨.require, 5⟩,
      ⟨.word "r", 6⟩, ⟨.word "a", 8⟩, ⟨.finish, 9⟩] := by decide +kernel
  let c : Choice := .more (.one (.one (.plain (.word "u")))) (.one (.more
    (.one (.required (.word "r"))) (.one (.one (.plain (.word "a"))))))
  have hc : c.Derives [⟨.word "u", 0⟩, ⟨.or, 2⟩, ⟨.require, 5⟩, ⟨.word "r", 6⟩, ⟨.word "a", 8⟩,
      ⟨.finish, 9⟩] := by
    refine ⟨rfl, ⟨?_, ?_⟩, ⟨trivial, trivial, trivial⟩, by decide⟩
    · simp [Lexeme.Binds, Token.prefixWidth?, Token.startsOperand]
    · simp [Token.Spoken]
  have hb : Excludes "-b" (.word "b") :=
    excludes_of_writes (.word (by decide : IsTerm "b")) (by decide) rfl rfl
  have ht : Excludes "-t:c" (.scoped "t" (.word "c")) :=
    excludes_of_writes (.field (by decide : IsName "t") (.word (by decide : IsTerm "c")))
      (by decide) rfl rfl
  have hxs := List.Forall₂.cons hb (.cons ht .nil)
  have hopen : OpensAtMost 127 (beside "u OR +r a" ["-b", "-t:c"]) :=
    (writes_beside hc htokens hxs).opensAtMost (by decide) rfl (by decide)
  obtain ⟨-, -, hagrees⟩ := besideGroup_agrees_iff htokens hc hxs (by simp) hopen
  have hflat := (writes_beside hc htokens hxs).compile_eq (by decide) rfl
  have hf : ∃ f, (Searcher.ofSchema .standard).filterOf (beside "u OR +r a" ["-b", "-t:c"]) =
      .ok f :=
    (Searcher.exists_filterOf_iff hflat).2 fun _ _ => Schema.refuses_eq_false_iff.2 (.inl rfl)
  obtain ⟨g, hg⟩ := (hagrees _).1.1 hf
  obtain ⟨f, hf⟩ := hf
  refine ⟨f, g, hf, hg, fun doc => ((hagrees _).2 f g hf hg doc).trans ?_⟩
  have hschema : (Searcher.ofSchema .standard).schema = .standard := rfl
  have hfield : Schema.standard.resolve "t" = .ok "t" := rfl
  simp [c, hschema, hfield, Choice.earlier, Choice.last, together_iff, Neighbour.IsAlternative,
    Neighbour.Met, Query.isNegation]

/-- Two exclusions in a group become one more alternative, which a document without any of the words
satisfies. -/
theorem besideGroup_disagrees :
    compile "a" = .ok (.term "a") ∧
      List.Forall₂ Excludes ["-b", "-c"] [.word "b", .word "c"] ∧
      OpensAtMost 127 (beside "a" ["-b", "-c"]) ∧
      ∃ f g, (Searcher.ofSchema .standard).filterOf (beside "a" ["-b", "-c"]) = .ok f ∧
        (Searcher.ofSchema .standard).filterOf (besideGroup "a" ["-b", "-c"]) = .ok g ∧
        f.accepts (.object []) = false ∧ g.accepts (.object []) = true := by
  have hb : Excludes "-b" (.word "b") :=
    excludes_of_writes (.word (by decide : IsTerm "b")) (by decide) rfl rfl
  have hc : Excludes "-c" (.word "c") :=
    excludes_of_writes (.word (by decide : IsTerm "c")) (by decide) rfl rfl
  have hxs := List.Forall₂.cons hb (.cons hc .nil)
  have ha := (Primary.Writes.word (by decide : IsTerm "a")).alone
  obtain ⟨lexemes, htokens, hderives⟩ := ha.exists_derives (by decide) rfl
  have hflat := writes_beside hderives htokens hxs
  have hgroup := writes_besideGroup hderives htokens hxs
  have hnames : ∀ name, (Searcher.ofSchema .standard).schema.refuses name = false :=
    fun _ => Schema.refuses_eq_false_iff.2 (.inl rfl)
  obtain ⟨hf, -⟩ := Searcher.translated (hflat.compile_eq (by decide) rfl) fun name _ => hnames name
  obtain ⟨hg, -⟩ := Searcher.translated (hgroup.compile_eq (by decide) rfl) fun name _ => hnames name
  exact ⟨ha.compile_eq (by decide) rfl, hxs, hflat.opensAtMost (by decide) rfl (by decide),
    _, _, hf, hg, by decide +kernel, by decide +kernel⟩

end TextQuery
