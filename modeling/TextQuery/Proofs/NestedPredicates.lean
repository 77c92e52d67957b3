import TextQuery.Command.Run
import TextQuery.Proofs.Depth
import TextQuery.Proofs.GroupedExclusions
import TextQuery.Proofs.JsonNesting

/-!
# How deep predicates are written

In the JSON of a filter a word or phrase is three levels deep, an exclusion adds one level and a
combination two. So each group or field scope around a word adds up to nine levels, and there are
texts that reach this bound, whatever the number of groups. The reader of JSON goes less deep than
that long before the reader of queries does: the limit on groups does not make it sure that a
predicate can be read again.
-/
namespace TextQuery

/-- The levels of what is written, in which scopes do not show. -/
def Query.Levels.written : Query.Levels :=
  ⟨3, 0, 1, 2, by decide⟩

namespace Filter

/-- A tag around the arguments of an operator is one more object. -/
theorem nesting_tagged (op : String) (args : Json) :
    (tagged op args).nesting = args.nesting + 1 := by
  simp [tagged]

section
variable (s : Schema) (rename : String → String)

mutual

/-- A filter is written as deep as its query is high. -/
theorem nesting_toJson_fold (scope : Scope) (q : Query) :
    (q.fold (constructors s) rename scope).toJson.nesting = q.height .written := by
  match q with
  | .term word =>
    change (tagged "contains" _).nesting = 3
    rw [nesting_tagged]
    simp
  | .phrase words =>
    change (tagged "sequence" _).nesting = 3
    rw [nesting_tagged]
    simp
  | .within field inner => exact nesting_toJson_fold (.field (rename field)) inner
  | .exclude inner =>
    have hinner := nesting_toJson_fold scope inner
    change (tagged "not" _).nesting = inner.height .written + 1
    rw [nesting_tagged, hinner]
  | .all qs =>
    have hlist := nestingList_toJsonList_fold scope qs
    change (tagged "and" (.array _)).nesting = Query.heightList .written qs + 2
    rw [nesting_tagged, Json.nesting, hlist]
  | .any qs =>
    have hlist := nestingList_toJsonList_fold scope qs
    change (tagged "or" (.array _)).nesting = Query.heightList .written qs + 2
    rw [nesting_tagged, Json.nesting, hlist]

theorem nestingList_toJsonList_fold (scope : Scope) (qs : List Query) :
    Json.nestingList (toJsonList (Query.foldList (constructors s) rename scope qs)) =
      Query.heightList .written qs := by
  match qs with
  | [] => rfl
  | q :: qs =>
    rw [Query.foldList, toJsonList, Json.nestingList, Query.heightList,
      nesting_toJson_fold scope q, nestingList_toJsonList_fold scope qs]

end

end

theorem nesting_toJson_ofQuery {s : Schema} {q : Query} {f : Filter} (h : ofQuery s q = .ok f) :
    f.toJson.nesting = q.height .written := by
  rw [← (ofQuery_eq_ok_iff.1 h).2]
  exact nesting_toJson_fold s s.pathOf .anywhere q

end Filter

/-- A text with all levels around its last operand that need no group. -/
def textAround (operand : String) : String :=
  "a OR -b c d AND -" ++ operand

/-- A text that opens `n` groups, with all levels around each of them. -/
def deepestText : Nat → String
  | 0 => textAround "e"
  | n + 1 => textAround ("(" ++ deepestText n ++ ")")

example : deepestText 1 = "a OR -b c d AND -(a OR -b c d AND -e)" := rfl

namespace Query

def around (q : Query) : Query :=
  .any [.term "a", .all [.exclude (.term "b"), .any [.term "c", .all [.term "d", .exclude q]]]]

def deepest : Nat → Query
  | 0 => around (.term "e")
  | n + 1 => around (deepest n)

variable {l : Levels} {q : Query}

theorem height_around (h : l.leaf ≤ q.height l) : q.around.height l = q.height l + l.perGroup := by
  simp only [around, height, heightList, Levels.perGroup]
  omega

theorem height_deepest (l : Levels) (n : Nat) :
    (deepest n).height l = l.perGroup * (n + 1) + l.leaf := by
  induction n with
  | zero =>
    rw [deepest, height_around le_rfl, height]
    omega
  | succ n ih =>
    rw [deepest, height_around (by rw [ih]; exact Nat.le_add_left _ _), ih, Nat.mul_succ _ (n + 1)]
    omega

theorem scopes_deepest (n : Nat) : (deepest n).scopes = [] := by
  induction n with
  | zero => rfl
  | succ n ih => simp [deepest, around, ih]

end Query

namespace Derivation

/-- The operand with all levels around it that need no group. -/
def Choice.around (p : Primary) : Choice :=
  .more (.one (.one (.plain (.word "a")))) (.one (.more (.one (.excluded (.word "b")))
    (.more (.one (.plain (.word "c"))) (.one (.more (.plain (.word "d")) (.one (.excluded p)))))))

variable {p : Primary} {q : Query} {text : String} {n : Nat}

theorem Primary.Writes.around (h : p.Writes q text.toList n) (hq : q.isExclusion = false) :
    (Choice.around p).Writes q.around (textAround text).toList n := by
  have hword : ∀ w, IsTerm w → (Primary.word w).Writes (.term w) w.toList 0 := fun w => .word
  have hlast : Spells (" AND ".toList ++ '-' :: text.toList) (.and :: .exclude :: p.tokens) :=
    .cons_free .and rfl trivial (h.excluded hq).spells
  have hchain := (hword "d" (by decide)).spells.append hlast fun rest => closes_keyword
  have hexcluded := ((hword "b" (by decide)).excluded rfl).spells
  have hsequence := hexcluded.beside ((hword "c" (by decide)).spells.beside hchain)
  have hchoice := (hword "a" (by decide)).spells.append
    (.cons_free .or rfl trivial hsequence) fun rest => closes_keyword
  refine ⟨?_, ⟨trivial, ⟨trivial, rfl⟩, trivial, trivial, h.excludesOnce, ?_⟩, ?_, ?_⟩
  · rw [← h.tree]
    rfl
  · rw [h.tree]
    exact hq
  · simpa [Choice.around] using h.nesting
  · have htext : (textAround text).toList = "a OR -b c d AND -".toList ++ text.toList :=
      String.toList_append
    rw [htext]
    exact hchoice

/-- By induction on the number of groups, each of which writes all levels around the one inside. -/
theorem exists_writes_deepestText (n : Nat) :
    ∃ c : Choice, c.Writes (Query.deepest n) (deepestText n).toList n := by
  induction n with
  | zero =>
    have hword : (Primary.word "e").Writes (.term "e") "e".toList 0 := .word (by decide)
    exact ⟨_, hword.around rfl⟩
  | succ n ih =>
    obtain ⟨c, hc⟩ := ih
    have hgroup : (Primary.group c).Writes (Query.deepest n)
        ("(" ++ deepestText n ++ ")").toList (n + 1) := by
      rw [String.toList_append, String.toList_append]
      exact hc.group
    have hexclusion : (Query.deepest n).isExclusion = false := by
      cases n with
      | zero => rfl
      | succ n => rfl
    exact ⟨_, hgroup.around hexclusion⟩

end Derivation

open TextQuery.Derivation

theorem compile_deepestText {n : Nat} (hn : n ≤ maxNesting) :
    compile (deepestText n) = .ok (Query.deepest n) ∧ OpensAtMost n (deepestText n) := by
  obtain ⟨c, hc⟩ := exists_writes_deepestText n
  exact ⟨hc.compile_eq hn rfl, hc.opensAtMost hn rfl le_rfl⟩

/-- Every schema takes the deepest texts, as they name no field. -/
theorem exists_ofQuery_deepest (s : Schema) (n : Nat) :
    ∃ f, Filter.ofQuery s (Query.deepest n) = .ok f ∧ f.toJson.nesting = 9 * n + 12 := by
  have hf : Filter.ofQuery s (Query.deepest n) = .ok (Filter.fold s (Query.deepest n)) := by
    rw [Filter.ofQuery_eq_ok_iff, Query.scopes_deepest]
    exact ⟨nofun, rfl⟩
  refine ⟨_, hf, ?_⟩
  rw [Filter.nesting_toJson_ofQuery hf, Query.height_deepest]
  change 9 * (n + 1) + 3 = 9 * n + 12
  omega

/-- A predicate is written at most nine levels deeper for each group or field scope that is open at
once, and twelve for the rest. So with at most twelve of them neither the predicate nor the object
that it is printed in goes deeper than the reader of JSON. The bound is reached for any number of
groups, and from thirteen on there are predicates that no text is read as. -/
theorem nesting_toJson_le_of_compile (s : Searcher) :
    (∀ (text : String) (q : Query) (f : Filter), compile text = .ok q →
      Filter.ofQuery s.schema q = .ok f →
      (∀ n, OpensAtMost n text → f.toJson.nesting ≤ 9 * n + 12) ∧
      (OpensAtMost 12 text → f.toJson.nesting < Json.maxDepth) ∧
      f.toJson.nesting ≤ 9 * maxNesting + 12 ∧
      ∃ j, Command.checkResult s text .filter = .ok j ∧ j.member? "predicate" = some f.toJson ∧
        j.nesting = f.toJson.nesting + 1) ∧
    ∀ n ≤ maxNesting, ∃ q f, compile (deepestText n) = .ok q ∧ OpensAtMost n (deepestText n) ∧
      Filter.ofQuery s.schema q = .ok f ∧ f.toJson.nesting = 9 * n + 12 ∧
      (12 < n → ∀ text, Json.ofText? text ≠ some f.toJson) := by
  constructor
  · intro text q f hq hf
    have hheight := Filter.nesting_toJson_ofQuery hf
    have hbound : ∀ n, OpensAtMost n text → f.toJson.nesting ≤ 9 * n + 12 := by
      intro n hopen
      obtain ⟨c, hc⟩ := exists_choice_writes hq hopen
      have htree : c.tree.height .written ≤ 9 * (n + 1) + 3 := c.height_tree_le hc.nesting
      rw [hc.tree] at htree
      omega
    have hany : OpensAtMost maxNesting text := by
      obtain ⟨lexemes, htokens, c, hc, -⟩ := compile_eq_ok_iff_derives.1 hq
      exact ⟨lexemes, htokens, c, hc, hc.nesting⟩
    have hresult : Command.checkResult s text .filter =
        .ok (.object [("tree", .string q.render), ("predicate", f.toJson)]) := by
      simp [Command.checkResult, hq, hf, Except.map]
    refine ⟨hbound, ?_, hbound maxNesting hany, _, hresult, rfl, ?_⟩
    · intro hopen
      exact Nat.lt_of_le_of_lt (hbound 12 hopen) (by decide)
    · simp
  · intro n hn
    obtain ⟨hq, hopen⟩ := compile_deepestText hn
    obtain ⟨f, hf, hnesting⟩ := exists_ofQuery_deepest s.schema n
    refine ⟨_, f, hq, hopen, hf, hnesting, ?_⟩
    intro hlt
    apply Json.ofText?_ne_some
    unfold Json.maxDepth
    omega

theorem nesting_toJson_le_of_compile_scoped :
    let s := Searcher.ofSchema .standard
    let text := "title:(a -b)"
    let q : Query := .within "title" (.all [.term "a", .exclude (.term "b")])
    let path := "fields.title.value"
    let f : Filter := .all [.contains [path] "a", .not (.contains [path] "b")]
    compile text = .ok q ∧ Filter.ofQuery s.schema q = .ok f ∧
      OpensAtMost 2 text ∧ f.toJson.nesting ≤ 9 * 2 + 12 ∧
      OpensAtMost 12 text ∧ f.toJson.nesting < Json.maxDepth ∧
      13 ≤ maxNesting ∧ ∃ q f, compile (deepestText 13) = .ok q ∧
        Filter.ofQuery s.schema q = .ok f ∧ f.toJson.nesting = 9 * 13 + 12 ∧
        12 < 13 ∧ ∀ text, Json.ofText? text ≠ some f.toJson := by
  intro s text q path f
  have ha : (Primary.word "a").Writes (.term "a") "a".toList 0 := .word (by decide)
  have hb : (Primary.word "b").Writes (.term "b") "b".toList 0 := .word (by decide)
  have hname : IsName "title" := by decide
  have hwrites := ((ha.alone.beside (hb.excluded rfl)).group.field hname).alone
  have hq : compile text = .ok q := hwrites.compile_eq (by decide) (by simp [text])
  have hopen : ∀ n, 2 ≤ n → OpensAtMost n text :=
    fun n hn => hwrites.opensAtMost (by decide) (by simp [text]) hn
  have hf : Filter.ofQuery s.schema q = .ok f := rfl
  obtain ⟨hpredicate, hdeepest⟩ := nesting_toJson_le_of_compile s
  obtain ⟨hbound, hread, -⟩ := hpredicate text q f hq hf
  obtain ⟨q', f', hq', -, hf', hnesting, hunread⟩ := hdeepest 13 (by decide)
  have hopen₂ := hopen 2 (by decide)
  have hopen₁₂ := hopen 12 (by decide)
  exact ⟨hq, hf, hopen₂, hbound 2 hopen₂, hopen₁₂, hread hopen₁₂, by decide, q', f', hq', hf',
    hnesting, by decide, hunread (by decide)⟩

/-- With thirteen groups a predicate may be deeper than anything that is read. -/
theorem maxDepth_lt_nesting_deepest : ∃ q f, compile (deepestText 13) = .ok q ∧
    Filter.ofQuery .standard q = .ok f ∧ f.toJson.nesting = 129 ∧ Json.maxDepth < 128 ∧
    ∀ text, Json.ofText? text ≠ some f.toJson := by
  obtain ⟨f, hf, hnesting⟩ := exists_ofQuery_deepest .standard 13
  refine ⟨_, f, (compile_deepestText (by decide)).1, hf, hnesting, by decide, ?_⟩
  apply Json.ofText?_ne_some
  rw [hnesting]
  decide

end TextQuery
