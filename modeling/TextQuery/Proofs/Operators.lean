import TextQuery.Proofs.CompiledTrees
import TextQuery.Proofs.Conservation

/-!
# Operators in filter documents

A filter document is made of operators, which only the target puts there, and of clauses on paths.
A path is one of the schema's own or a field name of the query text that the schema lets through as
it is. No strict schema lets a name through that it does not know, so that if the schema's own paths
do not look like operators, nothing in the text makes one under a strict schema, and under another
schema nothing but a field name that looks like one.
-/
namespace TextQuery

namespace Mongo

/-- Whether a key of a filter document is taken for an operator. -/
def IsOperator (key : String) : Prop :=
  key.toList.head? = some '$'

instance : DecidablePred IsOperator := fun key =>
  inferInstanceAs (Decidable (key.toList.head? = some '$'))

/-- The filter documents whose clauses are on paths that satisfy `P`, and whose operators all have
something to operate on. -/
inductive IsDocument (P : String → Prop) : Json → Prop where
  | all {parts : List Json} (ne : parts ≠ []) (h : ∀ part ∈ parts, IsDocument P part) :
      IsDocument P (.object [("$and", .array parts)])
  | any {parts : List Json} (ne : parts ≠ []) (h : ∀ part ∈ parts, IsDocument P part) :
      IsDocument P (.object [("$or", .array parts)])
  | exclude {inner : Json} (h : IsDocument P inner) :
      IsDocument P (.object [("$nor", .array [inner])])
  | nothing : IsDocument P (.object [("$expr", .bool false)])
  | clause {path : String} (pattern : String) (h : P path) :
      IsDocument P (.object [(path, .object [("$options", .string "i"),
        ("$regex", .string pattern)])])

variable {P : String → Prop}

/-- The one key of a filter document is an operator of the target or a path. -/
theorem IsDocument.key {key : String} {value : Json} (h : IsDocument P (.object [(key, value)])) :
    key ∈ ["$and", "$or", "$nor", "$expr"] ∨ P key := by
  generalize hd : Json.object [(key, value)] = doc at h
  cases h with
  | all | any | exclude | nothing =>
    simp only [Json.object.injEq, List.cons.injEq, Prod.mk.injEq] at hd
    exact .inl (by simp [hd.1.1])
  | clause pattern hpath =>
    simp only [Json.object.injEq, List.cons.injEq, Prod.mk.injEq] at hd
    exact .inr (hd.1.1 ▸ hpath)

/-- The clause for some words searches each of the fields. -/
theorem isDocument_clause {fields : List String} (words : List String)
    (h : ∀ path ∈ fields, P path) : IsDocument P (clause fields words) := by
  match fields with
  | [] => exact .nothing
  | [path] => exact .clause _ (h path List.mem_cons_self)
  | first :: second :: more =>
    refine .any (by simp) ?_
    intro part hpart
    obtain ⟨path, hpath, rfl⟩ := List.mem_map.1 hpart
    exact .clause _ (h path hpath)

end Mongo

theorem Query.length_lowerList {P : Type} {t : Target (Except UnknownField) P} {scope : Scope}
    {qs : List Query} {ps : List P} (h : lowerList t scope qs = .ok ps) :
    ps.length = qs.length := by
  induction qs generalizing ps with
  | nil =>
    cases h
    rfl
  | cons q qs ih =>
    obtain ⟨p, -, h⟩ := Except.bind_eq_ok_iff.1 h
    obtain ⟨rest, hrest, h⟩ := Except.bind_eq_ok_iff.1 h
    cases h
    rw [List.length_cons, List.length_cons, ih hrest]

section
variable {s : Schema} {P : String → Prop}

/-- Every path that a field name of `names` is resolved to satisfies `P`. -/
def Schema.ResolvesInto (s : Schema) (P : String → Prop) (names : List String) : Prop :=
  ∀ name ∈ names, ∀ path, s.resolve name = .ok path → P path

mutual

theorem Query.isDocument_of_lowerIn (q : Query) (hq : q.WellFormed)
    (hnames : s.ResolvesInto P q.scopes) {scope : Scope} (hscope : ∀ path ∈ s.fieldsFor scope, P path)
    {d : Json} (h : q.lowerIn (Mongo.target s) scope = .ok d) : Mongo.IsDocument P d := by
  match q with
  | .term word =>
    cases h
    exact Mongo.isDocument_clause _ hscope
  | .phrase words =>
    cases h
    exact Mongo.isDocument_clause _ hscope
  | .within field inner =>
    obtain ⟨path, hpath, hinner⟩ := Except.bind_eq_ok_iff.1 h
    obtain ⟨hfield, hnames⟩ := List.forall_mem_cons.1 hnames
    obtain ⟨-, hwell⟩ := everywhere_iff.1 hq
    refine inner.isDocument_of_lowerIn (hwell inner List.mem_cons_self) hnames ?_ hinner
    exact List.forall_mem_singleton.2 (hfield path hpath)
  | .exclude inner =>
    obtain ⟨part, hpart, hd⟩ := Except.bind_eq_ok_iff.1 h
    cases hd
    obtain ⟨-, hwell⟩ := everywhere_iff.1 hq
    exact .exclude (inner.isDocument_of_lowerIn (hwell inner List.mem_cons_self) hnames hscope hpart)
  | .all qs =>
    obtain ⟨parts, hparts, hd⟩ := Except.bind_eq_ok_iff.1 h
    cases hd
    obtain ⟨htwo, hwell⟩ := everywhere_iff.1 hq
    refine .all ?_ (Query.isDocument_of_lowerList qs hwell hnames hscope hparts)
    exact List.ne_nil_of_length_pos (length_lowerList hparts ▸ Nat.lt_of_lt_of_le Nat.two_pos htwo)
  | .any qs =>
    obtain ⟨parts, hparts, hd⟩ := Except.bind_eq_ok_iff.1 h
    cases hd
    obtain ⟨htwo, hwell⟩ := everywhere_iff.1 hq
    refine .any ?_ (Query.isDocument_of_lowerList qs hwell hnames hscope hparts)
    exact List.ne_nil_of_length_pos (length_lowerList hparts ▸ Nat.lt_of_lt_of_le Nat.two_pos htwo)

theorem Query.isDocument_of_lowerList (qs : List Query) (hqs : ∀ q ∈ qs, q.WellFormed)
    (hnames : s.ResolvesInto P (scopesList qs)) {scope : Scope}
    (hscope : ∀ path ∈ s.fieldsFor scope, P path) {ds : List Json}
    (h : lowerList (Mongo.target s) scope qs = .ok ds) : ∀ d ∈ ds, Mongo.IsDocument P d := by
  match qs with
  | [] =>
    cases h
    exact fun _ hd => absurd hd List.not_mem_nil
  | q :: qs =>
    obtain ⟨d, hd, h⟩ := Except.bind_eq_ok_iff.1 h
    obtain ⟨rest, hrest, h⟩ := Except.bind_eq_ok_iff.1 h
    cases h
    obtain ⟨hq, hqs⟩ := List.forall_mem_cons.1 hqs
    obtain ⟨hfirst, hnames⟩ := List.forall_mem_append.1 hnames
    exact List.forall_mem_cons.2 ⟨q.isDocument_of_lowerIn hq hfirst hscope hd,
      Query.isDocument_of_lowerList qs hqs hnames hscope hrest⟩

end

end

/-- The field names of a query are written in the text that it is derived from. -/
theorem Derivation.Choice.Derives.field_mem {c : Derivation.Choice} {lexemes : List Lexeme}
    {name : String} (h : c.Derives lexemes) (hname : name ∈ c.tree.scopes) :
    ∃ l ∈ lexemes, l.token = .field name := by
  obtain ⟨l, hl, hfield⟩ := List.mem_filterMap.1 (h.scopes_perm.mem_iff.1 hname)
  obtain ⟨token, position⟩ := l
  cases token <;> cases hfield
  exact ⟨_, hl, rfl⟩

section
variable {s : Schema}

/-- The schema's own paths do not look like operators. -/
structure Schema.IsPlain (s : Schema) : Prop where
  fields : ∀ path ∈ s.defaultFields, ¬ Mongo.IsOperator path
  aliases : ∀ a ∈ s.aliases, ¬ Mongo.IsOperator a.2

/-- A plain schema resolves a name to a path that does not look like an operator, or else it is not
strict and lets the name through as it is. -/
theorem Schema.IsPlain.resolve (h : s.IsPlain) {name path : String}
    (hpath : s.resolve name = .ok path) : ¬ Mongo.IsOperator path ∨
      s.strict = false ∧ s.aliases.lookup path = none ∧ path = name := by
  unfold Schema.resolve at hpath
  cases hlookup : s.aliases.lookup name with
  | some target =>
    rw [hlookup] at hpath
    cases hpath
    obtain ⟨before, after, haliases, -⟩ := List.lookup_eq_some_iff.1 hlookup
    have hmem : (name, path) ∈ s.aliases := by simp [haliases]
    exact .inl (h.aliases _ hmem)
  | none =>
    rw [hlookup] at hpath
    dsimp only at hpath
    split at hpath
    · cases hpath
    · next hlenient =>
      cases hpath
      cases hstrict : s.strict with
      | false => exact .inr ⟨rfl, hlookup, rfl⟩
      | true =>
        have hknown : s.knows name = true := by simpa [hstrict] using hlenient
        simp only [Schema.knows, Bool.or_eq_true, List.contains_iff_mem, List.any_eq_true,
          beq_iff_eq] at hknown
        rcases hknown with hfield | ⟨a, ha, rfl⟩
        · exact .inl (h.fields _ hfield)
        · exact .inl (h.aliases a ha)

end

theorem Searcher.mongoFilterOf_eq_ok_iff {s : Searcher} {text : String} {d : Json} :
    s.mongoFilterOf text = .ok d ↔
      ∃ q, compile text = .ok q ∧ Mongo.ofQuery s.schema q = .ok d :=
  lowered_eq_ok_iff

/-- The filter document of a text is made of the target's operators and of clauses on paths. Only a
field name that is written in the text can be a path that looks like an operator, and only if the
schema is not strict and has no alias of that name. -/
theorem isDocument_of_mongoFilterOf {s : Searcher} {text : String} {d : Json}
    (hplain : s.schema.IsPlain) (h : s.mongoFilterOf text = .ok d) :
    ∃ lexemes, tokenize text = .ok lexemes ∧
      Mongo.IsDocument (fun path => ¬ Mongo.IsOperator path ∨ s.schema.strict = false ∧
        s.schema.aliases.lookup path = none ∧ ∃ l ∈ lexemes, l.token = .field path) d := by
  obtain ⟨q, hq, hd⟩ := Searcher.mongoFilterOf_eq_ok_iff.1 h
  obtain ⟨lexemes, htokens, c, hc, rfl⟩ := compile_eq_ok_iff_derives.1 hq
  refine ⟨lexemes, htokens, Query.isDocument_of_lowerIn _ (hc.wellFormed_tree htokens) ?_ ?_ hd⟩
  · intro name hname path hpath
    rcases hplain.resolve hpath with hplain | ⟨hstrict, hlookup, rfl⟩
    · exact .inl hplain
    · exact .inr ⟨hstrict, hlookup, hc.field_mem hname⟩
  · exact fun path hpath => .inl (hplain.fields path hpath)

/-- A field name that looks like an operator becomes a key of the filter document. -/
theorem mongoFilterOf_where :
    Schema.standard.IsPlain ∧
      (Searcher.ofSchema .standard).mongoFilterOf "$where:x" = .ok (.object [("$where",
        .object [("$options", .string "i"), ("$regex", .string "\\bx\\b")])]) ∧
      ¬ Mongo.IsDocument (fun path => ¬ Mongo.IsOperator path) (.object [("$where",
        .object [("$options", .string "i"), ("$regex", .string "\\bx\\b")])]) := by
  have hquery : compile "$where:x" = .ok (.within "$where" (.term "x")) := by decide +kernel
  refine ⟨⟨by decide, by decide⟩, Searcher.mongoFilterOf_eq_ok_iff.2 ⟨_, hquery, rfl⟩, fun h => ?_⟩
  rcases h.key with hkey | hkey
  · simp at hkey
  · exact hkey (by decide)

theorem isDocument_of_mongoFilterOf_mixed :
    let s := Searcher.ofSchema .standard
    let text := "-title:(a b) $c:\"d e\""
    ∃ d, s.schema.IsPlain ∧ s.mongoFilterOf text = .ok d ∧
      ∃ lexemes, tokenize text = .ok lexemes ∧
        Mongo.IsDocument (fun path => ¬ Mongo.IsOperator path ∨ s.schema.strict = false ∧
          s.schema.aliases.lookup path = none ∧ ∃ l ∈ lexemes, l.token = .field path) d := by
  intro s text
  have hplain : s.schema.IsPlain := ⟨by decide, by decide⟩
  have hquery : compile text = .ok (.all [.exclude (.within "title" (.any [.term "a", .term "b"])),
      .within "$c" (.phrase ["d", "e"])]) := by decide +kernel
  have h : s.mongoFilterOf text = .ok _ := Searcher.mongoFilterOf_eq_ok_iff.2 ⟨_, hquery, rfl⟩
  exact ⟨_, hplain, h, isDocument_of_mongoFilterOf hplain h⟩

end TextQuery
