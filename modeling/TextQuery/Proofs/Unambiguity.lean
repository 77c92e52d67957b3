import Mathlib.Data.List.TakeWhile
import TextQuery.Proofs.CompiledTrees

/-!
# The canonical text tells the query

A well-formed query can be read off the front of a text that begins with its canonical text, if
what follows is the end or could follow a member of a call. The form of the query is told by what
ends the first word of the text; in each form the parts are delimited one after another.
-/
namespace TextQuery

/-- The body of a phrase ends at the first quote without a backslash, and tells its text. -/
theorem Unescapes.eq_of_append_quote {body text body' text' rest rest' : List Char}
    (hbody : Unescapes body text) (hbody' : Unescapes body' text')
    (h : body ++ '"' :: rest = body' ++ '"' :: rest') : text = text' ∧ rest = rest' := by
  induction hbody generalizing body' text' with
  | nil =>
    cases hbody' with
    | nil => exact ⟨rfl, (List.cons.inj h).2⟩
    | plain hquote hslash tail => exact absurd (List.cons.inj h).1.symm hquote
    | escaped tail => cases (List.cons.inj h).1
  | @plain c body text hquote hslash tail ih =>
    cases hbody' with
    | nil => exact absurd (List.cons.inj h).1 hquote
    | plain hquote' hslash' tail' =>
      obtain ⟨rfl, heq⟩ := List.cons.inj h
      obtain ⟨rfl, hrest⟩ := ih tail' heq
      exact ⟨rfl, hrest⟩
    | escaped tail' => exact absurd (List.cons.inj h).1 hslash
  | @escaped c body text tail ih =>
    cases hbody' with
    | nil => cases (List.cons.inj h).1
    | plain hquote' hslash' tail' => exact absurd (List.cons.inj h).1.symm hslash'
    | escaped tail' =>
      obtain ⟨rfl, heq⟩ := List.cons.inj (List.cons.inj h).2
      obtain ⟨rfl, hrest⟩ := ih tail' heq
      exact ⟨rfl, hrest⟩

theorem unescapes_escapeInPhrase (text : List Char) :
    Unescapes (Query.escapeInPhrase text) text := by
  induction text with
  | nil => exact .nil
  | cons c text ih =>
    rw [Scanner.escapeInPhrase_cons]
    by_cases hc : c = '"' ∨ c = '\\'
    · rw [if_pos (by simpa using hc)]
      exact ih.escaped
    · rw [if_neg (by simpa using hc)]
      exact ih.plain (fun h => hc (.inl h)) (fun h => hc (.inr h))

namespace Query

/-- The end of the text, or what follows a member of a call. -/
def Follows (rest : List Char) : Prop :=
  rest = [] ∨ (∃ more, rest = ')' :: more) ∨ ∃ more, rest = ',' :: ' ' :: more

theorem follows_nil : Follows [] :=
  .inl rfl

/-- A comma could go on a word, but not with the blank that is behind it. -/
theorem eq_nil_of_follows {cs rest : List Char} (hcs : ∀ c ∈ cs, isQueryChar c = true)
    (hrest : Follows rest) (h : Follows (cs ++ rest)) : cs = [] := by
  have hclose : isQueryChar ')' = false := by decide
  have hspace : isQueryChar ' ' = false := by decide
  cases cs with
  | nil => rfl
  | cons c cs =>
    obtain ⟨hc, hcs⟩ := List.forall_mem_cons.1 hcs
    rcases h with h | ⟨more, h⟩ | ⟨more, h⟩
    · cases h
    · rw [(List.cons.inj h).1, hclose] at hc
      cases hc
    · have htail : cs ++ rest = ' ' :: more := (List.cons.inj h).2
      cases cs with
      | nil =>
        rw [List.nil_append] at htail
        subst htail
        rcases hrest with hrest | ⟨_, hrest⟩ | ⟨_, hrest⟩ <;> cases hrest
      | cons d cs =>
        have hd := hcs d List.mem_cons_self
        rw [(List.cons.inj htail).1, hspace] at hd
        cases hd

/-- A word is delimited by what follows it. -/
theorem eq_of_append_follows {v w rest rest' : List Char} (hv : ∀ c ∈ v, isQueryChar c = true)
    (hw : ∀ c ∈ w, isQueryChar c = true) (hrest : Follows rest) (hrest' : Follows rest')
    (h : v ++ rest = w ++ rest') : v = w ∧ rest = rest' := by
  rcases List.append_eq_append_iff.1 h with ⟨more, rfl, rfl⟩ | ⟨more, rfl, rfl⟩
  · have hmore := eq_nil_of_follows (fun c hc => hw c (List.mem_append_right _ hc)) hrest' hrest
    simp [hmore]
  · have hmore := eq_nil_of_follows (fun c hc => hv c (List.mem_append_right _ hc)) hrest hrest'
    simp [hmore]

theorem ne_quote_of_isQueryChar {c : Char} (hc : isQueryChar c = true) : c ≠ '"' := by
  rintro rfl
  revert hc
  decide

/-- A name is delimited by any character that could not go on a word. -/
theorem eq_of_append_cons {f g : String} {d : Char} {rest rest' : List Char} (hf : IsName f)
    (hg : IsName g) (hd : continuesWord d = false)
    (h : f.toList ++ d :: rest = g.toList ++ d :: rest') : f = g ∧ rest = rest' := by
  obtain ⟨b, bs, hfb, -, -, hbs⟩ := hf.exists_cons
  obtain ⟨c, cs, hgc, -, -, hcs⟩ := hg.exists_cons
  have hstop : ∀ more, ∀ e ∈ (d :: more).head?, continuesWord e = false := by
    rintro more e ⟨⟩
    exact hd
  obtain ⟨htake, hdrop⟩ := Scanner.takeWhile_continuesWord hbs (hstop rest)
  obtain ⟨htake', hdrop'⟩ := Scanner.takeWhile_continuesWord hcs (hstop rest')
  rw [hfb, hgc] at h
  obtain ⟨rfl, heq⟩ : b = c ∧ bs ++ d :: rest = cs ++ d :: rest' := List.cons.inj h
  rw [heq] at htake hdrop
  have htails : bs = cs := htake.symm.trans htake'
  have hrests : d :: rest = d :: rest' := hdrop.symm.trans hdrop'
  refine ⟨String.toList_injective ?_, (List.cons.inj hrests).2⟩
  rw [hfb, hgc, htails]

/-- How the canonical text of a query begins. -/
inductive Form where
  | word
  | quoted
  | scope
  | call
deriving DecidableEq

def form : Query → Form
  | term _ => .word
  | phrase _ => .quoted
  | within _ _ => .scope
  | exclude _ | all _ | any _ => .call

/-- The form that a text begins with: a quote, or a word that ends as it does in that form. -/
def formOf : List Char → Form
  | [] => .word
  | c :: cs =>
    if c = '"' then .quoted
    else if (cs.dropWhile continuesWord).head? = some ':' then .scope
    else if (cs.dropWhile continuesWord).head? = some '(' then .call
    else .word

/-- The name of a call. -/
def callName : Query → String
  | exclude _ => "not"
  | all _ => "and"
  | any _ => "or"
  | _ => ""

theorem renderChars_append_of_call {q : Query} (h : q.form = .call) (rest : List Char) :
    q.renderChars ++ rest = q.callName.toList ++
      '(' :: (List.intercalate [',', ' '] (q.children.map renderChars) ++ ')' :: rest) := by
  cases q with
  | term word => cases h
  | phrase words => cases h
  | within field inner => cases h
  | exclude inner => simp [callName]
  | all qs => simp [callName]
  | any qs => simp [callName]

theorem isName_callName {q : Query} (h : q.form = .call) : IsName q.callName := by
  cases q with
  | term word => cases h
  | phrase words => cases h
  | within field inner => cases h
  | exclude inner => exact (by decide : IsName "not")
  | all qs => exact (by decide : IsName "and")
  | any qs => exact (by decide : IsName "or")

theorem formOf_cons_append {c d : Char} {cs rest : List Char} (hc : isQueryChar c = true)
    (hcs : ∀ e ∈ cs, continuesWord e = true) (hd : continuesWord d = false) :
    formOf (c :: (cs ++ d :: rest)) =
      if d = ':' then .scope else if d = '(' then .call else .word := by
  have hquote := ne_quote_of_isQueryChar hc
  have hstop : ∀ e ∈ (d :: rest).head?, continuesWord e = false := by
    rintro e ⟨⟩
    exact hd
  have hdrop := (Scanner.takeWhile_continuesWord hcs hstop).2
  simp [formOf, hquote, hdrop]

/-- A name is the beginning of what the character behind it makes of it. -/
theorem formOf_name_append {name : String} {d : Char} {rest : List Char} (h : IsName name)
    (hd : continuesWord d = false) : formOf (name.toList ++ d :: rest) =
      if d = ':' then .scope else if d = '(' then .call else .word := by
  obtain ⟨c, cs, hname, hc, -, hcs⟩ := h.exists_cons
  rw [hname, List.cons_append, formOf_cons_append hc hcs hd]

theorem formOf_name_append_follows {name : String} {rest : List Char} (h : IsName name)
    (hrest : Follows rest) : formOf (name.toList ++ rest) = .word := by
  obtain ⟨c, cs, hname, hc, -, hcs⟩ := h.exists_cons
  rcases hrest with rfl | ⟨more, rfl⟩ | ⟨more, rfl⟩
  · have hdrop : cs.dropWhile continuesWord = [] := List.dropWhile_eq_nil_iff.2 hcs
    have hquote := ne_quote_of_isQueryChar hc
    simp [hname, formOf, hquote, hdrop]
  · rw [formOf_name_append h (by decide)]
    rfl
  · have hcomma : ∀ e ∈ cs ++ [','], continuesWord e = true :=
      List.forall_mem_append.2 ⟨hcs, List.forall_mem_singleton.2 (by decide)⟩
    have hform := @formOf_cons_append _ ' ' _ more hc hcomma (by decide)
    rw [List.append_assoc] at hform
    rw [hname]
    exact hform

theorem formOf_renderChars {q : Query} {rest : List Char} {inPhrase : Char → Bool}
    (h : q.Proper inPhrase) (hrest : Follows rest) : formOf (q.renderChars ++ rest) = q.form := by
  by_cases hcall : q.form = .call
  · rw [renderChars_append_of_call hcall, formOf_name_append (isName_callName hcall) (by decide),
      hcall]
    rfl
  cases q with
  | term word => exact formOf_name_append_follows h.toIsName hrest
  | phrase words => rfl
  | within field inner =>
    rw [renderChars, List.append_assoc, List.cons_append, formOf_name_append h (by decide)]
    rfl
  | exclude inner | all qs | any qs => exact absurd rfl hcall

/-- No other well-formed query could stand at the front of the text. -/
def ReadsBack (p : Query) : Prop :=
  ∀ ⦃q : Query⦄ ⦃rest rest' : List Char⦄, q.WellFormed → Follows rest → Follows rest' →
    p.renderChars ++ rest = q.renderChars ++ rest' → p = q ∧ rest = rest'

/-- What stands behind a member of a call, if these members are still to come. -/
def behindMember (rest : List Char) : List Query → List Char
  | [] => ')' :: rest
  | q :: qs => ',' :: ' ' :: (q.renderChars ++ behindMember rest qs)

theorem follows_behindMember (rest : List Char) (qs : List Query) :
    Follows (behindMember rest qs) := by
  cases qs with
  | nil => exact .inr (.inl ⟨rest, rfl⟩)
  | cons q qs => exact .inr (.inr ⟨_, rfl⟩)

theorem intercalate_eq_behindMember (rest : List Char) (q : Query) (qs : List Query) :
    List.intercalate [',', ' '] ((q :: qs).map renderChars) ++ ')' :: rest =
      q.renderChars ++ behindMember rest qs := by
  induction qs generalizing q with
  | nil => simp [behindMember]
  | cons r qs ih =>
    rw [List.map_cons, List.map_cons, List.intercalate_cons_cons, List.append_assoc,
      List.append_assoc, ← List.map_cons, ih, behindMember]
    rfl

theorem eq_of_behindMember {ps qs : List Query} {rest rest' : List Char}
    (hps : ∀ p ∈ ps, p.ReadsBack) (hqs : ∀ q ∈ qs, q.WellFormed)
    (h : behindMember rest ps = behindMember rest' qs) : ps = qs ∧ rest = rest' := by
  induction ps generalizing qs with
  | nil =>
    cases qs with
    | nil => exact ⟨rfl, (List.cons.inj h).2⟩
    | cons q qs => cases (List.cons.inj h).1
  | cons p ps ih =>
    cases qs with
    | nil => cases (List.cons.inj h).1
    | cons q qs =>
      obtain ⟨hp, hmembers⟩ := List.forall_mem_cons.1 hps
      obtain ⟨hq, hmembers'⟩ := List.forall_mem_cons.1 hqs
      have heq := (List.cons.inj (List.cons.inj h).2).2
      obtain ⟨hpq, hbehind⟩ :=
        hp hq (follows_behindMember rest ps) (follows_behindMember rest' qs) heq
      obtain ⟨hpsqs, hrest⟩ := ih hmembers hmembers' hbehind
      exact ⟨by rw [hpq, hpsqs], hrest⟩

theorem children_ne_nil {q : Query} {inPhrase : Char → Bool} (h : q.Proper inPhrase)
    (hcall : q.form = .call) : q.children ≠ [] := by
  cases q with
  | term word => cases hcall
  | phrase words => cases hcall
  | within field inner => cases hcall
  | exclude inner => simp
  | all qs | any qs =>
    rintro rfl
    cases h

theorem eq_of_callName {p q : Query} (hp : p.form = .call) (hq : q.form = .call)
    (hname : p.callName = q.callName) (hchildren : p.children = q.children) : p = q := by
  cases p with
  | term _ | phrase _ | within _ _ => cases hp
  | exclude _ | all _ | any _ =>
    cases q with
    | term _ | phrase _ | within _ _ => cases hq
    | exclude _ | all _ | any _ => simp_all [callName]

theorem eq_of_members {ps qs : List Query} {rest rest' : List Char} (hpne : ps ≠ [])
    (hqne : qs ≠ []) (hps : ∀ p ∈ ps, p.ReadsBack) (hqs : ∀ q ∈ qs, q.WellFormed)
    (h : List.intercalate [',', ' '] (ps.map renderChars) ++ ')' :: rest =
      List.intercalate [',', ' '] (qs.map renderChars) ++ ')' :: rest') :
    ps = qs ∧ rest = rest' := by
  obtain ⟨p, ps, rfl⟩ := List.exists_cons_of_ne_nil hpne
  obtain ⟨q, qs, rfl⟩ := List.exists_cons_of_ne_nil hqne
  rw [intercalate_eq_behindMember, intercalate_eq_behindMember] at h
  have hbehind : behindMember rest (p :: ps) = behindMember rest' (q :: qs) := by
    rw [behindMember, behindMember, h]
  exact eq_of_behindMember hps hqs hbehind

/-- Calls are told apart by their names, and then by their members. -/
theorem eq_of_call {p q : Query} {rest rest' : List Char} {inPhrase : Char → Bool}
    (hp : p.form = .call) (hq : q.form = .call) (hpproper : p.Proper inPhrase)
    (hqproper : q.Proper inPhrase) (hps : ∀ child ∈ p.children, child.ReadsBack)
    (hqs : ∀ child ∈ q.children, child.WellFormed)
    (h : p.renderChars ++ rest = q.renderChars ++ rest') : p = q ∧ rest = rest' := by
  rw [renderChars_append_of_call hp, renderChars_append_of_call hq] at h
  obtain ⟨hname, hmembers⟩ :=
    eq_of_append_cons (isName_callName hp) (isName_callName hq) (by decide) h
  obtain ⟨hchildren, hrest⟩ := eq_of_members (children_ne_nil hpproper hp)
    (children_ne_nil hqproper hq) hps hqs hmembers
  exact ⟨eq_of_callName hp hq hname hchildren, hrest⟩

theorem eq_of_phrase {vs ws : List String} {rest rest' : List Char}
    (hvs : (phrase vs).Proper fun c => !Text.isBlank c)
    (hws : (phrase ws).Proper fun c => !Text.isBlank c)
    (h : renderPhrase vs ++ rest = renderPhrase ws ++ rest') : vs = ws ∧ rest = rest' := by
  have hpieces : ∀ us : List String, (phrase us).Proper (fun c => !Text.isBlank c) →
      Text.blankSeparated (unquoted us) = us.map String.toList := fun us hus =>
    blankSeparated_unquoted (fun w hw => (hus.2 w hw).1)
      fun w hw c hc => by simpa using (hus.2 w hw).2 c hc
  rw [renderPhrase_eq, renderPhrase_eq, List.append_assoc, List.append_assoc] at h
  obtain ⟨htext, hrest⟩ := (unescapes_escapeInPhrase _).eq_of_append_quote
    (unescapes_escapeInPhrase _) (List.cons.inj h).2
  have hwords : vs.map String.toList = ws.map String.toList := by
    rw [← hpieces vs hvs, htext, hpieces ws hws]
  exact ⟨List.map_injective_iff.2 (fun _ _ => String.toList_injective) hwords, hrest⟩

/-- A well-formed query is the only one that can stand at the front of a text. -/
theorem readsBack_of_wellFormed {p : Query} (hp : p.WellFormed) : p.ReadsBack := by
  induction hp with
  | @intro p node below ih =>
    rintro q rest rest' ⟨node', below'⟩ hrest hrest' h
    have hform : p.form = q.form := by
      rw [← formOf_renderChars node hrest, h, formOf_renderChars node' hrest']
    by_cases hcall : p.form = .call
    · exact eq_of_call hcall (hform.symm.trans hcall) node node' ih below' h
    cases p with
    | term v =>
      cases q with
      | term w =>
        obtain ⟨hword, hrests⟩ :=
          eq_of_append_follows node.queryChars node'.queryChars hrest hrest' h
        exact ⟨by rw [String.toList_injective hword], hrests⟩
      | phrase _ | within _ _ | exclude _ | all _ | any _ => cases hform
    | phrase vs =>
      cases q with
      | phrase ws =>
        obtain ⟨rfl, hrests⟩ := eq_of_phrase node node' h
        exact ⟨rfl, hrests⟩
      | term _ | within _ _ | exclude _ | all _ | any _ => cases hform
    | within f inner =>
      cases q with
      | within g inner' =>
        rw [renderChars, renderChars, List.append_assoc, List.append_assoc] at h
        obtain ⟨rfl, hinners⟩ := eq_of_append_cons node node' (by decide) h
        obtain ⟨rfl, hrests⟩ := ih inner List.mem_cons_self (below' inner' List.mem_cons_self)
          hrest hrest' hinners
        exact ⟨rfl, hrests⟩
      | term _ | phrase _ | exclude _ | all _ | any _ => cases hform
    | exclude _ | all _ | any _ => exact absurd rfl hcall

theorem eq_of_render_eq {p q : Query} (hp : p.WellFormed) (hq : q.WellFormed)
    (h : p.render = q.render) : p = q := by
  have hchars : p.renderChars ++ [] = q.renderChars ++ [] := by
    rw [String.ofList_injective h]
  exact (readsBack_of_wellFormed hp hq follows_nil follows_nil hchars).1

end Query

/-- Compiled queries are written alike just if they are the same. -/
theorem render_eq_render_iff {s t : String} {p q : Query} (hp : compile s = .ok p)
    (hq : compile t = .ok q) : p.render = q.render ↔ p = q := by
  constructor
  · intro h
    obtain ⟨_, hs, c, hc, rfl⟩ := compile_eq_ok_iff_derives.1 hp
    obtain ⟨_, ht, d, hd, rfl⟩ := compile_eq_ok_iff_derives.1 hq
    exact Query.eq_of_render_eq (hc.wellFormed_tree hs) (hd.wellFormed_tree ht) h
  · rintro rfl
    rfl

/-- A comma may stand at either end of a word, but only one of them separates. -/
theorem render_eq_render_iff_commas :
    let p : Query := .any [.term "a,", .term "b"]
    let q : Query := .any [.term "a", .term ",b"]
    compile "a, OR b" = .ok p ∧ compile "a OR ,b" = .ok q ∧ (p.render = q.render ↔ p = q) := by
  intro p q
  have hp : compile "a, OR b" = .ok p := by decide +kernel
  have hq : compile "a OR ,b" = .ok q := by decide +kernel
  exact ⟨hp, hq, render_eq_render_iff hp hq⟩

end TextQuery
