import Mathlib.Data.List.Forall2
import TextQuery.Proofs.Ascii
import TextQuery.Proofs.Spelling
import TextQuery.Proofs.Splitting
import TextQuery.Ranking.Directive

/-!
# The grammar of order directives

A directive is `match` and then, in parentheses, identifiers with commas between them; white space
may stand around each of these. Which texts are directives, and of which identifiers, is told here
as a property of texts. The reader accepts just these texts and gives just these identifiers.
-/
namespace TextQuery

namespace Directive

/-- The characters `A` to `Z`, `a` to `z`, `0` to `9`, `_`, `.` and `-`. -/
def IsIdentifierChar (c : Char) : Prop :=
  ('A' ≤ c ∧ c ≤ 'Z') ∨ ('a' ≤ c ∧ c ≤ 'z') ∨ ('0' ≤ c ∧ c ≤ '9') ∨ c ∈ ['_', '.', '-']

/-- One or more of these characters. -/
structure IsIdentifier (key : String) : Prop where
  ne_nil : key.toList ≠ []
  chars : ∀ c ∈ key.toList, IsIdentifierChar c

/-- White space, `match` in any letter case, white space and an opening parenthesis. -/
def Opening (opening : List Char) : Prop :=
  ∃ before letters between, (∀ c ∈ before, Text.isBlank c = true) ∧
    InEitherCase "match".toList letters ∧ (∀ c ∈ between, Text.isBlank c = true) ∧
    opening = before ++ letters ++ between ++ ['(']

/-- The text begins as a directive does. -/
def Opens (text : List Char) : Prop :=
  ∃ opening rest, Opening opening ∧ text = opening ++ rest

/-- An identifier with white space around it. -/
def Item (item : List Char) (key : String) : Prop :=
  ∃ before after, (∀ c ∈ before, Text.isBlank c = true) ∧ (∀ c ∈ after, Text.isBlank c = true) ∧
    IsIdentifier key ∧ item = before ++ key.toList ++ after

/-- What stands behind the opening: items with commas between them, the closing parenthesis and
white space. -/
def Listing (text : List Char) (keys : List String) : Prop :=
  ∃ items after, items ≠ [] ∧ List.Forall₂ Item items keys ∧
    (∀ c ∈ after, Text.isBlank c = true) ∧ text = List.intercalate [','] items ++ ')' :: after

/-- The text is a directive that lists these identifiers. -/
def Spells (text : List Char) (keys : List String) : Prop :=
  ∃ opening rest, Opening opening ∧ Listing rest keys ∧ text = opening ++ rest

theorem equalsIgnoringAsciiCase_iff {letters : List Char} :
    equalsIgnoringAsciiCase letters "match".toList = true ↔
      InEitherCase "match".toList letters := by
  constructor
  · exact inEitherCase_of_equalsIgnoringAsciiCase rfl
  · intro h
    have hlower : ∀ word letters : List Char,
        word.map Char.toLower = word.map (fun small => small.toUpper.toLower) →
        InEitherCase word letters → letters.map Char.toLower = word.map Char.toLower := by
      intro word letters hword h
      induction h with
      | nil => rfl
      | @cons small c word letters hc tail ih =>
        obtain ⟨hsmall, hword⟩ := List.cons.inj hword
        rw [List.map_cons, List.map_cons, ih hword]
        rcases hc with heq | heq
        · rw [heq]
        · rw [heq, hsmall]
    rw [equalsIgnoringAsciiCase, beq_iff_eq]
    exact hlower _ _ (by decide) h

theorem length_of_inEitherCase {word letters : List Char} (h : InEitherCase word letters) :
    letters.length = word.length :=
  (List.Forall₂.length_eq h).symm

theorem isBlank_head?_of_inEitherCase {letters : List Char}
    (h : InEitherCase "match".toList letters) : ∀ c ∈ letters.head?, Text.isBlank c = false := by
  cases h with
  | @cons small c word letters hc tail =>
    intro d hd
    cases hd
    rcases hc with heq | heq <;> rw [heq] <;> decide

/-- What is left behind the opening of a directive is left there by the reader. -/
theorem afterOpening?_eq_some_iff {text rest : List Char} :
    afterOpening? text = some rest ↔ ∃ opening, Opening opening ∧ text = opening ++ rest := by
  constructor
  · intro h
    obtain ⟨before, hbefore, htext⟩ := Text.exists_blanks_trimStart text
    obtain ⟨between, hbetween, hrest⟩ :=
      Text.exists_blanks_trimStart ((Text.trimStart text).drop 5)
    unfold afterOpening? at h
    dsimp only at h
    split at h
    · next hword =>
      split at h
      · next more hmore =>
        cases h
        refine ⟨before ++ (Text.trimStart text).take 5 ++ between ++ ['('],
          ⟨before, _, between, hbefore, equalsIgnoringAsciiCase_iff.1 hword, hbetween, rfl⟩, ?_⟩
        rw [hmore] at hrest
        calc
          text = before ++ ((Text.trimStart text).take 5 ++ (Text.trimStart text).drop 5) := by
            rw [List.take_append_drop]
            exact htext
          _ = before ++ (Text.trimStart text).take 5 ++ between ++ ['('] ++ rest := by
            rw [hrest]
            simp
      · cases h
    · cases h
  · intro ⟨opening, ⟨before, letters, between, hbefore, hletters, hbetween, hopening⟩, htext⟩
    have hlength : letters.length = 5 := length_of_inEitherCase hletters
    have hstart : Text.trimStart text = letters ++ (between ++ '(' :: rest) := by
      rw [htext, hopening]
      have hhead : ∀ c ∈ (letters ++ (between ++ '(' :: rest)).head?, Text.isBlank c = false := by
        rw [List.head?_append_of_ne_nil _ (by intro hnil; simp [hnil] at hlength)]
        exact isBlank_head?_of_inEitherCase hletters
      simpa using Text.trimStart_append hbefore hhead
    have hparen : Text.trimStart (between ++ '(' :: rest) = '(' :: rest := by
      apply Text.trimStart_append hbetween
      intro c hc
      cases hc
      decide
    unfold afterOpening?
    dsimp only
    rw [hstart, List.take_left' hlength, List.drop_left' hlength,
      if_pos (equalsIgnoringAsciiCase_iff.2 hletters), hparen]
    rfl

theorem afterOpening?_eq_none_iff {text : List Char} :
    afterOpening? text = none ↔ ¬ Opens text := by
  rw [Option.eq_none_iff_forall_ne_some]
  constructor
  · intro h ⟨opening, rest, hopening, htext⟩
    exact h rest (afterOpening?_eq_some_iff.2 ⟨opening, hopening, htext⟩)
  · intro h rest hrest
    obtain ⟨opening, hopening, htext⟩ := afterOpening?_eq_some_iff.1 hrest
    exact h ⟨opening, rest, hopening, htext⟩

theorem isKeyChar_iff {c : Char} : isKeyChar c = true ↔ IsIdentifierChar c := by
  simp [isKeyChar, IsIdentifierChar, Text.isAlphanum_iff, or_assoc]

theorem isBlank_of_isIdentifierChar {c : Char} (h : IsIdentifierChar c) :
    Text.isBlank c = false := by
  have hascii : Text.IsAscii c := by
    have hkey : c.isAlphanum = true ∨ c ∈ ['_', '.', '-'] := by
      simpa [isKeyChar, or_assoc] using isKeyChar_iff.2 h
    rcases hkey with halphanum | hmark
    · exact Text.isAscii_of_isAlphanum halphanum
    · simp only [List.mem_cons, List.not_mem_nil, or_false] at hmark
      rcases hmark with rfl | rfl | rfl <;> decide
  refine Text.IsAscii.induction (P := fun c => isKeyChar c = true → Text.isBlank c = false) ?_
    hascii (isKeyChar_iff.2 h)
  decide +kernel

theorem IsIdentifier.isBlank_eq_false {key : String} (h : IsIdentifier key) :
    ∀ c ∈ key.toList, Text.isBlank c = false :=
  fun c hc => isBlank_of_isIdentifierChar (h.chars c hc)

/-- An item is read by trimming it. -/
theorem item_iff {item : List Char} {key : String} :
    Item item key ↔ Text.trim item = key.toList ∧ IsIdentifier key := by
  constructor
  · intro ⟨before, after, hbefore, hafter, hkey, hitem⟩
    refine ⟨?_, hkey⟩
    rw [hitem]
    exact Text.trim_append hbefore hafter hkey.isBlank_eq_false hkey.ne_nil
  · intro ⟨htrim, hkey⟩
    obtain ⟨before, after, hbefore, hafter, hitem⟩ := Text.exists_blanks_trim item
    exact ⟨before, after, hbefore, hafter, hkey, htrim ▸ hitem⟩

theorem readKeys_eq_ok_iff {position : Nat} {items : List (List Char)} {keys : List String} :
    readKeys position items = .ok keys ↔ List.Forall₂ Item items keys := by
  induction items generalizing position keys with
  | nil =>
    rw [readKeys, List.forall₂_nil_left_iff, Except.ok.injEq]
    exact eq_comm
  | cons item items ih =>
    rw [readKeys, List.forall₂_cons_left_iff]
    by_cases hempty : (Text.trim item).isEmpty = true
    · rw [if_pos hempty]
      constructor
      · intro h
        cases h
      · intro ⟨key, rest, hitem, _, _⟩
        obtain ⟨htrim, hkey⟩ := item_iff.1 hitem
        exact absurd (htrim ▸ List.isEmpty_iff.1 hempty) hkey.ne_nil
    · rw [if_neg hempty]
      by_cases hchars : (Text.trim item).all isKeyChar = true
      · rw [if_pos hchars]
        have hkey : IsIdentifier (String.ofList (Text.trim item)) := by
          constructor
          · rw [String.toList_ofList]
            simpa using hempty
          · intro c hc
            rw [String.toList_ofList] at hc
            exact isKeyChar_iff.1 (List.all_eq_true.1 hchars c hc)
        constructor
        · intro h
          cases hrest : readKeys (position + item.length + 1) items with
          | error fault => simp [hrest, Except.map] at h
          | ok rest =>
            rw [hrest] at h
            cases h
            exact ⟨_, rest, item_iff.2 ⟨String.toList_ofList.symm, hkey⟩, ih.1 hrest, rfl⟩
        · intro ⟨key, rest, hitem, hrest, hkeys⟩
          rw [ih.2 hrest, (item_iff.1 hitem).1, String.ofList_toList, hkeys]
          rfl
      · rw [if_neg hchars]
        constructor
        · intro h
          cases h
        · intro ⟨key, rest, hitem, _, _⟩
          obtain ⟨htrim, hkey⟩ := item_iff.1 hitem
          refine absurd (List.all_eq_true.2 ?_) hchars
          intro c hc
          exact isKeyChar_iff.2 (hkey.chars c (htrim ▸ hc))

theorem Item.not_mem {item : List Char} {key : String} (h : Item item key) {c : Char}
    (hblank : Text.isBlank c = false) (hc : ¬ IsIdentifierChar c) : c ∉ item := by
  intro hmem
  obtain ⟨before, after, hbefore, hafter, hkey, hitem⟩ := h
  rw [hitem, List.mem_append, List.mem_append] at hmem
  rcases hmem with (hmem | hmem) | hmem
  · simp [hbefore c hmem] at hblank
  · exact hc (hkey.chars c hmem)
  · simp [hafter c hmem] at hblank

section
variable {items : List (List Char)} {keys : List String}

/-- Neither a comma nor a closing parenthesis stands in an item. -/
theorem not_mem_of_forall₂_item (h : List.Forall₂ Item items keys) {c : Char}
    (hblank : Text.isBlank c = false) (hc : ¬ IsIdentifierChar c) : ∀ item ∈ items, c ∉ item := by
  have hboth : List.Forall₂ (fun item key => c ∉ item ∧ Item item key) items keys :=
    h.imp fun _ _ hitem => ⟨hitem.not_mem hblank hc, hitem⟩
  exact ((List.forall₂_and_left _ _).1 hboth).1

/-- The items are those between the commas, so there is only one way to cut them. -/
theorem forall₂_splitOn_iff {body : List Char} :
    List.Forall₂ Item (body.splitOn ',') keys ↔
      ∃ items, items ≠ [] ∧ List.Forall₂ Item items keys ∧ body = List.intercalate [','] items := by
  constructor
  · intro h
    exact ⟨_, List.splitOn_ne_nil ',' body, h, (List.intercalate_splitOn ',').symm⟩
  · intro ⟨items, hne, h, hbody⟩
    have hcomma := not_mem_of_forall₂_item h (c := ',') (by decide) (by simp [IsIdentifierChar])
    rw [hbody, List.splitOn_intercalate ',' hcomma hne]
    exact h

theorem not_mem_intercalate (h : List.Forall₂ Item items keys) :
    ∀ c ∈ List.intercalate [','] items, c ≠ ')' := by
  have hparen := not_mem_of_forall₂_item h (c := ')') (by decide) (by simp [IsIdentifierChar])
  refine Text.forall_mem_intercalate (by decide) ?_
  intro item hitem c hc heq
  exact hparen item hitem (heq ▸ hc)

theorem exists_not_blank_of_forall₂_item (h : List.Forall₂ Item items keys) (hne : items ≠ []) :
    ∃ c ∈ List.intercalate [','] items, Text.isBlank c = false := by
  cases h with
  | nil => exact absurd rfl hne
  | @cons item key items keys hitem tail =>
    obtain ⟨before, after, -, -, hkey, heq⟩ := hitem
    obtain ⟨c, hc⟩ := List.exists_mem_of_ne_nil _ hkey.ne_nil
    refine ⟨c, ?_, hkey.isBlank_eq_false c hc⟩
    cases items with
    | nil => simp [heq, hc]
    | cons next items => simp [heq, hc, List.intercalate_cons_cons]

end

/-- The reader accepts a listing, wherever it starts, and gives its identifiers. -/
theorem readList_eq_ok_iff {position : Nat} {text : List Char} {keys : List String} :
    readList position text = .ok keys ↔ Listing text keys := by
  constructor
  · intro h
    unfold readList at h
    dsimp only at h
    have hsplit := List.takeWhile_append_dropWhile (p := (· != ')')) (l := text)
    have hhead := List.head?_dropWhile_not (· != ')') text
    split at h
    · cases h
    · next close trailing hclose =>
      rw [hclose] at hsplit hhead
      have hparen : close = ')' := by simpa using hhead
      split at h
      · next htrailing =>
        split at h
        · cases h
        · obtain ⟨items, hne, hitems, hbody⟩ := forall₂_splitOn_iff.1 (readKeys_eq_ok_iff.1 h)
          rw [hbody, hparen] at hsplit
          exact ⟨items, trailing, hne, hitems, List.all_eq_true.1 htrailing, hsplit.symm⟩
      · cases h
  · intro ⟨items, after, hne, hitems, hafter, htext⟩
    have hbody : ∀ c ∈ List.intercalate [','] items, (c != ')') = true := fun c hc =>
      bne_iff_ne.2 (not_mem_intercalate hitems c hc)
    obtain ⟨c, hc, hblank⟩ := exists_not_blank_of_forall₂_item hitems hne
    have hsome : ¬ (List.intercalate [','] items).all Text.isBlank = true := by
      intro hall
      simp [List.all_eq_true.1 hall c hc] at hblank
    unfold readList
    dsimp only
    rw [htext, List.takeWhile_append_of_pos hbody, List.dropWhile_append_of_pos hbody,
      List.takeWhile_cons_of_neg (by decide), List.dropWhile_cons_of_neg (by decide)]
    dsimp only
    rw [List.append_nil, if_pos (List.all_eq_true.2 hafter), if_neg hsome]
    exact readKeys_eq_ok_iff.2 (forall₂_splitOn_iff.2 ⟨items, hne, hitems, rfl⟩)

theorem distinct_filter (p : String → Bool) (keys : List String) :
    distinct (keys.filter p) = (distinct keys).filter p := by
  induction keys with
  | nil => rfl
  | cons key keys ih =>
    by_cases hp : p key = true
    · rw [List.filter_cons_of_pos hp, distinct, distinct, List.filter_cons_of_pos hp, ih,
        List.filter_filter, List.filter_filter]
      simp only [Bool.and_comm]
    · have hother : ∀ other, (p other && (other != key)) = p other := by
        intro other
        by_cases heq : other = key
        · simp [heq, hp]
        · simp [heq]
      rw [List.filter_cons_of_neg hp, distinct, List.filter_cons_of_neg hp, ih,
        List.filter_filter]
      simp only [hother]

/-- The first of equal keys is kept. By induction on the length: the other keys that are looked at
next are not a tail of the list. -/
theorem distinct_eq_eraseDups (keys : List String) : distinct keys = keys.eraseDups := by
  induction hn : keys.length using Nat.strong_induction_on generalizing keys with
  | _ n ih =>
    subst hn
    cases keys with
    | nil => rfl
    | cons key keys =>
      have hlt : (keys.filter (· != key)).length < (key :: keys).length :=
        Nat.lt_succ_of_le (List.length_filter_le _ _)
      rw [distinct, List.eraseDups_cons, ← distinct_filter, ih _ hlt _ rfl]
      rfl

theorem distinct_of_nodup {keys : List String} (h : keys.Nodup) : distinct keys = keys := by
  induction keys with
  | nil => rfl
  | cons key keys ih =>
    obtain ⟨hkey, hkeys⟩ := List.nodup_cons.1 h
    have hall : ∀ other ∈ keys, (other != key) = true := by
      intro other hother
      rw [bne_iff_ne]
      intro heq
      exact hkey (heq ▸ hother)
    rw [distinct, ih hkeys, List.filter_eq_self.2 hall]

theorem ofText?_eq_some_iff {text : String} {d : Directive} :
    ofText? text = .ok (some d) ↔ ∃ keys, Spells text.toList keys ∧ d.keys = keys.eraseDups := by
  constructor
  · intro h
    unfold ofText? at h
    split at h
    · cases h
    · next rest hrest =>
      obtain ⟨opening, hopening, htext⟩ := afterOpening?_eq_some_iff.1 hrest
      split at h
      · next keys hkeys =>
        cases h
        exact ⟨keys, ⟨opening, rest, hopening, readList_eq_ok_iff.1 hkeys, htext⟩,
          distinct_eq_eraseDups keys⟩
      · cases h
  · intro ⟨keys, ⟨opening, rest, hopening, hlisting, htext⟩, hd⟩
    have hrest : afterOpening? text.toList = some rest :=
      afterOpening?_eq_some_iff.2 ⟨opening, hopening, htext⟩
    have hkeys : ofKeys keys = d := by
      rw [ofKeys, distinct_eq_eraseDups, ← hd]
    unfold ofText?
    rw [hrest]
    dsimp only
    rw [readList_eq_ok_iff.2 hlisting]
    dsimp only
    rw [hkeys]

theorem ofText?_eq_none_iff {text : String} : ofText? text = .ok none ↔ ¬ Opens text.toList := by
  rw [← afterOpening?_eq_none_iff]
  unfold ofText?
  cases afterOpening? text.toList with
  | none => simp
  | some rest =>
    dsimp only
    split <;> simp

/-- What opens a directive and is none is malformed. -/
theorem ofText?_eq_error_iff {text : String} : (∃ e, ofText? text = .error e) ↔
    Opens text.toList ∧ ¬ ∃ keys, Spells text.toList keys := by
  constructor
  · intro ⟨e, he⟩
    constructor
    · by_contra hopens
      rw [ofText?_eq_none_iff.2 hopens] at he
      cases he
    · intro ⟨keys, hkeys⟩
      rw [ofText?_eq_some_iff.2 ⟨keys, hkeys, rfl⟩] at he
      cases he
  · intro ⟨hopens, hspells⟩
    cases hread : ofText? text with
    | error e => exact ⟨e, rfl⟩
    | ok d? =>
      cases d? with
      | none => exact absurd hopens (ofText?_eq_none_iff.1 hread)
      | some d =>
        obtain ⟨keys, hkeys, -⟩ := ofText?_eq_some_iff.1 hread
        exact absurd ⟨keys, hkeys⟩ hspells

/-- Identifiers with a comma between them, without any white space, are a listing. -/
theorem spells_written {keys : List String} (hne : keys ≠ []) (h : ∀ key ∈ keys, IsIdentifier key) :
    Spells ("match(" ++ ",".intercalate keys ++ ")").toList keys := by
  have hopening : Opening "match(".toList := by
    refine ⟨[], "match".toList, [], by simp, ?_, by simp, rfl⟩
    exact List.forall₂_same.2 fun _ _ => .inl rfl
  have hitems : List.Forall₂ Item (keys.map String.toList) keys := by
    rw [List.forall₂_map_left_iff]
    refine List.forall₂_same.2 ?_
    intro key hkey
    exact ⟨[], [], by simp, by simp, h key hkey, by simp⟩
  refine ⟨_, List.intercalate [','] (keys.map String.toList) ++ [')'], hopening,
    ⟨_, [], by simpa using hne, hitems, by simp, rfl⟩, ?_⟩
  rw [String.toList_append, String.toList_append, String.toList_intercalate, List.append_assoc]
  rfl

/-- A text is not taken for a directive if it does not open one, it is read if it is spelled as a
directive, and else it is malformed. What is read are the identifiers that the text lists, each at
its first place, and distinct identifiers are read back as they are written. -/
theorem ofText?_reads : (∀ text : String,
      (ofText? text = .ok none ↔ ¬ Opens text.toList) ∧
      (∀ d : Directive, ofText? text = .ok (some d) ↔
        ∃ keys, Spells text.toList keys ∧ d.keys = keys.eraseDups) ∧
      ((∃ e, ofText? text = .error e) ↔
        Opens text.toList ∧ ¬ ∃ keys, Spells text.toList keys)) ∧
    ∀ keys : List String, keys ≠ [] → keys.Nodup → (∀ key ∈ keys, IsIdentifier key) →
      ofText? ("match(" ++ ",".intercalate keys ++ ")") = .ok (some ⟨keys⟩) := by
  refine ⟨fun text => ⟨ofText?_eq_none_iff, fun d => ofText?_eq_some_iff, ofText?_eq_error_iff⟩, ?_⟩
  intro keys hne hnodup hkeys
  refine ofText?_eq_some_iff.2 ⟨keys, spells_written hne hkeys, ?_⟩
  rw [← distinct_eq_eraseDups, distinct_of_nodup hnodup]

theorem ofText?_reads_spaced :
    Spells "\u3000MaTcH (b,\t a-1 ,b)\n".toList ["b", "a-1", "b"] ∧
      ofText? "\u3000MaTcH (b,\t a-1 ,b)\n" = .ok (some ⟨["b", "a-1"]⟩) ∧
      ["b", "a-1"].Nodup ∧ (∀ key ∈ ["b", "a-1"], IsIdentifier key) ∧
      ofText? "match(b,a-1)" = .ok (some ⟨["b", "a-1"]⟩) := by
  have hb : IsIdentifier "b" := ⟨by simp, by simp [IsIdentifierChar]⟩
  have ha : IsIdentifier "a-1" := ⟨by simp, by simp [IsIdentifierChar]⟩
  have hblank : ∀ run : List Char, run.all Text.isBlank = true → ∀ c ∈ run, Text.isBlank c = true :=
    fun _ => List.all_eq_true.1
  have hopening : Opening "\u3000MaTcH (".toList := by
    refine ⟨['\u3000'], "MaTcH".toList, [' '], hblank _ (by decide), ?_, hblank _ (by decide), rfl⟩
    simp [InEitherCase]
  have hspells : Spells "\u3000MaTcH (b,\t a-1 ,b)\n".toList ["b", "a-1", "b"] := by
    refine ⟨_, "b,\t a-1 ,b)\n".toList, hopening, ⟨["b".toList, "\t a-1 ".toList, "b".toList],
      ['\n'], by simp, ?_, hblank _ (by decide), rfl⟩, rfl⟩
    have hplain : Item "b".toList "b" := ⟨[], [], by simp, by simp, hb, rfl⟩
    have hspaced : Item "\t a-1 ".toList "a-1" :=
      ⟨['\t', ' '], [' '], hblank _ (by decide), hblank _ (by decide), ha, rfl⟩
    exact .cons hplain (.cons hspaced (.cons hplain .nil))
  have hnodup : ["b", "a-1"].Nodup := by decide
  have hkeys : ∀ key ∈ ["b", "a-1"], IsIdentifier key :=
    List.forall_mem_cons.2 ⟨hb, List.forall_mem_singleton.2 ha⟩
  exact ⟨hspells, ((ofText?_reads.1 _).2.1 _).2 ⟨_, hspells, by decide⟩, hnodup, hkeys,
    ofText?_reads.2 _ (by simp) hnodup hkeys⟩

end Directive

end TextQuery
