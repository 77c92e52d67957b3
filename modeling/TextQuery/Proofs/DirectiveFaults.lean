import Mathlib.Data.List.TakeWhile
import TextQuery.Proofs.Directives

/-!
# What is wrong with a directive

A text that opens a directive and is none has one fault, told with the offset of its first
character. The faults are told here as properties of the text behind the opening, in the order in
which they win over each other: a missing parenthesis, text behind the parenthesis, a list without
anything in it, and the first item that is no identifier.
-/
namespace TextQuery

namespace Directive

/-- What is wrong with an item that is no identifier, and how far behind its start. -/
inductive BadItem : List Char → String → Nat → Prop where
  | blank {item : List Char} (h : ∀ c ∈ item, Text.isBlank c = true) :
      BadItem item "empty identifier" 0
  | invalid {before word after : List Char} (hbefore : ∀ c ∈ before, Text.isBlank c = true)
      (hafter : ∀ c ∈ after, Text.isBlank c = true) (hne : word ≠ [])
      (hhead : ∀ c ∈ word.head?, Text.isBlank c = false)
      (hlast : ∀ c ∈ word.getLast?, Text.isBlank c = false)
      (h : ¬ IsIdentifier (String.ofList word)) :
      BadItem (before ++ word ++ after)
        ("invalid identifier " ++ Text.quoted (String.ofList word)) before.length

/-- Items that are identifiers, each with a comma behind it. -/
def GoodItems (text : List Char) : Prop :=
  ∃ items : List (List Char), (∀ item ∈ items, ∃ key, Item item key) ∧
    text = items.flatMap (· ++ [','])

/-- What is wrong with a text behind an opening that ends at the offset `start`, and at what
offset. -/
inductive Malformed (start : Nat) : List Char → String → Nat → Prop where
  | notClosed {text : List Char} (h : ')' ∉ text) :
      Malformed start text "missing ')'" (start + text.length)
  | followed {body blanks more : List Char} {c : Char} (hbody : ')' ∉ body)
      (hblanks : ∀ d ∈ blanks, Text.isBlank d = true) (hc : Text.isBlank c = false) :
      Malformed start (body ++ ')' :: (blanks ++ c :: more)) "unexpected text after ')'"
        (start + body.length + 1 + blanks.length)
  | empty {body after : List Char} (hbody : ∀ c ∈ body, Text.isBlank c = true)
      (hafter : ∀ c ∈ after, Text.isBlank c = true) :
      Malformed start (body ++ ')' :: after) "empty identifier list" start
  | item {good bad behind after : List Char} {reason : String} {offset : Nat}
      (hbody : ∃ c ∈ good ++ (bad ++ behind), Text.isBlank c = false)
      (hclose : ')' ∉ good ++ (bad ++ behind)) (hafter : ∀ c ∈ after, Text.isBlank c = true)
      (hgood : GoodItems good) (hcomma : ',' ∉ bad) (hbehind : ∀ c ∈ behind.head?, c = ',')
      (hbad : BadItem bad reason offset) :
      Malformed start (good ++ (bad ++ behind) ++ ')' :: after) reason
        (start + good.length + offset)

/-- The reading fails for this reason at this offset. -/
def Tells {α : Type} (r : Except (Fault DirectiveCause) α) (reason : String) (offset : Nat) :
    Prop :=
  ∃ fault, r = .error fault ∧ fault.cause.describe = reason ∧ fault.position = offset

theorem Tells.map {α β : Type} {r : Except (Fault DirectiveCause) α} {reason : String}
    {offset : Nat} (h : Tells r reason offset) (f : α → β) : Tells (r.map f) reason offset := by
  obtain ⟨fault, rfl, htold⟩ := h
  exact ⟨fault, rfl, htold⟩

theorem item_or_badItem (item : List Char) :
    (∃ key, Item item key) ∨ ∃ reason offset, BadItem item reason offset := by
  obtain ⟨before, after, hbefore, hafter, hitem⟩ := Text.exists_blanks_trim item
  obtain ⟨hhead, hlast⟩ := Text.isBlank_ends_trim item
  generalize Text.trim item = word at hitem hhead hlast
  subst hitem
  by_cases hne : word = []
  · subst hne
    refine .inr ⟨_, _, .blank ?_⟩
    rw [List.append_nil]
    exact List.forall_mem_append.2 ⟨hbefore, hafter⟩
  · by_cases hkey : IsIdentifier (String.ofList word)
    · exact .inl ⟨_, before, after, hbefore, hafter, hkey, by rw [String.toList_ofList]⟩
    · exact .inr ⟨_, _, .invalid hbefore hafter hne hhead hlast hkey⟩

section
variable {item : List Char} {items : List (List Char)} {key reason : String} {position offset : Nat}

theorem readKeys_cons_of_item (h : Item item key) :
    readKeys position (item :: items) =
      (readKeys (position + item.length + 1) items).map (key :: ·) := by
  obtain ⟨htrim, hkey⟩ := item_iff.1 h
  have hempty : ¬ key.toList.isEmpty = true := by simpa using hkey.ne_nil
  have hchars : key.toList.all isKeyChar = true :=
    List.all_eq_true.2 fun c hc => isKeyChar_iff.2 (hkey.chars c hc)
  rw [readKeys, htrim, if_neg hempty, if_pos hchars, String.ofList_toList]

theorem readKeys_cons_of_badItem (h : BadItem item reason offset) :
    Tells (readKeys position (item :: items)) reason (position + offset) := by
  cases h with
  | blank h =>
    obtain ⟨before, after, -, -, hitem⟩ := Text.exists_blanks_trim item
    have hempty : (Text.trim item).isEmpty = true := by
      rw [List.isEmpty_iff]
      by_contra hne
      obtain ⟨c, cs, hcons⟩ := List.exists_cons_of_ne_nil hne
      have hblank := h c (by rw [hitem, hcons]; simp)
      have hhead := (Text.isBlank_ends_trim item).1 c (by rw [hcons]; rfl)
      simp [hblank] at hhead
    rw [readKeys, if_pos hempty]
    exact ⟨_, rfl, rfl, rfl⟩
  | @invalid before word after hbefore hafter hne hhead hlast h =>
    have htrim := Text.trim_append_of_ends hbefore hafter hne hhead hlast
    have hempty : ¬ word.isEmpty = true := by simpa using hne
    have hchars : ¬ word.all isKeyChar = true := by
      intro hall
      refine h ⟨by simpa using hne, fun c hc => ?_⟩
      rw [String.toList_ofList] at hc
      exact isKeyChar_iff.1 (List.all_eq_true.1 hall c hc)
    have hwidth : (before ++ word ++ after).takeWhile Text.isBlank = before := by
      obtain ⟨c, cs, rfl⟩ := List.exists_cons_of_ne_nil hne
      rw [List.append_assoc, List.takeWhile_append_of_pos hbefore, List.cons_append,
        List.takeWhile_cons_of_neg (by simp [hhead c rfl]), List.append_nil]
    rw [readKeys, htrim, if_neg hempty, if_neg hchars, hwidth]
    exact ⟨_, rfl, rfl, rfl⟩

/-- The items before the first bad one are read, each with the comma behind it. -/
theorem readKeys_append {good : List (List Char)} (hgood : ∀ item ∈ good, ∃ key, Item item key)
    (h : BadItem item reason offset) : Tells (readKeys position (good ++ item :: items)) reason
      (position + (good.flatMap (· ++ [','])).length + offset) := by
  induction good generalizing position with
  | nil => exact readKeys_cons_of_badItem h
  | cons first good ih =>
    obtain ⟨⟨key, hfirst⟩, hgood⟩ := List.forall_mem_cons.1 hgood
    have htold := (@ih (position + first.length + 1) hgood).map (key :: ·)
    rw [List.cons_append, readKeys_cons_of_item hfirst]
    have hoffset : position + ((first :: good).flatMap (· ++ [','])).length =
        position + first.length + 1 + (good.flatMap (· ++ [','])).length := by
      simp only [List.flatMap_cons, List.length_append, List.length_singleton, Nat.add_assoc]
    rwa [hoffset]

end

/-- Items are all identifiers, or there is a first one that is not. -/
theorem items_cases (items : List (List Char)) : (∃ keys, List.Forall₂ Item items keys) ∨
    ∃ good bad more reason offset, items = good ++ bad :: more ∧
      (∀ item ∈ good, ∃ key, Item item key) ∧ BadItem bad reason offset := by
  induction items with
  | nil => exact .inl ⟨[], .nil⟩
  | cons item items ih =>
    rcases item_or_badItem item with ⟨key, hkey⟩ | ⟨reason, offset, hbad⟩
    · rcases ih with ⟨keys, hkeys⟩ | ⟨good, bad, more, reason, offset, rfl, hgood, hbad⟩
      · exact .inl ⟨key :: keys, .cons hkey hkeys⟩
      · exact .inr ⟨item :: good, bad, more, reason, offset, rfl,
          List.forall_mem_cons.2 ⟨⟨key, hkey⟩, hgood⟩, hbad⟩
    · exact .inr ⟨[], item, items, reason, offset, rfl, by simp, hbad⟩

theorem splitOn_comma_goodItems {items : List (List Char)} (h : ∀ item ∈ items, ',' ∉ item)
    (text : List Char) : (items.flatMap (· ++ [',']) ++ text).splitOn ',' =
      items ++ text.splitOn ',' := by
  induction items with
  | nil => rfl
  | cons item items ih =>
    obtain ⟨hitem, hitems⟩ := List.forall_mem_cons.1 h
    rw [List.flatMap_cons, List.append_assoc, List.append_assoc, List.singleton_append,
      List.splitOn_append_cons_self_of_not_mem hitem, ih hitems, List.cons_append]

theorem exists_splitOn_comma_append {item behind : List Char} (hitem : ',' ∉ item)
    (hbehind : ∀ c ∈ behind.head?, c = ',') :
    ∃ more, (item ++ behind).splitOn ',' = item :: more := by
  cases behind with
  | nil => exact ⟨[], by rw [List.append_nil, List.splitOn_eq_singleton hitem]⟩
  | cons c behind =>
    have hc : c = ',' := hbehind c rfl
    rw [hc, List.splitOn_append_cons_self_of_not_mem hitem]
    exact ⟨_, rfl⟩

theorem exists_intercalate_comma (good : List (List Char)) (bad : List Char)
    (more : List (List Char)) : ∃ behind, (∀ c ∈ behind.head?, c = ',') ∧
      List.intercalate [','] (good ++ bad :: more) =
        good.flatMap (· ++ [',']) ++ (bad ++ behind) := by
  induction good with
  | nil =>
    cases more with
    | nil => exact ⟨[], by simp, by simp⟩
    | cons next more =>
      exact ⟨',' :: List.intercalate [','] (next :: more), by simp, by
        simp [List.intercalate_cons_cons]⟩
  | cons item good ih =>
    obtain ⟨behind, hbehind, heq⟩ := ih
    refine ⟨behind, hbehind, ?_⟩
    obtain ⟨next, rest, hnext⟩ : ∃ next rest, good ++ bad :: more = next :: rest :=
      List.exists_cons_of_ne_nil (by simp)
    rw [List.cons_append, hnext, List.intercalate_cons_cons, ← hnext, heq, List.flatMap_cons,
      List.append_assoc, List.append_assoc, List.append_assoc]

section
variable {start : Nat} {text : List Char}

theorem readList_of_not_mem (h : ')' ∉ text) :
    readList start text = .error ⟨.missingClose, start + text.length⟩ := by
  have hopen : ∀ c ∈ text, (c != ')') = true := by
    intro c hc
    rw [bne_iff_ne]
    rintro rfl
    exact h hc
  have hdrop : text.dropWhile (· != ')') = [] := List.dropWhile_eq_nil_iff.2 hopen
  rw [readList, hdrop]

theorem readList_closed {body trailing : List Char} (h : ')' ∉ body) :
    readList start (body ++ ')' :: trailing) =
      if trailing.all Text.isBlank then
        if body.all Text.isBlank then .error ⟨.emptyList, start⟩
        else readKeys start (body.splitOn ',')
      else .error ⟨.textAfterClose,
        start + body.length + 1 + (trailing.takeWhile Text.isBlank).length⟩ := by
  have hopen : ∀ c ∈ body, (c != ')') = true := by
    intro c hc
    rw [bne_iff_ne]
    rintro rfl
    exact h hc
  unfold readList
  dsimp only
  rw [List.takeWhile_append_of_pos hopen, List.dropWhile_append_of_pos hopen,
    List.takeWhile_cons_of_neg (by decide), List.dropWhile_cons_of_neg (by decide),
    List.append_nil]

/-- What is wrong with a text is what the reader tells. -/
theorem Malformed.tells {reason : String} {offset : Nat} (h : Malformed start text reason offset) :
    Tells (readList start text) reason offset := by
  cases h with
  | notClosed h =>
    rw [readList_of_not_mem h]
    exact ⟨_, rfl, rfl, rfl⟩
  | @followed body blanks more c hbody hblanks hc =>
    have hall : ¬ (blanks ++ c :: more).all Text.isBlank = true := by simp [hc]
    have hwidth : (blanks ++ c :: more).takeWhile Text.isBlank = blanks := by
      rw [List.takeWhile_append_of_pos hblanks, List.takeWhile_cons_of_neg (by simp [hc]),
        List.append_nil]
    rw [readList_closed hbody, if_neg hall, hwidth]
    exact ⟨_, rfl, rfl, rfl⟩
  | @empty body after hbody hafter =>
    have hclose : ')' ∉ body := by
      intro hmem
      have := hbody _ hmem
      revert this
      decide
    rw [readList_closed hclose, if_pos (List.all_eq_true.2 hafter),
      if_pos (List.all_eq_true.2 hbody)]
    exact ⟨_, rfl, rfl, rfl⟩
  | @item good bad behind after reason offset hbody hclose hafter hgood hcomma hbehind hbad =>
    have hsome : ¬ (good ++ (bad ++ behind)).all Text.isBlank = true := by
      intro hall
      obtain ⟨c, hc, hblank⟩ := hbody
      simp [List.all_eq_true.1 hall c hc] at hblank
    rw [readList_closed hclose, if_pos (List.all_eq_true.2 hafter), if_neg hsome]
    obtain ⟨items, hitems, rfl⟩ := hgood
    have hcommas : ∀ item ∈ items, ',' ∉ item := by
      intro item hitem
      obtain ⟨key, hkey⟩ := hitems item hitem
      exact hkey.not_mem (by decide) (by simp [IsIdentifierChar])
    obtain ⟨more, hmore⟩ := exists_splitOn_comma_append hcomma hbehind
    rw [splitOn_comma_goodItems hcommas, hmore]
    exact readKeys_append hitems hbad

/-- A text behind an opening lists identifiers, or something is wrong with it. -/
theorem listing_or_malformed (start : Nat) (text : List Char) :
    (∃ keys, Listing text keys) ∨ ∃ reason offset, Malformed start text reason offset := by
  by_cases hclose : ')' ∈ text
  · obtain ⟨body, trailing, rfl, hbody⟩ := List.eq_append_cons_of_mem hclose
    obtain ⟨blanks, hblanks, htrailing⟩ := Text.exists_blanks_trimStart trailing
    have hhead := Text.isBlank_head?_trimStart trailing
    cases hmore : Text.trimStart trailing with
    | cons c more =>
      rw [hmore] at htrailing hhead
      rw [htrailing]
      exact .inr ⟨_, _, .followed hbody hblanks (hhead c rfl)⟩
    | nil =>
      rw [hmore, List.append_nil] at htrailing
      rw [← htrailing] at hblanks
      by_cases hsome : ∃ c ∈ body, Text.isBlank c = false
      · rcases items_cases (body.splitOn ',') with
          ⟨keys, hkeys⟩ | ⟨good, bad, more, reason, offset, hsplit, hgood, hbad⟩
        · obtain ⟨items, hne, hitems, rfl⟩ := forall₂_splitOn_iff.1 hkeys
          exact .inl ⟨keys, items, trailing, hne, hitems, hblanks, rfl⟩
        · obtain ⟨behind, hbehind, heq⟩ := exists_intercalate_comma good bad more
          have hcomma : ',' ∉ bad := by
            intro hmem
            have hcut := Text.isCut_of_mem_splitOnP (hsplit ▸ List.mem_append_right _
              List.mem_cons_self) _ hmem
            simp at hcut
          rw [← hsplit, List.intercalate_splitOn] at heq
          rw [heq] at hbody hsome ⊢
          exact .inr ⟨_, _, .item hsome hbody hblanks ⟨good, hgood, rfl⟩ hcomma hbehind hbad⟩
      · refine .inr ⟨_, _, .empty ?_ hblanks⟩
        intro c hc
        by_contra hblank
        exact hsome ⟨c, hc, by simpa using hblank⟩
  · exact .inr ⟨_, _, .notClosed hclose⟩

end

section
variable {text : String} {opening rest : List Char}

theorem ofText?_eq_of_opening (hopening : Opening opening)
    (htext : text.toList = opening ++ rest) : ofText? text =
      match readList opening.length rest with
      | .ok keys => .ok (some (ofKeys keys))
      | .error fault => .error (fault.inText text) := by
  have hrest : afterOpening? text.toList = some rest :=
    afterOpening?_eq_some_iff.2 ⟨opening, hopening, htext⟩
  have hlength : text.length - rest.length = opening.length := by
    rw [← String.length_toList, htext, List.length_append, Nat.add_sub_cancel]
  cases hread : readList opening.length rest with
  | ok keys => simp [ofText?, hrest, hlength, hread]
  | error fault => simp [ofText?, hrest, hlength, hread]

/-- Of a text that opens a directive, what the reader tells is what is wrong with it, at the offset
of the fault. If there is nothing wrong, the reader gives a directive. -/
theorem ofText?_tells_fault (hopening : Opening opening) (htext : text.toList = opening ++ rest) :
    (∀ reason offset, Malformed opening.length rest reason offset ↔
      ∃ e, ofText? text = .error e ∧ e.cause.describe = reason ∧ e.position = offset ∧
        e.text = text) ∧
    ((¬ ∃ reason offset, Malformed opening.length rest reason offset) →
      ∃ d, ofText? text = .ok (some d)) := by
  have hread := ofText?_eq_of_opening hopening htext
  have htells : ∀ reason offset, Malformed opening.length rest reason offset →
      ∃ e, ofText? text = .error e ∧ e.cause.describe = reason ∧ e.position = offset ∧
        e.text = text := by
    intro reason offset h
    obtain ⟨fault, hfault, hreason, hoffset⟩ := h.tells
    rw [hfault] at hread
    exact ⟨_, hread, hreason, hoffset, rfl⟩
  have hlisted : (∃ keys, Listing rest keys) → ∃ d, ofText? text = .ok (some d) := by
    rintro ⟨keys, hkeys⟩
    rw [readList_eq_ok_iff.2 hkeys] at hread
    exact ⟨_, hread⟩
  refine ⟨fun reason offset => ⟨htells reason offset, ?_⟩, fun h => ?_⟩
  · rintro ⟨e, he, rfl, rfl, -⟩
    rcases listing_or_malformed opening.length rest with hkeys | ⟨reason, offset, h⟩
    · obtain ⟨d, hd⟩ := hlisted hkeys
      rw [he] at hd
      cases hd
    · obtain ⟨e', he', rfl, rfl, -⟩ := htells reason offset h
      rw [he] at he'
      cases he'
      exact h
  · exact hlisted ((listing_or_malformed opening.length rest).resolve_right h)

end

theorem ofText?_tells_fault_spaced :
    let text := "\u3000match(a\u00a0,\u2003ß 1,)"
    let rest := "a\u00a0,\u2003ß 1,)".toList
    Opening "\u3000match(".toList ∧ text.toList = "\u3000match(".toList ++ rest ∧
      Malformed 7 rest "invalid identifier \"ß 1\"" 11 ∧
      ofText? text = .error ⟨⟨.invalidIdentifier "ß 1", 11⟩, text⟩ := by
  intro text rest
  have hopening : Opening "\u3000match(".toList :=
    ⟨['\u3000'], "match".toList, [], List.all_eq_true.1 (by decide),
      List.forall₂_same.2 fun _ _ => .inl rfl, by simp, rfl⟩
  have htext : text.toList = "\u3000match(".toList ++ rest := by decide
  have hread : ofText? text = .error ⟨⟨.invalidIdentifier "ß 1", 11⟩, text⟩ := by decide +kernel
  have hreason : DirectiveCause.describe (.invalidIdentifier "ß 1") =
      "invalid identifier \"ß 1\"" := by decide +kernel
  have hlength : "\u3000match(".toList.length = 7 := by decide
  have hfault := ((ofText?_tells_fault hopening htext).1 "invalid identifier \"ß 1\"" 11).2
    ⟨_, hread, hreason, rfl, rfl⟩
  rw [hlength] at hfault
  exact ⟨hopening, htext, hfault, hread⟩

end Directive

end TextQuery
