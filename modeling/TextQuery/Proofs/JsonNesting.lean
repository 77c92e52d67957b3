import Mathlib.Data.List.Basic
import Mathlib.Order.Lattice
import TextQuery.Json.Reader

/-!
# How deep JSON values are

The reader of JSON text is told how many arrays and objects may be inside each other, and no value
that it gives goes deeper. What holds of every value that a reader takes is a property of the
reader, and each way of making readers from others hands it on.
-/
namespace TextQuery

namespace Text

variable {α : Type} {r : Reader α} {P : α → Prop} {skip : Char → Bool}

/-- Whatever the reader takes has the property. -/
def Ensures (r : Reader α) (P : α → Prop) : Prop :=
  ∀ (input : List Char) (t : Taken α input), r input = some t → P t.value

/-- What is skipped before a value is no part of it. -/
theorem Ensures.past (h : Ensures r P) : Ensures (past skip r) P := by
  intro input t ht
  obtain ⟨taken, htaken, rfl⟩ := Option.map_eq_some_iff.1 ht
  exact h _ taken htaken

/-- What a reader ensures of an item holds of all items between commas. What stands behind a comma
is shorter than what the item before it was read from. -/
theorem Ensures.commaSeparated (h : Ensures r P) (close : Char) :
    Ensures (commaSeparated r skip close) fun xs => ∀ x ∈ xs, P x := by
  intro input
  induction hlength : input.length using Nat.strong_induction_on generalizing input with
  | _ length ih =>
    intro t ht
    rw [Text.commaSeparated] at ht
    split at ht
    · cases ht
    · next first hfirst =>
      have hP := h.past _ _ hfirst
      split at ht
      · cases ht
      · next c more hmore =>
        have hlt := Nat.lt_trans (length_lt_of_dropWhile_eq hmore) first.shorter
        dsimp only at ht
        split at ht
        · cases ht
          simpa using hP
        · split at ht
          · obtain ⟨others, hothers, rfl⟩ := Option.map_eq_some_iff.1 ht
            exact List.forall_mem_cons.2 ⟨hP, ih _ (hlength ▸ hlt) more rfl others hothers⟩
          · cases ht

theorem Ensures.of_readAll (h : Ensures r P) {text : List Char} {a : α}
    (ha : readAll skip r text = some a) : P a := by
  obtain ⟨t, ht, hrest⟩ := Option.bind_eq_some_iff.1 ha
  split at hrest
  · cases hrest
    exact h text t ht
  · cases hrest

end Text

namespace Json

mutual

/-- How many arrays and objects are inside each other. -/
def nesting : Json → Nat
  | array items => nestingList items + 1
  | object members => nestingMembers members + 1
  | null | bool _ | number _ | string _ => 0

def nestingList : List Json → Nat
  | [] => 0
  | j :: js => max j.nesting (nestingList js)

def nestingMembers : List (String × Json) → Nat
  | [] => 0
  | (_, j) :: members => max j.nesting (nestingMembers members)

end

attribute [simp] nesting nestingList nestingMembers

@[simp] theorem nesting_ofStrings (texts : List String) : (ofStrings texts).nesting = 1 := by
  have hstrings : nestingList (texts.map string) = 0 := by
    induction texts with
    | nil => rfl
    | cons text texts ih => rw [List.map_cons, nestingList, ih, nesting, Nat.max_self]
  rw [ofStrings, nesting, hstrings]

section
variable {items : List Json} {members : List (String × Json)} {n : Nat}

theorem nestingList_le_iff : nestingList items ≤ n ↔ ∀ j ∈ items, j.nesting ≤ n := by
  induction items with
  | nil => simp
  | cons j items ih => simp [ih]

/-- A member may replace a deeper one, but it can bring no more than its own depth. -/
theorem nestingMembers_insertMember_le (name : String) (value : Json) :
    nestingMembers (insertMember name value members) ≤
      max value.nesting (nestingMembers members) := by
  induction members with
  | nil => exact le_rfl
  | cons m members ih =>
    obtain ⟨other, kept⟩ := m
    rw [insertMember]
    split
    · simp only [nestingMembers]
      omega
    · split
      · exact le_rfl
      · simp only [nestingMembers]
        omega

/-- Putting members into their places nests no deeper than the members do. -/
theorem nesting_ofMembers_le (h : ∀ m ∈ members, m.2.nesting ≤ n) :
    (ofMembers members).nesting ≤ n + 1 := by
  have hfold : ∀ sorted : List (String × Json), nestingMembers sorted ≤ n →
      nestingMembers (members.foldl (fun sorted m => insertMember m.1 m.2 sorted) sorted) ≤ n := by
    induction members with
    | nil => exact fun sorted hsorted => hsorted
    | cons m members ih =>
      intro sorted hsorted
      obtain ⟨hm, hmembers⟩ := List.forall_mem_cons.1 h
      exact ih hmembers _ ((nestingMembers_insertMember_le _ _).trans (max_le hm hsorted))
  exact Nat.succ_le_succ (hfold [] (Nat.zero_le n))

end

open Text (Ensures)

theorem ensures_readMember {value : Text.Reader Json} {P : Json → Prop} (h : Ensures value P) :
    Ensures (readMember value) fun m => P m.2 := by
  intro input t ht
  unfold readMember at ht
  split at ht
  · obtain ⟨name, -, ht⟩ := Option.bind_eq_some_iff.1 ht
    split at ht
    · obtain ⟨taken, htaken, rfl⟩ := Option.map_eq_some_iff.1 ht
      exact h _ taken htaken
    · cases ht
  · cases ht

/-- What is read nests no deeper than it may. -/
theorem ensures_readValue (budget : Nat) :
    Ensures (readValue budget) fun j => j.nesting ≤ budget := by
  induction budget using Nat.strong_induction_on with
  | _ budget ih =>
    unfold readValue
    apply Ensures.past
    intro input t ht
    dsimp only at ht
    split at ht
    case h_1 | h_2 | h_3 =>
      cases ht
      exact Nat.zero_le budget
    case h_4 =>
      obtain ⟨text, -, rfl⟩ := Option.map_eq_some_iff.1 ht
      exact Nat.zero_le budget
    case h_5 =>
      split at ht
      · cases ht
      · next n =>
        split at ht
        · cases ht
          exact Nat.succ_le_succ (Nat.zero_le n)
        · obtain ⟨items, hitems, rfl⟩ := Option.map_eq_some_iff.1 ht
          have hread := (ih n n.lt_succ_self).commaSeparated _ _ _ hitems
          exact Nat.succ_le_succ (nestingList_le_iff.2 hread)
    case h_6 =>
      split at ht
      · cases ht
      · next n =>
        split at ht
        · cases ht
          exact Nat.succ_le_succ (Nat.zero_le n)
        · obtain ⟨members, hmembers, rfl⟩ := Option.map_eq_some_iff.1 ht
          have hread := (ensures_readMember (ih n n.lt_succ_self)).commaSeparated _ _ _ hmembers
          exact nesting_ofMembers_le hread
    case h_7 =>
      obtain ⟨hshorter, ht⟩ := Option.dite_none_right_eq_some.1 ht
      obtain ⟨n, -, rfl⟩ := Option.map_eq_some_iff.1 ht
      exact Nat.zero_le budget

theorem nesting_le_of_ofText? {text : String} {j : Json} (h : ofText? text = some j) :
    j.nesting ≤ maxDepth :=
  (ensures_readValue maxDepth).of_readAll h

theorem ofText?_ne_some {j : Json} (h : maxDepth < j.nesting) (text : String) :
    ofText? text ≠ some j :=
  fun hread => Nat.not_le_of_lt h (nesting_le_of_ofText? hread)

end Json

end TextQuery
