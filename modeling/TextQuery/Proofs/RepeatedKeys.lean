import Mathlib.Data.Finset.Card
import TextQuery.Proofs.Ordering
import TextQuery.Proofs.Directives

/-!
# Keys that a directive repeats

A directive that is read from JSON may list a key more than once. Only the first place of a key
counts, and without the later ones the keys keep their order, though not their places. A search
compares places and never looks at how far they are apart, so the repetitions change no result.
-/
namespace TextQuery

namespace Directive

variable {keys : List String} {key : String}

theorem mem_distinct : key ∈ distinct keys ↔ key ∈ keys := by
  rw [distinct_eq_eraseDups, List.mem_eraseDups]

/-- The keys that are kept stand in the order of their first places. -/
theorem pairwise_distinct (keys : List String) :
    (distinct keys).Pairwise fun a b => keys.idxOf a < keys.idxOf b := by
  induction keys with
  | nil => exact List.Pairwise.nil
  | cons key keys ih =>
    have hother : ∀ a ∈ (distinct keys).filter (· != key),
        (key :: keys).idxOf a = keys.idxOf a + 1 := by
      intro a ha
      have hne : a ≠ key := by simpa using (List.mem_filter.1 ha).2
      exact List.idxOf_cons_ne keys hne.symm
    refine List.pairwise_cons.2 ⟨?_, ?_⟩
    · intro a ha
      rw [hother a ha, List.idxOf_cons_self]
      exact Nat.succ_pos _
    · refine (ih.filter _).imp_of_mem ?_
      intro a b ha hb hlt
      rw [hother a ha, hother b hb]
      exact Nat.succ_lt_succ hlt

theorem nodup_distinct (keys : List String) : (distinct keys).Nodup := by
  refine (pairwise_distinct keys).imp ?_
  intro a b hlt heq
  rw [heq] at hlt
  exact lt_irrefl _ hlt

/-- In a list whose members are in the order of some measure, places compare as measures do. -/
theorem idxOf_lt_idxOf_iff {l : List String} {f : String → Nat}
    (h : l.Pairwise fun a b => f a < f b) {a b : String} (ha : a ∈ l) (hb : b ∈ l) :
    l.idxOf a < l.idxOf b ↔ f a < f b := by
  have hmono : ∀ {a b : String}, a ∈ l → b ∈ l → l.idxOf a < l.idxOf b → f a < f b := by
    intro a b ha hb hlt
    have hpair := List.pairwise_iff_getElem.1 h _ _ (List.idxOf_lt_length_of_mem ha)
      (List.idxOf_lt_length_of_mem hb) hlt
    rwa [List.getElem_idxOf, List.getElem_idxOf] at hpair
  constructor
  · exact hmono ha hb
  · intro hlt
    by_contra hnot
    rcases Nat.lt_or_eq_of_le (Nat.le_of_not_lt hnot) with hgt | heq
    · exact lt_asymm hlt (hmono hb ha hgt)
    · cases (List.idxOf_inj hb).1 heq
      exact lt_irrefl _ hlt

theorem rank?_eq (d : Directive) (key : String) :
    d.rank? key = if key ∈ d.keys then some (d.keys.idxOf key) else none := by
  rw [rank?]
  split
  · next hkey =>
    obtain ⟨n, hn⟩ := Option.isSome_iff_exists.1 (List.isSome_idxOf?.2 hkey)
    simp [List.idxOf_eq_getD_idxOf?, hn]
  · next hkey => exact List.idxOf?_eq_none_iff.2 hkey

/-- The place of a key is the number of different keys before it. -/
theorem idxOf_distinct (hkey : key ∈ keys) :
    (distinct keys).idxOf key = (keys.take (keys.idxOf key)).toFinset.card := by
  have hbefore : ((distinct keys).take ((distinct keys).idxOf key)).toFinset =
      (keys.take (keys.idxOf key)).toFinset := by
    ext a
    by_cases ha : a ∈ keys
    · have ha' := mem_distinct.2 ha
      rw [List.mem_toFinset, List.mem_toFinset, List.mem_take_iff_idxOf_lt ha',
        List.mem_take_iff_idxOf_lt ha]
      exact idxOf_lt_idxOf_iff (pairwise_distinct keys) ha' (mem_distinct.2 hkey)
    · have ha' := mt mem_distinct.1 ha
      simp [mt List.mem_of_mem_take ha, mt List.mem_of_mem_take ha']
  have hnodup := (nodup_distinct keys).sublist (List.take_sublist ((distinct keys).idxOf key) _)
  rw [← hbefore, List.toFinset_card_of_nodup hnodup, List.length_take, min_eq_left]
  exact List.idxOf_le_length

theorem rank?_ofKeys (keys : List String) (key : String) : (ofKeys keys).rank? key =
    if key ∈ keys then some (keys.take (keys.idxOf key)).toFinset.card else none := by
  rw [rank?_eq, ofKeys]
  by_cases hkey : key ∈ keys
  · rw [if_pos hkey, if_pos (mem_distinct.2 hkey), idxOf_distinct hkey]
  · rw [if_neg hkey, if_neg (mt mem_distinct.1 hkey)]

example : (ofKeys ["b", "a", "b", "c"]).rank? "c" = some 2 := by decide

/-- Two keys are in the same order by their places, with the repetitions or without. -/
theorem compare_idxOf_distinct {a b : String} (ha : a ∈ keys) (hb : b ∈ keys) :
    compare ((distinct keys).idxOf a) ((distinct keys).idxOf b) =
      compare (keys.idxOf a) (keys.idxOf b) := by
  have ha' := mem_distinct.2 ha
  have hb' := mem_distinct.2 hb
  have hpairwise := pairwise_distinct keys
  rw [Nat.compare_eq_ite_lt, Nat.compare_eq_ite_lt]
  simp only [idxOf_lt_idxOf_iff hpairwise ha' hb', idxOf_lt_idxOf_iff hpairwise hb' ha']

end Directive

namespace Collection
open Directive (distinct ofKeys)

/-- A document is listed by both directives, at the places of its key, or by neither. -/
theorem rank?_cases (c : Collection) (keys : List String) (doc : Json) :
    (c.rank? (ofKeys keys) doc = none ∧ c.rank? ⟨keys⟩ doc = none) ∨
      ∃ key ∈ keys, c.rank? (ofKeys keys) doc = some ((distinct keys).idxOf key) ∧
        c.rank? ⟨keys⟩ doc = some (keys.idxOf key) := by
  unfold rank?
  cases (c.key? doc).bind Json.keyText? with
  | none => exact .inl ⟨rfl, rfl⟩
  | some key =>
    rw [Option.bind_some, Option.bind_some, Directive.rank?_eq, Directive.rank?_eq, ofKeys]
    by_cases hkey : key ∈ keys
    · rw [if_pos hkey, if_pos (Directive.mem_distinct.2 hkey)]
      exact .inr ⟨key, hkey, rfl, rfl⟩
    · rw [if_neg hkey, if_neg (mt Directive.mem_distinct.1 hkey)]
      exact .inl ⟨rfl, rfl⟩

/-- Documents compare alike under a directive and under the one without its repetitions. -/
theorem compareListed_ofKeys (c : Collection) (keys : List String) :
    c.compareListed (ofKeys keys) = c.compareListed ⟨keys⟩ := by
  funext x y
  unfold compareListed
  rcases c.rank?_cases keys x with ⟨hx, hx'⟩ | ⟨a, ha, hx, hx'⟩
  · rcases c.rank?_cases keys y with ⟨hy, hy'⟩ | ⟨b, hb, hy, hy'⟩
    · rw [hx, hx', hy, hy']
    · rw [hx, hx', hy, hy']
      rfl
  · rcases c.rank?_cases keys y with ⟨hy, hy'⟩ | ⟨b, hb, hy, hy'⟩
    · rw [hx, hx', hy, hy']
      rfl
    · rw [hx, hx', hy, hy']
      exact Directive.compare_idxOf_distinct ha hb

/-- A directive that repeats keys is read from JSON as it is, and gives the results of the directive
that lists each of the keys at its first place. In that one a key is placed by the number of
different keys that come before it. -/
theorem page_ofKeys (keys : List String) :
    Directive.ofJson? (Directive.toJson ⟨keys⟩) = some ⟨keys⟩ ∧
      (∀ (c : Collection) (f : Filter) (s : Selection),
        c.page f { s with directive := some ⟨keys⟩ } =
          c.page f { s with directive := some (ofKeys keys) }) ∧
      (∀ key, key ∈ (ofKeys keys).keys ↔ key ∈ keys) ∧ (ofKeys keys).keys.Nodup ∧
      ((ofKeys keys).keys.Pairwise fun a b => keys.idxOf a < keys.idxOf b) ∧
      ∀ key, (ofKeys keys).rank? key =
        if key ∈ keys then some (keys.take (keys.idxOf key)).toFinset.card else none := by
  refine ⟨Directive.ofJson?_toJson _, ?_, fun key => Directive.mem_distinct,
    Directive.nodup_distinct keys, Directive.pairwise_distinct keys, Directive.rank?_ofKeys keys⟩
  intro c f s
  simp only [page, ordered, compareListed_ofKeys]

end Collection

end TextQuery
