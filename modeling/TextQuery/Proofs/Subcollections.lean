import Mathlib.Data.List.Sort
import TextQuery.Proofs.Paging
import TextQuery.Proofs.ValueOrder

/-!
# Documents left out of a collection

Whether one match precedes another depends on these two documents alone, and of two matches only
one precedes the other. So the matches have a single order. Leaving documents out, or asking more of
the matches, deletes results from it and moves none of the others.
-/
namespace TextQuery

/-- If ties are decided one way only, so is the whole order. -/
theorem PrecedesBy.asymm {α : Type} {compare : α → α → Ordering} {tie tie' : Prop}
    (h : OrdersTotally compare fun _ => True) (htie : tie → ¬ tie') {x y : Option α}
    (hxy : PrecedesBy compare tie x y) : ¬ PrecedesBy compare tie' y x := by
  intro hyx
  have hswap := h.missingLast.swap (a := x) (b := y) (fun _ _ => trivial) (fun _ _ => trivial)
  rw [precedesBy_iff] at hxy hyx
  rw [hswap] at hyx
  rcases hxy with hlt | ⟨heq, ht⟩
  · simp [hlt] at hyx
  · simp only [heq, Ordering.swap_eq, reduceCtorEq, true_and, false_or] at hyx
    exact htie ht hyx

namespace Collection

variable {c : Collection} {s : Selection} {d : Directive} {f : Filter}

section
variable {i j : c.Position}

theorem PrecedesPlainly.asymm (h : c.PrecedesPlainly s i j) : ¬ c.PrecedesPlainly s j i := by
  have hlt : i < j → ¬ j < i := fun hij => lt_asymm hij
  unfold PrecedesPlainly at *
  cases hs : s.sort with
  | none =>
    simp only [hs] at h ⊢
    exact hlt h
  | some key =>
    obtain ⟨field, direction⟩ := key
    cases direction with
    | ascending =>
      simp only [hs] at h ⊢
      exact PrecedesBy.asymm Json.ordersTotally_compare hlt h
    | descending =>
      have hflip : OrdersTotally (fun x y : Json => y.compare x) fun _ => True := by
        constructor
        · intro a b _ _
          exact Json.ordersTotally_compare.swap trivial trivial
        · intro a b e _ _ _ hab hbe
          exact Json.ordersTotally_compare.trans trivial trivial trivial hbe hab
      simp only [hs] at h ⊢
      exact PrecedesBy.asymm hflip hlt h

theorem PrecedesUnlisted.asymm (h : c.PrecedesUnlisted s i j) : ¬ c.PrecedesUnlisted s j i := by
  unfold PrecedesUnlisted at *
  cases hr : c.remainder with
  | natural =>
    simp only [hr] at h ⊢
    exact PrecedesPlainly.asymm h
  | byKey =>
    simp only [hr] at h ⊢
    exact PrecedesBy.asymm Json.ordersTotally_compare PrecedesPlainly.asymm h

theorem ListedAs.unique {a b : String} (ha : c.ListedAs d i a) (hb : c.ListedAs d i b) : a = b :=
  Option.some.inj (ha.1.symm.trans hb.1)

theorem PrecedesListed.asymm (h : c.PrecedesListed s d i j) : ¬ c.PrecedesListed s d j i := by
  intro h'
  cases h with
  | @ofKeys a b hi hj hlt =>
    cases h' with
    | @ofKeys a' b' hj' hi' hlt' =>
      have hb := hj.unique hj'
      have ha := hi.unique hi'
      subst ha hb
      omega
    | @sameKey a' hj' hi' =>
      have hab := (hi.unique hi').trans (hj.unique hj').symm
      subst hab
      omega
    | listedFirst hj' hi' => exact hi' a hi
    | unlisted hj' hi' => exact hi' a hi
  | @sameKey a hi hj hplain =>
    cases h' with
    | @ofKeys a' b' hj' hi' hlt' =>
      have hab := (hj.unique hj').symm.trans (hi.unique hi')
      subst hab
      omega
    | sameKey hj' hi' hplain' => exact PrecedesPlainly.asymm hplain hplain'
    | listedFirst hj' hi' => exact hi' a hi
    | unlisted hj' hi' => exact hi' a hi
  | @listedFirst a hi hj =>
    cases h' with
    | @ofKeys b b' hj' => exact hj b hj'
    | @sameKey b hj' => exact hj b hj'
    | @listedFirst b hj' => exact hj b hj'
    | unlisted hj' hi' => exact hi' a hi
  | unlisted hi hj hrest =>
    cases h' with
    | @ofKeys b b' hj' => exact hj b hj'
    | @sameKey b hj' => exact hj b hj'
    | @listedFirst b hj' => exact hj b hj'
    | unlisted hj' hi' hrest' => exact PrecedesUnlisted.asymm hrest hrest'

theorem Precedes.asymm (h : c.Precedes s i j) : ¬ c.Precedes s j i := by
  unfold Precedes at *
  cases hd : s.directive with
  | none =>
    simp only [hd] at h ⊢
    exact PrecedesPlainly.asymm h
  | some d =>
    simp only [hd] at h ⊢
    exact PrecedesListed.asymm h

end

/-- Positions in the order of a search are determined by which positions they are. -/
theorem eq_of_pairwise_precedes {ps qs : List c.Position} (hp : ps.Pairwise (c.Precedes s))
    (hq : qs.Pairwise (c.Precedes s)) (hmem : ∀ i, i ∈ ps ↔ i ∈ qs) : ps = qs := by
  have hnodup : ∀ {l : List c.Position}, l.Pairwise (c.Precedes s) → l.Nodup := by
    intro l hl
    refine hl.imp ?_
    intro i j hij heq
    subst heq
    exact Precedes.asymm hij hij
  have hperm : ps.Perm qs := (List.perm_ext_iff_of_nodup (hnodup hp) (hnodup hq)).2 hmem
  refine hperm.eq_of_pairwise ?_ hp hq
  intro i j _ _ hij hji
  exact absurd hji (Precedes.asymm hij)

/-- The collection of the documents that stand at the positions that are kept. -/
def keeping (c : Collection) (kept : c.Position → Bool) : Collection :=
  { c with documents := ((List.finRange c.documents.length).filter kept).map c.documents.get }

theorem length_keeping (c : Collection) (kept : c.Position → Bool) :
    (c.keeping kept).documents.length = ((List.finRange c.documents.length).filter kept).length :=
  List.length_map _

/-- Where a document that is kept stood before. -/
def origin (c : Collection) (kept : c.Position → Bool) (i : (c.keeping kept).Position) :
    c.Position :=
  ((List.finRange c.documents.length).filter kept).get (i.cast (c.length_keeping kept))

variable {kept : c.Position → Bool}

theorem getElem_keeping (i : (c.keeping kept).Position) :
    (c.keeping kept).documents[i] = c.documents[c.origin kept i] :=
  List.getElem_map c.documents.get

/-- Leaving documents out changes nothing in the order of the others. -/
theorem origin_lt_iff {i j : (c.keeping kept).Position} :
    c.origin kept i < c.origin kept j ↔ i < j := by
  have hsorted : ((List.finRange c.documents.length).filter kept).SortedLT :=
    ((List.pairwise_lt_finRange _).filter _).sortedLT
  exact hsorted.strictMono_get.lt_iff_lt

/-- The positions that are kept are just the origins of the new ones. -/
theorem exists_origin_eq_iff {i : c.Position} :
    (∃ k, c.origin kept k = i) ↔ kept i = true := by
  have hmem : i ∈ (List.finRange c.documents.length).filter kept ↔ kept i = true := by simp
  rw [← hmem, List.mem_iff_get]
  constructor
  · intro ⟨k, hk⟩
    exact ⟨_, hk⟩
  · intro ⟨k, hk⟩
    exact ⟨k.cast (c.length_keeping kept).symm, hk⟩

theorem precedesPlainly_origin_iff {i j : (c.keeping kept).Position} :
    c.PrecedesPlainly s (c.origin kept i) (c.origin kept j) ↔
      (c.keeping kept).PrecedesPlainly s i j := by
  simp only [PrecedesPlainly, getElem_keeping, origin_lt_iff]

theorem listedAs_origin_iff {i : (c.keeping kept).Position} {text : String} :
    c.ListedAs d (c.origin kept i) text ↔ (c.keeping kept).ListedAs d i text := by
  unfold ListedAs
  rw [getElem_keeping]
  rfl

theorem precedesUnlisted_origin_iff {i j : (c.keeping kept).Position} :
    c.PrecedesUnlisted s (c.origin kept i) (c.origin kept j) ↔
      (c.keeping kept).PrecedesUnlisted s i j := by
  unfold PrecedesUnlisted
  rw [precedesPlainly_origin_iff, ← getElem_keeping, ← getElem_keeping]
  rfl

/-- Which of two documents comes first does not depend on the documents left out. -/
theorem precedes_origin {i j : (c.keeping kept).Position} (h : (c.keeping kept).Precedes s i j) :
    c.Precedes s (c.origin kept i) (c.origin kept j) := by
  unfold Precedes at *
  cases hd : s.directive with
  | none =>
    simp only [hd] at h ⊢
    exact precedesPlainly_origin_iff.2 h
  | some d =>
    simp only [hd] at h ⊢
    cases h with
    | ofKeys hi hj hlt => exact .ofKeys (listedAs_origin_iff.2 hi) (listedAs_origin_iff.2 hj) hlt
    | sameKey hi hj hplain =>
      exact .sameKey (listedAs_origin_iff.2 hi) (listedAs_origin_iff.2 hj)
        (precedesPlainly_origin_iff.2 hplain)
    | listedFirst hi hj =>
      exact .listedFirst (listedAs_origin_iff.2 hi) fun b hb => hj b (listedAs_origin_iff.1 hb)
    | unlisted hi hj hrest =>
      exact .unlisted (fun a ha => hi a (listedAs_origin_iff.1 ha))
        (fun b hb => hj b (listedAs_origin_iff.1 hb)) (precedesUnlisted_origin_iff.2 hrest)

/-- All results of a search: the page from the first result on that no limit cuts off. -/
def results (c : Collection) (f : Filter) (s : Selection) : List Json :=
  (page { c with maxLimit := c.size } f { s with skip := 0, limit := c.size }).items

theorem results_eq_ordered (c : Collection) (f : Filter) (s : Selection) :
    c.results f s = c.ordered f s :=
  c.page_items_unlimited f s le_rfl le_rfl

theorem exists_lists_results (c : Collection) (f : Filter) (s : Selection) :
    ∃ ps, Lists c f (c.Precedes s) ps (c.results f s) := by
  rw [results_eq_ordered]
  exact exists_lists_ordered (Json.ordersTotally_compare.mono fun _ => trivial)

variable {ps : List c.Position}

theorem Lists.map_get {R : c.Position → c.Position → Prop} {docs : List Json}
    (h : Lists c f R ps docs) : ps.map c.documents.get = docs :=
  h.map_eq

/-- Without some of the documents, the results are those that there were, less the results that
have been left out. -/
theorem Lists.results_keeping (h : Lists c f (c.Precedes s) ps (c.results f s)) :
    (c.keeping kept).results f s = (ps.filter kept).map c.documents.get := by
  obtain ⟨qs, hqs⟩ := exists_lists_results (c.keeping kept) f s
  have hpairwise : (qs.map (c.origin kept)).Pairwise (c.Precedes s) :=
    List.pairwise_map.2 (hqs.pairwise.imp precedes_origin)
  have hmem : ∀ i, i ∈ qs.map (c.origin kept) ↔ i ∈ ps.filter kept := by
    intro i
    rw [List.mem_map, List.mem_filter, h.mem_iff, ← exists_origin_eq_iff]
    constructor
    · intro ⟨k, hk, hki⟩
      rw [hqs.mem_iff, getElem_keeping] at hk
      subst hki
      exact ⟨hk, k, rfl⟩
    · intro ⟨hi, k, hki⟩
      subst hki
      refine ⟨k, ?_, rfl⟩
      rw [hqs.mem_iff, getElem_keeping]
      exact hi
  have hkept := eq_of_pairwise_precedes hpairwise (h.pairwise.filter kept) hmem
  calc
    _ = qs.map (c.keeping kept).documents.get := hqs.map_get.symm
    _ = (qs.map (c.origin kept)).map c.documents.get := by
      rw [List.map_map]
      exact List.map_congr_left fun i _ => getElem_keeping i
    _ = (ps.filter kept).map c.documents.get := by rw [hkept]

/-- To ask for a second filter, too, deletes the results that it does not accept. -/
theorem results_all (c : Collection) (f g : Filter) (s : Selection) :
    c.results (.all [f, g]) s = (c.results f s).filter fun doc => g.accepts doc := by
  obtain ⟨ps, hps⟩ := exists_lists_results c f s
  obtain ⟨qs, hqs⟩ := exists_lists_results c (.all [f, g]) s
  have hmem : ∀ i, i ∈ qs ↔ i ∈ ps.filter fun i => g.accepts c.documents[i] := by
    intro i
    rw [List.mem_filter, hps.mem_iff, hqs.mem_iff]
    simp
  have hboth := eq_of_pairwise_precedes hqs.pairwise (hps.pairwise.filter _) hmem
  rw [← hps.map_eq, ← hqs.map_eq, hboth, List.filter_map]
  rfl

theorem filter_finRange_lt (n k : ℕ) :
    ((List.finRange n).filter fun i => i.val < k) = (List.finRange n).take k := by
  have htake : ∀ i ∈ (List.finRange n).take k, decide (i.val < k) = true := by
    intro i hi
    obtain ⟨m, hm, hmi⟩ := List.mem_take_iff_getElem.1 hi
    rw [List.getElem_finRange] at hmi
    subst hmi
    simp only [Fin.cast_mk, decide_eq_true_eq]
    omega
  have hdrop : ∀ i ∈ (List.finRange n).drop k, ¬ decide (i.val < k) = true := by
    intro i hi
    obtain ⟨m, hm, hmi⟩ := List.mem_drop_iff_getElem.1 hi
    rw [List.getElem_finRange] at hmi
    subst hmi
    simp only [Fin.cast_mk, decide_eq_true_eq]
    omega
  conv_lhs => rw [← List.take_append_drop k (List.finRange n)]
  rw [List.filter_append, List.filter_eq_self.2 htake, List.filter_eq_nil_iff.2 hdrop,
    List.append_nil]

/-- The positions but the last are those of the documents that were there before. -/
theorem keeping_insert (c : Collection) (doc : Json) :
    (c.insert doc).keeping (fun i => i.val < c.documents.length) = c := by
  have hdocuments : ((c.insert doc).keeping fun i => i.val < c.documents.length).documents =
      c.documents := by
    calc
      _ = ((List.finRange _).take c.documents.length).map (c.insert doc).documents.get :=
        congrArg _ (filter_finRange_lt _ _)
      _ = (c.insert doc).documents.take c.documents.length := by
        rw [List.map_take]
        exact congrArg _ (List.map_get_finRange _)
      _ = c.documents := List.take_left
  obtain ⟨documents, keyField, remainder, maxLimit⟩ := c
  exact congrArg (Collection.mk · keyField remainder maxLimit) hdocuments

/-- A document that is inserted takes a place among the results if the filter accepts it, and the
others stay in their order. -/
theorem exists_results_insert (c : Collection) (f : Filter) (s : Selection) (doc : Json) :
    ∃ before after, c.results f s = before ++ after ∧
      (c.insert doc).results f s = before ++ (if f.accepts doc then [doc] else []) ++ after := by
  obtain ⟨ps, hps⟩ := exists_lists_results (c.insert doc) f s
  have hlength : (c.insert doc).documents.length = c.documents.length + 1 := List.length_append
  let last : (c.insert doc).Position := ⟨c.documents.length, by omega⟩
  have hlast : (c.insert doc).documents.get last = doc := by simp [last, insert]
  have hkept : ∀ i : (c.insert doc).Position, i ≠ last → i.val < c.documents.length := by
    intro i hi
    have hne : i.val ≠ c.documents.length := fun heq => hi (Fin.ext heq)
    have := i.isLt
    omega
  have hresults : ((c.insert doc).keeping fun i => i.val < c.documents.length).results f s =
      (ps.filter fun i => i.val < c.documents.length).map (c.insert doc).documents.get :=
    hps.results_keeping
  rw [keeping_insert] at hresults
  have hmem : last ∈ ps ↔ f.accepts ((c.insert doc).documents.get last) = true := hps.mem_iff last
  rw [hlast] at hmem
  by_cases hdoc : f.accepts doc = true
  · obtain ⟨front, back, hsplit⟩ := List.append_of_mem (hmem.2 hdoc)
    have hnodup := hps.nodup
    rw [hsplit, List.nodup_middle, List.nodup_cons] at hnodup
    have hothers : ∀ i ∈ front ++ back, decide (i.val < c.documents.length) = true := by
      intro i hi
      have hne : i ≠ last := by
        intro heq
        subst heq
        exact hnodup.1 hi
      simpa using hkept i hne
    have hfilter : (ps.filter fun i => i.val < c.documents.length) = front ++ back := by
      rw [← List.filter_eq_self.2 hothers, hsplit, List.filter_append, List.filter_append,
        List.filter_cons_of_neg (by simp [last])]
    refine ⟨front.map _, back.map _, by rw [hresults, hfilter, List.map_append], ?_⟩
    rw [← hps.map_get, hsplit, List.map_append, List.map_cons, hlast, if_pos hdoc]
    simp
  · have hall : ∀ i ∈ ps, decide (i.val < c.documents.length) = true := by
      intro i hi
      have hne : i ≠ last := by
        intro heq
        subst heq
        exact hdoc (hmem.1 hi)
      simpa using hkept i hne
    refine ⟨c.results f s, [], by simp, ?_⟩
    rw [hresults, List.filter_eq_self.2 hall, hps.map_get, if_neg hdoc, List.append_nil,
      List.append_nil]

/-- There is one order of the results, and leaving documents out deletes their results from it and
changes nothing else. So a document that is inserted moves no other result, and a second condition
only deletes the results that do not satisfy it. -/
theorem results_of_fewer (c : Collection) (f : Filter) (s : Selection) :
    (∃ ps, Lists c f (c.Precedes s) ps (c.results f s) ∧ ∀ kept : c.Position → Bool,
      (c.keeping kept).results f s = (ps.filter kept).map c.documents.get) ∧
    (∀ doc, ∃ before after, c.results f s = before ++ after ∧
      (c.insert doc).results f s = before ++ (if f.accepts doc then [doc] else []) ++ after) ∧
    ∀ g : Filter, c.results (.all [f, g]) s = (c.results f s).filter fun doc => g.accepts doc := by
  obtain ⟨ps, hps⟩ := exists_lists_results c f s
  exact ⟨⟨ps, hps, fun _ => hps.results_keeping⟩, fun doc => exists_results_insert c f s doc,
    fun g => results_all c f g s⟩

end Collection

end TextQuery
