import Mathlib.Data.Fintype.Card
import TextQuery.Ranking.Collection

/-!
# The order of results

All that is known of the order of values is that it is total, up to values that are alike. From
this alone, sorting by a field and then by a directive puts the matches into one order, told here
on their positions in the collection, so that equal documents are kept apart.
-/
namespace TextQuery

/-- The comparison puts the values that satisfy `P` into a total order, in which different values
may be alike. -/
structure OrdersTotally {α : Type} (compare : α → α → Ordering) (P : α → Prop) : Prop where
  swap : ∀ {a b}, P a → P b → compare b a = (compare a b).swap
  trans : ∀ {a b c}, P a → P b → P c → (compare a b).isLE = true → (compare b c).isLE = true →
    (compare a c).isLE = true

namespace OrdersTotally

variable {α β : Type} {compare : α → α → Ordering} {P : α → Prop}

theorem comap (h : OrdersTotally compare P) (f : β → α) :
    OrdersTotally (fun a b => compare (f a) (f b)) (fun b => P (f b)) :=
  ⟨fun ha hb => h.swap ha hb, fun ha hb hc => h.trans ha hb hc⟩

theorem mono {Q : α → Prop} (h : OrdersTotally compare P) (hQ : ∀ {a}, Q a → P a) :
    OrdersTotally compare Q :=
  ⟨fun ha hb => h.swap (hQ ha) (hQ hb), fun ha hb hc => h.trans (hQ ha) (hQ hb) (hQ hc)⟩

theorem flip (h : OrdersTotally compare P) : OrdersTotally (fun a b => (compare a b).swap) P := by
  constructor
  · intro a b ha hb
    rw [h.swap ha hb]
  · intro a b c ha hb hc hab hbc
    rw [← h.swap ha hb] at hab
    rw [← h.swap hb hc] at hbc
    rw [← h.swap ha hc]
    exact h.trans hc hb ha hbc hab

/-- What is missing is alike to itself and greater than all else, which keeps the order total. -/
theorem missingLast (h : OrdersTotally compare P) :
    OrdersTotally (compareMissingLast compare) (fun o => ∀ a ∈ o, P a) := by
  constructor
  · intro a b ha hb
    cases a with
    | none => cases b <;> rfl
    | some x =>
      cases b with
      | none => rfl
      | some y => exact h.swap (ha x rfl) (hb y rfl)
  · intro a b c ha hb hc hab hbc
    cases a with
    | none => cases b <;> cases c <;> simp_all
    | some x =>
      cases c with
      | none => rfl
      | some z =>
        cases b with
        | none => simp at hbc
        | some y => exact h.trans (ha x rfl) (hb y rfl) (hc z rfl) hab hbc

theorem ofTransCmp [Std.TransCmp compare] : OrdersTotally compare fun _ => True :=
  ⟨fun _ _ => Std.OrientedCmp.eq_swap, fun _ _ _ => Std.TransCmp.isLE_trans⟩

theorem total (h : OrdersTotally compare P) {a b : α} (ha : P a) (hb : P b) :
    ((compare a b).isLE || (compare b a).isLE) = true := by
  rw [h.swap ha hb]
  cases compare a b <;> rfl

end OrdersTotally

section
variable {α : Type}

/-- In a list without repetitions, two entries come in one order at most. -/
theorem pair_sublist_antisymm {a b : α} {l : List α} (hl : l.Nodup) (hab : [a, b].Sublist l)
    (hba : [b, a].Sublist l) : False := by
  induction l with
  | nil => cases hab
  | cons x l ih =>
    obtain ⟨hx, hl⟩ := List.nodup_cons.1 hl
    cases hab with
    | cons _ hab =>
      cases hba with
      | cons _ hba => exact ih hl hab hba
      | cons_cons _ hba => exact hx (hab.subset (by simp))
    | cons_cons _ hab =>
      cases hba with
      | cons _ hba => exact hx (hba.subset (by simp))
      | cons_cons _ hba => exact hx (hba.subset (by simp))

theorem pair_sublist_or {a b : α} {l : List α} (ha : a ∈ l) (hb : b ∈ l) (hne : a ≠ b) :
    [a, b].Sublist l ∨ [b, a].Sublist l := by
  induction l with
  | nil => cases ha
  | cons x l ih =>
    rcases List.mem_cons.1 ha with rfl | hal
    · have hbl := (List.mem_cons.1 hb).resolve_left hne.symm
      exact .inl ((List.singleton_sublist.2 hbl).cons_cons a)
    · rcases List.mem_cons.1 hb with rfl | hbl
      · exact .inr ((List.singleton_sublist.2 hal).cons_cons b)
      · exact (ih hal hbl).imp (.cons x) (.cons x)

/-- Sorting keeps the order of what is alike: what comes before is less, or else alike and came
before already. -/
theorem pairwise_mergeSort_ties {compare : α → α → Ordering}
    (h : OrdersTotally compare fun _ => True) {R : α → α → Prop} {l : List α} (hl : l.Nodup)
    (hR : l.Pairwise R) : (l.mergeSort fun a b => (compare a b).isLE).Pairwise fun a b =>
      compare a b = .lt ∨ compare a b = .eq ∧ R a b := by
  have htrans : ∀ a b c, (compare a b).isLE = true → (compare b c).isLE = true →
      (compare a c).isLE = true := fun a b c => h.trans trivial trivial trivial
  have htotal : ∀ a b, ((compare a b).isLE || (compare b a).isLE) = true :=
    fun a b => h.total trivial trivial
  have hsorted := List.pairwise_mergeSort htrans htotal l
  have hnodup : (l.mergeSort fun a b => (compare a b).isLE).Nodup :=
    (List.mergeSort_perm l _).nodup_iff.2 hl
  rw [List.pairwise_iff_forall_sublist] at hsorted ⊢
  intro a b hab
  have hle := hsorted hab
  cases hc : compare a b with
  | lt => exact .inl rfl
  | gt => simp [hc] at hle
  | eq =>
    refine .inr ⟨rfl, ?_⟩
    have ha : a ∈ l := List.mem_mergeSort.1 (hab.subset (by simp))
    have hb : b ∈ l := List.mem_mergeSort.1 (hab.subset (by simp))
    have hne : a ≠ b := by
      rintro rfl
      exact pair_sublist_antisymm hnodup hab hab
    rcases pair_sublist_or ha hb hne with hsub | hsub
    · exact hR.forall_sublist hsub
    · have hba : (compare b a).isLE = true := by
        rw [h.swap trivial trivial, hc]
        rfl
      exact (pair_sublist_antisymm hnodup hab
        (List.pair_sublist_mergeSort htrans htotal hba hsub)).elim

end

/-- The order of two things by what either may lack: what has it comes before what lacks it, and a
lesser before a greater; `tie` decides between those that are alike. -/
def PrecedesBy {α : Type} (compare : α → α → Ordering) (tie : Prop) :
    Option α → Option α → Prop
  | some x, some y => compare x y = .lt ∨ compare x y = .eq ∧ tie
  | some _, none => True
  | none, some _ => False
  | none, none => tie

/-- To precede is to compare as less, or as alike with the tie decided. -/
theorem precedesBy_iff {α : Type} {compare : α → α → Ordering} {tie : Prop} {x y : Option α} :
    PrecedesBy compare tie x y ↔ compareMissingLast compare x y = .lt ∨
      compareMissingLast compare x y = .eq ∧ tie := by
  cases x <;> cases y <;> simp [PrecedesBy]

namespace Collection

/-- A document of the collection, told apart from equal ones. -/
abbrev Position (c : Collection) : Type :=
  Fin c.documents.length

variable (c : Collection)

/-- The order without a directive: by the first value of the sort field, then as inserted. -/
def PrecedesPlainly (s : Selection) (i j : c.Position) : Prop :=
  match s.sort with
  | none => i < j
  | some ⟨field, .ascending⟩ =>
    PrecedesBy Json.compare (i < j) (c.documents[i].first? field) (c.documents[j].first? field)
  | some ⟨field, .descending⟩ =>
    PrecedesBy (fun x y => y.compare x) (i < j) (c.documents[i].first? field)
      (c.documents[j].first? field)

/-- The document's key has this text, which the directive lists. -/
def ListedAs (d : Directive) (i : c.Position) (text : String) : Prop :=
  (c.key? c.documents[i]).bind Json.keyText? = some text ∧ text ∈ d.keys

/-- The order of documents that a directive does not list. -/
def PrecedesUnlisted (s : Selection) (i j : c.Position) : Prop :=
  match c.remainder with
  | .natural => c.PrecedesPlainly s i j
  | .byKey => PrecedesBy Json.compare (c.PrecedesPlainly s i j) (c.key? c.documents[i])
      (c.key? c.documents[j])

/-- The order that a directive makes of the order without it. -/
inductive PrecedesListed (s : Selection) (d : Directive) (i j : c.Position) : Prop where
  | ofKeys {a b : String} (hi : c.ListedAs d i a) (hj : c.ListedAs d j b)
      (h : d.keys.idxOf a < d.keys.idxOf b)
  | sameKey {a : String} (hi : c.ListedAs d i a) (hj : c.ListedAs d j a)
      (h : c.PrecedesPlainly s i j)
  | listedFirst {a : String} (hi : c.ListedAs d i a) (hj : ∀ b, ¬ c.ListedAs d j b)
  | unlisted (hi : ∀ a, ¬ c.ListedAs d i a) (hj : ∀ b, ¬ c.ListedAs d j b)
      (h : c.PrecedesUnlisted s i j)

/-- The order of the results of a search. -/
def Precedes (s : Selection) (i j : c.Position) : Prop :=
  match s.directive with
  | none => c.PrecedesPlainly s i j
  | some d => c.PrecedesListed s d i j

/-- The values that a search compares: those of the sort field, and the keys. -/
def Compared (s : Selection) (v : Json) : Prop :=
  ∃ doc ∈ c.documents, (∃ sort ∈ s.sort, doc.first? sort.field = some v) ∨ c.key? doc = some v

variable {c} {s : Selection} {d : Directive} {f : Filter}

/-- The rank of a document is the place of its key among those of the directive. -/
theorem rank?_eq_some_iff {i : c.Position} {n : Nat} :
    c.rank? d c.documents[i] = some n ↔ ∃ text, c.ListedAs d i text ∧ d.keys.idxOf text = n := by
  simp only [rank?, Directive.rank?, Option.bind_eq_some_iff, ListedAs]
  constructor
  · rintro ⟨text, htext, hn⟩
    have hmem : text ∈ d.keys := List.isSome_idxOf?.1 (by simp [hn])
    exact ⟨text, ⟨htext, hmem⟩, by simp [List.idxOf_eq_getD_idxOf?, hn]⟩
  · rintro ⟨text, ⟨htext, hmem⟩, rfl⟩
    obtain ⟨n, hn⟩ := Option.isSome_iff_exists.1 (List.isSome_idxOf?.2 hmem)
    exact ⟨text, htext, by simp [List.idxOf_eq_getD_idxOf?, hn]⟩

theorem rank?_eq_none_iff {i : c.Position} :
    c.rank? d c.documents[i] = none ↔ ∀ text, ¬ c.ListedAs d i text := by
  simp only [Option.eq_none_iff_forall_ne_some, Ne, rank?_eq_some_iff]
  exact ⟨fun h text ht => h _ ⟨text, ht, rfl⟩, fun h _ ⟨text, ht, _⟩ => h text ht⟩

/-- The positions list each match once, in an order in which `R` holds between any two, and their
documents are `docs`. -/
structure Lists (c : Collection) (f : Filter) (R : c.Position → c.Position → Prop)
    (ps : List c.Position) (docs : List Json) : Prop where
  nodup : ps.Nodup
  mem_iff : ∀ i, i ∈ ps ↔ f.accepts c.documents[i] = true
  pairwise : ps.Pairwise R
  map_eq : ps.map (c.documents[·]) = docs

/-- The matches are found in the order in which they were inserted. -/
theorem exists_lists_matching (c : Collection) (f : Filter) :
    ∃ ps, Lists c f (· < ·) ps (c.matching f) := by
  refine ⟨(List.finRange c.documents.length).filter fun i => f.accepts c.documents[i],
    ?_, ?_, ?_, ?_⟩
  · exact (List.nodup_finRange _).filter _
  · simp
  · exact (List.pairwise_lt_finRange _).filter _
  · calc
      _ = ((List.finRange _).map fun i : c.Position => c.documents[i]).filter
          fun doc => f.accepts doc := by rw [List.filter_map]; rfl
      _ = c.matching f := congrArg _ (List.map_getElem_finRange c.documents)

/-- A sort keeps the list of positions but for its order, in which `R` only decides ties. -/
theorem Lists.sortBy {R : c.Position → c.Position → Prop} {compare : Json → Json → Ordering}
    {ps : List c.Position} {docs : List Json} (hl : Lists c f R ps docs)
    (h : OrdersTotally compare (· ∈ c.documents)) :
    ∃ qs, Lists c f (fun i j => compare c.documents[i] c.documents[j] = .lt ∨
      compare c.documents[i] c.documents[j] = .eq ∧ R i j) qs (sortBy compare docs) := by
  have hpos := (h.comap fun i : c.Position => c.documents[i]).mono (Q := fun _ => True)
    fun _ => List.getElem_mem _
  have hp := List.mergeSort_perm ps fun i j => (compare c.documents[i] c.documents[j]).isLE
  refine ⟨_, hp.nodup_iff.2 hl.nodup, fun i => hp.mem_iff.trans (hl.mem_iff i),
    pairwise_mergeSort_ties hpos hl.nodup hl.pairwise, ?_⟩
  rw [← hl.map_eq]
  exact List.map_mergeSort fun _ _ _ _ => rfl

theorem Lists.imp {R S : c.Position → c.Position → Prop} {ps : List c.Position}
    {docs : List Json} (hl : Lists c f R ps docs) (h : ∀ {i j}, R i j → S i j) :
    Lists c f S ps docs :=
  ⟨hl.nodup, hl.mem_iff, hl.pairwise.imp h, hl.map_eq⟩

section
variable (h : OrdersTotally Json.compare (c.Compared s))
include h

theorem ordersTotally_compareValues (sort : SortKey) :
    OrdersTotally sort.compareValues (c.Compared s) := by
  obtain ⟨field, direction⟩ := sort
  cases direction with
  | ascending => exact h
  | descending => exact h.flip

theorem ordersTotally_sort {sort : SortKey} (hs : s.sort = some sort) :
    OrdersTotally sort.compare (· ∈ c.documents) :=
  ((ordersTotally_compareValues h sort).missingLast.comap (Json.first? · sort.field)).mono
    fun hdoc _ hv => ⟨_, hdoc, .inl ⟨sort, hs, hv⟩⟩

theorem precedesPlainly_of_sort {sort : SortKey} (hs : s.sort = some sort) {i j : c.Position}
    (hij : sort.compare c.documents[i] c.documents[j] = .lt ∨
      sort.compare c.documents[i] c.documents[j] = .eq ∧ i < j) : c.PrecedesPlainly s i j := by
  have hp : ∀ i : c.Position, ∀ v, c.documents[i].first? sort.field = some v → c.Compared s v :=
    fun i v hv => ⟨c.documents[i], List.getElem_mem _, .inl ⟨sort, hs, hv⟩⟩
  have hij := precedesBy_iff.2 hij
  obtain ⟨field, direction⟩ := sort
  cases direction with
  | ascending =>
    simp only [PrecedesPlainly, hs]
    exact hij
  | descending =>
    simp only [PrecedesPlainly, hs]
    cases hi : c.documents[i].first? field with
    | none =>
      rw [hi] at hij
      cases hj : c.documents[j].first? field <;> rw [hj] at hij <;> exact hij
    | some x =>
      cases hj : c.documents[j].first? field with
      | none => trivial
      | some y =>
        simp only [hi, hj] at hij
        rw [PrecedesBy, h.swap (hp i x hi) (hp j y hj)]
        exact hij

theorem exists_lists_sorted : ∃ ps, Lists c f (c.PrecedesPlainly s) ps
    (match s.sort with
      | some sort => sortBy sort.compare (c.matching f)
      | none => c.matching f) := by
  obtain ⟨ps, hps⟩ := exists_lists_matching c f
  cases hs : s.sort with
  | none => exact ⟨ps, hps.imp fun hij => by simpa only [PrecedesPlainly, hs] using hij⟩
  | some sort =>
    obtain ⟨qs, hqs⟩ := hps.sortBy (ordersTotally_sort h hs)
    exact ⟨qs, hqs.imp fun hij => precedesPlainly_of_sort h hs hij⟩

theorem ordersTotally_remaining : OrdersTotally c.compareRemaining (· ∈ c.documents) := by
  unfold compareRemaining
  cases c.remainder with
  | natural => exact ⟨fun _ _ => rfl, fun _ _ _ _ _ => rfl⟩
  | byKey => exact (h.missingLast.comap c.key?).mono fun hdoc _ hv => ⟨_, hdoc, .inr hv⟩

theorem ordersTotally_listed (d : Directive) :
    OrdersTotally (c.compareListed d) (· ∈ c.documents) := by
  have hr := ordersTotally_remaining h
  have hnat : OrdersTotally (@Ord.compare Nat _) fun _ => True := .ofTransCmp
  have hn := hnat.missingLast
  have ht : ∀ o : Option Nat, ∀ n ∈ o, True := fun _ _ _ => trivial
  constructor
  · intro a b ha hb
    unfold compareListed
    cases c.rank? d a with
    | none =>
      cases c.rank? d b with
      | none => exact hr.swap ha hb
      | some y => rfl
    | some x => cases c.rank? d b <;> exact hn.swap (ht _) (ht _)
  · intro a b e ha hb he hab hbe
    unfold compareListed at *
    cases hra : c.rank? d a with
    | none =>
      cases hrb : c.rank? d b with
      | none =>
        cases hre : c.rank? d e with
        | none =>
          simp only [hra, hrb, hre] at *
          exact hr.trans ha hb he hab hbe
        | some z => simp [hrb, hre] at hbe
      | some y => simp [hra, hrb] at hab
    | some x =>
      cases hrb : c.rank? d b with
      | none =>
        cases hre : c.rank? d e with
        | none => rfl
        | some z => simp [hrb, hre] at hbe
      | some y =>
        simp only [hra, hrb] at *
        exact hn.trans (ht _) (ht _) (ht _) hab hbe

end

/-- The cases are those of which of the two documents the directive lists. -/
theorem precedesListed_of_compareListed {i j : c.Position}
    (hij : c.compareListed d c.documents[i] c.documents[j] = .lt ∨
      c.compareListed d c.documents[i] c.documents[j] = .eq ∧ c.PrecedesPlainly s i j) :
    c.PrecedesListed s d i j := by
  unfold compareListed at hij
  cases hi : c.rank? d c.documents[i] with
  | none =>
    have hni := rank?_eq_none_iff.1 hi
    cases hj : c.rank? d c.documents[j] with
    | none =>
      simp only [hi, hj] at hij
      refine .unlisted hni (rank?_eq_none_iff.1 hj) ?_
      unfold compareRemaining at hij
      unfold PrecedesUnlisted
      cases hr : c.remainder with
      | natural => simpa [hr] using hij
      | byKey =>
        simp only [hr] at hij
        exact precedesBy_iff.2 hij
    | some y =>
      simp only [hi, hj] at hij
      simp at hij
  | some x =>
    obtain ⟨a, ha, rfl⟩ := rank?_eq_some_iff.1 hi
    cases hj : c.rank? d c.documents[j] with
    | none => exact .listedFirst ha (rank?_eq_none_iff.1 hj)
    | some y =>
      obtain ⟨b, hb, rfl⟩ := rank?_eq_some_iff.1 hj
      simp only [hi, hj, compareMissingLast, Nat.compare_eq_lt, Nat.compare_eq_eq] at hij
      rcases hij with hlt | ⟨heq, htie⟩
      · exact .ofKeys ha hb hlt
      · cases (List.idxOf_inj ha.2).1 heq
        exact .sameKey ha hb htie

/-- All matches are listed once, in the order of the search. The sort by the directive comes second,
so the order before it decides ties. -/
theorem exists_lists_ordered (h : OrdersTotally Json.compare (c.Compared s)) :
    ∃ ps, Lists c f (c.Precedes s) ps (c.ordered f s) := by
  obtain ⟨ps, hps⟩ := exists_lists_sorted (f := f) h
  unfold ordered Precedes
  cases hd : s.directive with
  | none => exact ⟨ps, hps⟩
  | some d =>
    obtain ⟨qs, hqs⟩ := hps.sortBy (ordersTotally_listed h d)
    exact ⟨qs, hqs.imp precedesListed_of_compareListed⟩

/-- A list of matches is no longer than the collection, as no position comes twice. -/
theorem Lists.length_le {R : c.Position → c.Position → Prop} {ps : List c.Position}
    {docs : List Json} (hl : Lists c f R ps docs) : docs.length ≤ c.size := by
  rw [← hl.map_eq, List.length_map]
  exact hl.nodup.length_le_card.trans_eq (Fintype.card_fin _)

/-- The whole page lists each match once and nothing else, in the order of the search. -/
theorem page_lists_in_order {c : Collection} {f : Filter} {s : Selection} (hskip : s.skip = 0)
    (hlimit : c.size ≤ s.limit) (hmax : c.size ≤ c.maxLimit)
    (h : OrdersTotally Json.compare (c.Compared s)) :
    ∃ ps : List c.Position, ps.Nodup ∧ (∀ i, i ∈ ps ↔ f.accepts c.documents[i] = true) ∧
      ps.Pairwise (c.Precedes s) ∧ (c.page f s).items = ps.map (c.documents[·]) := by
  obtain ⟨ps, hps⟩ := exists_lists_ordered (f := f) h
  refine ⟨ps, hps.nodup, hps.mem_iff, hps.pairwise, ?_⟩
  have hlen : (c.ordered f s).length ≤ min s.limit c.maxLimit :=
    le_trans hps.length_le (le_min hlimit hmax)
  rw [page, hskip, List.drop_zero, List.take_of_length_le hlen, hps.map_eq]

theorem page_lists_in_order_mixed :
    let c : Collection := { documents := [
      .object [("nid", .string "b"), ("year", .bool true)], .object [("year", .bool false)],
      .object [("nid", .string "a"), ("year", .bool false)], .object [("nid", .string "c")],
      .object [("nid", .string "b"), ("year", .null)]], remainder := .byKey }
    let s : Selection := { directive := some ⟨["b", "x", "b"]⟩, sort := some ⟨"year", .descending⟩ }
    s.skip = 0 ∧ c.size ≤ s.limit ∧ c.size ≤ c.maxLimit ∧
      OrdersTotally Json.compare (c.Compared s) ∧
      ∃ ps : List c.Position, ps.Nodup ∧
        (∀ i, i ∈ ps ↔ (Filter.not (.any [])).accepts c.documents[i] = true) ∧
        ps.Pairwise (c.Precedes s) ∧
        (c.page (.not (.any [])) s).items = ps.map (c.documents[·]) := by
  intro c s
  let values := c.documents.filterMap (·.first? "year") ++ c.documents.filterMap c.key?
  have hmem : ∀ v, c.Compared s v → v ∈ values := by
    rintro v ⟨doc, hdoc, ⟨sort, hs, hv⟩ | hv⟩
    · cases hs
      exact List.mem_append_left _ (List.mem_filterMap.2 ⟨doc, hdoc, hv⟩)
    · exact List.mem_append_right _ (List.mem_filterMap.2 ⟨doc, hdoc, hv⟩)
  have hswap : ∀ a ∈ values, ∀ b ∈ values, b.compare a = (a.compare b).swap := by decide
  have htrans : ∀ a ∈ values, ∀ b ∈ values, ∀ e ∈ values, (a.compare b).isLE = true →
      (b.compare e).isLE = true → (a.compare e).isLE = true := by decide
  have h : OrdersTotally Json.compare (c.Compared s) :=
    ⟨fun ha hb => hswap _ (hmem _ ha) _ (hmem _ hb),
      fun ha hb he => htrans _ (hmem _ ha) _ (hmem _ hb) _ (hmem _ he)⟩
  exact ⟨rfl, by decide, by decide, h, page_lists_in_order rfl (by decide) (by decide) h⟩

end Collection

end TextQuery
