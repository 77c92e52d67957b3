import TextQuery.Proofs.Meaning
import TextQuery.Proofs.Paging

/-!
# One page after another

A caller who gives no limit asks for one page after another, and each time skips the items received
so far. All pages are sections of one list of results, so the caller has received a first part of
that list at any time. With settings that are valid, pages have the default size, and the end of the
list is reached unless that size is zero.
-/
namespace TextQuery

theorem Settings.validate_eq_ok_iff {c : Settings} :
    c.validate = .ok () ↔
      c.defaultFields ≠ [] ∧ 1 ≤ c.maxLimit ∧ c.defaultLimit ≤ c.maxLimit := by
  unfold validate
  split
  · next hfields => simp_all
  · next hfields =>
    split
    · next hmax => simp [hmax]
    · next hmax =>
      split
      · next hdefault => simp [hdefault]
      · next hdefault =>
        simp_all
        omega

namespace Collection

variable (c : Collection) (f : Filter) (s : Selection)

theorem page_hits : (c.page f s).hits = (c.matching f).length :=
  rfl

theorem length_firstPages (n : Nat) :
    (c.firstPages f s n).length = min (n * c.pageSize s) (c.matching f).length := by
  rw [firstPages_eq_take, List.length_take, length_ordered, length_matching]

/-- Behind the items of the first pages stands the page that follows them, whether or not these pages
are full. -/
theorem page_items_behind_firstPages (n : Nat) :
    (c.page f { s with skip := (c.firstPages f s n).length }).items =
      (c.page f { s with skip := n * c.pageSize s }).items := by
  rw [page_items, page_items, firstPages_eq_take, List.length_take]
  rcases le_total (n * c.pageSize s) (c.ordered f s).length with hle | hle
  · rw [min_eq_left hle]
  · rw [min_eq_right hle, List.drop_length, List.drop_of_length_le hle]

/-- As many items as there are matches are the matches. -/
theorem firstPages_perm_matching {n : Nat}
    (h : (c.firstPages f s n).length = (c.matching f).length) :
    (c.firstPages f s n).Perm (c.matching f) := by
  have hwhole : c.firstPages f s n = c.ordered f s := by
    rw [firstPages_eq_take] at h ⊢
    apply (List.take_prefix _ _).eq_of_length
    rw [h, length_ordered, length_matching]
  rw [hwhole]
  exact c.ordered_perm_matching f s

/-- Pages that hold anything reach the last match. -/
theorem exists_length_firstPages_iff :
    (∃ n, (c.firstPages f s n).length = (c.matching f).length) ↔
      1 ≤ c.pageSize s ∨ c.matching f = [] := by
  simp only [length_firstPages]
  constructor
  · intro ⟨n, hreached⟩
    rcases Nat.eq_zero_or_pos (c.pageSize s) with hzero | hpos
    · rw [hzero, Nat.mul_zero, Nat.zero_min] at hreached
      exact .inr (List.length_eq_zero_iff.1 hreached.symm)
    · exact .inl hpos
  · intro hends
    cases hends with
    | inl hpos => exact ⟨_, Nat.min_eq_right (Nat.le_mul_of_pos_right _ hpos)⟩
    | inr hnil => exact ⟨0, by rw [hnil, List.length_nil, Nat.min_zero]⟩

end Collection

/-- The same request for the page behind the first `skip` matches, without a limit. -/
def Request.resumed (r : Request) (skip : Nat) : Request :=
  { r with skip := skip, limit := none }

/-- How far a caller has come who asks for one page after another. -/
structure Progress where
  /-- The number of matches that the next request skips. -/
  skip : Nat := 0
  /-- The items of all pages so far. -/
  received : List Json := []

namespace Searcher

variable (s : Searcher) (docs : Collection) (r : Request)

/-- Asks for the page that comes next, to skip its items from then on. -/
def turnPage (p : Progress) : Except SearchError Progress := do
  let page ← s.answer docs (r.resumed p.skip)
  pure ⟨p.skip + page.items.length, p.received ++ page.items⟩

/-- How far `n` requests get. -/
def progress : Nat → Except SearchError Progress
  | 0 => pure {}
  | n + 1 => progress n >>= s.turnPage docs r

variable {s docs r} {f : Filter} {sel : Selection}

/-- Which page is asked for does not matter for the order of the results. -/
theorem selectionOf_resumed (h : s.selectionOf r = .ok sel) (skip : Nat) :
    s.selectionOf (r.resumed skip) = .ok { sel with skip := skip, limit := s.defaultLimit } := by
  obtain ⟨parameter, hparameter, h⟩ := Except.bind_eq_ok_iff.1 h
  cases h
  have hresumed : (r.resumed skip).order.mapM OrderParameter.ofText = .ok parameter := hparameter
  unfold selectionOf
  rw [hresumed]
  rfl

theorem answer_resumed (hfilter : s.filterOf r.query = .ok f) (hsel : s.selectionOf r = .ok sel)
    (skip : Nat) : s.answer docs (r.resumed skip) =
      .ok (docs.page f { sel with skip := skip, limit := s.defaultLimit }) := by
  have hquery : s.filterOf (r.resumed skip).query = .ok f := hfilter
  unfold answer
  rw [hquery, selectionOf_resumed hsel]
  rfl

/-- Skipping the items received gives one full page after another, the last ones excepted. -/
theorem progress_eq (hfilter : s.filterOf r.query = .ok f) (hsel : s.selectionOf r = .ok sel)
    (n : Nat) :
    let received := docs.firstPages f { sel with limit := s.defaultLimit } n
    s.progress docs r n = .ok ⟨received.length, received⟩ := by
  induction n with
  | zero => rfl
  | succ n ih =>
    intro received
    have hpage := docs.page_items_behind_firstPages f { sel with limit := s.defaultLimit } n
    rw [progress, ih]
    change s.turnPage docs r ⟨_, _⟩ = _
    rw [turnPage, answer_resumed hfilter hsel]
    simp only [received, Collection.firstPages_succ, ← hpage, List.length_append]
    rfl

end Searcher

/-- With settings that are valid, a caller who gives no limit and skips the items received so far
gets an answer to every request, which tells the number of matches. Once this many are skipped,
each match has been received once; and it comes to that unless the default size of a page is zero
and there is a match. -/
theorem progress_reaches_hits_iff {c : Settings} {documents : List Json} {r : Request} {f : Filter}
    {sel : Selection} (hvalid : c.validate = .ok ())
    (hfilter : (Searcher.ofSettings c).filterOf r.query = .ok f)
    (hsel : (Searcher.ofSettings c).selectionOf r = .ok sel) :
    let s := Searcher.ofSettings c
    let docs := c.collection documents
    let found := documents.filter fun doc => f.accepts doc
    (∀ n, ∃ p page, s.progress docs r n = .ok p ∧
      s.answer docs (r.resumed p.skip) = .ok page ∧ page.hits = found.length ∧
      (p.skip = page.hits → p.received.Perm found)) ∧
    ((∃ n p, s.progress docs r n = .ok p ∧ p.skip = found.length) ↔
      1 ≤ c.defaultLimit ∨ found = []) := by
  intro s docs found
  let sized : Selection := { sel with limit := c.defaultLimit }
  have hsize : docs.pageSize sized = c.defaultLimit :=
    Nat.min_eq_left (Settings.validate_eq_ok_iff.1 hvalid).2.2
  have hprogress : ∀ n, s.progress docs r n =
      .ok ⟨(docs.firstPages f sized n).length, docs.firstPages f sized n⟩ :=
    Searcher.progress_eq hfilter hsel
  constructor
  · intro n
    exact ⟨_, _, hprogress n, Searcher.answer_resumed hfilter hsel _, rfl,
      docs.firstPages_perm_matching f sized⟩
  · rw [← hsize]
    refine Iff.trans ?_ (docs.exists_length_firstPages_iff f sized)
    apply exists_congr
    intro n
    constructor
    · intro ⟨p, hp, hreached⟩
      cases (hprogress n).symm.trans hp
      exact hreached
    · intro hreached
      exact ⟨_, hprogress n, hreached⟩

theorem progress_reaches_hits_iff_capped :
    let c : Settings := { defaultLimit := 2, maxLimit := 3, keyField := "id" }
    let s := Searcher.ofSettings c
    let doc (id title : String) : Json := .object [("fields",
      .object [("title", .object [("value", .string title)])]), ("id", .string id)]
    let documents := [doc "a" "Harry", doc "b" "Ron", doc "c" "harry!", doc "d" "Harry Potter"]
    let docs := c.collection documents
    let r : Request := { query := "harry -ron", order := some "match(d)", limit := some 7 }
    let found := [doc "a" "Harry", doc "c" "harry!", doc "d" "Harry Potter"]
    c.validate = .ok () ∧ (∃ sel, s.selectionOf r = .ok sel) ∧
      ∃ f, s.filterOf r.query = .ok f ∧ (documents.filter fun doc => f.accepts doc) = found ∧
        (∀ n, ∃ p page, s.progress docs r n = .ok p ∧
          s.answer docs (r.resumed p.skip) = .ok page ∧ page.hits = found.length ∧
          (p.skip = page.hits → p.received.Perm found)) ∧
        ((∃ n p, s.progress docs r n = .ok p ∧ p.skip = found.length) ↔
          1 ≤ c.defaultLimit ∨ found = []) := by
  intro c s doc documents docs r found
  let f : Filter := .all [.contains ["fields.title.value", "fields.body.value"] "harry",
    .not (.contains ["fields.title.value", "fields.body.value"] "ron")]
  have hvalid : c.validate = .ok () := rfl
  have hfilter : s.filterOf r.query = .ok f :=
    Searcher.filterOf_eq_ok_iff.2 ⟨.all [.term "harry", .exclude (.term "ron")],
      by decide +kernel, rfl⟩
  have hsel : s.selectionOf r = .ok { directive := some ⟨["d"]⟩, limit := 7 } := rfl
  have hfound : (documents.filter fun doc => f.accepts doc) = found := by
    have ha : f.accepts (doc "a" "Harry") = true := by decide +kernel
    have hb : f.accepts (doc "b" "Ron") = false := by decide +kernel
    have hc : f.accepts (doc "c" "harry!") = true := by decide +kernel
    have hd : f.accepts (doc "d" "Harry Potter") = true := by decide +kernel
    simp [documents, found, ha, hb, hc, hd]
  have hreaches := @progress_reaches_hits_iff c documents r f _ hvalid hfilter hsel
  dsimp only at hreaches
  rw [hfound] at hreaches
  exact ⟨hvalid, ⟨_, hsel⟩, f, hfilter, hfound, hreaches⟩

/-- A default size of zero is valid, and with it no request gets on. -/
theorem progress_stays :
    let c : Settings := { defaultLimit := 0 }
    let s := Searcher.ofSettings c
    let documents : List Json := [.object [("fields",
      .object [("title", .object [("value", .string "Harry")])])]]
    let docs := c.collection documents
    let r : Request := { query := "harry" }
    c.validate = .ok () ∧
      ∃ f, s.filterOf r.query = .ok f ∧ (documents.filter fun doc => f.accepts doc) = documents ∧
        (∀ n, s.progress docs r n = .ok { skip := 0, received := [] }) ∧
        ¬ ∃ n p page, s.progress docs r n = .ok p ∧ s.answer docs (r.resumed p.skip) = .ok page ∧
          p.skip = page.hits := by
  intro c s documents docs r
  let f : Filter := .contains ["fields.title.value", "fields.body.value"] "harry"
  have hfilter : s.filterOf r.query = .ok f :=
    Searcher.filterOf_eq_ok_iff.2 ⟨.term "harry", by decide +kernel, rfl⟩
  have hsel : s.selectionOf r = .ok { limit := 0 } := rfl
  have hfound : (documents.filter fun doc => f.accepts doc) = documents := by
    rw [List.filter_eq_self]
    decide +kernel
  have hstays : ∀ n, s.progress docs r n = .ok { skip := 0, received := [] } := by
    intro n
    have hsize : docs.pageSize { limit := 0 } = 0 := rfl
    have hnone : docs.firstPages f { limit := 0 } n = [] := by
      rw [docs.firstPages_eq_take, hsize, Nat.mul_zero, List.take_zero]
    have hprogress : s.progress docs r n =
        .ok ⟨(docs.firstPages f { limit := 0 } n).length, docs.firstPages f { limit := 0 } n⟩ :=
      Searcher.progress_eq hfilter hsel n
    rwa [hnone] at hprogress
  have hmatching : docs.matching f = documents := hfound
  have hhits : ∀ sel, (docs.page f sel).hits = documents.length := by
    intro sel
    rw [Collection.page_hits, hmatching]
  refine ⟨rfl, f, hfilter, hfound, hstays, ?_⟩
  intro hreaches
  obtain ⟨n, p, page, hp, hpage, hreached⟩ := hreaches
  have hstart : Progress.mk 0 [] = p := Except.ok.inj ((hstays n).symm.trans hp)
  rw [← hstart, Searcher.answer_resumed hfilter hsel] at hpage
  rw [← hstart, ← Except.ok.inj hpage, hhits] at hreached
  exact absurd hreached (by decide)

end TextQuery
