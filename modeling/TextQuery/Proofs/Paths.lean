import Mathlib.Logic.Relation
import TextQuery.Json.Path
import TextQuery.Proofs.Splitting

/-!
# Paths behind paths

A path that goes on leads from each of the values at its first part to the values at its second,
in order. Arrays fan out all the way in the middle of a path, and by one level only at its end;
that is why the second part must have a name. Empty names in a path make no difference.
-/
namespace TextQuery

/-- The second path is the first with one more dot that bounds an empty name: it stands at an end of
the path or next to another dot. -/
def AddsEmptyName (path longer : String) : Prop :=
  ∃ before after, path.toList = before ++ after ∧ longer.toList = before ++ '.' :: after ∧
    ((∀ c ∈ before.getLast?, c = '.') ∨ ∀ c ∈ after.head?, c = '.')

/-- Empty names are put into the path and taken out of it. -/
def SamePath : String → String → Prop :=
  Relation.EqvGen AddsEmptyName

/-- A dot between two paths puts the names of the second behind those of the first. -/
theorem pathNames_append (p q : String) :
    pathNames (p ++ "." ++ q) = pathNames p ++ pathNames q := by
  have hchars : (p ++ "." ++ q).toList = p.toList ++ '.' :: q.toList := by simp
  rw [pathNames, hchars, Text.pieces_append_cons_of_cut (by decide), List.map_append]
  rfl

theorem pathNames_eq_nil_iff {path : String} :
    pathNames path = [] ↔ ∀ c ∈ path.toList, c = '.' := by
  rw [pathNames, List.map_eq_nil_iff, Text.pieces_eq_nil_iff]
  simp only [beq_iff_eq]

/-- Empty names are not among the names of a path. -/
theorem AddsEmptyName.pathNames_eq {path longer : String} (h : AddsEmptyName path longer) :
    pathNames longer = pathNames path := by
  obtain ⟨before, after, hpath, hlonger, hdot⟩ := h
  have hcut : (∀ c ∈ before.getLast?, (c == '.') = true) ∨
      ∀ c ∈ after.head?, (c == '.') = true := by
    simpa only [beq_iff_eq] using hdot
  rw [pathNames, pathNames, hpath, hlonger, Text.pieces_append_cons_of_cut (by decide),
    Text.pieces_append_of_cut hcut]

theorem SamePath.pathNames_eq {p q : String} (h : SamePath p q) : pathNames p = pathNames q := by
  induction h with
  | rel p q hadds => exact hadds.pathNames_eq.symm
  | refl p => rfl
  | symm p q _ ih => exact ih.symm
  | trans p q r _ _ ih ih' => exact ih.trans ih'

namespace Json

section
variable {step : List (String × Json) → List Json} {f : Json → List Json}

mutual

theorem fanOut_flatMap (j : Json) :
    fanOut (fun members => (step members).flatMap f) j = (fanOut step j).flatMap f := by
  match j with
  | object members => rfl
  | array items => exact fanOutList_flatMap items
  | null | bool _ | number _ | string _ => rfl

theorem fanOutList_flatMap (js : List Json) :
    fanOutList (fun members => (step members).flatMap f) js = (fanOutList step js).flatMap f := by
  match js with
  | [] => rfl
  | j :: js => rw [fanOutList, fanOutList, fanOut_flatMap j, fanOutList_flatMap js,
      List.flatMap_append]

end

theorem fanOutList_eq_flatMap (js : List Json) :
    fanOutList step js = js.flatMap (fanOut step) := by
  induction js with
  | nil => rfl
  | cons j js ih => rw [fanOutList, ih, List.flatMap_cons]

end

/-- An array in the middle of a path fans out into its items, as it does at the end of a path. -/
theorem valuesAt_of_ne_nil {names : List String} (h : names ≠ []) (j : Json) :
    valuesAt names j = (valuesAt [] j).flatMap (valuesAt names) := by
  obtain ⟨name, names, rfl⟩ := List.exists_cons_of_ne_nil h
  cases j with
  | array items => exact fanOutList_eq_flatMap items
  | null | bool _ | number _ | string _ | object _ =>
    exact (List.flatMap_singleton _ _).symm

/-- By induction on the first names: each of them leads to values from which the path goes on. -/
theorem valuesAt_append {more : List String} (h : more ≠ []) (names : List String) (j : Json) :
    valuesAt (names ++ more) j = (valuesAt names j).flatMap (valuesAt more) := by
  induction names generalizing j with
  | nil => exact valuesAt_of_ne_nil h j
  | cons name names ih =>
    rw [List.cons_append, valuesAt, valuesAt, ← fanOut_flatMap]
    congr 1
    funext members
    cases members.lookup name with
    | none => rfl
    | some next => exact ih next

/-- A path that goes on leads to what its second part leads to from each value at the first, in
order, if the second part has a name; and empty names in either part make no difference. -/
theorem lookup_joined {p q p' q' : String} (hq : ∃ c ∈ q.toList, c ≠ '.') (hpp : SamePath p p')
    (hqq : SamePath q q') (doc : Json) :
    doc.lookup (p ++ "." ++ q) = (doc.lookup p).flatMap (fun v => v.lookup q) ∧
      doc.lookup (p' ++ "." ++ q') = doc.lookup (p ++ "." ++ q) ∧
      doc.lookup p' = doc.lookup p := by
  have hnames : pathNames q ≠ [] := by
    intro hnil
    obtain ⟨c, hc, hne⟩ := hq
    exact hne (pathNames_eq_nil_iff.1 hnil c hc)
  refine ⟨?_, ?_, ?_⟩
  · rw [lookup, pathNames_append, valuesAt_append hnames]
    rfl
  · rw [lookup, lookup, pathNames_append, pathNames_append, hpp.pathNames_eq, hqq.pathNames_eq]
  · rw [lookup, lookup, hpp.pathNames_eq]

theorem lookup_joined_nested :
    let inner : Json := .array [.object [("c", .array [.string "x", .string "y"])]]
    let doc : Json := .object [("a", .array [.object [("b", .array [inner, .null])],
      .object [("b", .object [("c", .array [.array [.string "z"]])])]])]
    (∃ c ∈ ".c".toList, c ≠ '.') ∧ SamePath "a.b" "a..b." ∧ SamePath ".c" "c" ∧
      doc.lookup "a.b" = [inner, .null, .object [("c", .array [.array [.string "z"]])]] ∧
      doc.lookup "a.b..c" = [.string "x", .string "y", .array [.string "z"]] ∧
      doc.lookup "a.b..c" = (doc.lookup "a.b").flatMap (fun v => v.lookup ".c") ∧
      doc.lookup "a..b..c" = doc.lookup "a.b..c" ∧ doc.lookup "a..b." = doc.lookup "a.b" := by
  intro inner doc
  have hq : ∃ c ∈ ".c".toList, c ≠ '.' := ⟨'c', by decide, by decide⟩
  have hbetween : AddsEmptyName "a.b" "a..b" :=
    ⟨"a.".toList, "b".toList, by decide, by decide, .inl (by simp)⟩
  have hend : AddsEmptyName "a..b" "a..b." :=
    ⟨"a..b".toList, [], by decide, by decide, .inr (by simp)⟩
  have hstart : AddsEmptyName "c" ".c" := ⟨[], "c".toList, by decide, by decide, .inl (by simp)⟩
  have hpp : SamePath "a.b" "a..b." := .trans _ _ _ (.rel _ _ hbetween) (.rel _ _ hend)
  have hqq : SamePath ".c" "c" := .symm _ _ (.rel _ _ hstart)
  have hshort : doc.lookup "a.b" =
      [inner, .null, .object [("c", .array [.array [.string "z"]])]] := by
    have hnames : pathNames "a.b" = ["a", "b"] := by decide +kernel
    simp [lookup, hnames, valuesAt, doc]
  have hlong : doc.lookup "a.b..c" = [.string "x", .string "y", .array [.string "z"]] := by
    have hnames : pathNames "a.b..c" = ["a", "b", "c"] := by decide +kernel
    simp [lookup, hnames, valuesAt, doc, inner]
  exact ⟨hq, hpp, hqq, hshort, hlong, lookup_joined hq hpp hqq doc⟩

/-- A second part without a name would fan out a second time. -/
example : (array [.array [.null]]).lookup "." = [.array [.null]] ∧
    ((array [.array [.null]]).lookup "").flatMap (fun v => v.lookup "") = [.null] :=
  ⟨rfl, rfl⟩

end Json

end TextQuery
