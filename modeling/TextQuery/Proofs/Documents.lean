import TextQuery.Json.Path

/-!
# The strings of a document

The string values in a document, wherever they stand, and the documents that are alike but for them.
Paths go by names and arrays only: they lead to values whose strings are strings of the document, and
they lead to the same places whatever the strings are.
-/
namespace TextQuery.Json

mutual

/-- The string values in a value. The names of members are not among them. -/
def strings : Json → List String
  | string s => [s]
  | array items => itemStrings items
  | object members => memberStrings members
  | _ => []

def itemStrings : List Json → List String
  | [] => []
  | j :: js => strings j ++ itemStrings js

def memberStrings : List (String × Json) → List String
  | [] => []
  | (_, j) :: rest => strings j ++ memberStrings rest

end

mutual

/-- The same value with `f` applied to its string values. -/
def mapStrings (f : String → String) : Json → Json
  | string s => string (f s)
  | array items => array (mapItems f items)
  | object members => object (mapMembers f members)
  | j => j

def mapItems (f : String → String) : List Json → List Json
  | [] => []
  | j :: js => mapStrings f j :: mapItems f js

def mapMembers (f : String → String) : List (String × Json) → List (String × Json)
  | [] => []
  | (name, j) :: rest => (name, mapStrings f j) :: mapMembers f rest

end

theorem strings_subset_of_mem {v : Json} {items : List Json} (h : v ∈ items) :
    v.strings ⊆ itemStrings items := by
  induction items with
  | nil => cases h
  | cons j items ih =>
    rw [itemStrings]
    rcases List.mem_cons.1 h with rfl | h
    · exact List.subset_append_left _ _
    · exact List.subset_append_of_subset_right _ (ih h)

theorem strings_subset_of_lookup {name : String} {v : Json} {members : List (String × Json)}
    (h : members.lookup name = some v) : v.strings ⊆ memberStrings members := by
  induction members with
  | nil => cases h
  | cons member members ih =>
    obtain ⟨other, j⟩ := member
    rw [List.lookup_cons] at h
    rw [memberStrings]
    split at h
    · cases h
      exact List.subset_append_left _ _
    · exact List.subset_append_of_subset_right _ (ih h)

mutual

/-- A step that stays inside of an object does so for the objects of an array. -/
theorem strings_subset_of_mem_fanOut {step : List (String × Json) → List Json}
    (hstep : ∀ members, ∀ v ∈ step members, v.strings ⊆ memberStrings members) (j : Json) :
    ∀ v ∈ fanOut step j, v.strings ⊆ j.strings := by
  match j with
  | object members => exact hstep members
  | array items => exact strings_subset_of_mem_fanOutList hstep items
  | null | bool _ | number _ | string _ => simp

theorem strings_subset_of_mem_fanOutList {step : List (String × Json) → List Json}
    (hstep : ∀ members, ∀ v ∈ step members, v.strings ⊆ memberStrings members)
    (js : List Json) : ∀ v ∈ fanOutList step js, v.strings ⊆ itemStrings js := by
  match js with
  | [] => simp
  | j :: js =>
    intro v hv
    rcases List.mem_append.1 hv with hv | hv
    · exact List.subset_append_of_subset_left _ (strings_subset_of_mem_fanOut hstep j v hv)
    · exact List.subset_append_of_subset_right _ (strings_subset_of_mem_fanOutList hstep js v hv)

end

theorem strings_subset_of_mem_valuesAt {names : List String} {j v : Json}
    (h : v ∈ valuesAt names j) : v.strings ⊆ j.strings := by
  induction names generalizing j v with
  | nil =>
    cases j with
    | array items => exact strings_subset_of_mem h
    | null | bool _ | number _ | string _ | object _ =>
      rw [List.mem_singleton.1 h]
      exact List.Subset.refl _
  | cons name names ih =>
    rw [valuesAt] at h
    refine strings_subset_of_mem_fanOut ?_ j v h
    intro members w hw
    split at hw
    · next next heq => exact List.Subset.trans (ih hw) (strings_subset_of_lookup heq)
    · cases hw

/-- A path leads to strings of the document. -/
theorem strings_subset_of_mem_lookup {doc v : Json} {path : String} (h : v ∈ doc.lookup path) :
    v.strings ⊆ doc.strings :=
  strings_subset_of_mem_valuesAt h

section
variable (f : String → String)

/-- Members keep their names, so they are found in the same places. -/
theorem lookup_mapMembers (name : String) (members : List (String × Json)) :
    (mapMembers f members).lookup name = (members.lookup name).map (mapStrings f) := by
  induction members with
  | nil => rfl
  | cons member members ih =>
    obtain ⟨other, j⟩ := member
    rw [mapMembers, List.lookup_cons, List.lookup_cons]
    split
    · rfl
    · exact ih

theorem mapItems_eq_map (items : List Json) : mapItems f items = items.map (mapStrings f) := by
  induction items with
  | nil => rfl
  | cons j items ih => rw [mapItems, ih, List.map_cons]

mutual

/-- A step that leads to the same values of an object with its strings mapped does so for the
objects of an array. -/
theorem fanOut_mapStrings {step : List (String × Json) → List Json}
    (hstep : ∀ members, step (mapMembers f members) = (step members).map (mapStrings f))
    (j : Json) : fanOut step (j.mapStrings f) = (fanOut step j).map (mapStrings f) := by
  match j with
  | object members => exact hstep members
  | array items => exact fanOutList_mapItems hstep items
  | null | bool _ | number _ | string _ => rfl

theorem fanOutList_mapItems {step : List (String × Json) → List Json}
    (hstep : ∀ members, step (mapMembers f members) = (step members).map (mapStrings f))
    (js : List Json) : fanOutList step (mapItems f js) = (fanOutList step js).map (mapStrings f) := by
  match js with
  | [] => rfl
  | j :: js =>
    rw [mapItems, fanOutList, fanOutList, fanOut_mapStrings hstep j, fanOutList_mapItems hstep js,
      List.map_append]

end

theorem valuesAt_mapStrings (names : List String) (j : Json) :
    valuesAt names (j.mapStrings f) = (valuesAt names j).map (mapStrings f) := by
  induction names generalizing j with
  | nil =>
    cases j with
    | array items => exact mapItems_eq_map f items
    | null | bool _ | number _ | string _ | object _ => rfl
  | cons name names ih =>
    rw [valuesAt, valuesAt]
    apply fanOut_mapStrings
    intro members
    rw [lookup_mapMembers]
    cases members.lookup name with
    | none => rfl
    | some next => exact ih next

/-- A path leads to the same values, with the strings mapped. -/
theorem lookup_mapStrings (doc : Json) (path : String) :
    (doc.mapStrings f).lookup path = (doc.lookup path).map (mapStrings f) :=
  valuesAt_mapStrings f _ doc

end

end TextQuery.Json
