import TextQuery.Predicate.FilterJson

/-!
# Filters read back

A filter is read from what it is written as, also where members that no reader asks for have been
added: to the object of the operation and its arguments, at any depth, and to the arguments of a
word or of a sequence. A member with the name of one that is asked for is not such an addition.
-/
namespace TextQuery

namespace Json

/-- The second members are the first with others put in, none of which has a name that is known. -/
inductive Enlarged (known : List String) (members : List (String × Json)) :
    List (String × Json) → Prop where
  | same : Enlarged known members members
  | insert {more : List (String × Json)} {name : String} (value : Json)
      (hname : name ∉ known) (tail : Enlarged known members more) :
      Enlarged known members (insertMember name value more)

/-- Under the known names nothing changes. -/
theorem Enlarged.lookup_eq {known : List String} {members more : List (String × Json)}
    (h : Enlarged known members more) {name : String} (hname : name ∈ known) :
    more.lookup name = members.lookup name := by
  induction h with
  | same => rfl
  | @insert more added value hadded tail ih =>
    have hne : name ≠ added := by
      intro heq
      rw [heq] at hname
      exact hadded hname
    rw [lookup_insertMember, if_neg hne, ih]

end Json

namespace Filter
open Json (Enlarged)

/-- The members of an operation's object, perhaps with others beside them. -/
def Tagged (op : String) (args : Json) : List (String × Json) → Prop :=
  Enlarged ["args", "op"] [("args", args), ("op", .string op)]

mutual

/-- The value is what the filter is written as, perhaps with members that nothing asks for. -/
inductive Written : Filter → Json → Prop where
  | contains {fields : List String} {word : String} {args members : List (String × Json)}
      (hargs : Enlarged ["fields", "word"]
        [("fields", .ofStrings fields), ("word", .string word)] args)
      (hmembers : Tagged "contains" (.object args) members) :
      Written (.contains fields word) (.object members)
  | sequence {fields words : List String} {args members : List (String × Json)}
      (hargs : Enlarged ["fields", "words"]
        [("fields", .ofStrings fields), ("words", .ofStrings words)] args)
      (hmembers : Tagged "sequence" (.object args) members) :
      Written (.sequence fields words) (.object members)
  | not {inner : Filter} {args : Json} {members : List (String × Json)}
      (hinner : Written inner args) (hmembers : Tagged "not" args members) :
      Written (.not inner) (.object members)
  | all {fs : List Filter} {items : List Json} {members : List (String × Json)}
      (hitems : WrittenList fs items) (hmembers : Tagged "and" (.array items) members) :
      Written (.all fs) (.object members)
  | any {fs : List Filter} {items : List Json} {members : List (String × Json)}
      (hitems : WrittenList fs items) (hmembers : Tagged "or" (.array items) members) :
      Written (.any fs) (.object members)

inductive WrittenList : List Filter → List Json → Prop where
  | nil : WrittenList [] []
  | cons {f : Filter} {fs : List Filter} {j : Json} {items : List Json} (hfirst : Written f j)
      (hrest : WrittenList fs items) : WrittenList (f :: fs) (j :: items)

end

mutual

theorem written_toJson (f : Filter) : Written f f.toJson := by
  cases f with
  | contains fields word => exact .contains .same .same
  | sequence fields words => exact .sequence .same .same
  | not inner => exact .not (written_toJson inner) .same
  | all fs => exact .all (writtenList_toJsonList fs) .same
  | any fs => exact .any (writtenList_toJsonList fs) .same

theorem writtenList_toJsonList (fs : List Filter) : WrittenList fs (toJsonList fs) := by
  cases fs with
  | nil => exact .nil
  | cons f fs => exact .cons (written_toJson f) (writtenList_toJsonList fs)

end

/-- An object of an operation is read by its arguments, wherever it stands. -/
theorem read?_of_tagged {op : String} {operation : Operation} {args : Json}
    {members : List (String × Json)} (hop : Operation.ofName? op = some operation)
    (h : Tagged op args members) (enclosed : Bool) :
    read? enclosed (.object members) = readArgs? true operation args := by
  have hargs : members.lookup "args" = some args := h.lookup_eq (by simp)
  have htag : members.lookup "op" = some (.string op) := h.lookup_eq (by simp)
  have hoperation : (members.lookup "op").bind (Operation.ofMember? enclosed) = some operation := by
    rw [htag]
    exact hop
  rw [read?, hargs, hoperation]

mutual

theorem read?_of_written {f : Filter} {j : Json} (h : Written f j) (enclosed : Bool) :
    read? enclosed j = some f := by
  cases h with
  | @contains fields word args members hargs hmembers =>
    have hfields : args.lookup "fields" = some (.ofStrings fields) := hargs.lookup_eq (by simp)
    have hword : args.lookup "word" = some (.string word) := hargs.lookup_eq (by simp)
    rw [read?_of_tagged rfl hmembers, readArgs?, Json.member?, Json.member?, hfields, hword]
    simp [Json.strings?_ofStrings, Json.string?]
  | @sequence fields words args members hargs hmembers =>
    have hfields : args.lookup "fields" = some (.ofStrings fields) := hargs.lookup_eq (by simp)
    have hwords : args.lookup "words" = some (.ofStrings words) := hargs.lookup_eq (by simp)
    rw [read?_of_tagged rfl hmembers, readArgs?, Json.member?, Json.member?, hfields, hwords]
    simp [Json.strings?_ofStrings]
  | not hinner hmembers =>
    rw [read?_of_tagged rfl hmembers, readArgs?, read?_of_written hinner true]
    rfl
  | all hitems hmembers =>
    rw [read?_of_tagged rfl hmembers, readArgs?, readList?_of_writtenList hitems true]
    rfl
  | any hitems hmembers =>
    rw [read?_of_tagged rfl hmembers, readArgs?, readList?_of_writtenList hitems true]
    rfl

theorem readList?_of_writtenList {fs : List Filter} {items : List Json} (h : WrittenList fs items)
    (enclosed : Bool) : readList? enclosed items = some fs := by
  cases h with
  | nil => rw [readList?]
  | cons hfirst hrest =>
    rw [readList?, read?_of_written hfirst enclosed, readList?_of_writtenList hrest enclosed]
    rfl

end

/-- A filter is read back from the value that it is written as, also after members that are not
asked for have been added to it, and no two filters are written as the same value. -/
theorem ofJson?_of_written :
    (∀ f : Filter, ofJson? f.toJson = some f) ∧
      (∀ (f : Filter) (j : Json), Written f j → ofJson? j = some f) ∧
      Function.Injective toJson := by
  have hread : ∀ (f : Filter) (j : Json), Written f j → ofJson? j = some f :=
    fun f j h => read?_of_written h false
  have hback : ∀ f : Filter, ofJson? f.toJson = some f :=
    fun f => hread f f.toJson (written_toJson f)
  refine ⟨hback, hread, ?_⟩
  intro f g heq
  have hboth := hback f
  rw [heq, hback g] at hboth
  exact (Option.some.inj hboth).symm

theorem ofJson?_of_written_enlarged :
    let f := Filter.not (any [contains [] "", sequence ["title"] [], all []])
    let args := Json.object (Json.insertMember "words" .null
      [("fields", .ofStrings []), ("word", .string "")])
    let word := Json.object (Json.insertMember "note" (.bool true)
      [("args", args), ("op", .string "contains")])
    let items := [word, (sequence ["title"] []).toJson, (all []).toJson]
    let j := Json.object (Json.insertMember "Op" (.string "and")
      [("args", tagged "or" (.array items)), ("op", .string "not")])
    Written f j ∧ ofJson? j = some f := by
  intro f args word items j
  have hword : Written (contains [] "") word :=
    .contains (.insert .null (by decide) .same) (.insert (.bool true) (by decide) .same)
  have hitems : WrittenList [contains [] "", sequence ["title"] [], all []] items :=
    .cons hword (.cons (written_toJson _) (.cons (written_toJson _) .nil))
  have hwritten : Written f j :=
    .not (.any hitems .same) (.insert (.string "and") (by decide) .same)
  exact ⟨hwritten, ofJson?_of_written.2.1 f j hwritten⟩

end Filter

end TextQuery
