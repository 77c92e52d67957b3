import TextQuery.Predicate.Target

/-!
# Traces of lowering

A target that expresses a query as text and keeps a log of its visits, so that the order in which a
query is lowered can be seen.
-/
namespace TextQuery

/-- The name of a leaf with the field it is searched in. -/
def Scope.mark (kind leaf : String) : Scope → String
  | .anywhere => kind ++ "(" ++ leaf ++ ")"
  | .field path => kind ++ "(" ++ leaf ++ "@" ++ path ++ ")"

/-- A computation that may meet an unknown field and keeps a log of the visits up to there. -/
abbrev Traced := ExceptT UnknownField (StateM (List String))

namespace Traced

def visit (entry : String) : Traced Unit :=
  modify (· ++ [entry])

/-- Lowers into text. Every visit is logged; a field name is looked up by `resolve`. -/
def target (resolve : String → Traced String) : Target Traced String where
  resolve := resolve
  term scope word := do
    visit (scope.mark "T" word)
    pure (scope.mark "T" word)
  phrase scope words := do
    let leaf := " ".intercalate words
    visit (scope.mark "P" leaf)
    pure (scope.mark "P" leaf)
  exclude inner := do
    visit "NOT/1"
    pure ("NOT[" ++ inner ++ "]")
  all parts := do
    visit ("AND/" ++ toString parts.length)
    pure ("AND[" ++ ",".intercalate parts ++ "]")
  any parts := do
    visit ("OR/" ++ toString parts.length)
    pure ("OR[" ++ ",".intercalate parts ++ "]")

/-- Logs a field name, then refuses it or puts it in angle brackets. -/
def resolveUnless (rejected : List String) (name : String) : Traced String := do
  visit ("F(" ++ name ++ ")")
  if rejected.contains name then throw ⟨name⟩
  pure ("<" ++ name ++ ">")

/-- The outcome of a traced computation and its log. -/
def outcome {α : Type} (c : Traced α) : Except UnknownField α × List String :=
  c.run.run []

end Traced

end TextQuery
