import TextQuery.Text.Quoted

/-!
# Tokens of a query

The pieces that a query text is read as, how each is named in a message, and the places where
something in a text is wrong. Offsets count characters.
-/
namespace TextQuery

inductive Token where
  /-- A bare word. -/
  | word (text : String)
  /-- Quoted text without its quotes, escapes resolved and white space kept. -/
  | phrase (text : String)
  /-- The prefix `-`, which binds to the operand that touches it. -/
  | exclude
  /-- The prefix `+`, which binds to the operand that touches it. -/
  | require
  /-- A field name with the colon that ends it. -/
  | field (name : String)
  | openGroup
  | closeGroup
  | and
  | or
  /-- The end of the query. -/
  | finish
deriving DecidableEq

namespace Token

/-- The name of a token in messages. -/
def describe : Token → String
  | word text => "word " ++ Text.quoted text
  | phrase text => "phrase " ++ Text.quoted text
  | exclude => "'-'"
  | require => "'+'"
  | field name => "field '" ++ name ++ ":'"
  | openGroup => "'('"
  | closeGroup => "')'"
  | and => "AND"
  | or => "OR"
  | finish => "end of query"

/-- Whether an operand can start with the token. -/
def startsOperand : Token → Bool
  | word _ | phrase _ | field _ | openGroup => true
  | _ => false

/-- Whether an operand with its optional prefix can start with the token. -/
def startsItem (t : Token) : Bool :=
  t.startsOperand || t == exclude || t == require

end Token

/-- A token with the offset of its first character. -/
structure Lexeme where
  token : Token
  position : Nat
deriving DecidableEq

/-- What is wrong and where. -/
structure Fault (α : Type) where
  cause : α
  position : Nat
deriving DecidableEq

/-- A fault together with the text that it was found in. -/
structure Located (α : Type) extends Fault α where
  text : String
deriving DecidableEq

def Fault.inText {α : Type} (f : Fault α) (text : String) : Located α :=
  ⟨f, text⟩

/-- The message of a located fault whose cause is told as `cause`. -/
def Located.messageWith {α : Type} (e : Located α) (cause : String) : String :=
  cause ++ " at offset " ++ toString e.position ++ " in query " ++ Text.quoted e.text

end TextQuery
