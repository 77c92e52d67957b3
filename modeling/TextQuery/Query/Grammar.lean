import TextQuery.Query.Basic
import TextQuery.Query.Scanner

/-!
# Reading a query from its tokens

From loosest to tightest a query binds by `OR`, by adjacency, by `AND`, and by the prefixes `-`,
`+` and `field:`, which must touch their operand. Unprefixed neighbours are alternatives; `+` and
`-` operands restrict them. At most `maxNesting` groups and field scopes may be open at once.

Every reader gives back what it left together with a proof that it took something, so that reading
operand after operand comes to an end.
-/
namespace TextQuery

/-- What can be wrong with the tokens of a query. -/
inductive GrammarCause where
  | unexpected (token : Token)
  /-- A prefix or keyword with nothing to apply to. -/
  | missingOperand (after : Token)
  | emptyGroup
  | unclosedGroup
  | doubleExclusion
  | emptyPhrase
  | emptyQuery
  | nestingTooDeep
deriving DecidableEq

/-- The most groups and field scopes that may be open at once. -/
def maxNesting : Nat := 128

def GrammarCause.describe : GrammarCause → String
  | unexpected token => "unexpected " ++ token.describe
  | missingOperand after => "missing operand after " ++ after.describe
  | emptyGroup => "empty group"
  | unclosedGroup => "unclosed group"
  | doubleExclusion => "exclusion of an exclusion"
  | emptyPhrase => "empty phrase"
  | emptyQuery => "empty query"
  | nestingTooDeep => "nesting deeper than " ++ toString maxNesting ++ " levels"

abbrev GrammarError := Located GrammarCause

def GrammarError.message (e : GrammarError) : String :=
  Located.messageWith e e.cause.describe

namespace Grammar

/-- The outcome of reading something off the front of `input`. A failure tells what was left when
it happened and how many groups and field scopes it happened inside of. -/
inductive Reading (α : Type) (input : List Lexeme) where
  | done (value : α) (rest : List Lexeme) (shorter : rest.length < input.length)
  | failed (fault : Fault GrammarCause) (rest : List Lexeme) (leftOpen : Nat)

abbrev Reader (α : Type) := (input : List Lexeme) → Reading α input

/-- The reading of a tail as a reading of the whole. -/
def Reading.lift {α β : Type} {tail input : List Lexeme} (f : α → β)
    (le : tail.length ≤ input.length) : Reading α tail → Reading β input
  | .done value rest shorter => .done (f value) rest (Nat.lt_of_lt_of_le shorter le)
  | .failed fault rest leftOpen => .failed fault rest leftOpen

def atEnd : List Lexeme → Bool
  | [] => true
  | l :: _ => l.token == .finish

/-- Whether an operand with its optional prefix comes next. -/
def startsItem : List Lexeme → Bool
  | [] => false
  | l :: _ => l.token.startsItem

/-- Whether an operand comes next that begins at the offset where its prefix ends. -/
def touches (prefixEnd : Nat) : List Lexeme → Bool
  | [] => false
  | l :: _ => l.token.startsOperand && l.position == prefixEnd

/-- The fault of what comes next. Tokens end with the end of the query, so there is always one. -/
def unexpectedNext : List Lexeme → Fault GrammarCause
  | [] => ⟨.unexpected .finish, 0⟩
  | l :: _ => ⟨.unexpected l.token, l.position⟩

/-- One or more items with `separator` between them. -/
def joined {α : Type} (separator : Token) (item : Reader α) (input : List Lexeme) :
    Reading (List α) input :=
  match item input with
  | .failed fault rest leftOpen => .failed fault rest leftOpen
  | .done value [] shorter => .done [value] [] shorter
  | .done value (l :: more) shorter =>
    if l.token = separator then
      if startsItem more then
        match joined separator item more with
        | .failed fault rest leftOpen => .failed fault rest leftOpen
        | .done values rest shorter' =>
          .done (value :: values) rest (by simp only [List.length_cons] at shorter; omega)
      else .failed ⟨.missingOperand separator, l.position⟩ more 0
    else .done [value] (l :: more) shorter
termination_by input.length
decreasing_by simp only [List.length_cons] at shorter; omega

/-- One or more items next to each other. -/
def adjacent {α : Type} (item : Reader α) (input : List Lexeme) : Reading (List α) input :=
  match item input with
  | .failed fault rest leftOpen => .failed fault rest leftOpen
  | .done value rest shorter =>
    if startsItem rest then
      (adjacent item rest).lift (value :: ·) (Nat.le_of_lt shorter)
    else .done [value] rest shorter
termination_by input.length

/-- How an operand takes part among its neighbours. -/
inductive Role where
  /-- Unprefixed: one of the alternatives. -/
  | optional
  /-- Prefixed with `+`. -/
  | required
  /-- Prefixed with `-`. -/
  | excluded
deriving DecidableEq

structure Operand where
  role : Role
  query : Query

/-- Whether the operand holds for every result, rather than being one of the alternatives. An
unprefixed operand that only excludes, like `(-x)`, restricts as well. -/
def Operand.restricts (o : Operand) : Bool :=
  o.role != .optional || o.query.isNegation

/-- The conditions that neighbouring operands make together: each restriction, and one
disjunction of the alternatives in the place of the first of them. -/
def conditions (operands : List Operand) : List Query :=
  let leading := operands.takeWhile Operand.restricts
  let others := operands.dropWhile Operand.restricts
  let alternatives := others.filter fun o => !o.restricts
  leading.map Operand.query ++
    (if alternatives.isEmpty then []
     else [Query.collapse .any (alternatives.map Operand.query)]) ++
    (others.filter Operand.restricts).map Operand.query

/-- An operand with its optional prefix. -/
def prefixed (operand : Reader Query) : Reader Operand
  | ⟨.exclude, position⟩ :: rest =>
    if rest.head? = some ⟨.exclude, position + 1⟩ then
      .failed ⟨.doubleExclusion, position⟩ rest 0
    else if !touches (position + 1) rest then
      .failed ⟨.missingOperand .exclude, position⟩ rest 0
    else match operand rest with
      | .failed fault rest' leftOpen => .failed fault rest' leftOpen
      | .done query rest' shorter =>
        if query.isExclusion then .failed ⟨.doubleExclusion, position⟩ rest' 0
        else .done ⟨.excluded, .exclude query⟩ rest' (Nat.lt_succ_of_lt shorter)
  | ⟨.require, position⟩ :: rest =>
    if !touches (position + 1) rest then
      .failed ⟨.missingOperand .require, position⟩ rest 0
    else (operand rest).lift (Operand.mk .required) (Nat.le_succ _)
  | input => (operand input).lift (Operand.mk .optional) (Nat.le_refl _)

/-- A chain of operands as one operand; a chain of several is an unprefixed conjunction. -/
def chained : List Operand → Operand
  | [o] => o
  | os => ⟨.optional, .all (os.map Operand.query)⟩

def conjunction (operand : Reader Query) : Reader Operand :=
  fun input => (joined .and (prefixed operand) input).lift chained (Nat.le_refl _)

def sequence (operand : Reader Query) : Reader Query :=
  fun input =>
    if startsItem input then
      (adjacent (conjunction operand) input).lift
        (fun operands => Query.collapse .all (conditions operands)) (Nat.le_refl _)
    else .failed (unexpectedNext input) input 0

def disjunction (operand : Reader Query) : Reader Query :=
  fun input => (joined .or (sequence operand) input).lift (Query.collapse .any) (Nat.le_refl _)

/-- The reading of the group that was opened at `position`, once `inner` has been read in it. -/
def closed {input : List Lexeme} (position : Nat) (inner : Query) :
    (rest : List Lexeme) → rest.length < input.length → Reading Query input
  | ⟨.closeGroup, _⟩ :: more, shorter => .done inner more (Nat.lt_of_succ_lt shorter)
  | rest, _ =>
    if atEnd rest then .failed ⟨.unclosedGroup, position⟩ rest 1
    else .failed (unexpectedNext rest) rest 1

/-- A word, a phrase, a field scope or a group, inside of which `budget` more may be open. -/
def operand (budget : Nat) : Reader Query
  | ⟨.word text, _⟩ :: rest => .done (.term text) rest (Nat.lt_succ_self _)
  | ⟨.phrase text, position⟩ :: rest =>
    match Text.blankSeparated text.toList with
    | [] => .failed ⟨.emptyPhrase, position⟩ rest 0
    | words => .done (.phrase (words.map String.ofList)) rest (Nat.lt_succ_self _)
  | ⟨.field name, position⟩ :: rest =>
    if !touches (position + name.length + 1) rest then
      .failed ⟨.missingOperand (.field name), position⟩ rest 0
    else match budget with
      | 0 => .failed ⟨.nestingTooDeep, position⟩ rest 0
      | budget + 1 =>
        match operand budget rest with
        | .failed fault rest' leftOpen => .failed fault rest' (leftOpen + 1)
        | .done inner rest' shorter =>
          .done (.within name inner) rest' (Nat.lt_succ_of_lt shorter)
  | ⟨.openGroup, position⟩ :: rest =>
    if (rest.head?.map Lexeme.token) = some .closeGroup then
      .failed ⟨.emptyGroup, position⟩ rest 0
    else if atEnd rest then .failed ⟨.unclosedGroup, position⟩ rest 0
    else match budget with
      | 0 => .failed ⟨.nestingTooDeep, position⟩ rest 0
      | budget + 1 =>
        match disjunction (operand budget) rest with
        | .failed fault rest' leftOpen => .failed fault rest' (leftOpen + 1)
        | .done inner rest' shorter => closed position inner rest' (Nat.lt_succ_of_lt shorter)
  | input => .failed (unexpectedNext input) input.tail 0

attribute [simp] operand

end Grammar

/-- A query text in the course of being read: the tokens not taken yet, and how many groups and
field scopes may still be opened. -/
structure Session where
  text : String
  remaining : List Lexeme
  budget : Nat

namespace Session

/-- Splits the whole text first, so that nothing is read from a text with a bad character. -/
def start (text : String) : Except ScanError Session :=
  (tokenize text).map fun lexemes => ⟨text, lexemes, maxNesting⟩

/-- Reads one query, which must go to the end of the text. Tokens that were taken stay taken after
a failure, and what was open stays open. -/
def read (s : Session) : Except GrammarError Query × Session :=
  if Grammar.atEnd s.remaining then
    (.error (Fault.inText ⟨.emptyQuery, s.text.length⟩ s.text), s)
  else match Grammar.disjunction (Grammar.operand s.budget) s.remaining with
    | .failed fault rest leftOpen =>
      (.error (fault.inText s.text), { s with remaining := rest, budget := s.budget - leftOpen })
    | .done query rest _ =>
      if Grammar.atEnd rest then (.ok query, { s with remaining := rest })
      else (.error ((Grammar.unexpectedNext rest).inText s.text), { s with remaining := rest })

/-- The outcomes of reading `n` times, whatever they are. -/
def reads : Nat → Session → List (Except GrammarError Query)
  | 0, _ => []
  | n + 1, s => s.read.1 :: reads n s.read.2

end Session

/-- Why a text is no query. -/
inductive CompileError where
  | scan (e : ScanError)
  | grammar (e : GrammarError)
deriving DecidableEq

namespace CompileError

def message : CompileError → String
  | scan e => ScanError.message e
  | grammar e => GrammarError.message e

/-- The offset of the fault. -/
def position : CompileError → Nat
  | scan e => e.position
  | grammar e => e.position

end CompileError

/-- The query that a text spells. -/
def compile (text : String) : Except CompileError Query :=
  match Session.start text with
  | .error e => .error (.scan e)
  | .ok s => s.read.1.mapError .grammar

end TextQuery
