import Mathlib.Data.List.Chain
import TextQuery.Query.Grammar

/-!
# Derivations of queries

The grammar of queries as trees, one type for each of its lines:

    choice   := sequence (OR sequence)*
    sequence := chain chain*
    chain    := prefixed (AND prefixed)*
    prefixed := ('-' | '+')? primary
    primary  := WORD | PHRASE | FIELD primary | '(' choice ')'

What a derivation spells, and the query it stands for, are read off it by recursion on the
derivation alone. Nothing here looks for a derivation of given tokens.
-/
namespace TextQuery

/-- The width of a prefix, which must touch its operand. -/
def Token.prefixWidth? : Token → Option Nat
  | exclude | require => some 1
  | field name => some (name.length + 1)
  | _ => none

/-- If the first of two neighbouring lexemes is a prefix, the second starts an operand where the
prefix ends. -/
def Lexeme.Binds (a b : Lexeme) : Prop :=
  ∀ width, a.token.prefixWidth? = some width →
    b.token.startsOperand = true ∧ b.position = a.position + width

/-- A phrase holds a character that is not white space. -/
def Token.Spoken : Token → Prop
  | phrase text => ∃ c ∈ text.toList, Text.isBlank c = false
  | _ => True

/-- What every reading takes for granted of the lexemes, whatever they derive from. -/
structure WellBound (lexemes : List Lexeme) : Prop where
  binds : lexemes.IsChain Lexeme.Binds
  spoken : ∀ l ∈ lexemes, l.token.Spoken

theorem wellBound_cons_iff {l : Lexeme} {ls : List Lexeme} :
    WellBound (l :: ls) ↔ (∀ b ∈ ls.head?, l.Binds b) ∧ l.token.Spoken ∧ WellBound ls := by
  constructor
  · rintro ⟨hb, hs⟩
    obtain ⟨hl, hb⟩ := List.isChain_cons.1 hb
    obtain ⟨hsl, hs⟩ := List.forall_mem_cons.1 hs
    exact ⟨hl, hsl, hb, hs⟩
  · rintro ⟨hl, hsl, hb, hs⟩
    exact ⟨List.isChain_cons.2 ⟨hl, hb⟩, List.forall_mem_cons.2 ⟨hsl, hs⟩⟩

theorem wellBound_finish (position : Nat) : WellBound [⟨.finish, position⟩] :=
  ⟨.singleton _, by simp [Token.Spoken]⟩

theorem WellBound.of_append {taken rest : List Lexeme} (h : WellBound (taken ++ rest)) :
    WellBound rest :=
  ⟨(List.isChain_append.1 h.binds).2.1, fun l hl => h.spoken l (List.mem_append_right _ hl)⟩

namespace Derivation
open Grammar

mutual

inductive Primary where
  | word (text : String)
  | phrase (text : String)
  | scoped (field : String) (inner : Primary)
  | group (inner : Choice)

inductive Prefixed where
  | plain (operand : Primary)
  | excluded (operand : Primary)
  | required (operand : Primary)

inductive Chain where
  | one (operand : Prefixed)
  | more (operand : Prefixed) (rest : Chain)

inductive Sequence where
  | one (chain : Chain)
  | more (chain : Chain) (rest : Sequence)

inductive Choice where
  | one (sequence : Sequence)
  | more (sequence : Sequence) (rest : Choice)

end

mutual

/-- The tokens that a derivation spells. -/
def Primary.tokens : Primary → List Token
  | .word text => [.word text]
  | .phrase text => [.phrase text]
  | .scoped field inner => .field field :: inner.tokens
  | .group inner => .openGroup :: inner.tokens ++ [.closeGroup]

def Prefixed.tokens : Prefixed → List Token
  | .plain operand => operand.tokens
  | .excluded operand => .exclude :: operand.tokens
  | .required operand => .require :: operand.tokens

def Chain.tokens : Chain → List Token
  | .one operand => operand.tokens
  | .more operand rest => operand.tokens ++ .and :: rest.tokens

def Sequence.tokens : Sequence → List Token
  | .one chain => chain.tokens
  | .more chain rest => chain.tokens ++ rest.tokens

def Choice.tokens : Choice → List Token
  | .one first => first.tokens
  | .more first rest => first.tokens ++ .or :: rest.tokens

end

attribute [simp] Primary.tokens Prefixed.tokens Chain.tokens Sequence.tokens Choice.tokens

mutual

/-- The most groups and field scopes that are open at once. -/
def Primary.nesting : Primary → Nat
  | .word _ | .phrase _ => 0
  | .scoped _ inner => inner.nesting + 1
  | .group inner => inner.nesting + 1

def Prefixed.nesting : Prefixed → Nat
  | .plain operand | .excluded operand | .required operand => operand.nesting

def Chain.nesting : Chain → Nat
  | .one operand => operand.nesting
  | .more operand rest => max operand.nesting rest.nesting

def Sequence.nesting : Sequence → Nat
  | .one chain => chain.nesting
  | .more chain rest => max chain.nesting rest.nesting

def Choice.nesting : Choice → Nat
  | .one first => first.nesting
  | .more first rest => max first.nesting rest.nesting

end

attribute [simp] Primary.nesting Prefixed.nesting Chain.nesting Sequence.nesting Choice.nesting

/-- What an operand adds to the conjuncts of its neighbourhood: a restriction itself, and an
alternative what `place` says of the place where it stands. -/
def conjunctAt? (place : Nat → Option Query) (o : Operand × Nat) : Option Query :=
  if o.1.restricts then some o.1.query else place o.2

/-- The conjuncts that neighbouring operands make: each restriction where it stands, and where the
first alternative stands the disjunction of all alternatives. -/
def conjuncts (operands : List Operand) : List Query :=
  let alternatives := operands.filter fun o => !o.restricts
  let first? := operands.findIdx? fun o => !o.restricts
  operands.zipIdx.filterMap <| conjunctAt? fun i =>
    if first? = some i then some (.collapse .any (alternatives.map Operand.query)) else none

def Prefixed.role : Prefixed → Role
  | .plain _ => .optional
  | .excluded _ => .excluded
  | .required _ => .required

mutual

/-- The query that a derivation stands for. -/
def Primary.tree : Primary → Query
  | .word text => .term text
  | .phrase text => .phrase ((Text.blankSeparated text.toList).map String.ofList)
  | .scoped field inner => .within field inner.tree
  | .group inner => .collapse .any inner.trees

def Prefixed.tree : Prefixed → Query
  | .plain operand | .required operand => operand.tree
  | .excluded operand => .exclude operand.tree

def Chain.trees : Chain → List Query
  | .one operand => [operand.tree]
  | .more operand rest => operand.tree :: rest.trees

/-- A chain as one operand among its neighbours: of several operands, an unprefixed one. -/
def Chain.operand : Chain → Operand
  | .one operand => ⟨operand.role, operand.tree⟩
  | .more operand rest => ⟨.optional, .all (operand.tree :: rest.trees)⟩

def Sequence.operands : Sequence → List Operand
  | .one chain => [chain.operand]
  | .more chain rest => chain.operand :: rest.operands

def Choice.trees : Choice → List Query
  | .one first => [.collapse .all (conjuncts first.operands)]
  | .more first rest => .collapse .all (conjuncts first.operands) :: rest.trees

end

attribute [simp] Primary.tree Prefixed.tree Chain.trees Chain.operand Sequence.operands Choice.trees

def Sequence.tree (s : Sequence) : Query :=
  .collapse .all (conjuncts s.operands)

def Choice.tree (c : Choice) : Query :=
  .collapse .any c.trees

mutual

/-- No `-` stands before a primary whose query is an exclusion. -/
def Primary.ExcludesOnce : Primary → Prop
  | .word _ | .phrase _ => True
  | .scoped _ inner => inner.ExcludesOnce
  | .group inner => inner.ExcludesOnce

def Prefixed.ExcludesOnce : Prefixed → Prop
  | .plain operand | .required operand => operand.ExcludesOnce
  | .excluded operand => operand.ExcludesOnce ∧ operand.tree.isExclusion = false

def Chain.ExcludesOnce : Chain → Prop
  | .one operand => operand.ExcludesOnce
  | .more operand rest => operand.ExcludesOnce ∧ rest.ExcludesOnce

def Sequence.ExcludesOnce : Sequence → Prop
  | .one chain => chain.ExcludesOnce
  | .more chain rest => chain.ExcludesOnce ∧ rest.ExcludesOnce

def Choice.ExcludesOnce : Choice → Prop
  | .one first => first.ExcludesOnce
  | .more first rest => first.ExcludesOnce ∧ rest.ExcludesOnce

end

attribute [simp] Primary.ExcludesOnce Prefixed.ExcludesOnce Chain.ExcludesOnce Sequence.ExcludesOnce
  Choice.ExcludesOnce

/-- The lexemes, up to the end of the query, derive from the grammar in this way. -/
structure Choice.Derives (c : Choice) (lexemes : List Lexeme) : Prop where
  tokens : lexemes.map Lexeme.token = c.tokens ++ [.finish]
  wellBound : WellBound lexemes
  excludesOnce : c.ExcludesOnce
  nesting : c.nesting ≤ maxNesting

end Derivation

end TextQuery
