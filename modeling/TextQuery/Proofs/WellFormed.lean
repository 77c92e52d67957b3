import TextQuery.Proofs.Scanning
import TextQuery.Query.Basic

/-!
# Well-formed queries

What holds at every node of a query that a text can compile to. Words and field names are such
that the scanner takes them in one piece, and no node could have been collapsed into another one.
-/
namespace TextQuery

/-- A text that the scanner takes as one word, or as one field name if a colon is behind it. -/
structure IsName (name : String) : Prop where
  ne_nil : name.toList ≠ []
  queryChars : ∀ c ∈ name.toList, isQueryChar c = true
  head_ne : ∀ c ∈ name.toList.head?, c ≠ '-' ∧ c ≠ '+'
  colon : ':' ∉ name.toList.tail

/-- A name that is not a keyword in any letter case. -/
structure IsTerm (word : String) : Prop extends IsName word where
  notAnd : equalsIgnoringAsciiCase word.toList "and".toList = false
  notOr : equalsIgnoringAsciiCase word.toList "or".toList = false

instance : DecidablePred IsName := fun name =>
  decidable_of_iff (name.toList ≠ [] ∧ name.toList.all isQueryChar = true ∧
    name.toList.head?.all (fun c => c != '-' && c != '+') = true ∧ ':' ∉ name.toList.tail)
    ⟨fun ⟨hne, hchars, hhead, hcolon⟩ =>
        ⟨hne, List.all_eq_true.1 hchars, by simpa [Option.all_eq_true] using hhead, hcolon⟩,
      fun ⟨hne, hchars, hhead, hcolon⟩ =>
        ⟨hne, List.all_eq_true.2 hchars, by simpa [Option.all_eq_true] using hhead, hcolon⟩⟩

instance : DecidablePred IsTerm := fun word =>
  decidable_of_iff (IsName word ∧ equalsIgnoringAsciiCase word.toList "and".toList = false ∧
    equalsIgnoringAsciiCase word.toList "or".toList = false)
    ⟨fun ⟨hname, hand, hor⟩ => ⟨hname, hand, hor⟩, fun ⟨hname, hand, hor⟩ => ⟨hname, hand, hor⟩⟩

/-- A name as the scanner meets it: what starts it, and what goes on. -/
theorem IsName.exists_cons {name : String} (h : IsName name) :
    ∃ c cs, name.toList = c :: cs ∧ isQueryChar c = true ∧ Scanner.mark? c = none ∧
      ∀ d ∈ cs, continuesWord d = true := by
  obtain ⟨c, cs, hname⟩ := List.exists_cons_of_ne_nil h.ne_nil
  have hchars := h.queryChars
  have hhead := h.head_ne
  have hcolon := h.colon
  rw [hname] at hchars hhead hcolon
  obtain ⟨hc, hcs⟩ := List.forall_mem_cons.1 hchars
  refine ⟨c, cs, hname, hc, ?_, ?_⟩
  · obtain ⟨hminus, hplus⟩ := hhead c rfl
    unfold Scanner.mark?
    split <;> simp_all [isQueryChar]
  · intro d hd
    have hne : d ≠ ':' := fun h => hcolon (h ▸ hd)
    simp [continuesWord, hcs d hd, hne]

theorem IsTerm.bareToken_eq {word : String} (h : IsTerm word) :
    bareToken word.toList = .word word := by
  rw [bareToken, h.notAnd, h.notOr, String.ofList_toList]
  rfl

/-- Neither white space nor a control character. -/
def isVisible (c : Char) : Bool :=
  !Text.isBlank c && !Text.isControl c

namespace Query

/-- What a single node keeps to, if the words of phrases are made of the characters that satisfy
`inPhrase`. -/
def Proper (inPhrase : Char → Bool) : Query → Prop
  | term word => IsTerm word
  | phrase words => words ≠ [] ∧ ∀ w ∈ words, w.toList ≠ [] ∧ ∀ c ∈ w.toList, inPhrase c = true
  | within field _ => IsName field
  | exclude inner => inner.isExclusion = false
  | all qs | any qs => 2 ≤ qs.length

instance (inPhrase : Char → Bool) : DecidablePred (Proper inPhrase)
  | term word => inferInstanceAs (Decidable (IsTerm word))
  | phrase words => decidable_of_iff
    (words ≠ [] ∧ words.all (fun w => !w.toList.isEmpty && w.toList.all inPhrase) = true)
    (by simp [Proper])
  | within field _ => inferInstanceAs (Decidable (IsName field))
  | exclude inner => inferInstanceAs (Decidable (inner.isExclusion = false))
  | all qs | any qs => inferInstanceAs (Decidable (2 ≤ qs.length))

/-- The node and all nodes below it satisfy `P`. -/
inductive Everywhere (P : Query → Prop) : Query → Prop where
  | intro {q : Query} (node : P q) (below : ∀ child ∈ q.children, Everywhere P child) :
      Everywhere P q

variable {P : Query → Prop}

theorem everywhere_iff {q : Query} :
    q.Everywhere P ↔ P q ∧ ∀ child ∈ q.children, child.Everywhere P :=
  ⟨fun ⟨node, below⟩ => ⟨node, below⟩, fun ⟨node, below⟩ => ⟨node, below⟩⟩

variable [DecidablePred P]

def decideNode {q : Query} (below : Decidable (∀ child ∈ q.children, child.Everywhere P)) :
    Decidable (q.Everywhere P) :=
  decidable_of_iff' _ everywhere_iff

mutual

def decideEverywhere : (q : Query) → Decidable (q.Everywhere P)
  | term _ | phrase _ => decideNode (isTrue (by simp))
  | within _ inner | exclude inner =>
    have := decideEverywhere inner
    decideNode (decidable_of_iff (inner.Everywhere P) (by simp))
  | all qs | any qs => decideNode (decideEverywhereList qs)

def decideEverywhereList : (qs : List Query) → Decidable (∀ q ∈ qs, q.Everywhere P)
  | [] => isTrue (by simp)
  | q :: qs =>
    have := decideEverywhere q
    have := decideEverywhereList qs
    decidable_of_iff' _ List.forall_mem_cons

end

instance : DecidablePred (Everywhere P) :=
  decideEverywhere

end Query

end TextQuery
