import Mathlib.Data.List.Basic
import Mathlib.Data.List.TakeWhile
import TextQuery.Proofs.Ascii
import TextQuery.Proofs.Splitting

/-!
# Where words stand in a text

Words stand at a place of a text if they are found there one after another, up to the case of
letters, with any white space between them, and if neither the first nor the last of them is cut out
of a longer word. Looking for them so is the same as looking for them as one token, with one space
between them, in the text whose runs of white space are one space each.
-/
namespace TextQuery.Text

/-- The same text but for the case of ASCII letters. -/
def SameLetters (found text : List Char) : Prop :=
  found.map Char.toLower = text.map Char.toLower

/-- A word in the sense of white space: not empty, and without a blank. -/
def Solid (word : List Char) : Prop :=
  word ≠ [] ∧ ∀ c ∈ word, isBlank c = false

/-- The words begin the text, with white space between them, and the last of them is not cut out of
a longer word. -/
inductive Stand : List (List Char) → List Char → Prop where
  | last {word found rest : List Char} (letters : SameLetters found word)
      (edge : joinsWord word.getLast? rest.head? = false) : Stand [word] (found ++ rest)
  | more {word next found blanks rest : List Char} {words : List (List Char)}
      (letters : SameLetters found word) (ne : blanks ≠ [])
      (blank : ∀ c ∈ blanks, isBlank c = true) (others : Stand (next :: words) rest) :
      Stand (word :: next :: words) (found ++ (blanks ++ rest))

/-- The words stand behind the character `before`, and the first of them is not cut out of a longer
word either. -/
def StandAfter (words : List (List Char)) (before : Option Char) (text : List Char) : Prop :=
  joinsWord (words.head?.bind List.head?) before = false ∧ Stand words text

/-- Some place of the text, whose preceding character is `before`, satisfies `P`. -/
def Somewhere (P : Option Char → List Char → Prop) (before : Option Char) : List Char → Prop
  | [] => False
  | c :: rest => P before (c :: rest) ∨ Somewhere P (some c) rest

/-- What stands somewhere stands behind one part of the text and begins the other. -/
theorem somewhere_iff {P : Option Char → List Char → Prop} (hP : ∀ before, ¬ P before [])
    {text : List Char} {before : Option Char} : Somewhere P before text ↔
      ∃ left right, text = left ++ right ∧ P (left.getLast?.or before) right := by
  induction text generalizing before with
  | nil =>
    constructor
    · exact False.elim
    · rintro ⟨left, right, hsplit, hright⟩
      obtain ⟨rfl, rfl⟩ := List.append_eq_nil_iff.1 hsplit.symm
      exact hP _ hright
  | cons c text ih =>
    rw [Somewhere, ih]
    constructor
    · rintro (hhere | ⟨left, right, rfl, hright⟩)
      · exact ⟨[], c :: text, rfl, hhere⟩
      · refine ⟨c :: left, right, rfl, ?_⟩
        rw [List.getLast?_cons]
        cases hlast : left.getLast? <;> simpa [hlast] using hright
    · rintro ⟨left, right, hsplit, hright⟩
      cases left with
      | nil =>
        rw [List.nil_append] at hsplit
        exact .inl (hsplit ▸ hright)
      | cons d left =>
        obtain ⟨rfl, rfl⟩ := List.cons.inj hsplit
        refine .inr ⟨left, right, rfl, ?_⟩
        rw [List.getLast?_cons] at hright
        cases hlast : left.getLast? <;> simpa [hlast] using hright

theorem exists_range_of_inRanges {ranges : List (Nat × Nat)} {n : Nat}
    (h : inRanges ranges n = true) : ∃ r ∈ ranges, r.1 ≤ n ∧ n ≤ r.2 := by
  induction ranges with
  | nil => cases h
  | cons r ranges ih =>
    simp only [inRanges] at h
    split at h
    · cases h
    · next hfirst =>
      rcases Bool.or_eq_true_iff.1 h with hlast | hrest
      · exact ⟨r, List.mem_cons_self, Nat.not_lt.1 hfirst, of_decide_eq_true hlast⟩
      · obtain ⟨r', hr', hn⟩ := ih hrest
        exact ⟨r', List.mem_cons_of_mem _ hr', hn⟩

theorem isWordChar_of_isBlank {c : Char} (h : isBlank c = true) : isWordChar c = false := by
  have hall : ∀ r ∈ blanks.ranges, ∀ n ∈ List.range' r.1 (r.2 + 1 - r.1),
      isWordChar (Char.ofNat n) = false := by decide +kernel
  obtain ⟨r, hr, hfirst, hlast⟩ := exists_range_of_inRanges h
  have hword := hall r hr c.toNat (List.mem_range'_1.2 ⟨hfirst, by omega⟩)
  rwa [Char.ofNat_toNat] at hword

theorem joinsWord_of_isBlank {edge neighbour : Option Char}
    (h : ∀ c ∈ neighbour, isBlank c = true) : joinsWord edge neighbour = false := by
  cases neighbour with
  | none => simp [joinsWord]
  | some c => simp [joinsWord, isWordChar_of_isBlank (h c rfl)]

theorem joinsWord_map_toLower (edge neighbour : Option Char) :
    joinsWord (edge.map Char.toLower) (neighbour.map Char.toLower) = joinsWord edge neighbour := by
  cases edge <;> cases neighbour <;> simp [joinsWord, isWordChar_toLower]

/-- What letter case does not change holds of what is found if it holds of the word. -/
theorem SameLetters.forall_eq {f : Char → Bool} (hf : ∀ c : Char, f c.toLower = f c) {b : Bool}
    {found word : List Char} (h : SameLetters found word) (hword : ∀ c ∈ word, f c = b) :
    ∀ c ∈ found, f c = b := by
  intro c hc
  have hmem : c.toLower ∈ word.map Char.toLower := h ▸ List.mem_map_of_mem hc
  obtain ⟨d, hd, hcd⟩ := List.mem_map.1 hmem
  rw [← hf, ← hcd, hf]
  exact hword d hd

theorem SameLetters.isBlank_eq_false {found word : List Char} (h : SameLetters found word)
    (hword : ∀ c ∈ word, isBlank c = false) : ∀ c ∈ found, isBlank c = false :=
  h.forall_eq isBlank_toLower hword

theorem SameLetters.length_eq {found word : List Char} (h : SameLetters found word) :
    found.length = word.length := by
  simpa using congrArg List.length h

theorem SameLetters.ne_nil {found word : List Char} (h : SameLetters found word)
    (hword : word ≠ []) : found ≠ [] := by
  have hlength := h.length_eq
  exact List.ne_nil_of_length_pos (hlength ▸ List.length_pos_iff.2 hword)

theorem SameLetters.solid {found word : List Char} (h : SameLetters found word)
    (hword : Solid word) : Solid found :=
  ⟨h.ne_nil hword.1, h.isBlank_eq_false hword.2⟩

/-- Words begin with a character that is not a blank. -/
theorem Stand.exists_cons {words : List (List Char)} {text : List Char} (h : Stand words text)
    (hwords : ∀ w ∈ words, Solid w) : ∃ c rest, text = c :: rest ∧ isBlank c = false := by
  have hfound : ∀ found more : List Char, Solid found →
      ∃ c rest, found ++ more = c :: rest ∧ isBlank c = false := by
    intro found more hsolid
    obtain ⟨c, cs, rfl⟩ := List.exists_cons_of_ne_nil hsolid.1
    exact ⟨c, cs ++ more, rfl, hsolid.2 c List.mem_cons_self⟩
  cases h with
  | last letters edge => exact hfound _ _ (letters.solid (hwords _ List.mem_cons_self))
  | more letters ne blank others => exact hfound _ _ (letters.solid (hwords _ List.mem_cons_self))

/-- The text with a space for each run of white space inside it, and none around it. -/
def collapse (text : List Char) : List Char :=
  List.intercalate [' '] (blankSeparated text)

/-- What is left of a text when it is collapsed behind a character that is not a blank. -/
def collapseRest : List Char → List Char
  | [] => []
  | c :: rest =>
    if isBlank c then (if collapse rest = [] then [] else ' ' :: collapse rest)
    else collapse (c :: rest)

theorem collapse_of_isBlank {c : Char} (hc : isBlank c = true) (text : List Char) :
    collapse (c :: text) = collapse text := by
  rw [collapse, blankSeparated, pieces_cons_of_cut hc]
  rfl

theorem collapse_dropWhile (text : List Char) :
    collapse (text.dropWhile isBlank) = collapse text := by
  rw [collapse, blankSeparated, pieces_dropWhile]
  rfl

theorem collapse_eq_nil_iff {text : List Char} : collapse text = [] ↔ blankSeparated text = [] := by
  constructor
  · intro h
    by_contra hne
    obtain ⟨piece, more, hpieces⟩ := List.exists_cons_of_ne_nil hne
    have hmem : piece ∈ blankSeparated text := by
      rw [hpieces]
      exact List.mem_cons_self
    have hpiece := (ne_nil_and_isCut_of_mem_pieces hmem).1
    rw [collapse, hpieces] at h
    cases more <;> simp [hpiece] at h
  · intro h
    rw [collapse, h]
    rfl

/-- Where a piece of text ends: at the end of the text, or at a blank. -/
def EndsPiece (rest : List Char) : Prop :=
  ∀ c ∈ rest.head?, isBlank c = true

theorem endsPiece_collapseRest {rest : List Char} (h : EndsPiece rest) :
    EndsPiece (collapseRest rest) := by
  intro c hc
  cases rest with
  | nil => cases hc
  | cons d rest =>
    have hd : isBlank d = true := h d rfl
    rw [collapseRest, if_pos hd] at hc
    split at hc
    · cases hc
    · cases hc
      decide +kernel

/-- Collapsing keeps the piece that a text begins with. -/
theorem collapse_append {piece rest : List Char} (hpiece : ∀ c ∈ piece, isBlank c = false)
    (hrest : EndsPiece rest) (hne : piece ≠ [] ∨ rest = []) :
    collapse (piece ++ rest) = piece ++ collapseRest rest := by
  cases rest with
  | nil =>
    cases piece with
    | nil => rfl
    | cons c piece =>
      rw [List.append_nil, collapse, blankSeparated,
        pieces_eq_singleton (List.cons_ne_nil _ _) hpiece, List.intercalate_singleton]
      exact (List.append_nil _).symm
  | cons d rest =>
    have hd : isBlank d = true := hrest d rfl
    have hpieces : blankSeparated (piece ++ d :: rest) = piece :: blankSeparated rest :=
      pieces_append_cut (hne.resolve_right (List.cons_ne_nil _ _)) hpiece hd rest
    rw [collapse, hpieces, collapseRest, if_pos hd]
    by_cases hnil : blankSeparated rest = []
    · rw [if_pos (collapse_eq_nil_iff.2 hnil), hnil, List.intercalate_singleton, List.append_nil]
    · obtain ⟨next, more, hmore⟩ := List.exists_cons_of_ne_nil hnil
      rw [if_neg (mt collapse_eq_nil_iff.1 hnil), collapse, hmore, List.intercalate_cons_cons,
        List.append_assoc, List.singleton_append]

/-- A text is its first piece and what stands behind it. -/
theorem exists_piece (text : List Char) : ∃ piece rest, text = piece ++ rest ∧
    (∀ c ∈ piece, isBlank c = false) ∧ EndsPiece rest := by
  refine ⟨text.takeWhile fun c => !isBlank c, text.dropWhile fun c => !isBlank c,
    List.takeWhile_append_dropWhile.symm, ?_, ?_⟩
  · intro c hc
    simpa using List.mem_takeWhile_imp hc
  · intro c hc
    have hhead := List.head?_dropWhile_not (fun c => !isBlank c) text
    rw [Option.mem_def.1 hc] at hhead
    simpa using hhead

theorem collapse_of_not_isBlank {c : Char} (hc : isBlank c = false) (text : List Char) :
    collapse (c :: text) = c :: collapseRest text := by
  obtain ⟨piece, rest, rfl, hpiece, hrest⟩ := exists_piece text
  have hcons : ∀ d ∈ c :: piece, isBlank d = false := List.forall_mem_cons.2 ⟨hc, hpiece⟩
  have hcollapse := collapse_append hcons hrest (.inl (List.cons_ne_nil _ _))
  rw [List.cons_append] at hcollapse
  rw [hcollapse, List.cons_append]
  cases piece with
  | nil => rfl
  | cons d piece =>
    have hd : isBlank d = false := hpiece d List.mem_cons_self
    rw [← collapse_append hpiece hrest (.inl (List.cons_ne_nil _ _)), List.cons_append,
      collapseRest, if_neg (by simp [hd])]

/-- A beginning without blanks is a beginning of the first piece. -/
theorem exists_append_of_append_eq {found rest piece tail : List Char}
    (h : found ++ rest = piece ++ tail) (hfound : ∀ c ∈ found, isBlank c = false)
    (htail : EndsPiece tail) : ∃ behind, piece = found ++ behind ∧ rest = behind ++ tail := by
  rcases List.append_eq_append_iff.1 h with ⟨behind, hpiece, hrest⟩ | ⟨excess, hexcess, htaileq⟩
  · exact ⟨behind, hpiece, hrest⟩
  · cases excess with
    | nil => exact ⟨[], by simpa using hexcess.symm, by simpa using htaileq.symm⟩
    | cons c excess =>
      have hblank : isBlank c = true := htail c (by simp [htaileq])
      have hsolid : isBlank c = false := hfound c (by simp [hexcess])
      rw [hblank] at hsolid
      cases hsolid

theorem joinsWord_append {edge : Option Char} {behind tail : List Char} (h : EndsPiece tail) :
    joinsWord edge (behind ++ tail).head? = joinsWord edge behind.head? := by
  cases behind with
  | nil => rw [List.nil_append, joinsWord_of_isBlank h, joinsWord_of_isBlank (by simp)]
  | cons c behind => rfl

/-- Where a single word stands, only the first piece of the text matters. -/
theorem stand_singleton_iff {word piece tail : List Char}
    (hword : ∀ c ∈ word, isBlank c = false) (htail : EndsPiece tail) :
    Stand [word] (piece ++ tail) ↔ ∃ found behind, piece = found ++ behind ∧
      SameLetters found word ∧ joinsWord word.getLast? behind.head? = false := by
  constructor
  · intro h
    generalize htext : piece ++ tail = text at h
    cases h with
    | @last _ found rest letters edge =>
      obtain ⟨behind, rfl, rfl⟩ :=
        exists_append_of_append_eq htext.symm (letters.isBlank_eq_false hword) htail
      exact ⟨found, behind, rfl, letters, by rwa [joinsWord_append htail] at edge⟩
  · rintro ⟨found, behind, rfl, letters, edge⟩
    rw [List.append_assoc]
    exact .last letters (by rwa [joinsWord_append htail])

/-- Where several words stand, the first one is the first piece. -/
theorem stand_cons_iff {word next piece tail : List Char} {words : List (List Char)}
    (hword : ∀ c ∈ word, isBlank c = false) (hwords : ∀ w ∈ next :: words, Solid w)
    (hpiece : ∀ c ∈ piece, isBlank c = false) (htail : EndsPiece tail) :
    Stand (word :: next :: words) (piece ++ tail) ↔
      SameLetters piece word ∧ tail ≠ [] ∧ Stand (next :: words) (tail.dropWhile isBlank) := by
  constructor
  · intro h
    generalize htext : piece ++ tail = text at h
    cases h with
    | @more _ _ found blanks rest _ letters ne blank others =>
      obtain ⟨behind, rfl, hbehind⟩ :=
        exists_append_of_append_eq htext.symm (letters.isBlank_eq_false hword) htail
      obtain ⟨b, bs, rfl⟩ := List.exists_cons_of_ne_nil ne
      have hb : isBlank b = true := blank b List.mem_cons_self
      have hnil : behind = [] := by
        cases behind with
        | nil => rfl
        | cons d behind =>
          obtain ⟨rfl, -⟩ := List.cons.inj hbehind
          have hd := hpiece b (by simp)
          rw [hb] at hd
          cases hd
      rw [hnil, List.nil_append] at hbehind
      obtain ⟨c, cs, rfl, hc⟩ := others.exists_cons hwords
      have hdrop : tail.dropWhile isBlank = c :: cs := by
        rw [← hbehind, List.dropWhile_append_of_pos blank,
          List.dropWhile_cons_of_neg (by simp [hc])]
      refine ⟨by rwa [hnil, List.append_nil], ?_, hdrop ▸ others⟩
      rw [← hbehind]
      exact List.cons_ne_nil _ _
  · rintro ⟨letters, ne, others⟩
    obtain ⟨b, bs, rfl⟩ := List.exists_cons_of_ne_nil ne
    have hb : isBlank b = true := htail b rfl
    rw [← List.takeWhile_append_dropWhile (p := isBlank) (l := b :: bs)]
    refine .more letters ?_ (fun c hc => List.mem_takeWhile_imp hc) others
    rw [List.takeWhile_cons_of_pos hb]
    exact List.cons_ne_nil _ _

/-- The same for a word and what stands behind a single space, taken as one token. -/
theorem stand_space_iff {word behind piece tail : List Char}
    (hword : ∀ c ∈ word, isBlank c = false) (hpiece : ∀ c ∈ piece, isBlank c = false)
    (htail : EndsPiece tail) (hbehind : behind ≠ []) :
    Stand [word ++ ' ' :: behind] (piece ++ tail) ↔
      SameLetters piece word ∧ ∃ c rest, tail = c :: rest ∧ c.toLower = ' ' ∧
        Stand [behind] rest := by
  have hlast : (word ++ ' ' :: behind).getLast? = behind.getLast? := by
    obtain ⟨c, cs, rfl⟩ := List.exists_cons_of_ne_nil hbehind
    rw [List.getLast?_append_cons, List.getLast?_cons_cons]
  constructor
  · intro h
    generalize htext : piece ++ tail = text at h
    cases h with
    | @last _ found rest letters edge =>
      rw [SameLetters, List.map_append, List.map_cons] at letters
      obtain ⟨start, more, rfl, hstart, hmore⟩ := List.map_eq_append_iff.1 letters
      obtain ⟨c, others, rfl, hc, hothers⟩ := List.map_eq_cons_iff.1 hmore
      have hblank : isBlank c = true := by
        rw [← isBlank_toLower, hc]
        decide +kernel
      rw [List.append_assoc, List.cons_append] at htext
      obtain ⟨excess, rfl, hexcess⟩ := exists_append_of_append_eq htext.symm
        (SameLetters.isBlank_eq_false hstart hword) htail
      cases excess with
      | nil =>
        rw [List.nil_append] at hexcess
        refine ⟨by rwa [List.append_nil], c, others ++ rest, hexcess.symm, hc, ?_⟩
        exact .last hothers (hlast ▸ edge)
      | cons d excess =>
        obtain ⟨rfl, -⟩ := List.cons.inj hexcess
        have hsolid := hpiece c (by simp)
        rw [hblank] at hsolid
        cases hsolid
  · rintro ⟨letters, c, rest, rfl, hc, h⟩
    cases h with
    | @last _ found rest hfound edge =>
      have htoken : SameLetters (piece ++ c :: found) (word ++ ' ' :: behind) := by
        rw [SameLetters, List.map_append, List.map_append, letters, List.map_cons, List.map_cons,
          hc, hfound]
        rfl
      have hstand : Stand [word ++ ' ' :: behind] ((piece ++ c :: found) ++ rest) :=
        .last htoken (hlast ▸ edge)
      rwa [List.append_assoc, List.cons_append] at hstand

theorem intercalate_ne_nil {word : List Char} {words : List (List Char)} (hword : word ≠ []) :
    List.intercalate [' '] (word :: words) ≠ [] := by
  cases words with
  | nil => simpa using hword
  | cons next words => simp

theorem not_stand_nil {word : List Char} (hword : word ≠ []) : ¬ Stand [word] [] := by
  intro h
  generalize htext : ([] : List Char) = text at h
  cases h with
  | last letters edge => exact letters.ne_nil hword (List.append_eq_nil_iff.1 htext.symm).1

/-- Words stand in a text as the token of them stands in the collapsed text. -/
theorem stand_iff_stand_collapse {words : List (List Char)} (hne : words ≠ [])
    (hwords : ∀ w ∈ words, Solid w) {text : List Char} (htext : ∀ c ∈ text.head?, isBlank c = false) :
    Stand words text ↔ Stand [List.intercalate [' '] words] (collapse text) := by
  induction words generalizing text with
  | nil => exact absurd rfl hne
  | cons word words ih =>
    obtain ⟨hword, hrest⟩ := List.forall_mem_cons.1 hwords
    obtain ⟨piece, tail, rfl, hpiece, htail⟩ := exists_piece text
    have hsplit : piece ≠ [] ∨ tail = [] := by
      cases piece with
      | cons c piece => exact .inl (List.cons_ne_nil _ _)
      | nil =>
        cases tail with
        | nil => exact .inr rfl
        | cons c tail =>
          have hblank := htail c rfl
          rw [htext c rfl] at hblank
          cases hblank
    rw [collapse_append hpiece htail hsplit]
    cases words with
    | nil =>
      rw [List.intercalate_singleton, stand_singleton_iff hword.2 htail,
        stand_singleton_iff hword.2 (endsPiece_collapseRest htail)]
    | cons next words =>
      have hnext := (hrest next List.mem_cons_self).1
      rw [stand_cons_iff hword.2 hrest hpiece htail, List.intercalate_cons_cons, List.append_assoc,
        List.singleton_append, stand_space_iff hword.2 hpiece (endsPiece_collapseRest htail)
          (intercalate_ne_nil hnext)]
      refine and_congr_right fun _ => ?_
      cases tail with
      | nil => simp [collapseRest]
      | cons b tail =>
        have hb : isBlank b = true := htail b rfl
        have hhead : ∀ c ∈ (tail.dropWhile isBlank).head?, isBlank c = false := by
          intro c hc
          have hnot := List.head?_dropWhile_not isBlank tail
          rw [Option.mem_def.1 hc] at hnot
          exact hnot
        rw [List.dropWhile_cons_of_pos hb, ih (List.cons_ne_nil _ _) hrest hhead,
          collapse_dropWhile, collapseRest, if_pos hb]
        by_cases hnil : collapse tail = []
        · rw [if_pos hnil, hnil]
          simp [not_stand_nil (intercalate_ne_nil hnext)]
        · rw [if_neg hnil]
          simp [and_assoc]

theorem head?_intercalate {words : List (List Char)} (hwords : ∀ w ∈ words, w ≠ []) :
    (List.intercalate [' '] words).head? = words.head?.bind List.head? := by
  cases words with
  | nil => rfl
  | cons word words =>
    obtain ⟨c, cs, rfl⟩ := List.exists_cons_of_ne_nil (hwords word List.mem_cons_self)
    cases words with
    | nil => simp
    | cons next words => simp [List.intercalate_cons_cons]

section
variable {words : List (List Char)} (hne : words ≠ []) (hwords : ∀ w ∈ words, Solid w)
include hwords

theorem not_standAfter_of_isBlank {before : Option Char} {c : Char} {text : List Char}
    (hc : isBlank c = true) : ¬ StandAfter words before (c :: text) := by
  rintro ⟨-, h⟩
  obtain ⟨d, rest, heq, hd⟩ := h.exists_cons hwords
  obtain ⟨rfl, -⟩ := List.cons.inj heq
  rw [hc] at hd
  cases hd

include hne

theorem not_token_standAfter_space {before : Option Char} {text : List Char} :
    ¬ StandAfter [List.intercalate [' '] words] before (' ' :: text) := by
  rintro ⟨-, h⟩
  obtain ⟨word, more, rfl⟩ := List.exists_cons_of_ne_nil hne
  have hword := hwords word List.mem_cons_self
  have hhead := head?_intercalate fun w hw => (hwords w hw).1
  generalize htext : ' ' :: text = whole at h
  cases h with
  | @last _ found rest letters edge =>
    obtain ⟨c, cs, rfl⟩ := List.exists_cons_of_ne_nil hword.1
    have htokenNe : List.intercalate [' '] ((c :: cs) :: more) ≠ [] := intercalate_ne_nil hword.1
    obtain ⟨d, ds, htoken⟩ := List.exists_cons_of_ne_nil htokenNe
    rw [htoken] at hhead
    obtain rfl : d = c := by simpa using hhead
    rw [htoken, SameLetters, List.map_cons] at letters
    obtain ⟨e, es, rfl, he, -⟩ := List.map_eq_cons_iff.1 letters
    obtain ⟨rfl, -⟩ := List.cons.inj htext
    have hblank : isBlank d = true := by
      rw [← isBlank_toLower, ← he]
      decide +kernel
    have hsolid := hword.2 d List.mem_cons_self
    rw [hblank] at hsolid
    cases hsolid

/-- Behind characters that the first word could both be cut out with or both not, the words stand
at the next character as their token does in the collapsed text. -/
theorem standAfter_iff_collapse {before before' : Option Char} {c : Char} {text : List Char}
    (hbefore : joinsWord (words.head?.bind List.head?) before =
      joinsWord (words.head?.bind List.head?) before') (hc : isBlank c = false) :
    StandAfter words before (c :: text) ↔
      StandAfter [List.intercalate [' '] words] before' (c :: collapseRest text) := by
  have hhead : ([List.intercalate [' '] words].head?.bind List.head?) =
      words.head?.bind List.head? := head?_intercalate fun w hw => (hwords w hw).1
  rw [StandAfter, StandAfter, hhead, hbefore, ← collapse_of_not_isBlank hc,
    stand_iff_stand_collapse hne hwords (by simpa using hc)]

/-- The words stand somewhere in a text just if their token stands somewhere in the collapsed text.
The first part is for a text that goes on behind a character, the second for one that begins where
no word can be cut. -/
theorem somewhere_iff_collapse (text : List Char) :
    (∀ before before', joinsWord (words.head?.bind List.head?) before =
        joinsWord (words.head?.bind List.head?) before' →
      (Somewhere (StandAfter words) before text ↔
        Somewhere (StandAfter [List.intercalate [' '] words]) before' (collapseRest text))) ∧
    ∀ before before', joinsWord (words.head?.bind List.head?) before = false →
      joinsWord (words.head?.bind List.head?) before' = false →
      (Somewhere (StandAfter words) before text ↔
        Somewhere (StandAfter [List.intercalate [' '] words]) before' (collapse text)) := by
  induction text with
  | nil => exact ⟨fun _ _ _ => .rfl, fun _ _ _ _ => .rfl⟩
  | cons c text ih =>
    obtain ⟨hgoesOn, hbegins⟩ := ih
    cases hc : isBlank c with
    | false =>
      have hstep : ∀ before before', joinsWord (words.head?.bind List.head?) before =
          joinsWord (words.head?.bind List.head?) before' →
          (Somewhere (StandAfter words) before (c :: text) ↔
            Somewhere (StandAfter [List.intercalate [' '] words]) before' (collapse (c :: text))) := by
        intro before before' hbefore
        rw [collapse_of_not_isBlank hc, Somewhere, Somewhere, hgoesOn (some c) (some c) rfl,
          standAfter_iff_collapse hne hwords hbefore hc]
      refine ⟨fun before before' hbefore => ?_, fun before before' h h' =>
        hstep before before' (h.trans h'.symm)⟩
      rw [collapseRest, if_neg (by simp [hc])]
      exact hstep before before' hbefore
    | true =>
      have hblank : joinsWord (words.head?.bind List.head?) (some c) = false :=
        joinsWord_of_isBlank (by simpa using hc)
      have hspace : joinsWord (words.head?.bind List.head?) (some ' ') = false :=
        joinsWord_of_isBlank (by simp; decide +kernel)
      have hskip : ∀ before, Somewhere (StandAfter words) before (c :: text) ↔
          Somewhere (StandAfter words) (some c) text := fun before => by
        rw [Somewhere, or_iff_right (not_standAfter_of_isBlank hwords hc)]
      constructor
      · intro before before' hbefore
        rw [hskip, collapseRest, if_pos hc, hbegins (some c) (some ' ') hblank hspace]
        by_cases hnil : collapse text = []
        · rw [if_pos hnil, hnil]
          exact .rfl
        · rw [if_neg hnil, Somewhere, or_iff_right (not_token_standAfter_space hne hwords)]
      · intro before before' h h'
        rw [hskip, collapse_of_isBlank hc, hbegins (some c) before' hblank h']

end

theorem tokenBegins_iff {token : List Char} {before : Option Char} {text : List Char} :
    tokenBegins (token.map Char.toLower) (before.map Char.toLower) (text.map Char.toLower) = true ↔
      StandAfter [token] before text := by
  have hedges : ∀ found rest : List Char, text = found ++ rest → SameLetters found token →
      ((text.map Char.toLower).drop (token.map Char.toLower).length).head? =
        rest.head?.map Char.toLower := by
    rintro found rest rfl letters
    rw [List.length_map, ← letters.length_eq, List.map_append, List.drop_left' (by simp),
      List.head?_map]
  simp only [tokenBegins, Bool.and_eq_true, Bool.not_eq_true', List.isPrefixOf_iff_prefix,
    List.head?_map, List.getLast?_map, joinsWord_map_toLower]
  constructor
  · rintro ⟨⟨⟨tail, htail⟩, hbefore⟩, hafter⟩
    obtain ⟨found, rest, rfl, letters, -⟩ := List.map_eq_append_iff.1 htail.symm
    rw [hedges found rest rfl letters, joinsWord_map_toLower] at hafter
    exact ⟨hbefore, .last letters hafter⟩
  · rintro ⟨hbefore, h⟩
    cases h with
    | @last _ found rest letters edge =>
      rw [hedges found rest rfl letters, joinsWord_map_toLower]
      refine ⟨⟨?_, hbefore⟩, edge⟩
      rw [List.map_append, letters]
      exact List.prefix_append _ _

theorem tokenOccurs_iff {token : List Char} {before : Option Char} {text : List Char} :
    tokenOccurs (token.map Char.toLower) (before.map Char.toLower) (text.map Char.toLower) = true ↔
      Somewhere (StandAfter [token]) before text := by
  induction text generalizing before with
  | nil => simp [tokenOccurs, Somewhere]
  | cons c text ih =>
    rw [List.map_cons, tokenOccurs, Bool.or_eq_true, Somewhere, ← tokenBegins_iff, List.map_cons]
    exact or_congr_right (@ih (some c))

theorem isAscii_collapse {text : List Char} (h : ∀ c ∈ text, IsAscii c) :
    ∀ c ∈ collapse text, IsAscii c := by
  have hspace : IsAscii ' ' := by
    unfold IsAscii
    decide
  refine forall_mem_intercalate hspace fun piece hpiece c hc => ?_
  obtain ⟨-, -, left, right, rfl, -⟩ := mem_pieces_iff.1 hpiece
  exact h c (by simp [hc])

/-- Query words that are not all plain match an ASCII text just if they stand somewhere in it. -/
theorem matchesWords_iff_somewhere {text : List Char} {words : List (List Char)}
    (htext : ∀ c ∈ text, IsAscii c) (hne : words ≠ []) (hwords : ∀ w ∈ words, Solid w)
    (hascii : ∀ w ∈ words, ∀ c ∈ w, IsAscii c)
    (hpunctuated : ∃ w ∈ words, ∃ c ∈ w, isAlphanumeric c = false) :
    matchesWords text words = true ↔ Somewhere (StandAfter words) none text := by
  have hnot : (words.all fun word => word.all isAlphanumeric) = false := by
    simpa using hpunctuated
  have hspace : IsAscii ' ' := by
    unfold IsAscii
    decide
  have htoken := lower_of_isAscii (forall_mem_intercalate hspace hascii)
  have htokenNe : List.intercalate [' '] words ≠ [] := by
    obtain ⟨word, more, rfl⟩ := List.exists_cons_of_ne_nil hne
    exact intercalate_ne_nil (hwords word List.mem_cons_self).1
  have hnone : joinsWord (words.head?.bind List.head?) none = false := joinsWord_of_isBlank (by simp)
  rw [(somewhere_iff_collapse hne hwords text).2 none none hnone hnone, ← tokenOccurs_iff,
    matchesWords, hnot, if_neg Bool.false_ne_true, containsToken, htoken, ← collapse,
    lower_of_isAscii (isAscii_collapse htext)]
  simp [htokenNe]

theorem not_standAfter_nil {words : List (List Char)} (hwords : ∀ w ∈ words, Solid w)
    (before : Option Char) : ¬ StandAfter words before [] := by
  rintro ⟨-, h⟩
  obtain ⟨c, rest, heq, -⟩ := h.exists_cons hwords
  cases heq

theorem matchesWords_iff_exists_standAfter {text : List Char} {words : List (List Char)}
    (htext : ∀ c ∈ text, IsAscii c) (hne : words ≠ []) (hwords : ∀ w ∈ words, Solid w)
    (hascii : ∀ w ∈ words, ∀ c ∈ w, IsAscii c)
    (hpunctuated : ∃ w ∈ words, ∃ c ∈ w, isAlphanumeric c = false) :
    matchesWords text words = true ↔
      ∃ left right, text = left ++ right ∧ StandAfter words left.getLast? right := by
  rw [matchesWords_iff_somewhere htext hne hwords hascii hpunctuated,
    somewhere_iff (not_standAfter_nil hwords)]
  simp only [Option.or_none]

end TextQuery.Text
