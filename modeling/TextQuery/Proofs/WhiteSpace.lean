import Mathlib.Data.List.TakeWhile
import TextQuery.Proofs.AlikeLexemes
import TextQuery.Proofs.Composition

/-!
# White space only separates

Two texts with the same pieces between their white space have the same outcome. The texts are
followed side by side: over a run of white space in each of them, or over the same character.
-/
namespace TextQuery

/-- The same text with other white space: runs for runs, and at the end any for any. -/
inductive Respaced : List Char → List Char → Prop where
  | ends {a b : List Char} (ha : ∀ c ∈ a, Text.isBlank c = true)
      (hb : ∀ c ∈ b, Text.isBlank c = true) : Respaced a b
  | visible {c : Char} {s t : List Char} (hc : Text.isBlank c = false) (tail : Respaced s t) :
      Respaced (c :: s) (c :: t)
  | run {a b s t : List Char} (ha : ∀ c ∈ a, Text.isBlank c = true)
      (hb : ∀ c ∈ b, Text.isBlank c = true) (hane : a ≠ []) (hbne : b ≠ []) (tail : Respaced s t) :
      Respaced (a ++ s) (b ++ t)

namespace Respaced
open Text

variable {s t : List Char} {c : Char}

theorem nil : Respaced [] [] :=
  .ends (by simp) (by simp)

theorem append_left {piece : List Char} (hpiece : ∀ c ∈ piece, isBlank c = false)
    (h : Respaced s t) : Respaced (piece ++ s) (piece ++ t) := by
  induction piece with
  | nil => exact h
  | cons c piece ih =>
    obtain ⟨hc, hpiece⟩ := List.forall_mem_cons.1 hpiece
    exact .visible hc (ih hpiece)

theorem blankSeparated_append_eq (h : Respaced s t) (text : List Char) :
    blankSeparated (text ++ s) = blankSeparated (text ++ t) := by
  induction h generalizing text with
  | ends ha hb =>
    exact (pieces_append_of_forall_cut ha text).trans (pieces_append_of_forall_cut hb text).symm
  | @visible c s t hc tail ih =>
    have htext := ih (text ++ [c])
    rwa [List.append_assoc, List.append_assoc] at htext
  | run ha hb hane hbne tail ih =>
    have htail := ih []
    rw [blankSeparated, blankSeparated, pieces_append_run hane ha, pieces_append_run hbne hb]
    exact congrArg _ htail

/-- White space in front of a text has to be there if the text behind it is not to touch. -/
theorem of_trimStart (hs : ∀ c ∈ s.head?, isBlank c = true) (ht : ∀ c ∈ t.head?, isBlank c = true)
    (hsne : s ≠ []) (htne : t ≠ []) (h : Respaced (trimStart s) (trimStart t)) : Respaced s t := by
  have hblanks : ∀ {u : List Char}, ∀ c ∈ u.takeWhile isBlank, isBlank c = true :=
    List.all_eq_true.1 List.all_takeWhile
  have hne : ∀ {u : List Char}, (∀ c ∈ u.head?, isBlank c = true) → u ≠ [] →
      u.takeWhile isBlank ≠ [] := by
    intro u hu hune
    obtain ⟨c, u, rfl⟩ := List.exists_cons_of_ne_nil hune
    simp [hu c rfl]
  have hrun := Respaced.run hblanks hblanks (hne hs hsne) (hne ht htne) h
  rwa [trimStart, trimStart, List.takeWhile_append_dropWhile, List.takeWhile_append_dropWhile]
    at hrun

/-- Texts with the same pieces are spaced anew. By induction on the pieces, each of which stands
behind white space unless it begins the text. -/
theorem of_blankSeparated_eq (h : blankSeparated s = blankSeparated t) :
    Respaced (trimStart s) (trimStart t) := by
  generalize hpieces : blankSeparated t = pieces at h
  induction pieces generalizing s t with
  | nil =>
    have htrim : ∀ {u : List Char}, blankSeparated u = [] → trimStart u = [] := fun hu =>
      List.dropWhile_eq_nil_iff.2 (pieces_eq_nil_iff.1 hu)
    rw [htrim h, htrim hpieces]
    exact nil
  | cons piece pieces ih =>
    obtain ⟨hne, hpiece⟩ := ne_nil_and_isCut_of_mem_pieces (h ▸ List.mem_cons_self)
    have htrim : ∀ {run rest : List Char}, (∀ c ∈ run, isBlank c = true) →
        trimStart (run ++ (piece ++ rest)) = piece ++ rest := by
      intro run rest hrun
      obtain ⟨c, piece, rfl⟩ := List.exists_cons_of_ne_nil hne
      rw [trimStart, List.dropWhile_append_of_pos hrun, List.cons_append,
        List.dropWhile_cons_of_neg (by simp [hpiece c List.mem_cons_self])]
    obtain ⟨run, s, rfl, hrun, hs, hspieces⟩ := exists_of_pieces_eq_cons h
    obtain ⟨run', t, rfl, hrun', ht, htpieces⟩ := exists_of_pieces_eq_cons hpieces
    rw [htrim hrun, htrim hrun']
    apply append_left hpiece
    by_cases hend : pieces = []
    · exact .ends (pieces_eq_nil_iff.1 (hspieces.trans hend))
        (pieces_eq_nil_iff.1 (htpieces.trans hend))
    · have hsne : s ≠ [] := by
        rintro rfl
        exact hend hspieces.symm
      have htne : t ≠ [] := by
        rintro rfl
        exact hend htpieces.symm
      exact of_trimStart hs ht hsne htne (ih htpieces hspieces)

/-- Texts have the same pieces exactly if they differ in their white space only. -/
theorem blankSeparated_eq_iff :
    blankSeparated s = blankSeparated t ↔ Respaced (trimStart s) (trimStart t) := by
  refine ⟨of_blankSeparated_eq, fun h => ?_⟩
  have hpieces := h.blankSeparated_append_eq []
  exact (pieces_dropWhile s).symm.trans (hpieces.trans (pieces_dropWhile t))

/-- A character that is not white space stands in both texts. -/
theorem of_cons (hc : isBlank c = false) (h : Respaced (c :: s) t) :
    ∃ t', t = c :: t' ∧ Respaced s t' := by
  generalize hs : c :: s = s' at h
  cases h with
  | ends ha hb =>
    subst hs
    simp [hc] at ha
  | @visible _ _ t' hd tail =>
    cases hs
    exact ⟨t', rfl, tail⟩
  | run ha hb hane hbne tail =>
    obtain ⟨d, a, rfl⟩ := List.exists_cons_of_ne_nil hane
    cases hs
    simp [hc] at ha

theorem symm (h : Respaced s t) : Respaced t s := by
  induction h with
  | ends ha hb => exact .ends hb ha
  | visible hc tail ih => exact .visible hc ih
  | run ha hb hane hbne tail ih => exact .run hb ha hbne hane ih

theorem head?_eq_iff (hc : isBlank c = false) (h : Respaced s t) :
    s.head? = some c ↔ t.head? = some c := by
  constructor <;> intro hhead
  · obtain ⟨s, rfl⟩ := List.head?_eq_some_iff.1 hhead
    obtain ⟨t, rfl, -⟩ := h.of_cons hc
    rfl
  · obtain ⟨t, rfl⟩ := List.head?_eq_some_iff.1 hhead
    obtain ⟨s, rfl, -⟩ := h.symm.of_cons hc
    rfl

/-- What is read up to white space, at the latest, is read in both texts. -/
theorem takeWhile_eq {p : Char → Bool} (hp : ∀ c, isBlank c = true → p c = false)
    (h : Respaced s t) :
    s.takeWhile p = t.takeWhile p ∧ Respaced (s.dropWhile p) (t.dropWhile p) := by
  have hstop : ∀ {u : List Char}, (∀ c ∈ u.head?, isBlank c = true) →
      u.takeWhile p = [] ∧ u.dropWhile p = u := by
    intro u hu
    cases u with
    | nil => simp
    | cons c u => simp [hp c (hu c rfl)]
  induction h with
  | @ends a b ha hb =>
    obtain ⟨htake, hdrop⟩ := hstop fun c hc => ha c (List.mem_of_mem_head? hc)
    obtain ⟨htake', hdrop'⟩ := hstop fun c hc => hb c (List.mem_of_mem_head? hc)
    rw [htake, htake', hdrop, hdrop']
    exact ⟨rfl, .ends ha hb⟩
  | @visible c s t hc tail ih =>
    cases hpc : p c with
    | true => simpa [hpc] using ih
    | false => simpa [hpc] using visible hc tail
  | @run a b s t ha hb hane hbne tail ih =>
    obtain ⟨htake, hdrop⟩ := @hstop (a ++ s) fun c hc =>
      ha c (List.mem_of_mem_head? (List.head?_append_of_ne_nil a hane ▸ hc))
    obtain ⟨htake', hdrop'⟩ := @hstop (b ++ t) fun c hc =>
      hb c (List.mem_of_mem_head? (List.head?_append_of_ne_nil b hbne ▸ hc))
    rw [htake, htake', hdrop, hdrop']
    exact ⟨rfl, .run ha hb hane hbne tail⟩

/-- The same word is read, and the same characters are taken for it. -/
theorem readWord (c : Char) (h : Respaced s t) :
    (readWord c s).1 = (readWord c t).1 ∧
      Respaced ((c :: s).drop (readWord c s).2) ((c :: t).drop (readWord c t).2) := by
  have hcontinues : ∀ c, isBlank c = true → continuesWord c = false := by
    intro c hc
    simp [continuesWord, isQueryChar, hc]
  obtain ⟨htake, hrest⟩ := h.takeWhile_eq hcontinues
  have hs := List.takeWhile_append_dropWhile (p := continuesWord) (l := s)
  have ht := List.takeWhile_append_dropWhile (p := continuesWord) (l := t)
  have hcolon := hrest.head?_eq_iff (c := ':') (by decide)
  have hread : ∀ u, TextQuery.readWord c u =
      if (u.dropWhile continuesWord).head? = some ':' then
        (.field (String.ofList (c :: u.takeWhile continuesWord)),
          (u.takeWhile continuesWord).length + 2)
      else (bareToken (c :: u.takeWhile continuesWord), (u.takeWhile continuesWord).length + 1) :=
    fun _ => rfl
  rw [hread, hread, htake]
  rw [htake] at hs
  generalize t.takeWhile continuesWord = word at hs ht ⊢
  generalize s.dropWhile continuesWord = rest at hs hrest hcolon ⊢
  generalize t.dropWhile continuesWord = rest' at ht hrest hcolon ⊢
  subst hs ht
  by_cases hcolon' : rest'.head? = some ':'
  · rw [if_pos hcolon', if_pos (hcolon.2 hcolon')]
    obtain ⟨t, rfl⟩ := List.head?_eq_some_iff.1 hcolon'
    obtain ⟨s, rfl⟩ := List.head?_eq_some_iff.1 (hcolon.2 hcolon')
    obtain ⟨_, heq, hbehind⟩ := hrest.of_cons (by decide)
    cases heq
    simpa using hbehind
  · rw [if_neg hcolon', if_neg (mt hcolon.1 hcolon')]
    simpa using hrest

end Respaced

/-- The reading of a text that begins with `width` more characters, which spell `front`. -/
def PhraseReading.behind (width : Nat) (front : List Char) : PhraseReading → PhraseReading
  | closed text w => closed (front ++ text) (width + w)
  | unterminated => unterminated
  | invalid c offset => invalid c (width + offset)

/-- Two readings with the same outcome, and with the same text behind the closing quotes but for
the white space. -/
inductive PhraseReading.Alike (s t : List Char) : PhraseReading → PhraseReading → Prop where
  | closed {u v : List Char} {w w' : Nat} (text : Respaced u v)
      (rest : Respaced (s.drop w) (t.drop w')) : Alike s t (.closed u w) (.closed v w')
  | unterminated : Alike s t .unterminated .unterminated
  | invalid {c : Char} {offset offset' : Nat} :
      Alike s t (.invalid c offset) (.invalid c offset')

namespace PhraseReading

variable {s t : List Char} {r r' : PhraseReading}

theorem after_eq_behind (width : Nat) (c : Char) (r : PhraseReading) :
    r.after width c = r.behind width [c] := by
  cases r <;> rfl

theorem behind_behind (width width' : Nat) (front front' : List Char) (r : PhraseReading) :
    (r.behind width' front').behind width front = r.behind (width + width') (front ++ front') := by
  cases r <;> simp [behind, Nat.add_assoc]

theorem readPhrase_blanks {blanks : List Char} (h : ∀ c ∈ blanks, Text.isBlank c = true)
    (text : List Char) :
    readPhrase (blanks ++ text) = (readPhrase text).behind blanks.length blanks := by
  induction blanks with
  | nil => cases hread : readPhrase text <;> simp [behind, hread]
  | cons c blanks ih =>
    obtain ⟨hc, hblanks⟩ := List.forall_mem_cons.1 h
    have hquote : c ≠ '"' := by
      rintro rfl
      revert hc
      decide
    have hslash : c ≠ '\\' := by
      rintro rfl
      revert hc
      decide
    rw [List.cons_append, readPhrase_cons hquote hslash fun _ => hc, ih hblanks,
      after_eq_behind, behind_behind, List.length_cons, Nat.add_comm]
    rfl

theorem readPhrase_escape (c : Char) (rest : List Char) :
    readPhrase ('\\' :: c :: rest) = (readPhrase rest).behind 2 [c] := by
  rw [readPhrase_escaped, after_eq_behind]

theorem readPhrase_escaped_run {run : List Char} (hne : run ≠ [])
    (h : ∀ c ∈ run, Text.isBlank c = true) (rest : List Char) :
    readPhrase ('\\' :: (run ++ rest)) = (readPhrase rest).behind ('\\' :: run).length run := by
  obtain ⟨c, run, rfl⟩ := List.exists_cons_of_ne_nil hne
  rw [List.cons_append, readPhrase_escape, readPhrase_blanks (List.forall_mem_cons.1 h).2,
    behind_behind, List.length_cons, List.length_cons, Nat.add_comm 2]
  rfl

theorem readPhrase_of_forall_isBlank {blanks : List Char}
    (h : ∀ c ∈ blanks, Text.isBlank c = true) :
    readPhrase blanks = .unterminated ∧ readPhrase ('\\' :: blanks) = .unterminated := by
  have hread := readPhrase_blanks h []
  rw [List.append_nil] at hread
  refine ⟨hread, ?_⟩
  by_cases hne : blanks = []
  · subst hne
    rfl
  · have hescaped := readPhrase_escaped_run hne h []
    rwa [List.append_nil] at hescaped

theorem Alike.behind (h : Alike s t r r') (front front' : List Char) {text text' : List Char}
    (htext : ∀ {u v}, Respaced u v → Respaced (text ++ u) (text' ++ v)) :
    Alike (front ++ s) (front' ++ t) (r.behind front.length text)
      (r'.behind front'.length text') := by
  cases h with
  | closed text rest => exact .closed (htext text) (by simpa using rest)
  | unterminated => exact .unterminated
  | invalid => exact .invalid

/-- Phrases are read alike, and also if their first character is escaped. Behind a backslash the
tail alone does not tell the reading, hence the second part. -/
theorem alike_readPhrase (h : Respaced s t) : Alike s t (readPhrase s) (readPhrase t) ∧
    Alike ('\\' :: s) ('\\' :: t) (readPhrase ('\\' :: s)) (readPhrase ('\\' :: t)) := by
  induction h with
  | ends ha hb =>
    obtain ⟨hplain, hescaped⟩ := readPhrase_of_forall_isBlank ha
    obtain ⟨hplain', hescaped'⟩ := readPhrase_of_forall_isBlank hb
    rw [hplain, hplain', hescaped, hescaped']
    exact ⟨.unterminated, .unterminated⟩
  | @visible c s t hc tail ih =>
    obtain ⟨hplain, hescaped⟩ := ih
    constructor
    · by_cases hquote : c = '"'
      · subst hquote
        rw [readPhrase_quote, readPhrase_quote]
        exact .closed .nil tail
      by_cases hslash : c = '\\'
      · subst hslash
        exact hescaped
      by_cases hcontrol : Text.isControl c = true
      · have hinvalid : (Text.isControl c && !Text.isBlank c) = true := by simp [hcontrol, hc]
        rw [readPhrase_cons_invalid hquote hslash hinvalid,
          readPhrase_cons_invalid hquote hslash hinvalid]
        exact .invalid
      · have hvalid : Text.isControl c = true → Text.isBlank c = true := fun h => absurd h hcontrol
        rw [readPhrase_cons hquote hslash hvalid, readPhrase_cons hquote hslash hvalid,
          after_eq_behind, after_eq_behind]
        exact hplain.behind [c] [c] (.visible hc)
    · rw [readPhrase_escape, readPhrase_escape]
      exact hplain.behind ['\\', c] ['\\', c] (.visible hc)
  | @run a b s t ha hb hane hbne tail ih =>
    obtain ⟨hplain, -⟩ := ih
    constructor
    · rw [readPhrase_blanks ha, readPhrase_blanks hb]
      exact hplain.behind a b (.run ha hb hane hbne)
    · rw [readPhrase_escaped_run hane ha, readPhrase_escaped_run hbne hb]
      exact hplain.behind ('\\' :: a) ('\\' :: b) (.run ha hb hane hbne)

end PhraseReading

namespace Scanner

/-- Steps that find tokens which are alike, with the same text left but for the white space, or
that fail for the same cause. -/
inductive StepsAlike : Except (Fault ScanCause) Lexeme × Scanner →
    Except (Fault ScanCause) Lexeme × Scanner → Prop where
  | ok {l m : Lexeme} {s' t' : Scanner} (token : l.token.Alike m.token)
      (rest : Respaced s'.remaining t'.remaining) : StepsAlike (.ok l, s') (.ok m, t')
  | error {fault fault' : Fault ScanCause} {s' t' : Scanner} (cause : fault.cause = fault'.cause) :
      StepsAlike (.error fault, s') (.error fault', t')

/-- Two scans with lexemes that are alike, or that fail for the same cause. -/
inductive ScansAlike : Except (Fault ScanCause) (List Lexeme) →
    Except (Fault ScanCause) (List Lexeme) → Prop where
  | ok {as bs : List Lexeme} (h : Alike as bs) : ScansAlike (.ok as) (.ok bs)
  | error {fault fault' : Fault ScanCause} (cause : fault.cause = fault'.cause) :
      ScansAlike (.error fault) (.error fault')

variable {s t : List Char} {p q : Nat}

theorem stepsAlike_nextHere (h : Respaced s t) (c : Char) :
    StepsAlike (Scanner.mk p (c :: s)).nextHere (Scanner.mk q (c :: t)).nextHere := by
  rw [nextHere_cons, nextHere_cons]
  cases hmark : mark? c with
  | some token => exact .ok (.refl token) h
  | none =>
    dsimp only
    split
    · obtain ⟨hread, -⟩ := PhraseReading.alike_readPhrase h
      generalize readPhrase s = r at hread ⊢
      generalize readPhrase t = r' at hread ⊢
      cases hread with
      | @closed u v w w' text rest =>
        have hpieces : Text.blankSeparated u = Text.blankSeparated v :=
          text.blankSeparated_append_eq []
        exact .ok (.phrase (by simpa using hpieces)) rest
      | unterminated => exact .error rfl
      | invalid => exact .error rfl
    · split
      · exact .error rfl
      · obtain ⟨htoken, hrest⟩ := h.readWord c
        exact .ok (htoken ▸ .refl _) hrest

theorem tokens_of_forall_isBlank (position : Nat) {blanks : List Char}
    (h : ∀ c ∈ blanks, Text.isBlank c = true) :
    (Scanner.mk position blanks).tokens = .ok [⟨.finish, position + blanks.length⟩] := by
  have htokens : (Scanner.mk position (blanks ++ [])).tokens = _ := tokens_blanks position h
  rwa [List.append_nil, tokens_nil] at htokens

/-- What comes first begins right here in both texts or in neither, unless it is the end. -/
theorem position_eq_iff_of_respaced (h : Respaced s t) {as bs : List Lexeme}
    (has : (Scanner.mk p s).tokens = .ok as) (hbs : (Scanner.mk q t).tokens = .ok bs) :
    ∀ l ∈ as.head?, ∀ m ∈ bs.head?, l.token ≠ .finish → (l.position = p ↔ m.position = q) := by
  intro l hl m hm hfinish
  cases h with
  | ends ha hb =>
    rw [tokens_of_forall_isBlank p ha] at has
    cases has
    cases hl
    exact absurd rfl hfinish
  | visible hc tail =>
    exact iff_of_true (position_of_tokens hc has l hl) (position_of_tokens hc hbs m hm)
  | @run a b s t ha hb hane hbne tail =>
    have hbehind : ∀ {position : Nat} {blanks rest : List Char} {lexemes : List Lexeme},
        (∀ c ∈ blanks, Text.isBlank c = true) → blanks ≠ [] →
        (Scanner.mk position (blanks ++ rest)).tokens = .ok lexemes →
        ∀ l ∈ lexemes.head?, l.position ≠ position := by
      intro position blanks rest lexemes hblanks hne htokens l hl
      rw [tokens_blanks position hblanks] at htokens
      have hle := (laidOut_tokens htokens).position_le l (List.mem_of_mem_head? hl)
      have hlength := List.length_pos_iff.2 hne
      simp only at hle
      omega
    exact iff_of_false (hbehind ha hane has l hl) (hbehind hb hbne hbs m hm)

/-- What a step finds is followed right behind it exactly if a prefix meets what follows. -/
theorem meets_iff_of_nextHere {c : Char} (hc : Text.isBlank c = false) {l : Lexeme} {s' : Scanner}
    (h : (Scanner.mk p (c :: s)).nextHere = (.ok l, s')) (b : Lexeme) :
    l.token ≠ .finish ∧
      (l.Meets b ↔ l.token.prefixWidth?.isSome = true ∧ b.position = s'.position) := by
  have hblank : ∀ d ∈ (c :: s).head?, Text.isBlank d = false := by
    rintro d ⟨⟩
    exact hc
  obtain ⟨hnil, -⟩ | ⟨spelling, htakes, hspelled, -⟩ := takes_of_nextHere hblank h
  · cases hnil
  have hlength : ∀ width, l.token.prefixWidth? = some width → spelling.length = width := by
    intro width hwidth
    generalize l.token = token at hspelled hwidth
    cases hspelled with
    | exclude | require | field => simpa [Token.prefixWidth?, String.length_toList] using hwidth
    | _ => cases hwidth
  refine ⟨hspelled.ne_finish, ?_⟩
  rw [htakes.position, Lexeme.Meets, position_of_nextHere h, Option.isSome_iff_exists]
  constructor
  · rintro ⟨width, hwidth, hposition⟩
    exact ⟨⟨width, hwidth⟩, hlength width hwidth ▸ hposition⟩
  · rintro ⟨⟨width, hwidth⟩, hposition⟩
    exact ⟨width, hwidth, hlength width hwidth ▸ hposition⟩

/-- Texts that are spaced anew are scanned alike. By induction on the length of the first text: by a
run of white space, or by one token. -/
theorem scansAlike_tokens (h : Respaced s t) :
    ScansAlike (Scanner.mk p s).tokens (Scanner.mk q t).tokens := by
  induction hn : s.length using Nat.strong_induction_on generalizing s t p q with
  | _ n ih =>
  subst hn
  cases h with
  | ends ha hb =>
    rw [tokens_of_forall_isBlank p ha, tokens_of_forall_isBlank q hb]
    exact .ok (.cons (.refl .finish) (by simp) .nil)
  | @run a b s t ha hb hane hbne tail =>
    rw [tokens_blanks p ha, tokens_blanks q hb]
    have hlength := List.length_pos_iff.2 hane
    exact ih s.length (by simpa using hlength) tail rfl
  | @visible c s t hc tail =>
    have hstep := @stepsAlike_nextHere s t p q tail c
    generalize hs : (Scanner.mk p (c :: s)).nextHere = step at hstep
    generalize ht : (Scanner.mk q (c :: t)).nextHere = step' at hstep
    cases hstep with
    | error cause =>
      rw [tokens_of_next_error ((next_of_not_isBlank hc).trans hs),
        tokens_of_next_error ((next_of_not_isBlank hc).trans ht)]
      exact .error cause
    | @ok l m s' t' token rest =>
      have hl := meets_iff_of_nextHere hc hs
      have hm := meets_iff_of_nextHere hc ht
      rw [tokens_of_nextHere hc hs (hl l).1, tokens_of_nextHere hc ht (hm m).1]
      have hshorter := length_nextHere_lt hs (hl l).1
      have hbegins := fun as bs => @position_eq_iff_of_respaced _ _ s'.position t'.position rest as bs
      have hscans := @ih _ hshorter _ _ s'.position t'.position rest rfl
      generalize (Scanner.mk s'.position s'.remaining).tokens = scan at hscans hbegins ⊢
      generalize (Scanner.mk t'.position t'.remaining).tokens = scan' at hscans hbegins ⊢
      cases hscans with
      | error cause => exact .error cause
      | @ok as bs h =>
        refine .ok (.cons token (fun a ha b hb hfinish => ?_) h)
        rw [(hl a).2, (hm b).2, token.prefixWidth?_eq,
          hbegins as bs rfl rfl a ha b hb hfinish]

end Scanner

/-- The kind of an error with all that it tells, but for its place and the text. -/
def CompileError.cause : CompileError → ScanCause ⊕ GrammarCause
  | scan e => .inl e.cause
  | grammar e => .inr e.cause

theorem exists_tokenize_eq (text : String) : ∃ position,
    tokenize text =
      (Scanner.mk position (Text.trimStart text.toList)).tokens.mapError (·.inText text) := by
  have hblanks : ∀ c ∈ text.toList.takeWhile Text.isBlank, Text.isBlank c = true :=
    List.all_eq_true.1 List.all_takeWhile
  refine ⟨0 + (text.toList.takeWhile Text.isBlank).length, ?_⟩
  rw [Text.trimStart, ← Scanner.tokens_blanks 0 hblanks, List.takeWhile_append_dropWhile]
  rfl

/-- Texts with the same pieces between their white space, so that one of them is the other with
runs of white space for runs of white space and anything of it at the two ends, compile to the same
query, or they fail with the same error but for its place and the text that it quotes. -/
theorem compile_eq_of_same_pieces {text text' : String}
    (h : Text.blankSeparated text.toList = Text.blankSeparated text'.toList) :
    (compile text).mapError CompileError.cause = (compile text').mapError CompileError.cause := by
  obtain ⟨p, htext⟩ := exists_tokenize_eq text
  obtain ⟨q, htext'⟩ := exists_tokenize_eq text'
  have hscans := @Scanner.scansAlike_tokens _ _ p q (Respaced.blankSeparated_eq_iff.1 h)
  generalize (Scanner.mk p (Text.trimStart text.toList)).tokens = scan at htext hscans
  generalize (Scanner.mk q (Text.trimStart text'.toList)).tokens = scan' at htext' hscans
  simp only [compile, Session.start, htext, htext']
  cases hscans with
  | error cause => exact congrArg (Except.error ∘ Sum.inl) cause
  | @ok as bs halike =>
    have hread := Session.cause_read_eq (s := ⟨text, as, maxNesting⟩)
      (t := ⟨text', bs, maxNesting⟩) halike rfl
    have hcause : ∀ outcome : Except GrammarError Query,
        (outcome.mapError CompileError.grammar).mapError CompileError.cause =
          (outcome.mapError (·.cause)).mapError Sum.inr := by
      intro outcome
      cases outcome <;> rfl
    exact (hcause _).trans ((congrArg _ hread).trans (hcause _).symm)

theorem compile_eq_of_same_pieces_escaped :
    Text.blankSeparated "a \"b\\ c\" -x".toList =
        Text.blankSeparated "\u00A0a\t\n\"b\\\u0085\u3000c\" -x ".toList ∧
      compile "a \"b\\ c\" -x" = .ok (.all [.any [.term "a", .phrase ["b", "c"]],
        .exclude (.term "x")]) ∧
      (compile "\u00A0a\t\n\"b\\\u0085\u3000c\" -x ").mapError CompileError.cause =
        .ok (.all [.any [.term "a", .phrase ["b", "c"]], .exclude (.term "x")]) ∧
      Text.blankSeparated "(a - b".toList = Text.blankSeparated " (a\n-  b ".toList ∧
      (compile " (a\n-  b ").mapError CompileError.cause =
        .error (.inr (.missingOperand .exclude)) := by
  have hpieces : Text.blankSeparated "a \"b\\ c\" -x".toList =
      Text.blankSeparated "\u00A0a\t\n\"b\\\u0085\u3000c\" -x ".toList := by decide +kernel
  have hpieces' : Text.blankSeparated "(a - b".toList =
      Text.blankSeparated " (a\n-  b ".toList := by decide +kernel
  have hcompile : compile "a \"b\\ c\" -x" = .ok (.all [.any [.term "a", .phrase ["b", "c"]],
      .exclude (.term "x")]) := by decide +kernel
  have hfails : (compile "(a - b").mapError CompileError.cause =
      .error (.inr (.missingOperand .exclude)) := by decide +kernel
  refine ⟨hpieces, hcompile, ?_, hpieces', ?_⟩
  · rw [← compile_eq_of_same_pieces hpieces, hcompile]
    rfl
  · rw [← compile_eq_of_same_pieces hpieces', hfails]

end TextQuery
