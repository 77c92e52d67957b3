import TextQuery.Text.Blank

/-!
# Cutting text into pieces

The pieces of a text between the characters that cut it, read off the front of the text, and the
words of a text that was put together from words; and a text without the white space at its ends.
-/
namespace TextQuery.Text

variable {isCut : Char → Bool}

theorem pieces_cons_of_cut {c : Char} (h : isCut c = true) (text : List Char) :
    pieces isCut (c :: text) = pieces isCut text := by
  rw [pieces, List.splitOnP_cons_eq_if_modifyHead, if_pos h]
  rfl

theorem pieces_append_cons_of_cut {c : Char} (hc : isCut c = true) (text rest : List Char) :
    pieces isCut (text ++ c :: rest) = pieces isCut text ++ pieces isCut rest := by
  rw [pieces, List.splitOnP_append_cons text rest hc, List.filter_append]
  rfl

/-- A run of characters that cut is as good as one of them. -/
theorem pieces_append_run {run : List Char} (hne : run ≠ []) (h : ∀ c ∈ run, isCut c = true)
    (text rest : List Char) :
    pieces isCut (text ++ (run ++ rest)) = pieces isCut text ++ pieces isCut rest := by
  obtain ⟨c, run, rfl⟩ := List.exists_cons_of_ne_nil hne
  obtain ⟨hc, hrun⟩ := List.forall_mem_cons.1 h
  have hrest : pieces isCut (run ++ rest) = pieces isCut rest := by
    clear hne h
    induction run with
    | nil => rfl
    | cons d run ih =>
      obtain ⟨hd, hrun⟩ := List.forall_mem_cons.1 hrun
      rw [List.cons_append, pieces_cons_of_cut hd, ih hrun]
  rw [List.cons_append, pieces_append_cons_of_cut hc, hrest]

theorem pieces_append_of_forall_cut {cuts : List Char} (h : ∀ c ∈ cuts, isCut c = true)
    (text : List Char) : pieces isCut (text ++ cuts) = pieces isCut text := by
  by_cases hne : cuts = []
  · rw [hne, List.append_nil]
  · have hrun := pieces_append_run hne h text []
    rwa [List.append_nil, pieces_nil, List.append_nil] at hrun

/-- Texts are cut one by one if the first ends, or the second begins, with a character that cuts. -/
theorem pieces_append_of_cut {before after : List Char}
    (h : (∀ c ∈ before.getLast?, isCut c = true) ∨ ∀ c ∈ after.head?, isCut c = true) :
    pieces isCut (before ++ after) = pieces isCut before ++ pieces isCut after := by
  rcases h with hbefore | hafter
  · rcases List.eq_nil_or_concat before with rfl | ⟨start, c, rfl⟩
    · rfl
    · have hc : isCut c = true := hbefore c (by simp)
      rw [List.concat_eq_append, List.append_assoc, List.singleton_append,
        pieces_append_cons_of_cut hc, pieces_append_cons_of_cut hc, pieces_nil, List.append_nil]
  · cases after with
    | nil => rw [List.append_nil, pieces_nil, List.append_nil]
    | cons c after =>
      have hc : isCut c = true := hafter c rfl
      rw [pieces_append_cons_of_cut hc, pieces_cons_of_cut hc]

theorem pieces_dropWhile (text : List Char) :
    pieces isCut (text.dropWhile isCut) = pieces isCut text := by
  induction text with
  | nil => rfl
  | cons c text ih =>
    cases hc : isCut c with
    | true => rw [List.dropWhile_cons_of_pos hc, ih, pieces_cons_of_cut hc]
    | false => rw [List.dropWhile_cons_of_neg (by simp [hc])]

theorem pieces_eq_singleton {piece : List Char} (hne : piece ≠ [])
    (h : ∀ c ∈ piece, isCut c = false) : pieces isCut piece = [piece] := by
  rw [pieces, List.splitOnP_eq_singleton h]
  simp [hne]

/-- A piece goes up to the next character that cuts. -/
theorem pieces_append_of_head {piece : List Char} (hne : piece ≠ [])
    (h : ∀ c ∈ piece, isCut c = false) {rest : List Char}
    (hrest : ∀ c ∈ rest.head?, isCut c = true) :
    pieces isCut (piece ++ rest) = piece :: pieces isCut rest := by
  rw [pieces_append_of_cut (.inr hrest), pieces_eq_singleton hne h, List.singleton_append]

theorem pieces_append_cut {piece : List Char} (hne : piece ≠ [])
    (h : ∀ c ∈ piece, isCut c = false) {c : Char} (hc : isCut c = true) (text : List Char) :
    pieces isCut (piece ++ c :: text) = piece :: pieces isCut text := by
  rw [pieces_append_of_head hne h (by simpa using hc), pieces_cons_of_cut hc]

/-- A character that does not cut begins a piece. -/
theorem exists_piece_of_cons {c : Char} (hc : isCut c = false) (text : List Char) :
    ∃ piece rest, c :: text = piece ++ rest ∧ piece ≠ [] ∧ (∀ d ∈ piece, isCut d = false) ∧
      ∀ d ∈ rest.head?, isCut d = true := by
  refine ⟨(c :: text).takeWhile fun d => !isCut d, (c :: text).dropWhile fun d => !isCut d,
    List.takeWhile_append_dropWhile.symm, by simp [hc], ?_, ?_⟩
  · simpa using List.all_eq_true.1 (@List.all_takeWhile _ (fun d => !isCut d) (c :: text))
  · intro d hd
    have hhead := List.head?_dropWhile_not (fun d => !isCut d) (c :: text)
    rw [hd] at hhead
    simpa using hhead

theorem pieces_eq_nil_iff {text : List Char} :
    pieces isCut text = [] ↔ ∀ c ∈ text, isCut c = true := by
  induction text with
  | nil => simp
  | cons c text ih =>
    cases hc : isCut c with
    | true => simp [pieces_cons_of_cut hc, ih, hc]
    | false =>
      obtain ⟨piece, rest, hsplit, hne, hpiece, hrest⟩ := exists_piece_of_cons hc text
      rw [hsplit, pieces_append_of_head hne hpiece hrest, ← hsplit]
      simp [hc]

/-- The first piece stands behind characters that cut, and it goes up to the next one of them. -/
theorem exists_of_pieces_eq_cons {text piece : List Char} {more : List (List Char)}
    (h : pieces isCut text = piece :: more) :
    ∃ run rest, text = run ++ (piece ++ rest) ∧ (∀ c ∈ run, isCut c = true) ∧
      (∀ c ∈ rest.head?, isCut c = true) ∧ pieces isCut rest = more := by
  induction text with
  | nil => cases h
  | cons c text ih =>
    cases hc : isCut c with
    | true =>
      rw [pieces_cons_of_cut hc] at h
      obtain ⟨run, rest, rfl, hrun, hrest⟩ := ih h
      exact ⟨c :: run, rest, rfl, List.forall_mem_cons.2 ⟨hc, hrun⟩, hrest⟩
    | false =>
      obtain ⟨first, rest, hsplit, hne, hfirst, hrest⟩ := exists_piece_of_cons hc text
      rw [hsplit, pieces_append_of_head hne hfirst hrest] at h
      cases h
      exact ⟨[], rest, hsplit, by simp, hrest, rfl⟩

/-- Words with one blank between them are cut into these words again. -/
theorem pieces_intercalate {c : Char} (hc : isCut c = true) {words : List (List Char)}
    (hne : ∀ w ∈ words, w ≠ []) (h : ∀ w ∈ words, ∀ d ∈ w, isCut d = false) :
    pieces isCut (List.intercalate [c] words) = words := by
  induction words with
  | nil => rfl
  | cons w words ih =>
    obtain ⟨hw, hne⟩ := List.forall_mem_cons.1 hne
    obtain ⟨hcut, h⟩ := List.forall_mem_cons.1 h
    cases words with
    | nil => rw [List.intercalate_singleton, pieces_eq_singleton hw hcut]
    | cons v words =>
      rw [List.intercalate_cons_cons, List.append_assoc, List.singleton_append,
        pieces_append_cut hw hcut hc, ih hne h]

theorem isCut_of_mem_splitOnP {text piece : List Char} (h : piece ∈ text.splitOnP isCut) :
    ∀ c ∈ piece, isCut c = false := by
  induction text generalizing piece with
  | nil => simp_all
  | cons d text ih =>
    obtain ⟨first, more, heq⟩ := List.exists_cons_of_ne_nil (List.splitOnP_ne_nil isCut text)
    rw [heq] at ih
    rw [List.splitOnP_cons_eq_if_modifyHead, heq, List.modifyHead_cons] at h
    cases hd : isCut d with
    | true =>
      rw [if_pos hd] at h
      rcases List.mem_cons.1 h with rfl | hmem
      · simp
      · exact ih hmem
    | false =>
      rw [if_neg (by simp [hd])] at h
      rcases List.mem_cons.1 h with rfl | hmem
      · exact List.forall_mem_cons.2 ⟨hd, ih List.mem_cons_self⟩
      · exact ih (List.mem_cons_of_mem _ hmem)

/-- The pieces are what their name says: not empty, and without a character that cuts. -/
theorem ne_nil_and_isCut_of_mem_pieces {text piece : List Char} (h : piece ∈ pieces isCut text) :
    piece ≠ [] ∧ ∀ c ∈ piece, isCut c = false := by
  obtain ⟨hmem, hne⟩ := List.mem_filter.1 h
  exact ⟨by simpa using hne, isCut_of_mem_splitOnP hmem⟩

/-- A piece stands somewhere in the text between characters that cut or the ends of the text. -/
theorem mem_pieces_iff {text piece : List Char} : piece ∈ pieces isCut text ↔
    piece ≠ [] ∧ (∀ c ∈ piece, isCut c = false) ∧ ∃ left right, text = left ++ (piece ++ right) ∧
      (∀ c ∈ left.getLast?, isCut c = true) ∧ ∀ c ∈ right.head?, isCut c = true := by
  constructor
  · intro h
    obtain ⟨hne, hpiece⟩ := ne_nil_and_isCut_of_mem_pieces h
    refine ⟨hne, hpiece, ?_⟩
    generalize hpieces : pieces isCut text = found at h
    induction found generalizing text with
    | nil => cases h
    | cons first more ih =>
      obtain ⟨run, rest, rfl, hrun, hrest, hmore⟩ := exists_of_pieces_eq_cons hpieces
      rcases List.mem_cons.1 h with rfl | hmem
      · exact ⟨run, rest, rfl, fun c hc => hrun c (List.mem_of_getLast? hc), hrest⟩
      · obtain ⟨left, right, rfl, hleft, hright⟩ := ih hmore hmem
        refine ⟨run ++ (first ++ left), right, by simp, ?_, hright⟩
        have hne' : left ≠ [] := by
          rintro rfl
          obtain ⟨c, cs, rfl⟩ := List.exists_cons_of_ne_nil hne
          have hcut := hrest c rfl
          rw [hpiece c List.mem_cons_self] at hcut
          cases hcut
        have hlast : (run ++ (first ++ left)).getLast? = left.getLast? := by
          rw [← List.append_assoc, List.getLast?_append,
            Option.or_of_isSome (List.getLast?_isSome.2 hne')]
        rwa [hlast]
  · rintro ⟨hne, hpiece, left, right, rfl, hleft, hright⟩
    have hbehind : piece ∈ pieces isCut (piece ++ right) := by
      cases right with
      | nil => simp [pieces_eq_singleton hne hpiece]
      | cons d right => simp [pieces_append_cut hne hpiece (hright d rfl)]
    rcases List.eq_nil_or_concat left with rfl | ⟨left, c, rfl⟩
    · exact hbehind
    · have hc : isCut c = true := hleft c (by simp)
      rw [List.concat_eq_append, List.append_assoc, List.singleton_append,
        pieces_append_cons_of_cut hc]
      exact List.mem_append_right _ hbehind

theorem splitOnP_map {f : Char → Char} (h : ∀ c, isCut (f c) = isCut c) (text : List Char) :
    (text.map f).splitOnP isCut = (text.splitOnP isCut).map (List.map f) := by
  induction text with
  | nil => rfl
  | cons c text ih =>
    obtain ⟨first, more, heq⟩ := List.exists_cons_of_ne_nil (List.splitOnP_ne_nil isCut text)
    rw [heq, List.map_cons] at ih
    rw [List.map_cons, List.splitOnP_cons_eq_if_modifyHead, List.splitOnP_cons_eq_if_modifyHead,
      ih, heq, h]
    split <;> rfl

/-- Cutting goes by what cuts alone: other characters may be put for the others. -/
theorem pieces_map {f : Char → Char} (h : ∀ c, isCut (f c) = isCut c) (text : List Char) :
    pieces isCut (text.map f) = (pieces isCut text).map (List.map f) := by
  rw [pieces, splitOnP_map h, List.filter_map, pieces]
  refine congrArg _ (List.filter_congr fun piece _ => ?_)
  cases piece <;> rfl

theorem map_intercalate (f : Char → Char) (cut : List Char) (words : List (List Char)) :
    (List.intercalate cut words).map f =
      List.intercalate (cut.map f) (words.map (List.map f)) := by
  induction words with
  | nil => rfl
  | cons word words ih =>
    cases words with
    | nil => rw [List.intercalate_singleton, List.map_singleton, List.intercalate_singleton]
    | cons next words =>
      rw [List.intercalate_cons_cons, List.map_append, List.map_append, ih]
      simp only [List.map_cons, List.intercalate_cons_cons]

theorem forall_mem_intercalate {P : Char → Prop} {c : Char} {words : List (List Char)} (hc : P c)
    (h : ∀ w ∈ words, ∀ d ∈ w, P d) : ∀ d ∈ List.intercalate [c] words, P d := by
  induction words with
  | nil => simp
  | cons w words ih =>
    obtain ⟨hw, h⟩ := List.forall_mem_cons.1 h
    cases words with
    | nil => simpa using hw
    | cons v words =>
      rw [List.intercalate_cons_cons, List.append_assoc]
      exact List.forall_mem_append.2 ⟨hw, List.forall_mem_cons.2 ⟨hc, ih h⟩⟩

theorem intercalate_append {cut : List Char} {words more : List (List Char)} (hwords : words ≠ [])
    (hmore : more ≠ []) : List.intercalate cut (words ++ more) =
      List.intercalate cut words ++ (cut ++ List.intercalate cut more) := by
  induction words with
  | nil => exact absurd rfl hwords
  | cons word words ih =>
    cases words with
    | nil =>
      obtain ⟨next, more, rfl⟩ := List.exists_cons_of_ne_nil hmore
      rw [List.singleton_append, List.intercalate_cons_cons, List.intercalate_singleton,
        List.append_assoc]
    | cons next words =>
      rw [List.cons_append, List.cons_append, List.intercalate_cons_cons, ← List.cons_append,
        ih (List.cons_ne_nil _ _), List.intercalate_cons_cons]
      simp only [List.append_assoc]

theorem exists_not_isBlank_iff {text : List Char} :
    (∃ c ∈ text, isBlank c = false) ↔ blankSeparated text ≠ [] := by
  rw [blankSeparated, Ne, pieces_eq_nil_iff]
  simp

variable {text before middle after : List Char}

theorem trimStart_append (hbefore : ∀ c ∈ before, isBlank c = true)
    (htext : ∀ c ∈ text.head?, isBlank c = false) : trimStart (before ++ text) = text := by
  rw [trimStart, List.dropWhile_append_of_pos hbefore]
  cases text with
  | nil => rfl
  | cons c text => rw [List.dropWhile_cons_of_neg (by simp [htext c rfl])]

theorem exists_blanks_trimStart (text : List Char) :
    ∃ before, (∀ c ∈ before, isBlank c = true) ∧ text = before ++ trimStart text :=
  ⟨text.takeWhile isBlank, List.all_eq_true.1 List.all_takeWhile,
    List.takeWhile_append_dropWhile.symm⟩

theorem isBlank_head?_trimStart (text : List Char) :
    ∀ c ∈ (trimStart text).head?, isBlank c = false := by
  intro c hc
  have hhead := List.head?_dropWhile_not isBlank text
  rw [trimStart] at hc
  rw [hc] at hhead
  simpa using hhead

theorem exists_blanks_trimEnd (text : List Char) :
    ∃ after, (∀ c ∈ after, isBlank c = true) ∧ trimStart text = trim text ++ after := by
  obtain ⟨after, hafter, hback⟩ := exists_blanks_trimStart (trimStart text).reverse
  refine ⟨after.reverse, by simpa using hafter, ?_⟩
  rw [← List.reverse_reverse (trimStart text), hback, List.reverse_append]
  rfl

/-- The trimmed text stands in the text between white space. -/
theorem exists_blanks_trim (text : List Char) : ∃ before after,
    (∀ c ∈ before, isBlank c = true) ∧ (∀ c ∈ after, isBlank c = true) ∧
      text = before ++ trim text ++ after := by
  obtain ⟨before, hbefore, htext⟩ := exists_blanks_trimStart text
  obtain ⟨after, hafter, hfront⟩ := exists_blanks_trimEnd text
  refine ⟨before, after, hbefore, hafter, ?_⟩
  rw [List.append_assoc, ← hfront]
  exact htext

/-- No white space stands at the ends of a trimmed text. -/
theorem isBlank_ends_trim (text : List Char) : (∀ c ∈ (trim text).head?, isBlank c = false) ∧
    ∀ c ∈ (trim text).getLast?, isBlank c = false := by
  constructor
  · intro c hc
    obtain ⟨after, -, hfront⟩ := exists_blanks_trimEnd text
    have hstart : c ∈ (trimStart text).head? := by
      rw [hfront, List.head?_append, Option.or_of_isSome (Option.isSome_of_mem hc)]
      exact hc
    exact isBlank_head?_trimStart text c hstart
  · intro c hc
    rw [trim, List.getLast?_reverse] at hc
    exact isBlank_head?_trimStart _ c hc

theorem trim_append_of_ends (hbefore : ∀ c ∈ before, isBlank c = true)
    (hafter : ∀ c ∈ after, isBlank c = true) (hne : middle ≠ [])
    (hhead : ∀ c ∈ middle.head?, isBlank c = false)
    (hlast : ∀ c ∈ middle.getLast?, isBlank c = false) :
    trim (before ++ middle ++ after) = middle := by
  have hstart : trimStart (before ++ (middle ++ after)) = middle ++ after := by
    apply trimStart_append hbefore
    rw [List.head?_append, Option.or_of_isSome (List.isSome_head?.2 hne)]
    exact hhead
  have hend : trimStart (after.reverse ++ middle.reverse) = middle.reverse := by
    apply trimStart_append (by simpa using hafter)
    rw [List.head?_reverse]
    exact hlast
  rw [trim, List.append_assoc, hstart, List.reverse_append, hend, List.reverse_reverse]

theorem trim_append (hbefore : ∀ c ∈ before, isBlank c = true)
    (hafter : ∀ c ∈ after, isBlank c = true) (hmiddle : ∀ c ∈ middle, isBlank c = false)
    (hne : middle ≠ []) : trim (before ++ middle ++ after) = middle :=
  trim_append_of_ends hbefore hafter hne (fun c hc => hmiddle c (List.mem_of_mem_head? hc))
    fun c hc => hmiddle c (List.mem_of_getLast? hc)

end TextQuery.Text
