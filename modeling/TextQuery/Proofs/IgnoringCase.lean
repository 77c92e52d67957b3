import TextQuery.Predicate.Filter
import TextQuery.Proofs.Documents
import TextQuery.Proofs.Numerals
import TextQuery.Proofs.Occurrence

/-!
# Filters and letter case

Whether a filter accepts a document does not depend on the case of ASCII letters, neither in the
words of the filter nor in the strings of the document. Every way of matching is looked at on its
own: words, raw text, numbers, whose only letter is the exponent mark, and truth values. The names of
fields and members are not words, and their case counts.
-/
namespace TextQuery

namespace Decimal

/-- A reader that takes no letters takes no notice of their case. -/
theorem map_toLower_of_refuses {α : Type} {read : List Char → Option α}
    (h : ∀ text, ∀ c ∈ text, c.isAlpha = true → read text = none) (text : List Char) :
    read (text.map Char.toLower) = read text := by
  by_cases hletter : ∃ c ∈ text, c.isAlpha = true
  · obtain ⟨c, hc, halpha⟩ := hletter
    have hlower : c.toLower.isAlpha = c.isAlpha := Text.toLower_invariant (by decide +kernel) c
    rw [h text c hc halpha, h _ _ (List.mem_map_of_mem hc) (hlower.trans halpha)]
  · have hfixed : ∀ c ∈ text, c.toLower = id c := by
      intro c hc
      rw [id, Text.toLower_eq_iff (by simpa using fun h => hletter ⟨c, hc, h⟩)]
    rw [List.map_congr_left hfixed, List.map_id]

theorem ofPlain?_map_toLower (text : List Char) :
    Decimal.ofPlain? (text.map Char.toLower) = Decimal.ofPlain? text := by
  refine map_toLower_of_refuses (fun text c hc halpha => ?_) text
  apply ofPlain?_eq_none hc (Text.isDigit_of_isAlpha halpha)
  all_goals
    rintro rfl
    cases halpha

theorem exponent?_map_toLower (text : List Char) :
    exponent? (text.map Char.toLower) = exponent? text := by
  refine map_toLower_of_refuses (fun text c hc halpha => ?_) text
  have hdigits : ∀ digits : List Char, c ∈ digits → digits.all Char.isDigit = false := by
    intro digits hmem
    exact List.all_eq_false.2 ⟨c, hmem, by simp [Text.isDigit_of_isAlpha halpha]⟩
  unfold exponent?
  split
  · have hrest := (List.mem_cons.1 hc).resolve_left (by rintro rfl; cases halpha)
    simp [hdigits _ hrest]
  · simp [hdigits _ hc]

theorem isExponentMark_toLower (c : Char) : isExponentMark c.toLower = isExponentMark c :=
  Text.toLower_invariant (by decide +kernel) c

/-- The exponent mark may be written either way, and there is no other letter. -/
theorem ofScientific?_map_toLower (text : List Char) :
    ofScientific? (text.map Char.toLower) = ofScientific? text := by
  have hmark : (fun c => !isExponentMark c) ∘ Char.toLower = fun c => !isExponentMark c :=
    funext fun c => congrArg (!·) (isExponentMark_toLower c)
  unfold ofScientific?
  rw [List.dropWhile_map, List.takeWhile_map, hmark, ofPlain?_map_toLower]
  cases text.dropWhile (fun c => !isExponentMark c) with
  | nil => rfl
  | cons mark exponent =>
    rw [List.map_cons]
    refine congrArg (Option.bind _) (funext fun base => ?_)
    cases exponent with
    | nil => rfl
    | cons c digits =>
      by_cases hminus : c = '-'
      · rw [hminus]
        exact congrArg (Option.bind · base.shiftLeft?) (exponent?_map_toLower digits)
      · have hlower : c.toLower ≠ '-' := mt (Text.toLower_eq_iff rfl).1 hminus
        simp [hminus, hlower, ← exponent?_map_toLower (c :: digits)]

/-- A text is the same number in any letter case, as its only letter may be the exponent mark. -/
theorem ofText?_toLower (text : String) : ofText? text.toLower = ofText? text := by
  rw [ofText?, Text.toList_toLower, ofPlain?_map_toLower, ofScientific?_map_toLower]
  rfl

end Decimal

namespace Text

theorem meetsCased_map_toLower (text : List Char) :
    meetsCased (text.map Char.toLower) = meetsCased text := by
  have hignored : ∀ c : Char, caseIgnorables.contains c.toLower = caseIgnorables.contains c :=
    fun c => toLower_invariant (by decide +kernel) c
  have hcased : ∀ c : Char, casedChars.contains c.toLower = casedChars.contains c :=
    fun c => toLower_invariant (by decide +kernel) c
  unfold meetsCased
  rw [List.dropWhile_map, show caseIgnorables.contains ∘ Char.toLower = caseIgnorables.contains from
    funext hignored]
  cases text.dropWhile caseIgnorables.contains with
  | nil => rfl
  | cons c text => exact hcased c

theorem lowerAfter_map_toLower (before text : List Char) :
    lowerAfter (before.map Char.toLower) (text.map Char.toLower) = lowerAfter before text := by
  have hchar : ∀ c : Char, lowerChar c.toLower = lowerChar c :=
    fun c => toLower_invariant (by decide +kernel) c
  have hsigma : ∀ c : Char, (c.toLower == 'Σ') = (c == 'Σ') :=
    fun c => toLower_invariant (f := (· == 'Σ')) (by decide +kernel) c
  induction text generalizing before with
  | nil => rfl
  | cons c text ih =>
    rw [List.map_cons, lowerAfter, lowerAfter, ← List.map_cons, ih, hchar, hsigma,
      meetsCased_map_toLower, meetsCased_map_toLower]

/-- Lower case makes no difference between ASCII capitals and their small letters, not even for the
letters around them. -/
theorem lower_map_toLower (text : List Char) : lower (text.map Char.toLower) = lower text :=
  lowerAfter_map_toLower [] text

theorem wordsOf_map_toLower (text : List Char) : wordsOf (text.map Char.toLower) = wordsOf text := by
  have hcut : ∀ c : Char, (!isAlphanumeric c.toLower) = !isAlphanumeric c :=
    fun c => congrArg (!·) (isAlphanumeric_toLower c)
  rw [wordsOf, pieces_map hcut, List.map_map]
  exact List.map_congr_left fun piece _ => lower_map_toLower piece

theorem collapse_map_toLower (text : List Char) :
    collapse (text.map Char.toLower) = (collapse text).map Char.toLower := by
  rw [collapse, blankSeparated, pieces_map isBlank_toLower, collapse, map_intercalate]
  rfl

theorem containsToken_map_toLower (text token : List Char) :
    containsToken (text.map Char.toLower) (token.map Char.toLower) = containsToken text token := by
  rw [containsToken, lower_map_toLower, lower_map_toLower]
  rfl

/-- Words are compared in lower case, and tokens are looked for in any case. -/
theorem matchesWords_map_toLower (text : List Char) (query : List (List Char)) :
    matchesWords (text.map Char.toLower) (query.map (List.map Char.toLower)) =
      matchesWords text query := by
  have halphanumeric : isAlphanumeric ∘ Char.toLower = isAlphanumeric :=
    funext isAlphanumeric_toLower
  have hplain : ((query.map (List.map Char.toLower)).all fun word => word.all isAlphanumeric) =
      query.all fun word => word.all isAlphanumeric := by
    rw [List.all_map]
    refine congrArg _ (funext fun word => ?_)
    rw [Function.comp_apply, List.all_map, halphanumeric]
  have htoken : List.intercalate [' '] (query.map (List.map Char.toLower)) =
      (List.intercalate [' '] query).map Char.toLower :=
    (map_intercalate Char.toLower [' '] query).symm
  unfold matchesWords
  rw [hplain, List.flatMap_map, ← collapse, collapse_map_toLower, htoken, containsToken_map_toLower]
  simp only [wordsOf_map_toLower]
  rfl

end Text

namespace Json

theorem matchesWords_toLower (words : List String) (v : Json) :
    (v.mapStrings String.toLower).matchesWords (words.map String.toLower) = v.matchesWords words := by
  have hquery : (words.map String.toLower).map String.toList =
      (words.map String.toList).map (List.map Char.toLower) := by
    rw [List.map_map, List.map_map]
    exact List.map_congr_left fun w _ => Text.toList_toLower w
  cases v with
  | string s =>
    rw [mapStrings, matchesWords, matchesWords, Text.toList_toLower, hquery,
      Text.matchesWords_map_toLower]
  | number n =>
    rcases words with _ | ⟨word, _ | ⟨next, words⟩⟩
    · rfl
    · change n.isSpelledBy word.toLower = n.isSpelledBy word
      rw [Number.isSpelledBy, Decimal.ofText?_toLower]
      rfl
    · rfl
  | bool b =>
    rcases words with _ | ⟨word, _ | ⟨next, words⟩⟩
    · rfl
    · have htwice : word.toLower.toList.map Char.toLower = word.toList.map Char.toLower := by
        rw [Text.toList_toLower, List.map_map]
        exact List.map_congr_left fun c _ => Text.toLower_toLower c
      exact congrArg (· == (if b then "true" else "false").toList) htwice
    · rfl
  | null | array _ | object _ => rfl

/-- The same document but for the case of ASCII letters in its strings. -/
def SameLetters (doc doc' : Json) : Prop :=
  doc.mapStrings String.toLower = doc'.mapStrings String.toLower

end Json

namespace Filter

mutual

/-- The same filter with `f` applied to its words. -/
def mapWords (f : String → String) : Filter → Filter
  | contains fields word => contains fields (f word)
  | sequence fields words => sequence fields (words.map f)
  | not inner => not (mapWords f inner)
  | all fs => all (mapWordsEach f fs)
  | any fs => any (mapWordsEach f fs)

def mapWordsEach (f : String → String) : List Filter → List Filter
  | [] => []
  | filter :: fs => mapWords f filter :: mapWordsEach f fs

end

/-- The same filter but for the case of ASCII letters in its words. -/
def SameLetters (filter filter' : Filter) : Prop :=
  filter.mapWords String.toLower = filter'.mapWords String.toLower

theorem fieldMatches_toLower (fields words : List String) (doc : Json) :
    fieldMatches fields (words.map String.toLower) (doc.mapStrings String.toLower) =
      fieldMatches fields words doc := by
  unfold fieldMatches
  refine congrArg _ (funext fun field => ?_)
  rw [Json.lookup_mapStrings, List.any_map]
  exact congrArg _ (funext (Json.matchesWords_toLower words))

mutual

theorem accepts_toLower (doc : Json) (filter : Filter) :
    (filter.mapWords String.toLower).accepts (doc.mapStrings String.toLower) =
      filter.accepts doc := by
  match filter with
  | contains fields word => exact fieldMatches_toLower fields [word] doc
  | sequence fields words => exact fieldMatches_toLower fields words doc
  | not inner => rw [mapWords, accepts, accepts, accepts_toLower doc inner]
  | all fs => rw [mapWords, accepts, accepts, (acceptsList_toLower doc fs).1]
  | any fs => rw [mapWords, accepts, accepts, (acceptsList_toLower doc fs).2]

theorem acceptsList_toLower (doc : Json) (fs : List Filter) :
    acceptsEach (doc.mapStrings String.toLower) (mapWordsEach String.toLower fs) =
        acceptsEach doc fs ∧
      acceptsSome (doc.mapStrings String.toLower) (mapWordsEach String.toLower fs) =
        acceptsSome doc fs := by
  match fs with
  | [] => exact ⟨rfl, rfl⟩
  | filter :: fs =>
    obtain ⟨heach, hsome⟩ := acceptsList_toLower doc fs
    rw [mapWordsEach, acceptsEach, acceptsEach, acceptsSome, acceptsSome,
      accepts_toLower doc filter, heach, hsome]
    exact ⟨rfl, rfl⟩

end

end Filter

/-- A filter accepts what it accepts in any case of the letters, in its words as in the strings of
the document. -/
theorem accepts_eq_of_sameLetters {filter filter' : Filter} {doc doc' : Json}
    (hfilter : filter.SameLetters filter') (hdoc : doc.SameLetters doc') :
    filter.accepts doc = filter'.accepts doc' := by
  rw [← Filter.accepts_toLower doc filter, hfilter, hdoc, Filter.accepts_toLower doc' filter']

theorem accepts_eq_of_sameLetters_nested :
    let filter : Filter := .all [.not (.contains ["tags"] "X-Ray"),
      .any [.sequence ["title"] ["C++", "primer"], .contains ["n"] "1E3"], .contains ["ok"] "TRUE"]
    let filter' : Filter := .all [.not (.contains ["tags"] "x-RAY"),
      .any [.sequence ["title"] ["c++", "Primer"], .contains ["n"] "1e3"], .contains ["ok"] "True"]
    let scalars : List (String × Json) :=
      [("n", .number (.integer 1000 (by decide))), ("ok", .bool true)]
    let doc : Json := .object (scalars ++
      [("tags", .array [.string "X ray"]), ("title", .string "The c++ PRIMER")])
    let doc' : Json := .object (scalars ++
      [("tags", .array [.string "x RAY"]), ("title", .string "tHE C++ Primer")])
    filter.SameLetters filter' ∧ doc.SameLetters doc' ∧
      filter.accepts doc = filter'.accepts doc' := by
  intro filter filter' scalars doc doc'
  have hfilter : filter.SameLetters filter' := by
    simp [Filter.SameLetters, filter, filter', Filter.mapWords, Filter.mapWordsEach,
      ← String.toList_inj, Text.toList_toLower]
  have hdoc : doc.SameLetters doc' := by
    simp [Json.SameLetters, doc, doc', scalars, Json.mapStrings, Json.mapMembers, Json.mapItems,
      ← String.toList_inj, Text.toList_toLower]
  exact ⟨hfilter, hdoc, accepts_eq_of_sameLetters hfilter hdoc⟩

end TextQuery
