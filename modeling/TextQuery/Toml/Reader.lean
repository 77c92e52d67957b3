import TextQuery.Toml.Scalar

/-!
# Reading TOML

TOML 1.0 text, with an optional byte order mark and with lines that end in LF or CRLF. Arrays and
inline tables may be nested up to a limit.
-/
namespace TextQuery.Toml

open Text (Taken Reader)

def isSpace (c : Char) : Bool :=
  c == ' ' || c == '\t'

/-- The characters of comments and literal strings. -/
def isPlainChar (c : Char) : Bool :=
  c == '\t' || (0x20 ≤ c.toNat && c.toNat != 0x7F)

def isKeyChar (c : Char) : Bool :=
  c.isAlphanum || c == '_' || c == '-'

/-- The characters of scalars without quotes. -/
def isScalarChar (c : Char) : Bool :=
  isKeyChar c || c == '+' || c == '.' || c == ':'

/-- Skips white space, line ends and comments. -/
def skipLines (inComment : Bool) : List Char → List Char
  | [] => []
  | c :: rest =>
    if c == '\n' then skipLines false rest
    else if inComment then if isPlainChar c then skipLines true rest else c :: rest
    else if isSpace c then skipLines false rest
    else if c == '#' then skipLines true rest
    else c :: rest

theorem length_skipLines_le (inComment : Bool) (cs : List Char) :
    (skipLines inComment cs).length ≤ cs.length := by
  induction cs generalizing inComment with
  | nil => simp [skipLines]
  | cons c rest ih =>
    have h₁ := ih true
    have h₂ := ih false
    simp only [skipLines]
    repeat' split
    all_goals simp only [List.length_cons]; omega

theorem length_lt_of_skipLines_eq {input more : List Char} {c : Char}
    (h : skipLines false input = c :: more) : more.length < input.length := by
  have := length_skipLines_le false input
  rw [h, List.length_cons] at this
  omega

/-! ## Strings -/

def escaped? : Char → Option Char
  | 'b' => some '\x08'
  | 't' => some '\t'
  | 'n' => some '\n'
  | 'f' => some '\x0c'
  | 'r' => some '\r'
  | '"' => some '"'
  | '\\' => some '\\'
  | _ => none

/-- The character with a code point in hexadecimal. -/
def codePoint? (digits : List Char) : Option Char :=
  (Text.hexNumber? digits).bind fun n =>
    if h : n.isValidChar then some (Char.ofNatAux n h) else none

/-- Reads an escape behind its backslash. -/
def readEscape : Reader Char
  | 'u' :: a :: b :: c :: d :: rest =>
    (codePoint? [a, b, c, d]).map (⟨·, rest, by simp only [List.length_cons]; omega⟩)
  | 'U' :: a :: b :: c :: d :: e :: f :: g :: h :: rest =>
    (codePoint? [a, b, c, d, e, f, g, h]).map (⟨·, rest, by simp only [List.length_cons]; omega⟩)
  | c :: rest => (escaped? c).map (⟨·, rest, Text.length_lt_cons c rest⟩)
  | [] => none

/-- Reads the inside of a basic string up to its closing quote. -/
def readBasic (input : List Char) : Option (Taken (List Char) input) :=
  match input with
  | [] => none
  | '"' :: rest => some ⟨[], rest, Text.length_lt_cons _ rest⟩
  | '\\' :: rest =>
    match readEscape rest with
    | none => none
    | some c =>
      have := c.shorter
      (readBasic c.rest).map
        (·.lift (c.value :: ·) (by simp only [List.length_cons]; omega))
  | c :: rest =>
    if isPlainChar c then (readBasic rest).map (·.lift (c :: ·) (Nat.le_succ _)) else none
termination_by input.length

/-- Reads the inside of a literal string up to its closing quote. -/
def readLiteral : (input : List Char) → Option (Taken (List Char) input)
  | [] => none
  | '\'' :: rest => some ⟨[], rest, Text.length_lt_cons _ rest⟩
  | c :: rest =>
    if isPlainChar c then (readLiteral rest).map (·.lift (c :: ·) (Nat.le_succ _)) else none

/-- What is left behind three closing quotes, and the up to two quotes before them that still
belong to the string. -/
def closing? (quote : Char) (input : List Char) : Option (Taken (List Char) input) :=
  match input with
  | a :: b :: c :: rest =>
    if a == quote && b == quote && c == quote then
      match rest with
      | d :: e :: more =>
        if d == quote && e == quote then
          some ⟨[quote, quote], more, by simp only [List.length_cons]; omega⟩
        else if d == quote then some ⟨[quote], e :: more, by simp only [List.length_cons]; omega⟩
        else some ⟨[], d :: e :: more, by simp only [List.length_cons]; omega⟩
      | [d] =>
        if d == quote then some ⟨[quote], [], by simp only [List.length_cons]; omega⟩
        else some ⟨[], [d], by simp only [List.length_cons]; omega⟩
      | [] => some ⟨[], [], by simp only [List.length_cons]; omega⟩
    else none
  | _ => none

/-- Reads the inside of a multi-line literal string. -/
def readLines (input : List Char) : Option (Taken (List Char) input) :=
  match closing? '\'' input with
  | some t => some t
  | none =>
    match input with
    | [] => none
    | c :: rest =>
      if isPlainChar c || c == '\n' then
        (readLines rest).map (·.lift (c :: ·) (Nat.le_succ _))
      else none
termination_by input.length

/-- Reads the inside of a multi-line basic string. A backslash at the end of a line takes all
white space behind it. -/
def readBasicLines (input : List Char) : Option (Taken (List Char) input) :=
  match closing? '"' input with
  | some t => some t
  | none =>
    match input with
    | [] => none
    | '\\' :: rest =>
      match _h : rest.dropWhile isSpace with
      | '\n' :: more =>
        have := Text.length_lt_of_dropWhile_eq _h
        have := (List.dropWhile_suffix (fun c => isSpace c || c == '\n') (l := more)).length_le
        (readBasicLines (more.dropWhile fun c => isSpace c || c == '\n')).map
          (·.lift id (by simp only [List.length_cons]; omega))
      | _ =>
        match readEscape rest with
        | none => none
        | some c =>
          have := c.shorter
          (readBasicLines c.rest).map
            (·.lift (c.value :: ·) (by simp only [List.length_cons]; omega))
    | c :: rest =>
      if isPlainChar c || c == '\n' then
        (readBasicLines rest).map (·.lift (c :: ·) (Nat.le_succ _))
      else none
termination_by input.length
decreasing_by
  all_goals subst_vars; simp only [List.length_cons]; omega

/-- Text without the line end that it starts with. -/
def withoutFirstLineEnd : List Char → List Char
  | '\n' :: rest => rest
  | rest => rest

theorem length_withoutFirstLineEnd_le (cs : List Char) :
    (withoutFirstLineEnd cs).length ≤ cs.length := by
  unfold withoutFirstLineEnd
  split <;> simp

/-! ## Keys -/

def readBareKey (input : List Char) : Option (Taken (List Char) input) :=
  if h : (input.dropWhile isKeyChar).length < input.length then
    some ⟨input.takeWhile isKeyChar, input.dropWhile isKeyChar, h⟩
  else none

/-- Reads one part of a key. -/
def readKeyPart : Reader (List Char)
  | '"' :: rest => (readBasic rest).map (·.lift id (Nat.le_succ _))
  | '\'' :: rest => (readLiteral rest).map (·.lift id (Nat.le_succ _))
  | input => readBareKey input

/-- Reads the parts of a key, with points between them and spaces around the points. -/
def readKey (input : List Char) : Option (Taken (List String) input) :=
  match readKeyPart input with
  | none => none
  | some part =>
    have := part.shorter
    match _h : part.rest.dropWhile isSpace with
    | '.' :: more =>
      have := Text.length_lt_of_dropWhile_eq _h
      have := (List.dropWhile_suffix isSpace (l := more)).length_le
      (readKey (more.dropWhile isSpace)).map
        (·.lift (String.ofList part.value :: ·) (by omega))
    | _ => some ⟨[String.ofList part.value], part.rest, part.shorter⟩
termination_by input.length

/-- The deepest nesting of arrays and inline tables, and the most parts of a key. -/
def maxNesting : Nat := 79

/-- A key as the path to a table and a name in it. -/
def splitKey? (parts : List String) : Option (List String × String) :=
  if parts.length ≤ maxNesting then parts.getLast?.map (parts.dropLast, ·) else none

/-! ## Values -/

/-- Reads a key, an equals sign and a value. -/
def readPair (value : Reader Toml) : Reader (List String × Toml) :=
  fun input =>
    match readKey input with
    | none => none
    | some key =>
      match h : key.rest.dropWhile isSpace with
      | '=' :: more =>
        (Text.past isSpace value more).map (·.lift (key.value, ·) (by
          have := Text.length_lt_of_dropWhile_eq h
          have := key.shorter
          omega))
      | _ => none

/-- Reads the items of an array up to its closing bracket, a comma behind the last one being
allowed. -/
def readItems (item : Reader Toml) (input : List Char) : Option (Taken (List Toml) input) :=
  match h : skipLines false input with
  | [] => none
  | c :: more =>
    have hlt := length_lt_of_skipLines_eq h
    if c == ']' then some ⟨[], more, hlt⟩
    else match item (c :: more) with
      | none => none
      | some t =>
        have ht := t.shorter
        match h' : skipLines false t.rest with
        | [] => none
        | d :: others =>
          have := length_lt_of_skipLines_eq h'
          have hothers : others.length < input.length :=
            Nat.lt_of_lt_of_le (Nat.lt_trans this ht) (Nat.succ_le_of_lt hlt)
          if d == ']' then some ⟨[t.value], others, hothers⟩
          else if d == ',' then
            (readItems item others).map (·.lift (t.value :: ·) (Nat.le_of_lt hothers))
          else none
termination_by input.length

/-- The inline table of some pairs. -/
def inlineTable? (pairs : List (List String × Toml)) : Option Toml :=
  let add (entries : List (String × Toml)) (pair : List String × Toml) :
      Option (List (String × Toml)) :=
    (splitKey? pair.1).bind fun key => insert key.1 key.2 pair.2 entries
  (pairs.foldlM add []).map (table .inline)

/-- The moment that is spelled by a date and, behind a space, a time. -/
def spacedMoment? (date time : List Char) : Option Toml :=
  match splitDate? date with
  | some (date, []) => onDate? date time
  | _ => none

/-- Reads a scalar without quotes. A space may stand between a date and a time. -/
def readScalar : Reader Toml :=
  fun input =>
    let text := input.takeWhile isScalarChar
    let rest := input.dropWhile isScalarChar
    if h : rest.length < input.length then
      match rest with
      | ' ' :: more =>
        match spacedMoment? text (more.takeWhile isScalarChar) with
        | some value => some ⟨value, more.dropWhile isScalarChar, by
            have := (List.dropWhile_suffix isScalarChar (l := more)).length_le
            simp only [List.length_cons] at h; omega⟩
        | none => (ofBare? text).map (⟨·, ' ' :: more, h⟩)
      | rest => (ofBare? text).map (⟨·, rest, h⟩)
    else none

def readValue (budget : Nat) : Reader Toml
  | '"' :: '"' :: '"' :: rest =>
    (readBasicLines (withoutFirstLineEnd rest)).map
      (·.lift (fun cs => .string (String.ofList cs)) (by
        have := length_withoutFirstLineEnd_le rest
        simp only [List.length_cons]; omega))
  | '\'' :: '\'' :: '\'' :: rest =>
    (readLines (withoutFirstLineEnd rest)).map
      (·.lift (fun cs => .string (String.ofList cs)) (by
        have := length_withoutFirstLineEnd_le rest
        simp only [List.length_cons]; omega))
  | '"' :: rest =>
    (readBasic rest).map (·.lift (fun cs => .string (String.ofList cs)) (Nat.le_succ _))
  | '\'' :: rest =>
    (readLiteral rest).map (·.lift (fun cs => .string (String.ofList cs)) (Nat.le_succ _))
  | '[' :: rest =>
    match budget with
    | 0 => none
    | budget + 1 => (readItems (readValue budget) rest).map (·.lift .array (Nat.le_succ _))
  | '{' :: rest =>
    match budget with
    | 0 => none
    | budget + 1 =>
      match h : rest.dropWhile isSpace with
      | '}' :: more =>
        some ⟨.table .inline [], more, Nat.lt_succ_of_lt (Text.length_lt_of_dropWhile_eq h)⟩
      | _ =>
        match Text.commaSeparated (readPair (readValue budget)) isSpace '}' rest with
        | none => none
        | some pairs =>
          (inlineTable? pairs.value).map (⟨·, pairs.rest, Nat.lt_succ_of_lt pairs.shorter⟩)
  | input => readScalar input

/-! ## Documents -/

/-- What is left behind the end of a line and a comment before it. -/
def lineEnd? : List Char → Option (List Char)
  | [] => some []
  | '\n' :: rest => some rest
  | '#' :: rest =>
    match rest.dropWhile isPlainChar with
    | [] => some []
    | '\n' :: more => some more
    | _ => none
  | _ => none

theorem length_lineEnd_lt {c : Char} {input rest : List Char}
    (h : lineEnd? (c :: input) = some rest) : rest.length < (c :: input).length := by
  unfold lineEnd? at h
  split at h
  · simp_all
  · simp_all
  · next inner heq =>
    simp only [List.cons.injEq] at heq
    obtain ⟨-, rfl⟩ := heq
    split at h
    · simp only [Option.some.injEq] at h; simp [← h]
    · next more hm =>
      have := Text.length_lt_of_dropWhile_eq hm
      simp only [Option.some.injEq] at h
      rw [← h, List.length_cons]; omega
    · simp at h
  · simp at h

theorem length_lineEnd_le {input rest : List Char} (h : lineEnd? input = some rest) :
    rest.length ≤ input.length := by
  cases input with
  | nil => simp only [lineEnd?, Option.some.injEq] at h; simp [← h]
  | cons c input => exact Nat.le_of_lt (length_lineEnd_lt h)

/-- A line of a document. -/
inductive Line where
  | blank
  | pair (path : List String) (name : String) (value : Toml)
  | header (path : List String) (name : String)
  | element (path : List String) (name : String)

/-- Reads the key of a header and the brackets that close it. -/
def readHeader (brackets : Nat) : Reader (List String × String) :=
  fun input =>
    match Text.past isSpace (fun cs => readKey cs) input with
    | none => none
    | some key =>
      let rest := key.rest.dropWhile isSpace
      if rest.take brackets == List.replicate brackets ']' then
        (splitKey? key.value).map (⟨·, rest.drop brackets, by
          have := (List.dropWhile_suffix isSpace (l := key.rest)).length_le
          have := key.shorter
          simp only [rest, List.length_drop]; omega⟩)
      else none

/-- Reads what stands on a line, up to its comment or end. -/
def readStatement : Reader Line
  | '[' :: '[' :: rest =>
    (readHeader 2 rest).map (·.lift (fun key => .element key.1 key.2)
      (by simp only [List.length_cons]; omega))
  | '[' :: rest => (readHeader 1 rest).map (·.lift (fun key => .header key.1 key.2) (Nat.le_succ _))
  | input =>
    match readPair (readValue maxNesting) input with
    | none => none
    | some pair =>
      (splitKey? pair.value.1).map fun key =>
        ⟨.pair key.1 key.2 pair.value.2, pair.rest, pair.shorter⟩

/-- Reads a line that starts with something other than white space. -/
def readLine (c : Char) (rest : List Char) : Option (Taken Line (c :: rest)) :=
  if c == '\n' || c == '#' then
    match h : lineEnd? (c :: rest) with
    | none => none
    | some after => some ⟨.blank, after, length_lineEnd_lt h⟩
  else
    match readStatement (c :: rest) with
    | none => none
    | some t =>
      match h : lineEnd? (t.rest.dropWhile isSpace) with
      | none => none
      | some after => some ⟨t.value, after, by
          have := length_lineEnd_le h
          have := (List.dropWhile_suffix isSpace (l := t.rest)).length_le
          have := t.shorter
          omega⟩

/-- All lines of a document. -/
def documentLines? (input : List Char) : Option (List Line) :=
  match _h : input.dropWhile isSpace with
  | [] => some []
  | c :: rest =>
    match readLine c rest with
    | none => none
    | some t =>
      have := t.shorter
      have := Text.length_lt_of_dropWhile_eq _h
      (documentLines? t.rest).map (t.value :: ·)
termination_by input.length
decreasing_by simp only [List.length_cons] at *; omega

/-- The entries of a document after some more lines, `current` being the table that pairs go
to. -/
def entriesAfter? (current : List String) (entries : List (String × Toml)) :
    List Line → Option (List (String × Toml))
  | [] => some entries
  | .blank :: lines => entriesAfter? current entries lines
  | .pair path name value :: lines =>
    (changeAt current (insert path name value) entries).bind (entriesAfter? current · lines)
  | .header path name :: lines =>
    (openTable path name entries).bind (entriesAfter? (path ++ [name]) · lines)
  | .element path name :: lines =>
    (openElement path name entries).bind (entriesAfter? (path ++ [name]) · lines)

/-- The text with every CRLF as a single line feed. -/
def lineFeeds : List Char → List Char
  | '\r' :: '\n' :: rest => '\n' :: lineFeeds rest
  | c :: rest => c :: lineFeeds rest
  | [] => []

/-- The text behind a byte order mark. -/
def withoutMark : List Char → List Char
  | '\ufeff' :: rest => rest
  | text => text

/-- The entries of the document that a text spells. -/
def ofText? (text : String) : Option (List (String × Toml)) :=
  (documentLines? (lineFeeds (withoutMark text.toList))).bind (entriesAfter? [] [])

end TextQuery.Toml
