import TextQuery.Proofs.Derivation

/-!
# What the readers read

For each reader of the grammar, exactly what it takes off the front of its input when it succeeds.
Reading items with a separator between them, or next to each other, is told as a relation to
induct on.
-/
namespace TextQuery.Grammar

variable {α β : Type}

/-- The reading is a success with this value and this rest. -/
def Reading.Gives {input : List Lexeme} (r : Reading α input) (value : α)
    (rest : List Lexeme) : Prop :=
  ∃ shorter, r = .done value rest shorter

@[simp] theorem gives_done {input rest rest' : List Lexeme} {value value' : α}
    {shorter : rest.length < input.length} :
    (Reading.done value rest shorter).Gives value' rest' ↔ value' = value ∧ rest' = rest := by
  constructor
  · rintro ⟨_, h⟩
    cases h
    exact ⟨rfl, rfl⟩
  · rintro ⟨rfl, rfl⟩
    exact ⟨shorter, rfl⟩

@[simp] theorem gives_failed {input rest rest' : List Lexeme} {fault : Fault GrammarCause}
    {leftOpen : Nat} {value : α} :
    ¬ (Reading.failed fault rest leftOpen : Reading α input).Gives value rest' := by
  rintro ⟨_, h⟩
  cases h

@[simp] theorem gives_lift {tail input rest : List Lexeme} {f : α → β}
    {le : tail.length ≤ input.length} {r : Reading α tail} {value : β} :
    (r.lift f le).Gives value rest ↔ ∃ v, r.Gives v rest ∧ f v = value := by
  cases r with
  | done v rest' shorter =>
    simp only [Reading.lift, gives_done]
    constructor
    · rintro ⟨rfl, rfl⟩
      exact ⟨v, ⟨rfl, rfl⟩, rfl⟩
    · rintro ⟨_, ⟨rfl, rfl⟩, rfl⟩
      exact ⟨rfl, rfl⟩
  | failed fault rest' leftOpen => simp [Reading.lift]

/-- The token that comes next. -/
def next? (input : List Lexeme) : Option Token :=
  input.head?.map Lexeme.token

@[simp] theorem next?_cons (l : Lexeme) (ls : List Lexeme) : next? (l :: ls) = some l.token := rfl

/-- Items read one after another with a separator between them. -/
inductive Joined (separator : Token) (item : Reader α) :
    List Lexeme → List α → List Lexeme → Prop where
  | last {input rest : List Lexeme} {value : α} (head : (item input).Gives value rest)
      (stop : next? rest ≠ some separator) : Joined separator item input [value] rest
  | cons {input more rest : List Lexeme} {l : Lexeme} {value : α} {values : List α}
      (head : (item input).Gives value (l :: more)) (separated : l.token = separator)
      (starts : startsItem more = true) (tail : Joined separator item more values rest) :
      Joined separator item input (value :: values) rest

/-- The induction follows the calls of `joined`, of which only those that end in a success are left.
-/
theorem Joined.of_gives {separator : Token} {item : Reader α} {input rest : List Lexeme}
    {values : List α} (h : (joined separator item input).Gives values rest) :
    Joined separator item input values rest := by
  induction input using joined.induct separator item generalizing values rest with
  | case1 input fault rest' leftOpen heq =>
    rw [joined] at h
    simp [heq] at h
  | case2 input value shorter heq =>
    rw [joined] at h
    simp only [heq, gives_done] at h
    obtain ⟨rfl, rfl⟩ := h
    exact .last ⟨_, heq⟩ (by simp [next?])
  | case3 input value l more shorter heq hl hmore fault rest' leftOpen htail ih =>
    rw [joined] at h
    simp [heq, hl, hmore, htail] at h
  | case4 input value l more shorter heq hl hmore values' rest' shorter' htail ih =>
    rw [joined] at h
    simp only [heq, hl, hmore, htail, if_true, gives_done] at h
    obtain ⟨rfl, rfl⟩ := h
    exact .cons ⟨_, heq⟩ hl hmore (ih ⟨_, htail⟩)
  | case5 input value l more shorter heq hl hmore =>
    rw [joined] at h
    simp [heq, hl, hmore] at h
  | case6 input value l more shorter heq hl =>
    rw [joined] at h
    simp only [heq, hl, if_false, gives_done] at h
    obtain ⟨rfl, rfl⟩ := h
    exact .last ⟨_, heq⟩ (by simpa using hl)

theorem Joined.gives {separator : Token} {item : Reader α} {input rest : List Lexeme}
    {values : List α} (h : Joined separator item input values rest) :
    (joined separator item input).Gives values rest := by
  induction h with
  | @last input rest value head stop =>
    obtain ⟨shorter, heq⟩ := head
    rw [joined]
    cases rest with
    | nil => simp [heq]
    | cons l more =>
      have hl : l.token ≠ separator := by simpa using stop
      simp [heq, hl]
  | @cons input more rest l value values head separated starts tail ih =>
    obtain ⟨shorter, heq⟩ := head
    obtain ⟨shorter', htail⟩ := ih
    rw [joined]
    simp [heq, separated, starts, htail]

/-- Items with a separator between them are read just when they can be laid out one by one, up to a
place where no separator comes next. -/
theorem joined_gives_iff {separator : Token} {item : Reader α} {input rest : List Lexeme}
    {values : List α} :
    (joined separator item input).Gives values rest ↔
      Joined separator item input values rest :=
  ⟨Joined.of_gives, Joined.gives⟩

/-- Items are read up to where no separator comes next. -/
theorem Joined.exists_last {separator : Token} {item : Reader α} {input rest : List Lexeme}
    {values : List α} (h : Joined separator item input values rest) :
    next? rest ≠ some separator ∧ ∃ mid value, (item mid).Gives value rest := by
  induction h with
  | last head stop => exact ⟨stop, _, _, head⟩
  | cons head separated starts tail ih => exact ih

/-- Items read one after another with nothing between them. -/
inductive Adjacent (item : Reader α) : List Lexeme → List α → List Lexeme → Prop where
  | last {input rest : List Lexeme} {value : α} (head : (item input).Gives value rest)
      (stop : startsItem rest = false) : Adjacent item input [value] rest
  | cons {input more rest : List Lexeme} {value : α} {values : List α}
      (head : (item input).Gives value more) (starts : startsItem more = true)
      (tail : Adjacent item more values rest) : Adjacent item input (value :: values) rest

theorem Adjacent.of_gives {item : Reader α} {input rest : List Lexeme} {values : List α}
    (h : (adjacent item input).Gives values rest) : Adjacent item input values rest := by
  induction input using adjacent.induct item generalizing values rest with
  | case1 input fault rest' leftOpen heq =>
    rw [adjacent] at h
    simp [heq] at h
  | case2 input value more shorter heq hmore ih =>
    rw [adjacent] at h
    simp only [heq, hmore, if_true, gives_lift] at h
    obtain ⟨values', htail, rfl⟩ := h
    exact .cons ⟨_, heq⟩ hmore (ih htail)
  | case3 input value rest' shorter heq hrest =>
    rw [Bool.not_eq_true] at hrest
    rw [adjacent] at h
    simp only [heq, hrest, Bool.false_eq_true, if_false, gives_done] at h
    obtain ⟨rfl, rfl⟩ := h
    exact .last ⟨_, heq⟩ hrest

theorem Adjacent.gives {item : Reader α} {input rest : List Lexeme} {values : List α}
    (h : Adjacent item input values rest) : (adjacent item input).Gives values rest := by
  induction h with
  | last head stop =>
    obtain ⟨shorter, heq⟩ := head
    rw [adjacent]
    simp [heq, stop]
  | cons head starts tail ih =>
    obtain ⟨shorter, heq⟩ := head
    rw [adjacent]
    simp [heq, starts, ih]

/-- Items next to each other are read just when they can be laid out one by one, up to a place where
no item starts. -/
theorem adjacent_gives_iff {item : Reader α} {input rest : List Lexeme} {values : List α} :
    (adjacent item input).Gives values rest ↔ Adjacent item input values rest :=
  ⟨Adjacent.of_gives, Adjacent.gives⟩

/-- Items are read up to where no item starts. -/
theorem Adjacent.exists_last {item : Reader α} {input rest : List Lexeme} {values : List α}
    (h : Adjacent item input values rest) :
    startsItem rest = false ∧ ∃ mid value, (item mid).Gives value rest := by
  induction h with
  | last head stop => exact ⟨stop, _, _, head⟩
  | cons head starts tail ih => exact ih

variable {operand : Reader Query} {input rest more : List Lexeme} {q : Query} {o : Operand}
  {position : Nat}

/-- What a chain gives depends on the number of its operands, which is left to `chained`. -/
theorem conjunction_gives_iff :
    (conjunction operand input).Gives o rest ↔
      ∃ os, Joined .and (prefixed operand) input os rest ∧ chained os = o := by
  simp [conjunction, joined_gives_iff]

/-- Unlike a chain or a choice, a sequence looks for a first item before it reads one. -/
theorem sequence_gives_iff :
    (sequence operand input).Gives q rest ↔ startsItem input = true ∧
      ∃ os, Adjacent (conjunction operand) input os rest ∧ .collapse .all (conditions os) = q := by
  unfold sequence
  split <;> simp_all [adjacent_gives_iff]

theorem disjunction_gives_iff :
    (disjunction operand input).Gives q rest ↔
      ∃ qs, Joined .or (sequence operand) input qs rest ∧ .collapse .any qs = q := by
  simp [disjunction, joined_gives_iff]

/-- A choice inherits from its first sequence that an item comes next. -/
theorem startsItem_of_disjunction_gives (h : (disjunction operand input).Gives q rest) :
    startsItem input = true := by
  obtain ⟨qs, hj, -⟩ := disjunction_gives_iff.1 h
  cases hj with
  | last head stop => exact (sequence_gives_iff.1 head).1
  | cons head separated starts tail => exact (sequence_gives_iff.1 head).1

/-- Where an operand starts there is no second `-`. -/
theorem head?_ne_exclude_of_touches (h : touches position more = true) (p : Nat) :
    more.head? ≠ some ⟨.exclude, p⟩ := by
  cases more with
  | nil => simp
  | cons l ls =>
    rintro heq
    cases heq
    simp [touches, Token.startsOperand] at h

/-- The check for a second `-` only chooses between two faults, so a success does not tell of it. -/
theorem prefixed_exclude_gives_iff :
    (prefixed operand (⟨.exclude, position⟩ :: more)).Gives o rest ↔
      touches (position + 1) more = true ∧ ∃ q, (operand more).Gives q rest ∧
        q.isExclusion = false ∧ ⟨.excluded, .exclude q⟩ = o := by
  unfold prefixed
  by_cases h : touches (position + 1) more = true
  · simp only [head?_ne_exclude_of_touches h, h, if_false, Bool.not_true, Bool.false_eq_true,
      true_and]
    cases hop : operand more with
    | failed fault rest' leftOpen => simp
    | done q' rest' shorter =>
      cases hq : q'.isExclusion
      · simp only [hq, Bool.false_eq_true, if_false, gives_done]
        constructor
        · rintro ⟨rfl, rfl⟩
          exact ⟨q', ⟨rfl, rfl⟩, hq, rfl⟩
        · rintro ⟨_, ⟨rfl, rfl⟩, -, rfl⟩
          exact ⟨rfl, rfl⟩
      · simp [hq]
  · rw [Bool.not_eq_true] at h
    simp only [h]
    split <;> simp

theorem prefixed_require_gives_iff :
    (prefixed operand (⟨.require, position⟩ :: more)).Gives o rest ↔
      touches (position + 1) more = true ∧ ∃ q, (operand more).Gives q rest ∧
        ⟨.required, q⟩ = o := by
  simp only [prefixed]
  cases touches (position + 1) more <;> simp

/-- Without a prefix, an operand is optional. -/
theorem prefixed_plain_gives_iff (hex : next? input ≠ some .exclude)
    (hreq : next? input ≠ some .require) :
    (prefixed operand input).Gives o rest ↔
      ∃ q, (operand input).Gives q rest ∧ ⟨.optional, q⟩ = o := by
  unfold prefixed
  split
  · simp at hex
  · simp at hreq
  · simp

variable {budget : Nat}

theorem operand_word_gives_iff {text : String} :
    (Grammar.operand budget (⟨.word text, position⟩ :: more)).Gives q rest ↔
      q = .term text ∧ rest = more := by
  simp

/-- Of the operands that are a single token, only a phrase of nothing but white space is refused. -/
theorem operand_phrase_gives_iff {text : String} :
    (Grammar.operand budget (⟨.phrase text, position⟩ :: more)).Gives q rest ↔
      Text.blankSeparated text.toList ≠ [] ∧
        q = .phrase ((Text.blankSeparated text.toList).map String.ofList) ∧ rest = more := by
  unfold Grammar.operand
  split <;> simp_all

/-- A field scope leaves one less of the budget to its operand. -/
theorem operand_field_gives_iff {name : String} :
    (Grammar.operand budget (⟨.field name, position⟩ :: more)).Gives q rest ↔
      touches (position + name.length + 1) more = true ∧ ∃ b inner, budget = b + 1 ∧
        (Grammar.operand b more).Gives inner rest ∧ q = .within name inner := by
  cases budget with
  | zero =>
    simp only [Grammar.operand]
    split <;> simp
  | succ b =>
    simp only [Grammar.operand]
    cases touches (position + name.length + 1) more
    · simp
    · cases hop : Grammar.operand b more with
      | failed fault rest' leftOpen => simp [hop]
      | done inner rest' shorter => simp [hop, and_comm]

/-- What was read in a group is given just if the parenthesis that closes it comes next. -/
theorem closed_gives_iff {rest' : List Lexeme} {shorter : rest'.length < input.length}
    {inner : Query} :
    (closed position inner rest' shorter).Gives q rest ↔
      ∃ close, rest' = ⟨.closeGroup, close⟩ :: rest ∧ q = inner := by
  unfold closed
  split
  · simp [eq_comm, and_comm]
  · next hne =>
    have hne' : ∀ close, rest' ≠ ⟨.closeGroup, close⟩ :: rest := by
      rintro close rfl
      exact hne close rest shorter rfl HEq.rfl
    split <;> simp [hne']

theorem startsItem_ne_closeGroup (h : startsItem more = true) :
    more.head?.map Lexeme.token ≠ some .closeGroup := by
  cases more with
  | nil => simp
  | cons l ls =>
    intro heq
    obtain ⟨token, position⟩ := l
    cases heq
    cases h

theorem startsItem_not_atEnd (h : startsItem more = true) : atEnd more = false := by
  cases more with
  | nil => simp [startsItem] at h
  | cons l ls =>
    obtain ⟨token, position⟩ := l
    cases token <;> first | rfl | cases h

/-- A choice starts with an item. So the two checks that come before a group is entered refuse
nothing that could be read, and only choose between faults. -/
theorem operand_openGroup_gives_iff :
    (Grammar.operand budget (⟨.openGroup, position⟩ :: more)).Gives q rest ↔
      ∃ b close, budget = b + 1 ∧
        (disjunction (Grammar.operand b) more).Gives q (⟨.closeGroup, close⟩ :: rest) := by
  constructor
  · intro h
    cases budget with
    | zero =>
      simp only [Grammar.operand] at h
      split at h
      · simp at h
      · split at h <;> simp at h
    | succ b =>
      simp only [Grammar.operand] at h
      split at h
      · simp at h
      · split at h
        · simp at h
        · cases hd : disjunction (Grammar.operand b) more with
          | failed fault rest' leftOpen => simp [hd] at h
          | done inner rest' shorter =>
            simp only [hd, closed_gives_iff] at h
            obtain ⟨close, rfl, rfl⟩ := h
            exact ⟨b, close, rfl, shorter, hd⟩
  · rintro ⟨b, close, rfl, hd⟩
    have hs := startsItem_of_disjunction_gives hd
    obtain ⟨shorter, hd⟩ := hd
    simp [startsItem_ne_closeGroup hs, startsItem_not_atEnd hs, hd, closed_gives_iff]

theorem startsOperand_of_operand_gives (h : (Grammar.operand budget input).Gives q rest) :
    ∃ l more, input = l :: more ∧ l.token.startsOperand = true := by
  cases input with
  | nil => simp at h
  | cons l more =>
    refine ⟨l, more, rfl, ?_⟩
    obtain ⟨token, position⟩ := l
    cases token <;> first | rfl | simp at h

end TextQuery.Grammar
