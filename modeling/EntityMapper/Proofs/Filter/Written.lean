import EntityMapper.Predicate.Condition
import EntityMapper.Proofs.Filter.Reader

/-!
# Written conditions are read back

Conditions are written without parentheses around comparisons and tests, whose operands are never
comparisons themselves, and with parentheses around everything that could run into its
surroundings. The text of such a condition is read back as the condition, wherever it stands.

* `lexemes_text` — the lexemes of the text of a condition
* `reads_operand`, `reads_clause` — operands and conditions are read back from any stack
* `readCondition_text` — a written condition is read back
-/

namespace EntityMapper

variable {n : Nat} {c : Condition}

/-! ## The conditions that are written -/

/-- An operand of comparisons: its columns have names, and its parameters are among the first
`n`. -/
inductive Condition.IsOperand (n : Nat) : Condition → Prop
  | null : IsOperand n .null
  | column {qualifier : Option String} {name : String} (hq : ∀ q, qualifier = some q → IsName q)
      (h : IsName name) : IsOperand n (.column qualifier name)
  | parameter {i : Nat} (h : i < n) : IsOperand n (.parameter i)
  | arithmetic {op : ArithmeticOp} {l r : Condition} (hl : IsOperand n l) (hr : IsOperand n r) :
      IsOperand n (.arithmetic op l r)
  | lower {e : Condition} (h : IsOperand n e) : IsOperand n (.lower e)
  | upper {e : Condition} (h : IsOperand n e) : IsOperand n (.upper e)

/-- A condition whose comparisons and tests are of operands. -/
inductive Condition.IsClause (n : Nat) : Condition → Prop
  | compare {op : CompareOp} {l r : Condition} (hl : l.IsOperand n) (hr : r.IsOperand n) :
      IsClause n (.compare op l r)
  | isNull {e : Condition} (h : e.IsOperand n) : IsClause n (.isNull e)
  | isNotNull {e : Condition} (h : e.IsOperand n) : IsClause n (.isNotNull e)
  | like {e : Condition} {i : Nat} (h : e.IsOperand n) (hi : i < n) : IsClause n (.like e i)
  | isIn {e : Condition} {i : Nat} {items : List Nat} (h : e.IsOperand n)
      (hi : ∀ k ∈ i :: items, k < n) : IsClause n (.isIn e (i :: items))
  | never : IsClause n .never
  | and {l r : Condition} (hl : IsClause n l) (hr : IsClause n r) : IsClause n (.and l r)
  | or {l r : Condition} (hl : IsClause n l) (hr : IsClause n r) : IsClause n (.or l r)
  | not {e : Condition} (h : IsClause n e) : IsClause n (.not e)

theorem Condition.IsOperand.mono (h : c.IsOperand n) {m : Nat} (hle : n ≤ m) : c.IsOperand m := by
  induction h with
  | null => exact .null
  | column hq h => exact .column hq h
  | parameter h => exact .parameter (Nat.lt_of_lt_of_le h hle)
  | arithmetic _ _ ihl ihr => exact .arithmetic ihl ihr
  | lower _ ih => exact .lower ih
  | upper _ ih => exact .upper ih

theorem Condition.IsClause.mono (h : c.IsClause n) {m : Nat} (hle : n ≤ m) : c.IsClause m := by
  induction h with
  | compare hl hr => exact .compare (hl.mono hle) (hr.mono hle)
  | isNull h => exact .isNull (h.mono hle)
  | isNotNull h => exact .isNotNull (h.mono hle)
  | like h hi => exact .like (h.mono hle) (Nat.lt_of_lt_of_le hi hle)
  | isIn h hi => exact .isIn (h.mono hle) fun k hk => Nat.lt_of_lt_of_le (hi k hk) hle
  | never => exact .never
  | and _ _ ihl ihr => exact .and ihl ihr
  | or _ _ ihl ihr => exact .or ihl ihr
  | not _ ih => exact .not ih

/-- What a condition says where the parameters have values. -/
def Condition.sentence (values : List Value) : Condition → Sentence
  | .null => .null
  | .column qualifier name => .column qualifier name
  | .parameter i => .value (values.getD i .null)
  | .compare op l r => .compare op (l.sentence values) (r.sentence values)
  | .isNull e => .isNull (e.sentence values)
  | .isNotNull e => .isNotNull (e.sentence values)
  | .and l r => .and (l.sentence values) (r.sentence values)
  | .or l r => .or (l.sentence values) (r.sentence values)
  | .not e => .not (e.sentence values)
  | .arithmetic op l r => .arithmetic op (l.sentence values) (r.sentence values)
  | .like e pattern => .like (e.sentence values) (.value (values.getD pattern .null))
  | .isIn e items => .isIn (e.sentence values) (items.map fun i => .value (values.getD i .null))
  | .never => .truth false
  | .lower e => .call "lower" (e.sentence values)
  | .upper e => .call "upper" (e.sentence values)

/-! ## Lexemes -/

/-- The lexemes of a list of parameters. -/
def itemLexemes (name : Nat → String) : List Nat → List SqlLexeme
  | [] => []
  | i :: items => .parameter (name i) :: items.flatMap fun k => [.comma, .parameter (name k)]

/-- The lexemes of a condition whose parameters have names. -/
def Condition.lexemes (name : Nat → String) : Condition → List SqlLexeme
  | .null => [.keyword .null]
  | .column none n => [.word n]
  | .column (some q) n => [.word q, .dot, .word n]
  | .parameter i => [.parameter (name i)]
  | .compare op l r => l.lexemes name ++ .compare op :: r.lexemes name
  | .isNull e => e.lexemes name ++ [.keyword .is, .keyword .null]
  | .isNotNull e => e.lexemes name ++ [.keyword .is, .keyword .not, .keyword .null]
  | .and l r => .opening :: l.lexemes name ++ .keyword .and :: r.lexemes name ++ [.closing]
  | .or l r => .opening :: l.lexemes name ++ .keyword .or :: r.lexemes name ++ [.closing]
  | .not e => .keyword .not :: .opening :: e.lexemes name ++ [.closing]
  | .arithmetic op l r =>
    .opening :: l.lexemes name ++ .arithmetic op :: r.lexemes name ++ [.closing]
  | .like e pattern => e.lexemes name ++ [.keyword .like, .parameter (name pattern)]
  | .isIn e items =>
    e.lexemes name ++ .keyword .isIn :: .opening :: itemLexemes name items ++ [.closing]
  | .never => [.number 1, .compare .eq, .number 0]
  | .lower e => .word "lower" :: .opening :: e.lexemes name ++ [.closing]
  | .upper e => .word "upper" :: .opening :: e.lexemes name ++ [.closing]

/-- Parameters are written as a marker and a name. -/
structure Marked (placeholder name : Nat → String) : Prop where
  marked : ∀ i, ∃ marker, isMarker marker = true ∧
    (placeholder i).toList = marker :: (name i).toList
  part : ∀ i, IsNamePart (name i)

variable {placeholder name : Nat → String}

theorem Marked.lexemes (h : Marked placeholder name) (i : Nat) :
    lexemes (placeholder i).toList = [.parameter (name i)] := by
  obtain ⟨marker, hmarker, hi⟩ := h.marked i
  rw [hi, lexemes_parameter hmarker (h.part i)]

/-- A sign between two spaces. -/
theorem lexemes_between (cs sign ds : List Char) :
    lexemes (cs ++ ' ' :: (sign ++ ' ' :: ds)) = lexemes cs ++ (lexemes sign ++ lexemes ds) := by
  rw [lexemes_space, lexemes_space]

theorem lexemes_enclosed (cs : List Char) :
    lexemes ('(' :: (cs ++ [')'])) = .opening :: (lexemes cs ++ [.closing]) := by
  have hopen := lexemes_opening [] (cs ++ [')'])
  rw [List.nil_append, lexemes_closing] at hopen
  exact hopen

theorem lexemes_compareOp (op : CompareOp) : lexemes op.sql.toList = [.compare op] := by
  cases op <;> decide

theorem lexemes_arithmeticOp (op : ArithmeticOp) : lexemes op.sql.toList = [.arithmetic op] := by
  cases op <;> decide

theorem lexemes_columnText {qualifier : Option String} {s : String}
    (hq : ∀ q, qualifier = some q → IsName q) (h : IsName s) :
    lexemes (Condition.columnText qualifier s).toList =
      (Condition.column qualifier s).lexemes name := by
  cases qualifier with
  | none => exact lexemes_name h
  | some q =>
    have htext : (Condition.columnText (some q) s).toList = q.toList ++ '.' :: s.toList := by
      rw [Condition.columnText, String.toList_append, String.toList_append, List.append_assoc]
      rfl
    rw [htext, lexemes_dot, lexemes_name (hq q rfl), lexemes_name h]
    rfl

theorem lexemes_items (h : Marked placeholder name) (items : List Nat) :
    lexemes (", ".intercalate (items.map placeholder)).toList = itemLexemes name items := by
  match items with
  | [] => rfl
  | [i] =>
    rw [List.map_singleton, String.intercalate_singleton]
    exact h.lexemes i
  | i :: k :: rest =>
    have hcons : (", ".intercalate ((i :: k :: rest).map placeholder)).toList =
        (placeholder i).toList ++ ',' ::
          ([] ++ ' ' :: (", ".intercalate ((k :: rest).map placeholder)).toList) := by
      rw [List.map_cons, List.map_cons, String.intercalate_cons_cons, String.toList_append,
        String.toList_append, List.append_assoc]
      rfl
    rw [hcons, lexemes_comma, lexemes_space, lexemes_items h (k :: rest), h.lexemes]
    rfl

/-- **The lexemes of the text of an operand.** -/
theorem lexemes_operand (h : Marked placeholder name) (hc : c.IsOperand n) :
    lexemes (c.text placeholder).toList = c.lexemes name := by
  induction hc with
  | null =>
    show lexemes "null".toList = [.keyword .null]
    decide
  | column hq hs => exact lexemes_columnText hq hs
  | @parameter i _ => exact h.lexemes i
  | @arithmetic op l r _ _ ihl ihr =>
    have htext : ((Condition.arithmetic op l r).text placeholder).toList =
        '(' :: (((l.text placeholder).toList ++
          ' ' :: (op.sql.toList ++ ' ' :: (r.text placeholder).toList)) ++ [')']) := by
      simp [Condition.text, String.toList_append]
    rw [htext, lexemes_enclosed, lexemes_between, ihl, ihr, lexemes_arithmeticOp]
    simp [Condition.lexemes]
  | @lower e _ ih =>
    have htext : ((Condition.lower e).text placeholder).toList =
        "lower".toList ++ '(' :: ((e.text placeholder).toList ++ [')']) := by
      simp [Condition.text, String.toList_append]
    rw [htext, lexemes_opening, lexemes_closing, ih]
    rfl
  | @upper e _ ih =>
    have htext : ((Condition.upper e).text placeholder).toList =
        "upper".toList ++ '(' :: ((e.text placeholder).toList ++ [')']) := by
      simp [Condition.text, String.toList_append]
    rw [htext, lexemes_opening, lexemes_closing, ih]
    rfl

/-- **The lexemes of the text of a condition.** -/
theorem lexemes_clause (h : Marked placeholder name) (hc : c.IsClause n) :
    lexemes (c.text placeholder).toList = c.lexemes name := by
  induction hc with
  | @compare op l r hl hr =>
    have htext : ((Condition.compare op l r).text placeholder).toList =
        (l.text placeholder).toList ++
          ' ' :: (op.sql.toList ++ ' ' :: (r.text placeholder).toList) := by
      simp [Condition.text, String.toList_append]
    rw [htext, lexemes_between, lexemes_operand h hl, lexemes_operand h hr, lexemes_compareOp]
    rfl
  | @isNull e he =>
    have htext : ((Condition.isNull e).text placeholder).toList =
        (e.text placeholder).toList ++ ' ' :: "is null".toList := by
      simp [Condition.text, String.toList_append]
    rw [htext, lexemes_space, lexemes_operand h he]
    rfl
  | @isNotNull e he =>
    have htext : ((Condition.isNotNull e).text placeholder).toList =
        (e.text placeholder).toList ++ ' ' :: "is not null".toList := by
      simp [Condition.text, String.toList_append]
    rw [htext, lexemes_space, lexemes_operand h he]
    rfl
  | @like e i he _ =>
    have htext : ((Condition.like e i).text placeholder).toList =
        (e.text placeholder).toList ++ ' ' :: ("LIKE".toList ++ ' ' :: (placeholder i).toList) := by
      simp [Condition.text, String.toList_append]
    rw [htext, lexemes_between, lexemes_operand h he, h.lexemes]
    rfl
  | @isIn e i items he _ =>
    have htext : ((Condition.isIn e (i :: items)).text placeholder).toList =
        (e.text placeholder).toList ++ ' ' :: ("IN".toList ++
          ' ' :: '(' :: ((", ".intercalate ((i :: items).map placeholder)).toList ++ [')'])) := by
      simp [Condition.text, String.toList_append]
    rw [htext, lexemes_between, lexemes_operand h he, lexemes_enclosed, lexemes_items h,
      show lexemes "IN".toList = [.keyword .isIn] by decide]
    simp [Condition.lexemes]
  | never =>
    show lexemes "1 = 0".toList = [.number 1, .compare .eq, .number 0]
    decide
  | @and l r _ _ ihl ihr =>
    have htext : ((Condition.and l r).text placeholder).toList =
        '(' :: (((l.text placeholder).toList ++
          ' ' :: ("AND".toList ++ ' ' :: (r.text placeholder).toList)) ++ [')']) := by
      simp [Condition.text, String.toList_append]
    rw [htext, lexemes_enclosed, lexemes_between, ihl, ihr,
      show lexemes "AND".toList = [.keyword .and] by decide]
    simp [Condition.lexemes]
  | @or l r _ _ ihl ihr =>
    have htext : ((Condition.or l r).text placeholder).toList =
        '(' :: (((l.text placeholder).toList ++
          ' ' :: ("OR".toList ++ ' ' :: (r.text placeholder).toList)) ++ [')']) := by
      simp [Condition.text, String.toList_append]
    rw [htext, lexemes_enclosed, lexemes_between, ihl, ihr,
      show lexemes "OR".toList = [.keyword .or] by decide]
    simp [Condition.lexemes]
  | @not e _ ih =>
    have htext : ((Condition.not e).text placeholder).toList =
        "NOT".toList ++ ' ' :: '(' :: ((e.text placeholder).toList ++ [')']) := by
      simp [Condition.text, String.toList_append]
    rw [htext, lexemes_space, lexemes_enclosed, ih]
    rfl

/-! ## Reading -/

/-- Whether a lexeme makes a call or a qualified name of the word before it. -/
def SqlLexeme.extendsWord : SqlLexeme → Bool
  | .opening => true
  | .dot => true
  | _ => false

/-- What follows does not make something else of a word before it. -/
def Follows (rest : List SqlLexeme) : Prop := rest.head?.any SqlLexeme.extendsWord = false

variable {values : List Value} {look : String → Option Value}

/-- A word that nothing makes a call or a qualified name of is a column. -/
theorem readOperand_word {rest : List SqlLexeme} (h : Follows rest) (stack : List Pending)
    (s : String) :
    readOperand look stack (.word s :: rest) = readOn look stack (.column none s) rest := by
  cases rest with
  | nil => rfl
  | cons x rest =>
    cases x with
    | opening => exact nomatch h
    | dot => exact nomatch h
    | keyword | word | number | parameter | compare | arithmetic | closing | comma | unknown => rfl

/-- A parameter stands for its value. -/
theorem readOperand_parameter {s : String} {v : Value} (h : look s = some v)
    (stack : List Pending) (rest : List SqlLexeme) :
    readOperand look stack (.parameter s :: rest) = readOn look stack (.value v) rest := by
  rw [readOperand, h]

theorem settle_group (least : Nat) (stack : List Pending) (e : Sentence) :
    settle least (.group :: stack) e = (.group :: stack, e) := by rw [settle]

/-- A closing parenthesis closes a call. -/
theorem readOn_closing_call (f : String) (stack : List Pending) (e : Sentence)
    (rest : List SqlLexeme) :
    readOn look (.call f :: stack) e (.closing :: rest) = readOn look stack (.call f e) rest := rfl

/-- A closing parenthesis closes a group whose content is settled. -/
theorem readOn_closing_group {stack opened : List Pending} {e content : Sentence}
    (h : settle 0 opened e = (.group :: stack, content)) (rest : List SqlLexeme) :
    readOn look opened e (.closing :: rest) = readOn look stack content rest := by
  rw [readOn, h]
  rfl

/-- **An operand is read back from any stack.** -/
theorem reads_operand (hlook : ∀ i < n, look (name i) = some (values.getD i .null))
    (hc : c.IsOperand n) (stack : List Pending) {rest : List SqlLexeme} (hrest : Follows rest) :
    readOperand look stack (c.lexemes name ++ rest) =
      readOn look stack (c.sentence values) rest := by
  induction hc generalizing stack rest with
  | null => rfl
  | @column qualifier s _ _ =>
    cases qualifier with
    | none => exact readOperand_word hrest stack s
    | some q => rfl
  | parameter hi => exact readOperand_parameter (hlook _ hi) stack rest
  | @arithmetic op l r _ _ ihl ihr =>
    have hr : Follows (.closing :: rest) := rfl
    have hl : Follows (.arithmetic op :: (r.lexemes name ++ .closing :: rest)) := rfl
    simp only [Condition.lexemes, List.cons_append, List.append_assoc, List.nil_append]
    show readOperand look (.group :: stack) _ = _
    rw [ihl _ hl, readOn_joint rfl, settle_group, ihr _ hr]
    -- what closes the parenthesis settles the operator in it
    refine readOn_closing_group ?_ rest
    rw [settle_joint_of_le (Nat.zero_le _), settle_group]
    rfl
  | @lower e _ ih =>
    have he : Follows (.closing :: rest) := rfl
    simp only [Condition.lexemes, List.cons_append, List.append_assoc, List.nil_append]
    show readOperand look (.call "lower" :: stack) _ = _
    rw [ih _ he, readOn_closing_call]
    rfl
  | @upper e _ ih =>
    have he : Follows (.closing :: rest) := rfl
    simp only [Condition.lexemes, List.cons_append, List.append_assoc, List.nil_append]
    show readOperand look (.call "upper" :: stack) _ = _
    rw [ih _ he, readOn_closing_call]
    rfl

/-- The parameters of a list are read back in their order. -/
theorem reads_items (hlook : ∀ i < n, look (name i) = some (values.getD i .null))
    {i : Nat} {items : List Nat} (hi : ∀ k ∈ i :: items, k < n) (stack : List Pending)
    (e : Sentence) (before : List Sentence) (rest : List SqlLexeme) :
    readOperand look (.items e before :: stack)
        (itemLexemes name (i :: items) ++ .closing :: rest) =
      readOn look stack
        (.isIn e (before ++ (i :: items).map fun k => .value (values.getD k .null))) rest := by
  induction items generalizing i before with
  | nil =>
    show readOperand look (.items e before :: stack) (.parameter (name i) :: .closing :: rest) = _
    rw [readOperand_parameter (hlook i (hi i List.mem_cons_self))]
    rfl
  | cons k items ih =>
    have hlater : ∀ x ∈ k :: items, x < n := fun x hx => hi x (List.mem_cons_of_mem _ hx)
    show readOperand look (.items e before :: stack)
      (.parameter (name i) :: .comma :: (itemLexemes name (k :: items) ++ .closing :: rest)) = _
    rw [readOperand_parameter (hlook i (hi i List.mem_cons_self))]
    show readOperand look (.items e (before ++ [Sentence.value (values.getD i .null)]) :: stack)
      (itemLexemes name (k :: items) ++ .closing :: rest) = _
    rw [ih hlater]
    simp

/-- Tests take the operand before them when nothing that binds as tightly waits for it. -/
theorem readOn_isNull {stack : List Pending} (h : Loose stack) (e : Sentence)
    (rest : List SqlLexeme) :
    readOn look stack e (.keyword .is :: .keyword .null :: rest) =
      readOn look stack (.isNull e) rest := by
  show readOn look (settle Joint.testLevel stack e).1
    (.isNull (settle Joint.testLevel stack e).2) rest = _
  rw [h Joint.testLevel (by decide)]

theorem readOn_isNotNull {stack : List Pending} (h : Loose stack) (e : Sentence)
    (rest : List SqlLexeme) :
    readOn look stack e (.keyword .is :: .keyword .not :: .keyword .null :: rest) =
      readOn look stack (.isNotNull e) rest := by
  show readOn look (settle Joint.testLevel stack e).1
    (.isNotNull (settle Joint.testLevel stack e).2) rest = _
  rw [h Joint.testLevel (by decide)]

theorem readOn_isIn {stack : List Pending} (h : Loose stack) (e : Sentence)
    (rest : List SqlLexeme) :
    readOn look stack e (.keyword .isIn :: .opening :: rest) =
      readOperand look (.items e [] :: stack) rest := by
  show readOperand look (.items (settle Joint.testLevel stack e).2 [] ::
    (settle Joint.testLevel stack e).1) rest = _
  rw [h Joint.testLevel (by decide)]

/-- What joins two operands does not make something else of a word before it. -/
theorem follows_of_joint {x : SqlLexeme} {j : Joint} (h : x.joint? = some j)
    (rest : List SqlLexeme) : Follows (x :: rest) := by
  cases x with
  | opening | dot => exact nomatch h
  | keyword | word | number | parameter | compare | arithmetic | closing | comma | unknown => rfl

/-- An operand before a comparison waits as its left one. -/
theorem reads_left (hlook : ∀ i < n, look (name i) = some (values.getD i .null))
    (hc : c.IsOperand n) {stack : List Pending} (hstack : Loose stack) {x : SqlLexeme} {j : Joint}
    (hx : x.joint? = some j) (hj : j.level = Joint.testLevel) (rest : List SqlLexeme) :
    readOperand look stack (c.lexemes name ++ x :: rest) =
      readOperand look (.joint j (c.sentence values) :: stack) rest := by
  rw [reads_operand hlook hc stack (follows_of_joint hx rest), readOn_joint hx, hj,
    hstack Joint.testLevel (by decide)]

/-- What an operand says is no number, so its comparisons stay. -/
theorem comparison_of_operand (hc : c.IsOperand n) (op : CompareOp) (e : Sentence) :
    Sentence.comparison op (c.sentence values) e = .compare op (c.sentence values) e := by
  cases hc <;> rfl

/-- A condition is read back from a stack: what is then open is settled as if what it says had been
an operand. -/
def ReadsBack (look : String → Option Value) (stack : List Pending) (ls : List SqlLexeme)
    (said : Sentence) : Prop :=
  ∀ rest, Follows rest → ∃ opened e,
    readOperand look stack (ls ++ rest) = readOn look opened e rest ∧
      ∀ least ≤ Joint.negationLevel, settle least opened e = settle least stack said

/-- What is read back as an operand. -/
theorem readsBack_said {stack : List Pending} {ls : List SqlLexeme} {said : Sentence}
    (h : ∀ rest, readOperand look stack (ls ++ rest) = readOn look stack said rest) :
    ReadsBack look stack ls said := fun rest _ => ⟨stack, said, h rest, fun _ _ => rfl⟩

/-- A comparison is read back while its right operand is still open: all that a negation would
settle settles it. -/
theorem readsBack_open {stack : List Pending} {ls : List SqlLexeme} {j : Joint}
    (hj : j.level = Joint.testLevel) {l r : Sentence}
    (h : ∀ rest, Follows rest →
      readOperand look stack (ls ++ rest) = readOn look (.joint j l :: stack) r rest) :
    ReadsBack look stack ls (j.build l r) := by
  intro rest hrest
  refine ⟨.joint j l :: stack, r, h rest hrest, fun least hleast => ?_⟩
  have hle : least ≤ j.level := hj ▸ Joint.le_testLevel hleast
  rw [settle_joint_of_le hle]

/-- Two conditions in parentheses with a connective between them are read back as one operand. -/
theorem readsBack_enclosed {x : SqlLexeme} {j : Joint} (hx : x.joint? = some j)
    (hj : j.level < Joint.negationLevel) {ls rs : List SqlLexeme} {l r : Sentence}
    (hl : ∀ stack, Loose stack → ReadsBack look stack ls l)
    (hr : ∀ stack, Loose stack → ReadsBack look stack rs r) (stack : List Pending) :
    ReadsBack look stack (.opening :: (ls ++ x :: (rs ++ [.closing]))) (j.build l r) := by
  refine readsBack_said fun rest => ?_
  -- the connective settles all that the left condition has left open
  obtain ⟨opened, e, hread, hsettle⟩ :=
    hl (.group :: stack) (loose_group stack) _ (follows_of_joint hx (rs ++ .closing :: rest))
  have hleft : settle j.level opened e = (.group :: stack, l) := by
    rw [hsettle j.level (by omega), settle_group]
  -- and the parenthesis all that the right one has
  obtain ⟨opened', e', hread', hsettle'⟩ :=
    hr (.joint j l :: .group :: stack) (loose_joint hj l _) (.closing :: rest) rfl
  have hright : settle 0 opened' e' = (.group :: stack, j.build l r) := by
    rw [hsettle' 0 (Nat.zero_le _), settle_joint_of_le (Nat.zero_le _), settle_group]
  simp only [List.cons_append, List.append_assoc, List.nil_append]
  show readOperand look (.group :: stack) (ls ++ x :: (rs ++ .closing :: rest)) = _
  rw [hread, readOn_joint hx, hleft, hread', readOn_closing_group hright]

/-- A negated condition is read back while the negation is still open. -/
theorem readsBack_not {ls : List SqlLexeme} {said : Sentence}
    (h : ∀ stack, Loose stack → ReadsBack look stack ls said) (stack : List Pending) :
    ReadsBack look stack (.keyword .not :: .opening :: (ls ++ [.closing])) (.not said) := by
  intro rest _
  obtain ⟨opened, e, hread, hsettle⟩ :=
    h (.group :: .not :: stack) (loose_group _) (.closing :: rest) rfl
  have hcontent : settle 0 opened e = (.group :: .not :: stack, said) := by
    rw [hsettle 0 (Nat.zero_le _), settle_group]
  refine ⟨.not :: stack, said, ?_, fun least hleast => ?_⟩
  · simp only [List.cons_append, List.append_assoc, List.nil_append]
    show readOperand look (.group :: .not :: stack) _ = _
    rw [hread, readOn_closing_group hcontent]
  · rw [settle_not_of_le hleast]

/-- **A condition is read back** wherever nothing that binds tightly waits for it. -/
theorem reads_clause (hlook : ∀ i < n, look (name i) = some (values.getD i .null))
    (hc : c.IsClause n) (stack : List Pending) (hstack : Loose stack) :
    ReadsBack look stack (c.lexemes name) (c.sentence values) := by
  induction hc generalizing stack with
  | @compare op l r hl hr =>
    have hsaid : (Condition.compare op l r).sentence values =
        (Joint.compare op).build (l.sentence values) (r.sentence values) :=
      (comparison_of_operand hl op _).symm
    rw [hsaid]
    refine readsBack_open rfl fun rest hrest => ?_
    simp only [Condition.lexemes, List.cons_append, List.append_assoc]
    rw [reads_left hlook hl hstack rfl rfl, reads_operand hlook hr _ hrest]
  | @isNull e he =>
    refine readsBack_said fun rest => ?_
    have hfollows : Follows (.keyword .is :: .keyword .null :: rest) := rfl
    simp only [Condition.lexemes, List.cons_append, List.append_assoc, List.nil_append]
    rw [reads_operand hlook he stack hfollows, readOn_isNull hstack]
    rfl
  | @isNotNull e he =>
    refine readsBack_said fun rest => ?_
    have hfollows : Follows (.keyword .is :: .keyword .not :: .keyword .null :: rest) := rfl
    simp only [Condition.lexemes, List.cons_append, List.append_assoc, List.nil_append]
    rw [reads_operand hlook he stack hfollows, readOn_isNotNull hstack]
    rfl
  | @like e i he hi =>
    refine readsBack_open (j := .like) rfl fun rest _ => ?_
    simp only [Condition.lexemes, List.cons_append, List.append_assoc, List.nil_append]
    rw [reads_left hlook he hstack rfl rfl, readOperand_parameter (hlook i hi)]
  | @isIn e i items he hi =>
    refine readsBack_said fun rest => ?_
    have hfollows : Follows (.keyword .isIn :: .opening ::
      (itemLexemes name (i :: items) ++ .closing :: rest)) := rfl
    simp only [Condition.lexemes, List.cons_append, List.append_assoc, List.nil_append]
    rw [reads_operand hlook he stack hfollows, readOn_isIn hstack, reads_items hlook hi]
    rfl
  | never =>
    -- of two numbers it is known that they differ
    refine readsBack_open (j := .compare .eq) (l := .number 1) (r := .number 0) rfl fun rest _ => ?_
    show readOn look stack (.number 1) (.compare .eq :: .number 0 :: rest) = _
    rw [readOn_joint rfl, hstack _ (by decide)]
    rfl
  | @and l r _ _ ihl ihr =>
    have h := readsBack_enclosed (x := .keyword .and) rfl (by decide) ihl ihr stack
    simpa [Condition.lexemes, Condition.sentence, Joint.build] using h
  | @or l r _ _ ihl ihr =>
    have h := readsBack_enclosed (x := .keyword .or) rfl (by decide) ihl ihr stack
    simpa [Condition.lexemes, Condition.sentence, Joint.build] using h
  | @not e _ ih => exact readsBack_not ih stack

/-- **A written condition is read back.** -/
theorem readCondition_text (h : Marked placeholder name)
    (hlook : ∀ i < n, look (name i) = some (values.getD i .null)) (hc : c.IsClause n) :
    readCondition look (c.text placeholder) = some (c.sentence values) := by
  obtain ⟨opened, e, hread, hsettle⟩ := reads_clause hlook hc [] loose_nil [] rfl
  rw [List.append_nil] at hread
  rw [readCondition, lexemes_clause h hc, hread, readOn, hsettle 0 (Nat.zero_le _), settle]

end EntityMapper
