import EntityMapper.Proofs.Statement.Placeholders

/-!
# How comparisons are grouped

The operands of connectives and of arithmetic are written in parentheses, those of comparisons and
tests are not. So a row of comparisons may be written for several conditions: `a = b = c` compares
`a` with `b = c`, or `a = b` with `c`. These are the only ones: conditions of one text are the same
once each comparison is taken with what stands before it.

* `Condition.grouped` — a condition in which comparisons are grouped to the left
* `Condition.Settled` — a condition that is told by how it is grouped
* `Dialect.pieces`, `readPieces` — the words and parentheses of a text, and how they are read
* `grouped_eq_of_text_eq` — conditions of one text are grouped alike
-/

namespace EntityMapper

/-! ## Grouping to the left -/

namespace Condition

/-- A condition in which what is written first becomes part of something else. Parentheses keep
what is in them. -/
def graft (f : Condition → Condition) : Condition → Condition
  | .compare op l r => .compare op (l.graft f) r
  | .isNull e => .isNull (e.graft f)
  | .isNotNull e => .isNotNull (e.graft f)
  | c => f c

/-- A condition with its comparisons and tests grouped to the left. -/
def grouped : Condition → Condition
  | .null => .null
  | .column qualifier name => .column qualifier name
  | .parameter i => .parameter i
  | .compare op l r => r.grouped.graft (.compare op l.grouped)
  | .isNull e => .isNull e.grouped
  | .isNotNull e => .isNotNull e.grouped
  | .and l r => .and l.grouped r.grouped
  | .or l r => .or l.grouped r.grouped
  | .not e => .not e.grouped
  | .arithmetic op l r => .arithmetic op l.grouped r.grouped
  | .like e pattern => .like e.grouped pattern
  | .isIn e items => .isIn e.grouped items
  | .never => .never
  | .lower e => .lower e.grouped
  | .upper e => .upper e.grouped

/-- Whether a condition is written without parentheses around it, though it has operands. -/
def isTest : Condition → Bool
  | .compare .. => true
  | .isNull _ => true
  | .isNotNull _ => true
  | _ => false

/-- Whether a condition is a comparison, or a test of one. -/
def compares : Condition → Bool
  | .compare .. => true
  | .isNull e => e.compares
  | .isNotNull e => e.compares
  | _ => false

/-- Nothing is compared with a comparison or test, and no comparison is compared or tested. -/
def Settled : Condition → Prop
  | .null => True
  | .column _ _ => True
  | .parameter _ => True
  | .compare _ l r => l.Settled ∧ r.Settled ∧ l.compares = false ∧ r.isTest = false
  | .isNull e => e.Settled ∧ e.compares = false
  | .isNotNull e => e.Settled ∧ e.compares = false
  | .and l r => l.Settled ∧ r.Settled
  | .or l r => l.Settled ∧ r.Settled
  | .not e => e.Settled
  | .arithmetic _ l r => l.Settled ∧ r.Settled
  | .like e _ => e.Settled
  | .isIn e _ => e.Settled
  | .never => True
  | .lower e => e.Settled
  | .upper e => e.Settled

variable {c c₁ c₂ l r : Condition} {op : CompareOp} {f : Condition → Condition}

theorem graft_of_not_isTest (h : c.isTest = false) : c.graft f = f c := by
  cases c with
  | compare | isNull | isNotNull => exact nomatch h
  | _ => rfl

@[simp] theorem graft_id (c : Condition) : c.graft id = c := by
  induction c with
  | compare op l r ih => rw [graft, ih]
  | isNull e ih | isNotNull e ih => rw [graft, ih]
  | _ => rfl

/-- What is put in front of a comparison is put in front of its left operand. -/
theorem graft_graft_compare (f : Condition → Condition) (op : CompareOp) (l r : Condition) :
    (r.graft (.compare op l)).graft f = r.graft (.compare op (l.graft f)) := by
  induction r with
  | compare op' r₁ r₂ ih => rw [graft, graft, ih, graft]
  | isNull e ih | isNotNull e ih => rw [graft, graft, ih, graft]
  | _ => rfl

theorem compares_graft_compare (op : CompareOp) (l r : Condition) :
    (r.graft (.compare op l)).compares = true := by
  induction r with
  | compare => rfl
  | isNull e ih | isNotNull e ih => exact ih
  | _ => rfl

/-- **A condition is grouped where its groups leave no choice.** -/
theorem grouped_of_settled (h : c.grouped.Settled) : c.grouped = c := by
  induction c with
  | compare op l r ihl ihr =>
    rw [grouped] at h ⊢
    have hr : r.grouped.isTest = false := by
      -- a comparison put in front of a comparison or test would be compared or tested
      cases hg : r.grouped with
      | compare op' r₁ r₂ =>
        rw [hg] at h
        exact absurd h.2.2.1 (by rw [compares_graft_compare]; decide)
      | isNull e | isNotNull e =>
        rw [hg] at h
        exact absurd h.2 (by rw [compares_graft_compare]; decide)
      | _ => rfl
    rw [graft_of_not_isTest hr] at h ⊢
    rw [ihl h.1, ihr h.2.1]
  | isNull e ih | isNotNull e ih =>
    rw [grouped] at h ⊢
    rw [ih h.1]
  | and l r ihl ihr | or l r ihl ihr | arithmetic op l r ihl ihr =>
    rw [grouped] at h ⊢
    rw [ihl h.1, ihr h.2]
  | not e ih | like e _ ih | isIn e _ ih | lower e ih | upper e ih =>
    rw [grouped] at h ⊢
    rw [ih h]
  | null | column | parameter | never => rfl

theorem isTest_grouped (c : Condition) : c.grouped.isTest = c.isTest := by
  cases c with
  | compare op l r =>
    rw [grouped]
    cases r.grouped <;> rfl
  | _ => rfl

theorem Settled.grouped_eq (h : c.Settled) : c.grouped = c := by
  induction c with
  | compare op l r ihl ihr =>
    obtain ⟨hl, hr, -, htest⟩ := h
    rw [grouped, graft_of_not_isTest ((isTest_grouped r).trans htest), ihl hl, ihr hr]
  | isNull e ih | isNotNull e ih => rw [grouped, ih h.1]
  | and l r ihl ihr | or l r ihl ihr | arithmetic op l r ihl ihr => rw [grouped, ihl h.1, ihr h.2]
  | not e ih | like e _ ih | isIn e _ ih | lower e ih | upper e ih => rw [grouped, ih h]
  | null | column | parameter | never => rfl

/-- **A settled condition is told by how it is grouped.** -/
theorem Settled.eq_of_grouped_eq (h : c₁.Settled) (hgrouped : c₁.grouped = c₂.grouped) :
    c₁ = c₂ := by
  rw [h.grouped_eq] at hgrouped
  subst hgrouped
  exact grouped_of_settled h

end Condition

/-! ## Names and words -/

/-- A character of a word: words end at blanks and parentheses. -/
def isWordChar (c : Char) : Bool := c != ' ' && c != '(' && c != ')'

/-- A name that stands in a text as a word, or as a part of a qualified one, and is no placeholder. -/
def IsBare (s : String) : Prop :=
  s ≠ "" ∧ s.toList.all (fun c => isWordChar c && c != '.' && !isMarker c) = true

instance (s : String) : Decidable (IsBare s) := inferInstanceAs (Decidable (_ ∧ _))

/-- A condition that is made of columns, parameters, comparisons, connectives and arithmetic. Its
parameters are numbered from one number on up to another, from left to right. -/
inductive Condition.Basic : Nat → Condition → Nat → Prop
  | null {n : Nat} : Basic n .null n
  | column {n : Nat} {qualifier : Option String} {name : String}
      (hqualifier : ∀ q, qualifier = some q → IsBare q) (hname : IsBare name)
      (hnull : qualifier = none → name ≠ "null") : Basic n (.column qualifier name) n
  | parameter {n : Nat} : Basic n (.parameter n) (n + 1)
  | compare {n k m : Nat} {op : CompareOp} {l r : Condition} (hl : Basic n l k) (hr : Basic k r m) :
      Basic n (.compare op l r) m
  | isNull {n m : Nat} {e : Condition} (he : Basic n e m) : Basic n (.isNull e) m
  | isNotNull {n m : Nat} {e : Condition} (he : Basic n e m) : Basic n (.isNotNull e) m
  | and {n k m : Nat} {l r : Condition} (hl : Basic n l k) (hr : Basic k r m) : Basic n (.and l r) m
  | or {n k m : Nat} {l r : Condition} (hl : Basic n l k) (hr : Basic k r m) : Basic n (.or l r) m
  | not {n m : Nat} {e : Condition} (he : Basic n e m) : Basic n (.not e) m
  | arithmetic {n k m : Nat} {op : ArithmeticOp} {l r : Condition} (hl : Basic n l k)
      (hr : Basic k r m) : Basic n (.arithmetic op l r) m

/-! ## Pieces of a text -/

/-- What a text is made of, apart from blanks. -/
inductive Piece
  | word (cs : List Char)
  | parameter (i : Nat)
  | opening
  | closing
deriving DecidableEq

/-- The pieces of a condition. -/
def Condition.pieces : Condition → List Piece
  | .null => [.word "null".toList]
  | .column qualifier name => [.word (columnText qualifier name).toList]
  | .parameter i => [.parameter i]
  | .compare op l r => l.pieces ++ .word op.sql.toList :: r.pieces
  | .isNull e => e.pieces ++ [.word "is".toList, .word "null".toList]
  | .isNotNull e => e.pieces ++ [.word "is".toList, .word "not".toList, .word "null".toList]
  | .and l r => .opening :: (l.pieces ++ .word "AND".toList :: r.pieces) ++ [.closing]
  | .or l r => .opening :: (l.pieces ++ .word "OR".toList :: r.pieces) ++ [.closing]
  | .not e => .word "NOT".toList :: .opening :: e.pieces ++ [.closing]
  | .arithmetic op l r =>
    .opening :: (l.pieces ++ .word op.sql.toList :: r.pieces) ++ [.closing]
  | .like .. => []
  | .isIn .. => []
  | .never => []
  | .lower _ => []
  | .upper _ => []

/-- The pieces behind a word, with the word if there is one. -/
def endWord (word : List Char) (ps : List Piece) : List Piece :=
  if word = [] then ps else .word word :: ps

namespace Dialect

/-- The pieces of a text behind a word that is not at its end yet. The next placeholder is the one
of the `n`-th parameter; of one that is begun `skip` characters are left. -/
def pieces (d : Dialect) (leading : String) : Nat → Nat → List Char → List Char → List Piece
  | _, _, word, [] => endWord word []
  | n, skip + 1, word, _ :: r => d.pieces leading n skip word r
  | n, 0, word, c :: r =>
    if c = ' ' then endWord word (d.pieces leading n 0 [] r)
    else if c = '(' then endWord word (.opening :: d.pieces leading n 0 [] r)
    else if c = ')' then endWord word (.closing :: d.pieces leading n 0 [] r)
    else if c = d.marker then
      endWord word
        (.parameter n :: d.pieces leading (n + 1) (parameterName leading n).toList.length [] r)
    else d.pieces leading n 0 (word ++ [c]) r

variable {d : Dialect} {leading : String} {n m : Nat} {word cs rest : List Char} {c : Condition}

theorem pieces_space :
    d.pieces leading n 0 word (' ' :: rest) = endWord word (d.pieces leading n 0 [] rest) := by
  rw [pieces, if_pos rfl]

theorem pieces_opening : d.pieces leading n 0 word ('(' :: rest) =
    endWord word (.opening :: d.pieces leading n 0 [] rest) := by
  rw [pieces, if_neg (by decide), if_pos rfl]

theorem pieces_closing : d.pieces leading n 0 word (')' :: rest) =
    endWord word (.closing :: d.pieces leading n 0 [] rest) := by
  rw [pieces, if_neg (by decide), if_neg (by decide), if_pos rfl]

/-- The rest of a placeholder is passed over. -/
theorem pieces_skip : d.pieces leading n cs.length word (cs ++ rest) =
    d.pieces leading n 0 word rest := by
  induction cs with
  | nil => rfl
  | cons c r ih => rw [List.length_cons, List.cons_append, pieces, ih]

theorem pieces_placeholder (hd : d.Marks) : d.pieces leading n 0 []
    ((d.placeholder (parameterName leading n)).toList ++ rest) =
      .parameter n :: d.pieces leading (n + 1) 0 [] rest := by
  have hmarker : d.marker ≠ ' ' ∧ d.marker ≠ '(' ∧ d.marker ≠ ')' := by
    unfold Marks isMarker at hd
    rw [Bool.or_eq_true, beq_iff_eq, beq_iff_eq] at hd
    rcases hd with h | h <;> rw [h] <;> decide
  rw [toList_placeholder, List.cons_append, pieces, if_neg hmarker.1, if_neg hmarker.2.1,
    if_neg hmarker.2.2, if_pos rfl, pieces_skip]
  rfl

/-- A word is read to its end. -/
theorem pieces_word (h : ∀ c ∈ cs, isWordChar c = true ∧ c ≠ d.marker) :
    d.pieces leading n 0 word (cs ++ rest) = d.pieces leading n 0 (word ++ cs) rest := by
  induction cs generalizing word with
  | nil => rw [List.nil_append, List.append_nil]
  | cons c r ih =>
    obtain ⟨hword, hmarker⟩ := h c List.mem_cons_self
    simp only [isWordChar, Bool.and_eq_true, bne_iff_ne] at hword
    rw [List.cons_append, pieces, if_neg hword.1.1, if_neg hword.1.2, if_neg hword.2,
      if_neg hmarker, ih fun b hb => h b (List.mem_cons_of_mem _ hb), List.append_assoc]
    rfl

/-- A text goes on behind a word. -/
def EndsWord (cs : List Char) : Prop := ∀ c ∈ cs.head?, c = ' ' ∨ c = ')'

theorem endsWord_space (cs : List Char) : EndsWord (' ' :: cs) :=
  fun _ hc => .inl (Option.some.inj hc).symm

theorem endsWord_closing (cs : List Char) : EndsWord (')' :: cs) :=
  fun _ hc => .inr (Option.some.inj hc).symm

theorem pieces_endsWord (h : EndsWord rest) :
    d.pieces leading n 0 word rest = endWord word (d.pieces leading n 0 [] rest) := by
  cases rest with
  | nil =>
    rw [pieces, pieces]
    rfl
  | cons c r =>
    rcases h c rfl with rfl | rfl
    · rw [pieces_space, pieces_space]
      rfl
    · rw [pieces_closing, pieces_closing]
      rfl

/-- A word that has no marker in it. -/
def IsWord (d : Dialect) (cs : List Char) : Prop :=
  cs ≠ [] ∧ ∀ c ∈ cs, isWordChar c = true ∧ c ≠ d.marker

/-- A word of letters and signs is a word in every dialect. -/
theorem Marks.isWord (hd : d.Marks) (hne : cs ≠ [])
    (h : cs.all (fun c => isWordChar c && !isMarker c) = true) : d.IsWord cs := by
  refine ⟨hne, fun c hc => ?_⟩
  have hchar := List.all_eq_true.mp h c hc
  rw [Bool.and_eq_true, Bool.not_eq_true'] at hchar
  refine ⟨hchar.1, ?_⟩
  rintro rfl
  rw [hd] at hchar
  exact nomatch hchar.2

/-- A word at the end of a text. -/
theorem pieces_last (h : d.IsWord cs) (hrest : EndsWord rest) :
    d.pieces leading n 0 [] (cs ++ rest) = .word cs :: d.pieces leading n 0 [] rest := by
  rw [pieces_word h.2, pieces_endsWord hrest, List.nil_append, endWord, if_neg h.1]

/-- A word behind a blank. -/
theorem pieces_behind (h : d.IsWord cs) (hrest : EndsWord rest) :
    d.pieces leading n 0 [] (' ' :: (cs ++ rest)) =
      .word cs :: d.pieces leading n 0 [] rest := by
  rw [pieces_space, endWord, if_pos rfl, pieces_last h hrest]

/-- A word between blanks. -/
theorem pieces_between (h : d.IsWord cs) :
    d.pieces leading n 0 [] (' ' :: (cs ++ ' ' :: rest)) =
      .word cs :: d.pieces leading n 0 [] rest := by
  rw [pieces_behind h (endsWord_space rest), pieces_space, endWord, if_pos rfl]

theorem isWord_columnText (hd : d.Marks) {qualifier : Option String} {name : String}
    (hqualifier : ∀ q, qualifier = some q → IsBare q) (hname : IsBare name) :
    d.IsWord (Condition.columnText qualifier name).toList := by
  have hpart : ∀ {s}, IsBare s → s.toList.all (fun c => isWordChar c && !isMarker c) = true := by
    intro s hs
    refine List.all_eq_true.mpr fun c hc => ?_
    have hchar := List.all_eq_true.mp hs.2 c hc
    simp only [Bool.and_eq_true] at hchar ⊢
    exact ⟨hchar.1.1, hchar.2⟩
  have hne : name.toList ≠ [] := fun h => hname.1 (String.toList_inj.mp h)
  cases qualifier with
  | none => exact hd.isWord hne (hpart hname)
  | some q =>
    have htext : (Condition.columnText (some q) name).toList = q.toList ++ '.' :: name.toList := by
      simp [Condition.columnText]
    rw [htext]
    refine hd.isWord (by simp) ?_
    rw [List.all_append, List.all_cons, hpart (hqualifier q rfl), hpart hname]
    decide

theorem isWord_compareOp (hd : d.Marks) (op : CompareOp) : d.IsWord op.sql.toList := by
  cases op <;> exact hd.isWord (by decide) (by decide)

theorem isWord_arithmeticOp (hd : d.Marks) (op : ArithmeticOp) : d.IsWord op.sql.toList := by
  cases op <;> exact hd.isWord (by decide) (by decide)

/-- The pieces of an operation in parentheses. -/
theorem pieces_enclosed {l r operator : List Char} {ls rs : List Piece} {k : Nat}
    (hoperator : d.IsWord operator)
    (hl : ∀ {rest}, EndsWord rest →
      d.pieces leading n 0 [] (l ++ rest) = ls ++ d.pieces leading k 0 [] rest)
    (hr : ∀ {rest}, EndsWord rest →
      d.pieces leading k 0 [] (r ++ rest) = rs ++ d.pieces leading m 0 [] rest) :
    d.pieces leading n 0 [] ('(' :: (l ++ ' ' :: (operator ++ ' ' :: (r ++ ')' :: rest)))) =
      .opening :: (ls ++ .word operator :: rs) ++ [.closing] ++ d.pieces leading m 0 [] rest := by
  rw [pieces_opening, endWord, if_pos rfl, hl (endsWord_space _), pieces_between hoperator,
    hr (endsWord_closing _), pieces_closing, endWord, if_pos rfl]
  simp

/-- **The pieces of a condition's text are those of the condition.** -/
theorem pieces_text (hd : d.Marks) {placeholder : Nat → String}
    (hplaceholder : ∀ i, placeholder i = d.placeholder (parameterName leading i))
    (h : c.Basic n m) (hrest : EndsWord rest) :
    d.pieces leading n 0 [] ((c.text placeholder).toList ++ rest) =
      c.pieces ++ d.pieces leading m 0 [] rest := by
  have hword : ∀ {s : String}, s.toList ≠ [] →
      s.toList.all (fun c => isWordChar c && !isMarker c) = true → d.IsWord s.toList :=
    fun hne hall => hd.isWord hne hall
  have his : d.IsWord "is".toList := hword (by decide) (by decide)
  have hnot : d.IsWord "not".toList := hword (by decide) (by decide)
  have hnull : d.IsWord "null".toList := hword (by decide) (by decide)
  induction h generalizing rest with
  | null => exact pieces_last hnull hrest
  | column hqualifier hname => exact pieces_last (isWord_columnText hd hqualifier hname) hrest
  | parameter =>
    rw [Condition.text, hplaceholder]
    exact pieces_placeholder hd
  | @compare n k m op l r _ _ ihl ihr =>
    have htext : (Condition.text placeholder (.compare op l r)).toList ++ rest =
        (l.text placeholder).toList ++
          ' ' :: (op.sql.toList ++ ' ' :: ((r.text placeholder).toList ++ rest)) := by
      simp [Condition.text]
    rw [htext, ihl (endsWord_space _), pieces_between (isWord_compareOp hd op), ihr hrest,
      Condition.pieces, List.append_assoc, List.cons_append]
  | @isNull n m e _ ih =>
    have htext : (Condition.text placeholder (.isNull e)).toList ++ rest =
        (e.text placeholder).toList ++ ' ' :: ("is".toList ++ ' ' :: ("null".toList ++ rest)) := by
      simp [Condition.text]
    rw [htext, ih (endsWord_space _), pieces_between his, pieces_last hnull hrest,
      Condition.pieces, List.append_assoc]
    rfl
  | @isNotNull n m e _ ih =>
    have htext : (Condition.text placeholder (.isNotNull e)).toList ++ rest =
        (e.text placeholder).toList ++ ' ' :: ("is".toList ++
          ' ' :: ("not".toList ++ ' ' :: ("null".toList ++ rest))) := by
      simp [Condition.text]
    have hbehind : d.pieces leading m 0 [] ("not".toList ++ ' ' :: ("null".toList ++ rest)) =
        .word "not".toList :: .word "null".toList :: d.pieces leading m 0 [] rest := by
      rw [pieces_last hnot (endsWord_space _), pieces_behind hnull hrest]
    rw [htext, ih (endsWord_space _), pieces_between his, hbehind, Condition.pieces,
      List.append_assoc]
    rfl
  | @and n k m l r _ _ ihl ihr =>
    have htext : (Condition.text placeholder (.and l r)).toList ++ rest =
        '(' :: ((l.text placeholder).toList ++ ' ' :: ("AND".toList ++
          ' ' :: ((r.text placeholder).toList ++ ')' :: rest))) := by
      simp [Condition.text]
    rw [htext]
    exact pieces_enclosed (hword (by decide) (by decide)) ihl ihr
  | @or n k m l r _ _ ihl ihr =>
    have htext : (Condition.text placeholder (.or l r)).toList ++ rest =
        '(' :: ((l.text placeholder).toList ++ ' ' :: ("OR".toList ++
          ' ' :: ((r.text placeholder).toList ++ ')' :: rest))) := by
      simp [Condition.text]
    rw [htext]
    exact pieces_enclosed (hword (by decide) (by decide)) ihl ihr
  | @arithmetic n k m op l r _ _ ihl ihr =>
    have htext : (Condition.text placeholder (.arithmetic op l r)).toList ++ rest =
        '(' :: ((l.text placeholder).toList ++ ' ' :: (op.sql.toList ++
          ' ' :: ((r.text placeholder).toList ++ ')' :: rest))) := by
      simp [Condition.text]
    rw [htext]
    exact pieces_enclosed (isWord_arithmeticOp hd op) ihl ihr
  | @not n m e _ ih =>
    have htext : (Condition.text placeholder (.not e)).toList ++ rest =
        "NOT".toList ++ ' ' :: '(' :: ((e.text placeholder).toList ++ ')' :: rest) := by
      simp [Condition.text]
    rw [htext, pieces_last (hword (by decide) (by decide)) (endsWord_space _), pieces_space,
      pieces_opening, ih (endsWord_closing _), pieces_closing, Condition.pieces]
    simp [endWord]

end Dialect

/-! ## Reading pieces -/

/-- What is open while pieces are read: a parenthesis, also with an operand and an operator in it, or
a negation. What is read in it becomes part of what was begun before. -/
inductive Unclosed
  | group (f : Condition → Condition)
  | joined (operator : List Char) (l : Condition) (f : Condition → Condition)
  | not (f : Condition → Condition)

/-- What is read next: an operand that becomes part of something, what stands behind an operand, or
the rest of a test. -/
inductive Awaited
  | operand (f : Condition → Condition)
  | behind (e : Condition)
  | test (e : Condition)
  | negatedTest (e : Condition)

/-- The operand that a word is. -/
def wordOperand (w : List Char) : Condition :=
  if w = "null".toList then .null
  else match w.dropWhile (· != '.') with
    | [] => .column none (String.ofList w)
    | _ :: name => .column (some (String.ofList (w.takeWhile (· != '.')))) (String.ofList name)

/-- The operation of an operator in parentheses. -/
def operation (w : List Char) : Condition → Condition → Condition :=
  if w = "AND".toList then .and
  else if w = "OR".toList then .or
  else match ArithmeticOp.all.find? fun op => op.sql.toList == w with
    | some op => .arithmetic op
    | none => .and

/-- The comparison of a sign. -/
def CompareOp.ofSign? (w : List Char) : Option CompareOp := all.find? fun op => op.sql.toList == w

/-- What is open once an operand and an operator have been read in a parenthesis. -/
def joinOperand (w : List Char) (e : Condition) : List Unclosed → Option (List Unclosed)
  | .group f :: stack => some (.joined w e f :: stack)
  | _ => none

/-- Reads pieces from left to right. -/
def readPieces : Awaited → List Unclosed → List Piece → Option Condition
  | .operand f, stack, .parameter i :: rest => readPieces (.behind (f (.parameter i))) stack rest
  | .operand f, stack, .opening :: rest => readPieces (.operand id) (.group f :: stack) rest
  | .operand f, stack, .word _ :: .opening :: rest => readPieces (.operand id) (.not f :: stack) rest
  | .operand f, stack, .word w :: rest => readPieces (.behind (f (wordOperand w))) stack rest
  | .behind e, stack, .word w :: rest =>
    match CompareOp.ofSign? w with
    | some op => readPieces (.operand (.compare op e)) stack rest
    | none =>
      if w = "is".toList then readPieces (.test e) stack rest
      else match joinOperand w e stack with
        | some stack => readPieces (.operand id) stack rest
        | none => none
  | .behind e, .joined w l f :: stack, .closing :: rest =>
    readPieces (.behind (f (operation w l e))) stack rest
  | .behind e, .not f :: stack, .closing :: rest => readPieces (.behind (f (.not e))) stack rest
  | .behind e, [], [] => some e
  | .test e, stack, .word w :: rest =>
    if w = "null".toList then readPieces (.behind (.isNull e)) stack rest
    else readPieces (.negatedTest e) stack rest
  | .negatedTest e, stack, .word _ :: rest => readPieces (.behind (.isNotNull e)) stack rest
  | _, _, _ => none

variable {d : Dialect} {leading : String} {n m : Nat} {c c₁ c₂ : Condition}

theorem ofSign?_sql (op : CompareOp) : CompareOp.ofSign? op.sql.toList = some op := by
  cases op <;> rfl

theorem operation_arithmetic (op : ArithmeticOp) : operation op.sql.toList = .arithmetic op := by
  cases op <;> rfl

/-- A column is told by its word. -/
theorem wordOperand_columnText {qualifier : Option String} {name : String}
    (hqualifier : ∀ q, qualifier = some q → IsBare q) (hname : IsBare name)
    (hnull : qualifier = none → name ≠ "null") :
    wordOperand (Condition.columnText qualifier name).toList = .column qualifier name := by
  have hdot : ∀ {s}, IsBare s → ∀ c ∈ s.toList, (c != '.') = true := by
    intro s hs c hc
    have hchar := List.all_eq_true.mp hs.2 c hc
    simp only [Bool.and_eq_true] at hchar
    exact hchar.1.2
  unfold wordOperand
  cases qualifier with
  | none =>
    have hne : (Condition.columnText none name).toList ≠ "null".toList :=
      fun h => hnull rfl (String.toList_inj.mp h)
    have hdrop : name.toList.dropWhile (· != '.') = [] :=
      List.dropWhile_eq_nil_iff.mpr (hdot hname)
    rw [if_neg hne]
    simp only [Condition.columnText, hdrop, String.ofList_toList]
  | some q =>
    have htext : (Condition.columnText (some q) name).toList = q.toList ++ '.' :: name.toList := by
      simp [Condition.columnText]
    have hne : q.toList ++ '.' :: name.toList ≠ "null".toList := by
      intro h
      have hmem : '.' ∈ "null".toList := h ▸ List.mem_append_right _ List.mem_cons_self
      exact absurd hmem (by decide)
    have hdrop : (q.toList ++ '.' :: name.toList).dropWhile (· != '.') = '.' :: name.toList := by
      rw [List.dropWhile_append_of_pos (hdot (hqualifier q rfl))]
      rfl
    have htake : (q.toList ++ '.' :: name.toList).takeWhile (· != '.') = q.toList := by
      rw [List.takeWhile_append_of_pos (hdot (hqualifier q rfl))]
      simp
    rw [htext, if_neg hne, hdrop, htake]
    simp only [String.ofList_toList]

/-- Reading operands up to what stands behind them. -/
def ReadsOperand (ps : List Piece) (e : Condition) : Prop :=
  ∀ (f : Condition → Condition) (stack : List Unclosed) {rest : List Piece},
    rest.head? ≠ some .opening →
      readPieces (.operand f) stack (ps ++ rest) = readPieces (.behind (e.graft f)) stack rest

/-- An operation in parentheses is read as one operand. -/
theorem readsOperand_enclosed {w : List Char} {ls rs : List Piece} {l r e : Condition}
    (hsign : CompareOp.ofSign? w = none) (his : w ≠ "is".toList) (hl : ReadsOperand ls l)
    (hr : ReadsOperand rs r) (he : operation w l r = e) (htest : e.isTest = false) :
    ReadsOperand (.opening :: (ls ++ .word w :: rs) ++ [.closing]) e := by
  intro f stack rest _
  have hpieces : .opening :: (ls ++ .word w :: rs) ++ [.closing] ++ rest =
      .opening :: (ls ++ .word w :: (rs ++ .closing :: rest)) := by simp
  have hjoin : ∀ {rest : List Piece},
      readPieces (.behind l) (.group f :: stack) (.word w :: rest) =
        readPieces (.operand id) (.joined w l f :: stack) rest := by
    intro rest
    rw [readPieces, hsign]
    simp only [if_neg his, joinOperand]
  rw [hpieces, readPieces, hl id _ (by simp), Condition.graft_id, hjoin, hr id _ (by simp),
    Condition.graft_id, readPieces, he, Condition.graft_of_not_isTest htest]

/-- **Reading the pieces of a condition gives the condition**, grouped to the left with what stands
before it. -/
theorem readsOperand_pieces (h : c.Basic n m) : ReadsOperand c.pieces c.grouped := by
  have hword : ∀ {f stack w} {rest : List Piece}, rest.head? ≠ some .opening →
      readPieces (.operand f) stack (.word w :: rest) =
        readPieces (.behind (f (wordOperand w))) stack rest := by
    intro f stack w rest hrest
    cases rest with
    | nil => rfl
    | cons p rest =>
      cases p with
      | opening => exact absurd rfl hrest
      | word | parameter | closing => rfl
  induction h with
  | null => exact fun f stack rest hrest => hword hrest
  | column hqualifier hname hnull =>
    intro f stack rest hrest
    rw [Condition.pieces, List.singleton_append, hword hrest,
      wordOperand_columnText hqualifier hname hnull]
    rfl
  | parameter => exact fun _ _ _ _ => rfl
  | @compare n k m op l r _ _ ihl ihr =>
    intro f stack rest hrest
    have hsign : ∀ {e stack} {rest : List Piece},
        readPieces (.behind e) stack (.word op.sql.toList :: rest) =
          readPieces (.operand (.compare op e)) stack rest := by
      intro e stack rest
      rw [readPieces, ofSign?_sql]
    rw [Condition.pieces, List.append_assoc, ihl f stack (by simp), List.cons_append, hsign,
      ihr _ stack hrest, Condition.grouped, Condition.graft_graft_compare]
  | isNull _ ih =>
    intro f stack rest _
    rw [Condition.pieces, List.append_assoc, ih f stack (by simp)]
    rfl
  | isNotNull _ ih =>
    intro f stack rest _
    rw [Condition.pieces, List.append_assoc, ih f stack (by simp)]
    rfl
  | and _ _ ihl ihr =>
    exact readsOperand_enclosed (by decide) (by decide) ihl ihr rfl rfl
  | or _ _ ihl ihr =>
    exact readsOperand_enclosed (by decide) (by decide) ihl ihr rfl rfl
  | @arithmetic n k m op l r _ _ ihl ihr =>
    have hsign : CompareOp.ofSign? op.sql.toList = none ∧ op.sql.toList ≠ "is".toList := by
      cases op <;> decide
    refine readsOperand_enclosed hsign.1 hsign.2 ihl ihr ?_ rfl
    rw [operation_arithmetic]
    rfl
  | @not n m e _ ih =>
    intro f stack rest _
    have hopen : readPieces (.operand f) stack (Condition.pieces (.not e) ++ rest) =
        readPieces (.operand id) (.not f :: stack) (e.pieces ++ .closing :: rest) := by
      rw [Condition.pieces]
      simp [readPieces]
    rw [hopen, ih id _ (by simp), Condition.graft_id]
    rfl

/-- **Conditions of one text are grouped alike.** -/
theorem grouped_eq_of_text_eq (hd : d.Marks) {m₁ m₂ : Nat} (h₁ : c₁.Basic 0 m₁)
    (h₂ : c₂.Basic 0 m₂)
    (htext : (c₁.text fun i => d.placeholder (parameterName leading i)) =
      c₂.text fun i => d.placeholder (parameterName leading i)) : c₁.grouped = c₂.grouped := by
  have hread : ∀ {c : Condition} {m : Nat}, c.Basic 0 m → readPieces (.operand id) []
      (d.pieces leading 0 0 [] (c.text fun i => d.placeholder (parameterName leading i)).toList) =
        some c.grouped := by
    intro c m h
    have hpieces : d.pieces leading 0 0 []
        ((c.text fun i => d.placeholder (parameterName leading i)).toList ++ []) =
          c.pieces ++ d.pieces leading m 0 [] [] :=
      Dialect.pieces_text hd (fun _ => rfl) h nofun
    have hend : d.pieces leading m 0 [] [] = [] := rfl
    rw [List.append_nil, hend] at hpieces
    rw [hpieces, readsOperand_pieces h id [] (by simp), Condition.graft_id]
    rfl
  have hgrouped := hread h₁
  rw [htext, hread h₂] at hgrouped
  exact (Option.some.inj hgrouped).symm

end EntityMapper
