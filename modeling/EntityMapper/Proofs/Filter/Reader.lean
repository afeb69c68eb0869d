import EntityMapper.Proofs.Filter.Lexeme
import EntityMapper.Value

/-!
# Reading a condition

A condition is read from left to right with what is still open kept on a stack: parentheses, calls
and lists that are not closed, negations and left operands that wait for what comes behind. What
follows an operand decides how much of the stack is settled before it: `OR` binds less tightly than
`AND`, then `NOT`, then the comparisons with `IS`, `LIKE` and `IN`, then sums, then products; equals
are grouped to the left. A parameter stands for the value that is bound to it.
-/

namespace EntityMapper

/-! ## What a condition says -/

/-- What a condition or an operand says. -/
inductive Sentence
  | null
  | truth (b : Bool)
  | number (n : Nat)
  | value (v : Value)
  | column (qualifier : Option String) (name : String)
  | call (function : String) (argument : Sentence)
  | arithmetic (op : ArithmeticOp) (left right : Sentence)
  | compare (op : CompareOp) (left right : Sentence)
  | isNull (e : Sentence)
  | isNotNull (e : Sentence)
  | like (e pattern : Sentence)
  | isIn (e : Sentence) (items : List Sentence)
  | and (left right : Sentence)
  | or (left right : Sentence)
  | not (e : Sentence)
deriving Inhabited

/-- Whether a comparison holds of two numbers. -/
def CompareOp.holds : CompareOp → Nat → Nat → Bool
  | .eq, m, n => m == n
  | .ne, m, n => m != n
  | .lt, m, n => m < n
  | .lte, m, n => m ≤ n
  | .gt, m, n => n < m
  | .gte, m, n => n ≤ m

/-- The comparison of two operands; of two numbers it is known whether it holds. -/
def Sentence.comparison (op : CompareOp) : Sentence → Sentence → Sentence
  | .number m, .number n => .truth (op.holds m n)
  | l, r => .compare op l r

/-! ## Operators -/

/-- What can stand between two operands. -/
inductive Joint
  | or
  | and
  | compare (op : CompareOp)
  | like
  | arithmetic (op : ArithmeticOp)
deriving DecidableEq, Repr

namespace Joint

/-- How tightly negation binds. -/
def negationLevel : Nat := 3

/-- How tightly comparisons and tests bind. -/
def testLevel : Nat := 4

theorem le_testLevel {least : Nat} (h : least ≤ negationLevel) : least ≤ testLevel :=
  Nat.le_succ_of_le h

/-- How tightly an operator binds. -/
def level : Joint → Nat
  | .or => 1
  | .and => 2
  | .compare _ => testLevel
  | .like => testLevel
  | .arithmetic .add => 5
  | .arithmetic .sub => 5
  | .arithmetic .mul => 6
  | .arithmetic .div => 6

/-- What an operator says of its operands. -/
def build : Joint → Sentence → Sentence → Sentence
  | .or, l, r => .or l r
  | .and, l, r => .and l r
  | .compare op, l, r => .comparison op l r
  | .like, l, r => .like l r
  | .arithmetic op, l, r => .arithmetic op l r

end Joint

/-- The operator that a lexeme is. -/
def SqlLexeme.joint? : SqlLexeme → Option Joint
  | .keyword .or => some .or
  | .keyword .and => some .and
  | .keyword .like => some .like
  | .compare op => some (.compare op)
  | .arithmetic op => some (.arithmetic op)
  | _ => none

/-! ## What is open -/

/-- What waits for the operand that is being read. -/
inductive Pending
  | group
  | call (function : String)
  | items (e : Sentence) (before : List Sentence)
  | not
  | joint (j : Joint) (left : Sentence)

/-- Gives an operand to all that waits for it and binds at least so tightly. -/
def settle (least : Nat) : List Pending → Sentence → List Pending × Sentence
  | .joint j l :: stack, e =>
    if least ≤ j.level then settle least stack (j.build l e) else (.joint j l :: stack, e)
  | .not :: stack, e =>
    if least ≤ Joint.negationLevel then settle least stack (.not e) else (.not :: stack, e)
  | .group :: stack, e => (.group :: stack, e)
  | .call f :: stack, e => (.call f :: stack, e)
  | .items target before :: stack, e => (.items target before :: stack, e)
  | [], e => ([], e)

/-- What a closing parenthesis closes. -/
def close : List Pending × Sentence → Option (List Pending × Sentence)
  | (.group :: stack, e) => some (stack, e)
  | (.call f :: stack, e) => some (stack, .call f e)
  | (.items target before :: stack, e) => some (stack, .isIn target (before ++ [e]))
  | _ => none

/-! ## Reading -/

mutual

/-- Reads on where an operand has to come. -/
def readOperand (values : String → Option Value) (stack : List Pending) :
    List SqlLexeme → Option Sentence
  | .keyword .not :: rest => readOperand values (.not :: stack) rest
  | .keyword .null :: rest => readOn values stack .null rest
  | .opening :: rest => readOperand values (.group :: stack) rest
  | .number n :: rest => readOn values stack (.number n) rest
  | .parameter name :: rest =>
    match values name with
    | some v => readOn values stack (.value v) rest
    | none => none
  | .word f :: .opening :: rest => readOperand values (.call f :: stack) rest
  | .word q :: .dot :: .word name :: rest => readOn values stack (.column (some q) name) rest
  | .word name :: rest => readOn values stack (.column none name) rest
  | _ => none

/-- Reads on behind an operand. -/
def readOn (values : String → Option Value) (stack : List Pending) (e : Sentence) :
    List SqlLexeme → Option Sentence
  | [] =>
    match settle 0 stack e with
    | ([], e) => some e
    | _ => none
  | .keyword .is :: .keyword .null :: rest =>
    let (stack, e) := settle Joint.testLevel stack e
    readOn values stack (.isNull e) rest
  | .keyword .is :: .keyword .not :: .keyword .null :: rest =>
    let (stack, e) := settle Joint.testLevel stack e
    readOn values stack (.isNotNull e) rest
  | .keyword .isIn :: .opening :: rest =>
    let (stack, e) := settle Joint.testLevel stack e
    readOperand values (.items e [] :: stack) rest
  | .comma :: rest =>
    match settle 0 stack e with
    | (.items target before :: stack, e) =>
      readOperand values (.items target (before ++ [e]) :: stack) rest
    | _ => none
  | .closing :: rest =>
    match close (settle 0 stack e) with
    | some (stack, e) => readOn values stack e rest
    | none => none
  | x :: rest =>
    match x.joint? with
    | some j =>
      let (stack, l) := settle j.level stack e
      readOperand values (.joint j l :: stack) rest
    | none => none

end

/-- What the text of a condition says, if it is one. -/
def readCondition (values : String → Option Value) (text : String) : Option Sentence :=
  readOperand values [] (lexemes text.toList)

/-! ## Settling -/

theorem settle_joint_of_le {least : Nat} {j : Joint} (h : least ≤ j.level) (l : Sentence)
    (stack : List Pending) (e : Sentence) :
    settle least (.joint j l :: stack) e = settle least stack (j.build l e) := by
  rw [settle, if_pos h]

theorem settle_not_of_le {least : Nat} (h : least ≤ Joint.negationLevel) (stack : List Pending)
    (e : Sentence) : settle least (.not :: stack) e = settle least stack (.not e) := by
  rw [settle, if_pos h]

/-- Nothing that binds as tightly as a negation waits. -/
def Loose (stack : List Pending) : Prop :=
  ∀ least, Joint.negationLevel ≤ least → ∀ e, settle least stack e = (stack, e)

theorem loose_nil : Loose [] := fun _ _ _ => by rw [settle]

theorem loose_group (stack : List Pending) : Loose (.group :: stack) := fun _ _ _ => by rw [settle]

theorem loose_joint {j : Joint} (h : j.level < Joint.negationLevel) (l : Sentence)
    (stack : List Pending) : Loose (.joint j l :: stack) := fun least hleast e => by
  rw [settle, if_neg (by omega)]

/-- **What binds less tightly settles what binds more tightly**, and equals go to the left. -/
theorem readOn_joint {values : String → Option Value} {x : SqlLexeme} {j : Joint}
    (h : x.joint? = some j) (stack : List Pending) (e : Sentence) (rest : List SqlLexeme) :
    readOn values stack e (x :: rest) =
      readOperand values (.joint j (settle j.level stack e).2 :: (settle j.level stack e).1)
        rest := by
  cases x with
  | keyword k =>
    cases k with
    | or | and | like =>
      obtain rfl := Option.some.inj h
      rfl
    | not | is | null | isIn => exact nomatch h
  | compare op =>
    obtain rfl := Option.some.inj h
    rfl
  | arithmetic op =>
    obtain rfl := Option.some.inj h
    rfl
  | word | number | parameter | opening | closing | comma | dot | unknown => exact nomatch h

example : readCondition (fun _ => none) "a is null OR NOT b.c + d * 2 < lower(e) AND 1 = 0" =
    some (.or (.isNull (.column none "a"))
      (.and (.not (.compare .lt
          (.arithmetic .add (.column (some "b") "c")
            (.arithmetic .mul (.column none "d") (.number 2)))
          (.call "lower" (.column none "e"))))
        (.truth false))) := by
  rfl

end EntityMapper
