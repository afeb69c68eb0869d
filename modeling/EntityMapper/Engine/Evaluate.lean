import EntityMapper.Engine.Store
import EntityMapper.Text.Like

/-!
# Evaluating expressions

Names are resolved to places in a row before anything is evaluated. A truth value may be unknown: a
comparison with null is, and so is a connective that it decides. Arithmetic is exact on integers as
long as it fits, and a division by zero is null.
-/

namespace EntityMapper.Engine

/-! ## Resolving names -/

/-- A column that can be named, and the table or alias that it belongs to. -/
structure ScopeColumn where
  table : String
  name : String
  affinity : Affinity
deriving Inhabited

/-- A place in a row. -/
structure Place where
  index : Nat
  affinity : Affinity
deriving Inhabited

/-- The columns of a table under an alias. -/
def scopeOf (tableAlias : String) (t : StoredTable) : List ScopeColumn :=
  t.columns.map fun c => ⟨tableAlias, c.name, c.affinity⟩

/-- The place of a column, of which there has to be exactly one. -/
def placeOf (scope : List ScopeColumn) (c : ColumnName) : Except SqlError Place :=
  let fits (s : ScopeColumn) : Bool := sameName s.name c.name && c.qualifier.all (sameName s.table)
  match scope.zipIdx.filter fun e => fits e.1 with
  | [] => .error (.noSuchColumn c)
  | [(s, i)] => .ok ⟨i, s.affinity⟩
  | _ => .error (.ambiguousColumn c)

namespace SqlExpr

mutual

/-- Resolves the names in an expression; the first that cannot be resolved is at fault. -/
def resolve (scope : List ScopeColumn) : SqlExpr ColumnName → Except SqlError (SqlExpr Place)
  | .literal c => .ok (.literal c)
  | .parameter n => .ok (.parameter n)
  | .column c => .column <$> placeOf scope c
  | .negate e => .negate <$> e.resolve scope
  | .not e => .not <$> e.resolve scope
  | .and l r => do return .and (← l.resolve scope) (← r.resolve scope)
  | .or l r => do return .or (← l.resolve scope) (← r.resolve scope)
  | .compare op l r => do return .compare op (← l.resolve scope) (← r.resolve scope)
  | .same l r => do return .same (← l.resolve scope) (← r.resolve scope)
  | .arithmetic op l r => do return .arithmetic op (← l.resolve scope) (← r.resolve scope)
  | .concat l r => do return .concat (← l.resolve scope) (← r.resolve scope)
  | .like e p => do return .like (← e.resolve scope) (← p.resolve scope)
  | .isIn e items => do return .isIn (← e.resolve scope) (← resolveAll scope items)
  | .cast e a => do return .cast (← e.resolve scope) a
  | .call f name args =>
    if f = .other then .error (.noSuchFunction name.name name.offset)
    else if args.length ≠ f.arity then .error (.wrongArguments name.name name.offset)
    else .call f name <$> resolveAll scope args

/-- Resolves the names in several expressions. -/
def resolveAll (scope : List ScopeColumn) :
    List (SqlExpr ColumnName) → Except SqlError (List (SqlExpr Place))
  | [] => .ok []
  | e :: rest => do return (← e.resolve scope) :: (← resolveAll scope rest)

end

mutual

/-- Whether rows are counted in an expression. -/
def counts : SqlExpr Place → Bool
  | .negate e => e.counts
  | .not e => e.counts
  | .and l r => l.counts || r.counts
  | .or l r => l.counts || r.counts
  | .compare _ l r => l.counts || r.counts
  | .same l r => l.counts || r.counts
  | .arithmetic _ l r => l.counts || r.counts
  | .concat l r => l.counts || r.counts
  | .like e p => e.counts || p.counts
  | .isIn e items => e.counts || countsAny items
  | .cast e _ => e.counts
  | .call f _ args => f == .count || countsAny args
  | _ => false

/-- Whether rows are counted in one of several expressions. -/
def countsAny : List (SqlExpr Place) → Bool
  | [] => false
  | e :: rest => e.counts || countsAny rest

end

/-- The affinity of an expression: only columns and casts have one. -/
def affinity : SqlExpr Place → Affinity
  | .column p => p.affinity
  | .cast _ a => a
  | _ => .none

end SqlExpr

/-! ## Operations on cells -/

/-- The truth of two conditions together. -/
def bothTrue (a b : Option Bool) : Option Bool :=
  if a == some false || b == some false then some false
  else if a == some true && b == some true then some true else none

/-- The truth of one condition or another. -/
def eitherTrue (a b : Option Bool) : Option Bool :=
  if a == some true || b == some true then some true
  else if a == some false && b == some false then some false else none

/-- Whether an order is what a comparison asks for. -/
def meets (op : CompareOp) (o : Ordering) : Bool :=
  match op with
  | .eq => o == .eq
  | .ne => o != .eq
  | .lt => o == .lt
  | .lte => o != .gt
  | .gt => o == .gt
  | .gte => o != .lt

/-- Compares two cells; with null nothing is known. -/
def compareCells (op : CompareOp) (a : Affinity) (x y : Cell) : Option Bool :=
  if x.isNull || y.isNull then none else some (meets op ((a.adjust x).order (a.adjust y)))

/-- Whether two cells are the same, null being the same as null. -/
def sameCells (a : Affinity) (x y : Cell) : Bool :=
  match x.isNull, y.isNull with
  | false, false => (a.adjust x).order (a.adjust y) == .eq
  | nx, ny => nx && ny

/-- Whether a cell is among others. -/
def among (a : Affinity) (x : Cell) (items : List Cell) : Option Bool :=
  if items.isEmpty then some false
  else if x.isNull then none
  else if items.any fun y => compareCells .eq a x y == some true then some true
  else if items.any Cell.isNull then none else some false

/-- An operation on integers; where the result does not fit there is none. -/
def integerResult (op : ArithmeticOp) (n m : Int) : Option Int64 :=
  match op with
  | .add => int64? (n + m)
  | .sub => int64? (n - m)
  | .mul => int64? (n * m)
  | .div => int64? (Int.tdiv n m)

/-- An operation on real numbers. -/
def realResult (op : ArithmeticOp) (x y : Double) : Double :=
  match op with
  | .add => x.add y
  | .sub => x.sub y
  | .mul => x.mul y
  | .div => x.div y

/-- An arithmetic operation on numbers. -/
def arithmeticResult (op : ArithmeticOp) (x y : Cell) : Cell :=
  if x.isNull || y.isNull then .null
  else if op = .div ∧ y.toDouble.isZero then .null
  else match x, y with
    | .int n, .int m =>
      (integerResult op n.toInt m.toInt).elim
        (.ofDouble (realResult op (.ofInt n.toInt) (.ofInt m.toInt))) .int
    | x, y => .ofDouble (realResult op x.toDouble y.toDouble)

/-- A number with the other sign. -/
def negated (c : Cell) : Cell :=
  match c.number with
  | .int n => .ofInt (-n.toInt)
  | .real x => .ofDouble ((Double.zero false).sub x)
  | c => c

/-- A text with its letters changed. -/
def mapText (f : Char → Char) (c : Cell) : Cell :=
  c.text?.elim .null fun s => .text (String.ofList (s.toList.map f))

/-- A text up to its first null character. -/
def untilNull (s : String) : List Char := s.toList.takeWhile (· != '\x00')

/-- Whether a pattern matches. For both sides a null character is the end. -/
def matchesPattern (c pattern : Cell) : Option Bool := do
  return likeMatches foldLetter (untilNull (← pattern.text?)) (untilNull (← c.text?))

/-! ## Evaluating -/

/-- What an expression is evaluated in. -/
structure Frame where
  parameter : String → Cell
  lastRowId : Int
  row : List Cell := []
  /-- the rows that are counted -/
  group : List (List Cell) := []

namespace SqlExpr

mutual

/-- The value of an expression. -/
def eval : SqlExpr Place → Frame → Cell
  | .literal c, _ => c
  | .parameter n, f => f.parameter n
  | .column p, f => (f.row[p.index]?).getD .null
  | .negate e, f => negated (e.eval f)
  | .not e, f => .ofTruth ((e.eval f).truth.map Bool.not)
  | .and l r, f => .ofTruth (bothTrue (l.eval f).truth (r.eval f).truth)
  | .or l r, f => .ofTruth (eitherTrue (l.eval f).truth (r.eval f).truth)
  | .compare op l r, f =>
    .ofTruth (compareCells op (.ofComparison l.affinity r.affinity) (l.eval f) (r.eval f))
  | .same l r, f =>
    .ofTruth (some (sameCells (.ofComparison l.affinity r.affinity) (l.eval f) (r.eval f)))
  | .arithmetic op l r, f => arithmeticResult op (l.eval f).number (r.eval f).number
  | .concat l r, f =>
    match (l.eval f).text?, (r.eval f).text? with
    | some s, some t => .text (s ++ t)
    | _, _ => .null
  | .like e p, f => .ofTruth (matchesPattern (e.eval f) (p.eval f))
  | .isIn e items, f => .ofTruth (among (.ofComparison e.affinity .none) (e.eval f) (evalAll items f))
  | .cast e a, f => a.cast (e.eval f)
  | .call .count _ args, f =>
    .ofInt (f.group.filter fun row => !(evalAll args { f with row }).any Cell.isNull).length
  | .call .lastRowId _ _, f => .ofInt f.lastRowId
  | .call .lower _ args, f => mapText foldLetter ((evalAll args f).headD .null)
  | .call .upper _ args, f => mapText Char.toUpper ((evalAll args f).headD .null)
  | .call .other _ _, _ => .null

/-- The values of several expressions. -/
def evalAll : List (SqlExpr Place) → Frame → List Cell
  | [], _ => []
  | e :: rest, f => e.eval f :: evalAll rest f

end

/-- Whether a condition is known to hold. -/
def holds (e : SqlExpr Place) (f : Frame) : Bool := (e.eval f).truth == some true

end SqlExpr

end EntityMapper.Engine
