import EntityMapper.Predicate.Column
import EntityMapper.Proofs.Filter.Reader

/-!
# Predicates built from operands

The operands and predicates that can be built without writing an expression, as trees of the
operations that build them, and what each of them says.

* `Operand.column`, `Clause.predicate` — what the operations build
* `Operand.sentence`, `Clause.sentence` — what that says
-/

namespace EntityMapper

/-! ## What is built -/

/-- How an operand is built. -/
inductive Operand
  | named (name : String)
  | lower (h : Operand)
  | upper (h : Operand)
  | arithmetic (h : Operand) (op : ArithmeticOp) (d : Datum)
  | through (chain : Chain) (h : Operand)

/-- The operand that is built. -/
def Operand.column : Operand → Column
  | .named name => .named name
  | .lower h => h.column.lower
  | .upper h => h.column.upper
  | .arithmetic h op d => h.column.arithmetic op d
  | .through chain h => chain.column h.column

/-- The text methods. -/
inductive TextMethod
  | contains
  | startsWith
  | endsWith
deriving DecidableEq, Repr

/-- How a predicate is built. -/
inductive Clause
  | compare (h : Operand) (op : CompareOp) (d : Datum)
  | compareWith (h : Operand) (op : CompareOp) (other : Operand)
  | isNull (h : Operand)
  | isNotNull (h : Operand)
  | isIn (h : Operand) (ds : List Datum)
  | text (h : Operand) (m : TextMethod) (s : String)
  | and (l r : Clause)
  | or (l r : Clause)
  | not (c : Clause)

/-- The predicate that is built. -/
def Clause.predicate : Clause → Predicate
  | .compare h op d => h.column.compare op d
  | .compareWith h op other => h.column.compareWith op other.column
  | .isNull h => h.column.isNull
  | .isNotNull h => h.column.isNotNull
  | .isIn h ds => h.column.isIn ds
  | .text h .contains s => h.column.contains s
  | .text h .startsWith s => h.column.startsWith s
  | .text h .endsWith s => h.column.endsWith s
  | .and l r => l.predicate.and r.predicate
  | .or l r => l.predicate.or r.predicate
  | .not c => c.predicate.not

/-! ## What it says -/

/-- What a value says as an operand: null is null, any other value is bound. -/
def Datum.sentence (d : Datum) : Sentence :=
  if d.toValue.isNull then .null else .value d.toValue.normalizeLiteral

/-- The qualifier of a column: the alias of the root, or the names of the associations that lead to
its table. -/
def qualifierOf (rootAlias : Option String) : List String → Option String
  | [] => rootAlias
  | chain => some ("_".intercalate chain)

/-- What an operand says, seen through associations. -/
def Operand.sentence (rootAlias : Option String) (chain : List String) : Operand → Sentence
  | .named name => .column (qualifierOf rootAlias chain) name
  | .lower h => .call "lower" (h.sentence rootAlias chain)
  | .upper h => .call "upper" (h.sentence rootAlias chain)
  | .arithmetic h op d => .arithmetic op (h.sentence rootAlias chain) d.sentence
  | .through next h => h.sentence rootAlias (chain ++ next.path)

/-- A comparison with a value: with null it is a test. -/
def CompareOp.withDatum (op : CompareOp) (e : Sentence) (d : Datum) : Sentence :=
  if d.toValue.isNull then
    match op with
    | .eq => .isNull e
    | .ne => .isNotNull e
    | _ => .compare op e .null
  else .compare op e d.sentence

/-- The pattern of a text method. -/
def TextMethod.pattern : TextMethod → String → String
  | .contains, s => "%" ++ s ++ "%"
  | .startsWith, s => s ++ "%"
  | .endsWith, s => "%" ++ s

/-- What a predicate says. -/
def Clause.sentence (rootAlias : Option String) : Clause → Sentence
  | .compare h op d => op.withDatum (h.sentence rootAlias []) d
  | .compareWith h op other =>
    .compare op (h.sentence rootAlias []) (other.sentence rootAlias [])
  | .isNull h => .isNull (h.sentence rootAlias [])
  | .isNotNull h => .isNotNull (h.sentence rootAlias [])
  | .isIn _ [] => .truth false
  | .isIn h (d :: ds) =>
    .isIn (h.sentence rootAlias []) ((d :: ds).map fun d => .value d.toValue.normalizeLiteral)
  | .text h m s => .like (h.sentence rootAlias []) (.value (.text (m.pattern s)))
  | .and l r => .and (l.sentence rootAlias) (r.sentence rootAlias)
  | .or l r => .or (l.sentence rootAlias) (r.sentence rootAlias)
  | .not c => .not (c.sentence rootAlias)

end EntityMapper
