import EntityMapper.FieldType
import EntityMapper.Predicate.Expr

/-!
# Handles on columns

Predicates are built from handles: a column of an entity, reached directly or through a chain of
associations, compared with values of its own type.
-/

namespace EntityMapper

/-! ## Predicates -/

/-- A condition on an entity. -/
structure Predicate where
  expr : Expr
deriving Inhabited

namespace Predicate

/-- Both conditions hold. -/
def and (p q : Predicate) : Predicate := ⟨.and p.expr q.expr⟩

/-- One of the conditions holds. -/
def or (p q : Predicate) : Predicate := ⟨.or p.expr q.expr⟩

/-- The condition does not hold. -/
def not (p : Predicate) : Predicate := ⟨.not p.expr⟩

/-- Whether two predicates are the same, floats being compared as numbers. -/
def sameAs (p q : Predicate) : Bool := p.expr.sameAs q.expr

end Predicate

/-! ## Columns -/

/-- An operand of an entity: a column, or what is computed from one. -/
structure Column where
  expr : Expr
deriving Inhabited

namespace Column

/-- The column of a name. -/
def named (name : String) : Column := ⟨.member [name]⟩

/-- Compares with a value of the column's type. -/
def compare (c : Column) (op : CompareOp) (d : Datum) : Predicate :=
  ⟨.compare op c.expr (.constant d.toValue)⟩

/-- Compares with another operand. -/
def compareWith (c : Column) (op : CompareOp) (other : Column) : Predicate :=
  ⟨.compare op c.expr other.expr⟩

/-- The column is null. -/
def isNull (c : Column) : Predicate := c.compare .eq .absent

/-- The column is not null. -/
def isNotNull (c : Column) : Predicate := c.compare .ne .absent

/-- The column has one of the values; no value at all matches nothing. -/
def isIn (c : Column) (ds : List Datum) : Predicate :=
  ⟨.call .isIn c.expr (ds.map fun d => .constant d.toValue)⟩

/-- The operand of an arithmetic operation on the column. -/
def arithmetic (c : Column) (op : ArithmeticOp) (d : Datum) : Column :=
  ⟨.arithmetic op c.expr (.constant d.toValue)⟩

/-- A text method with its text. -/
def textCall (c : Column) (m : Method) (s : String) : Predicate :=
  ⟨.call m c.expr [.constant (.text s)]⟩

/-- A text column contains a text. -/
def contains (c : Column) (s : String) : Predicate := c.textCall .contains s

/-- A text column starts with a text. -/
def startsWith (c : Column) (s : String) : Predicate := c.textCall .startsWith s

/-- A text column ends with a text. -/
def endsWith (c : Column) (s : String) : Predicate := c.textCall .endsWith s

/-- A text column in lower case. -/
def lower (c : Column) : Column := ⟨.call .toLower c.expr []⟩

/-- A text column in upper case. -/
def upper (c : Column) : Column := ⟨.call .toUpper c.expr []⟩

end Column

/-! ## Chains of associations -/

/-- A chain of associations that leads from an entity to another. -/
structure Chain where
  path : List String
deriving DecidableEq, Inhabited

namespace Chain

/-- The chain of one association. -/
def named (name : String) : Chain := ⟨[name]⟩

/-- One chain after another. -/
def join (a b : Chain) : Chain := ⟨a.path ++ b.path⟩

/-- A column at the end of a chain. -/
def column (a : Chain) (c : Column) : Column := ⟨c.expr.under a.path⟩

/-- The column that the last name of a path gives, at the end of the chain of those before it. -/
def columnOfPath? : List String → Option Column
  | [] => none
  | [name] => some (.named name)
  | name :: r => (columnOfPath? r).map (Chain.named name).column

/-- Going through two chains is going through the joined one. -/
theorem column_column (a b : Chain) (c : Column) : a.column (b.column c) = (a.join b).column c := by
  simp [column, join, Expr.under_under]

end Chain

end EntityMapper
