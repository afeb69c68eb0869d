import EntityMapper.Predicate.Expr

/-!
# SQL conditions

The tree of the SQL that an expression compiles to, and its text. A parameter is known by its
number; what it is called is decided when the text is written.
-/

namespace EntityMapper

/-- A condition or operand in SQL. -/
inductive Condition
  | null
  | column (qualifier : Option String) (name : String)
  | parameter (index : Nat)
  | compare (op : CompareOp) (left right : Condition)
  | isNull (e : Condition)
  | isNotNull (e : Condition)
  | and (left right : Condition)
  | or (left right : Condition)
  | not (e : Condition)
  | arithmetic (op : ArithmeticOp) (left right : Condition)
  | like (target : Condition) (pattern : Nat)
  | isIn (target : Condition) (items : List Nat)
  /-- a condition that never holds -/
  | never
  | lower (e : Condition)
  | upper (e : Condition)
deriving Inhabited

namespace Condition

/-- A column, behind the alias of its table where it has one. -/
def columnText : Option String → String → String
  | none, name => name
  | some tableAlias, name => tableAlias ++ "." ++ name

/-- The text of a condition. Connectives and arithmetic are parenthesised, comparisons are not. -/
def text (placeholder : Nat → String) : Condition → String
  | .null => "null"
  | .column qualifier name => columnText qualifier name
  | .parameter i => placeholder i
  | .compare op l r => l.text placeholder ++ " " ++ op.sql ++ " " ++ r.text placeholder
  | .isNull e => e.text placeholder ++ " is null"
  | .isNotNull e => e.text placeholder ++ " is not null"
  | .and l r => "(" ++ l.text placeholder ++ " AND " ++ r.text placeholder ++ ")"
  | .or l r => "(" ++ l.text placeholder ++ " OR " ++ r.text placeholder ++ ")"
  | .not e => "NOT (" ++ e.text placeholder ++ ")"
  | .arithmetic op l r =>
    "(" ++ l.text placeholder ++ " " ++ op.sql ++ " " ++ r.text placeholder ++ ")"
  | .like e pattern => e.text placeholder ++ " LIKE " ++ placeholder pattern
  | .isIn e items =>
    e.text placeholder ++ " IN (" ++ ", ".intercalate (items.map placeholder) ++ ")"
  | .never => "1 = 0"
  | .lower e => "lower(" ++ e.text placeholder ++ ")"
  | .upper e => "upper(" ++ e.text placeholder ++ ")"

end Condition

end EntityMapper
