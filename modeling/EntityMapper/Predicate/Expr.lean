import EntityMapper.Value

/-!
# Expressions

The tree of a filter over one root entity. It knows no schema: a member is a path of field names,
the ones before the last being associations, and only compiling resolves it.
-/

namespace EntityMapper

/-! ## Operators -/

/-- The comparisons. -/
inductive CompareOp
  | eq
  | ne
  | lt
  | lte
  | gt
  | gte
deriving DecidableEq, Repr, Inhabited

/-- All comparisons. -/
def CompareOp.all : List CompareOp := [.eq, .ne, .lt, .lte, .gt, .gte]

/-- The name of a comparison. -/
def CompareOp.name : CompareOp → String
  | .eq => "eq"
  | .ne => "ne"
  | .lt => "lt"
  | .lte => "lte"
  | .gt => "gt"
  | .gte => "gte"

/-- A comparison in SQL. -/
def CompareOp.sql : CompareOp → String
  | .eq => "="
  | .ne => "<>"
  | .lt => "<"
  | .lte => "<="
  | .gt => ">"
  | .gte => ">="

/-- The arithmetic operations. -/
inductive ArithmeticOp
  | add
  | sub
  | mul
  | div
deriving DecidableEq, Repr, Inhabited

/-- All arithmetic operations. -/
def ArithmeticOp.all : List ArithmeticOp := [.add, .sub, .mul, .div]

/-- The name of an arithmetic operation. -/
def ArithmeticOp.name : ArithmeticOp → String
  | .add => "add"
  | .sub => "sub"
  | .mul => "mul"
  | .div => "div"

/-- An arithmetic operation in SQL. -/
def ArithmeticOp.sql : ArithmeticOp → String
  | .add => "+"
  | .sub => "-"
  | .mul => "*"
  | .div => "/"

/-- The methods that may be called on an operand; those of any other name have no SQL form. -/
inductive Method
  | contains
  | startsWith
  | endsWith
  | isIn
  | toLower
  | toUpper
  | other (name : String)
deriving DecidableEq, Repr, Inhabited

/-- The name of a method. -/
def Method.name : Method → String
  | .contains => "Contains"
  | .startsWith => "StartsWith"
  | .endsWith => "EndsWith"
  | .isIn => "In"
  | .toLower => "ToLower"
  | .toUpper => "ToUpper"
  | .other name => name

/-- The methods that have names of their own. -/
def Method.named : List Method := [.contains, .startsWith, .endsWith, .isIn, .toLower, .toUpper]

/-- The method of a name. -/
def Method.ofName (s : String) : Method := (named.find? fun m => m.name == s).getD (.other s)

/-! ## The tree -/

/-- An expression over the fields of a root entity. -/
inductive Expr
  | member (path : List String)
  | constant (v : Value)
  | compare (op : CompareOp) (left right : Expr)
  | and (left right : Expr)
  | or (left right : Expr)
  | not (e : Expr)
  | arithmetic (op : ArithmeticOp) (left right : Expr)
  | call (method : Method) (target : Expr) (args : List Expr)
  | conditional (test thenCase elseCase : Expr)
deriving Inhabited

namespace Expr

/-- What kind of node an expression is. -/
def kind : Expr → String
  | .member _ => "Member"
  | .constant _ => "Constant"
  | .compare .. => "Compare"
  | .and .. => "And"
  | .or .. => "Or"
  | .not _ => "Not"
  | .arithmetic .. => "Arithmetic"
  | .call m .. => s!"Call({m.name})"
  | .conditional .. => "Conditional"

/-- The expression with every member reached through the associations of `path`. -/
def under (path : List String) : Expr → Expr
  | .member p => .member (path ++ p)
  | .constant v => .constant v
  | .compare op l r => .compare op (l.under path) (r.under path)
  | .and l r => .and (l.under path) (r.under path)
  | .or l r => .or (l.under path) (r.under path)
  | .not e => .not (e.under path)
  | .arithmetic op l r => .arithmetic op (l.under path) (r.under path)
  | .call m t args => .call m (t.under path) (underAll args)
  | .conditional c t e => .conditional (c.under path) (t.under path) (e.under path)
where
  /-- The same for each argument of a call. -/
  underAll : List Expr → List Expr
    | [] => []
    | a :: r => a.under path :: underAll r

/-- Equality of expressions in which float constants are compared as numbers. -/
def sameAs : Expr → Expr → Bool
  | .member p, .member q => p == q
  | .constant v, .constant w => v.sameAs w
  | .compare op l r, .compare op' l' r' => op == op' && l.sameAs l' && r.sameAs r'
  | .and l r, .and l' r' => l.sameAs l' && r.sameAs r'
  | .or l r, .or l' r' => l.sameAs l' && r.sameAs r'
  | .not e, .not e' => e.sameAs e'
  | .arithmetic op l r, .arithmetic op' l' r' => op == op' && l.sameAs l' && r.sameAs r'
  | .call m t args, .call m' t' args' => m == m' && t.sameAs t' && sameArgs args args'
  | .conditional c t e, .conditional c' t' e' => c.sameAs c' && t.sameAs t' && e.sameAs e'
  | _, _ => false
where
  /-- Argument lists of one length whose members agree. -/
  sameArgs : List Expr → List Expr → Bool
    | [], [] => true
    | a :: r, b :: s => a.sameAs b && sameArgs r s
    | _, _ => false

@[simp] theorem underAll_eq_map (path : List String) (args : List Expr) :
    under.underAll path args = args.map (under path) := by
  induction args with
  | nil => rfl
  | cons a r ih => simp [under.underAll, ih]

/-- Going through one chain after another is going through the joined chain. -/
theorem under_under (p q : List String) : ∀ e : Expr, (e.under q).under p = e.under (p ++ q)
  | .member _ => by simp [under]
  | .constant _ => rfl
  | .compare _ l r => by simp [under, under_under p q l, under_under p q r]
  | .and l r => by simp [under, under_under p q l, under_under p q r]
  | .or l r => by simp [under, under_under p q l, under_under p q r]
  | .not e => by simp [under, under_under p q e]
  | .arithmetic _ l r => by simp [under, under_under p q l, under_under p q r]
  | .call _ t args => by
    simpa [under, under_under p q t] using fun a _ => under_under p q a
  | .conditional c t e => by
    simp [under, under_under p q c, under_under p q t, under_under p q e]

end Expr

end EntityMapper
