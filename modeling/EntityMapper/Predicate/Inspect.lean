import EntityMapper.Predicate.Column
import EntityMapper.Value.Inspect

/-!
# The structure of conditions

Expressions as trees of constructors, and the handles that hold them.
-/

namespace EntityMapper

/-! ## Methods -/

/-- A method; what is not known by name is shown as such. -/
def Method.inspect : Method → String
  | .other name => appliedText "Other" [quoted name]
  | m => m.name

/-! ## Trees -/

/-- A path of names. -/
def pathText (path : List String) : String := bracketed (path.map quoted)

namespace Expr

/-- An expression as a tree of constructors. -/
def inspect : Expr → String
  | .member p => appliedText "Member" [pathText p]
  | .constant v => appliedText "Constant" [v.inspect]
  | .compare op l r => recordText "Compare" [("op", op.name.capitalize), ("left", l.inspect), ("right", r.inspect)]
  | .and l r => appliedText "And" [l.inspect, r.inspect]
  | .or l r => appliedText "Or" [l.inspect, r.inspect]
  | .not e => appliedText "Not" [e.inspect]
  | .arithmetic op l r =>
    recordText "Arithmetic" [("op", op.name.capitalize), ("left", l.inspect), ("right", r.inspect)]
  | .call m t args =>
    recordText "Call" [("method", m.inspect), ("target", t.inspect), ("args", bracketed (inspectAll args))]
  | .conditional c t e =>
    recordText "Conditional" [("test", c.inspect), ("then", t.inspect), ("otherwise", e.inspect)]
where
  /-- The same for each argument of a call. -/
  inspectAll : List Expr → List String
    | [] => []
    | a :: r => a.inspect :: inspectAll r

end Expr

/-! ## Handles -/

/-- A condition on an entity. -/
def Predicate.inspect (p : Predicate) : String := appliedText "Predicate" [p.expr.inspect]

/-- An operand of an entity. -/
def Column.inspect (c : Column) : String := appliedText "Column" [c.expr.inspect]

/-- A chain of associations. -/
def Chain.inspect (a : Chain) : String := appliedText "Association" [pathText a.path]

end EntityMapper
