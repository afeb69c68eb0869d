import EntityMapper.Dialect
import EntityMapper.Predicate.Condition
import EntityMapper.Schema.Table

/-!
# Compiling predicates

An expression over a table becomes a condition and the values that it binds, in order. A literal
is never written into the text: the `i`-th bound value is called `p<prefix><i>`. A path of more
than one name goes through associations and ends in a column that is qualified by the names
joined with `_`; a column of the root is qualified by the root alias, if there is one.
-/

namespace EntityMapper

/-! ## Paths -/

/-- What the names of an expression are resolved against. -/
structure Scope where
  catalog : Catalog
  table : Table
  rootAlias : Option String

namespace Table

/-- Refuses a name that is no column of a table. -/
def requireColumn (t : Table) (name : String) : Except MapperError Unit :=
  match t.field? name with
  | none => .error (.schema (.unknownField t.entity name))
  | some f => if f.isScalar then .ok () else .error (.unsupported (.endsOnAssociation t.entity name))

/-- The association of a name. -/
def requireAssociation (t : Table) (name : String) : Except MapperError Association :=
  match t.field? name with
  | none => .error (.schema (.unknownField t.entity name))
  | some f =>
    match f.association? with
    | some a => .ok a
    | none => .error (.unsupported (.notAnAssociation t.entity name))

end Table

/-- The table that a chain of associations leads to. -/
def Catalog.follow (c : Catalog) : Table → List String → Except MapperError Table
  | t, [] => .ok t
  | t, name :: rest =>
    match t.requireAssociation name with
    | .ok a => c.follow (c.table a.target) rest
    | .error e => .error e

/-- The column that a path ends in, with its qualifier. -/
def Scope.column (s : Scope) (path : List String) : Except MapperError Condition :=
  match path.getLast?, path.dropLast with
  | none, _ => .error (.unsupported .emptyPath)
  | some name, [] => do
    s.table.requireColumn name
    return .column s.rootAlias name
  | some name, chain =>
    if s.rootAlias.isNone then .error (.unsupported (.chainWithoutAlias path))
    else do
      let t ← s.catalog.follow s.table chain
      t.requireColumn name
      return .column (some ("_".intercalate chain)) name

/-! ## Conditions -/

/-- Computations that bind values in order and may fail. -/
abbrev Binding := StateT (List Value) (Except MapperError)

/-- Binds a value and gives its number. -/
def bind (v : Value) : Binding Nat := fun bound => .ok (bound.length, bound ++ [v.normalizeLiteral])

/-- Binds each of a list of literals. -/
def bindAll : List Expr → Binding (List Nat)
  | [] => return []
  | .constant v :: rest => do
    let i ← bind v
    return i :: (← bindAll rest)
  | _ :: _ => throw (.unsupported (.notLiteral .isIn))

/-- The pattern with which a text method looks for a text; the other methods have none. -/
def Method.pattern? : Method → String → Option String
  | .contains, s => some ("%" ++ s ++ "%")
  | .startsWith, s => some (s ++ "%")
  | .endsWith, s => some ("%" ++ s)
  | _, _ => none

/-- Whether an expression is the null literal. -/
def Expr.isNullLiteral : Expr → Bool
  | .constant .null => true
  | _ => false

/-- A comparison with null, which SQL writes as a test. -/
def nullTest (op : CompareOp) (e : Condition) : Except MapperError Condition :=
  match op with
  | .eq => .ok (.isNull e)
  | .ne => .ok (.isNotNull e)
  | _ => .error (.unsupported (.nullOrdering op))

namespace Scope

/-- The condition of an expression. Operands bind their literals from left to right, and the first
fault met in that order is the one reported. -/
def condition (s : Scope) : Expr → Binding Condition
  | .member path => s.column path
  | .constant .null => return .null
  | .constant v => return .parameter (← bind v)
  | .compare op l r => do
    if r.isNullLiteral then nullTest op (← s.condition l)
    else if l.isNullLiteral then nullTest op (← s.condition r)
    else
      let l ← s.condition l
      return .compare op l (← s.condition r)
  | .and l r => do
    let l ← s.condition l
    return .and l (← s.condition r)
  | .or l r => do
    let l ← s.condition l
    return .or l (← s.condition r)
  | .not e => return .not (← s.condition e)
  | .arithmetic op l r => do
    let l ← s.condition l
    return .arithmetic op l (← s.condition r)
  | .call .isIn target args => do
    let t ← s.condition target
    if args.isEmpty then return .never else return .isIn t (← bindAll args)
  | .call .toLower target args =>
    if args.isEmpty then return .lower (← s.condition target)
    else throw (.unsupported (.unexpectedArguments .toLower))
  | .call .toUpper target args =>
    if args.isEmpty then return .upper (← s.condition target)
    else throw (.unsupported (.unexpectedArguments .toUpper))
  | .call (.other name) _ _ => throw (.unsupported (.unknownMethod (.other name)))
  | .call method target args =>
    match args with
    | [.constant (.text text)] => do
      let t ← s.condition target
      match method.pattern? text with
      | some pattern => return .like t (← bind (.text pattern))
      | none => throw (.unsupported (.unknownMethod method))
    | _ => throw (.unsupported (.notOneText method))
  | .conditional .. => throw (.unsupported .conditional)

end Scope

/-! ## Predicates -/

/-- A condition as text, with the parameters that it binds. -/
structure CompiledPredicate where
  text : String
  parameters : List (String × Value)
deriving DecidableEq, Inhabited

/-- The name of the parameter of a number. -/
def parameterName (leading : String) (index : Nat) : String :=
  "p" ++ leading ++ String.ofList (natDigits index)

/-- The values that a predicate binds, by name. -/
def namedParameters (leading : String) (values : List Value) : List (String × Value) :=
  values.zipIdx.map fun (v, i) => (parameterName leading i, v)

/-- Compiles an expression; `leading` keeps the parameters of two predicates apart. -/
def Scope.compile (s : Scope) (d : Dialect) (leading : String) (e : Expr) :
    Except MapperError CompiledPredicate :=
  match s.condition e [] with
  | .error err => .error err
  | .ok (c, values) =>
    .ok ⟨c.text fun i => d.placeholder (parameterName leading i), namedParameters leading values⟩

namespace CompiledPredicate

/-- The predicate that filters nothing. -/
def empty : CompiledPredicate := ⟨"", []⟩

/-- Whether a predicate filters nothing. -/
def isEmpty (p : CompiledPredicate) : Bool := p.text.isEmpty

end CompiledPredicate

end EntityMapper
