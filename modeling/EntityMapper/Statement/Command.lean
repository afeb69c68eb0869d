import EntityMapper.Dialect
import EntityMapper.Predicate.Compile
import EntityMapper.Row

/-!
# Commands

A command is a statement with what binds its parameters: explicit ones, and the columns of an
object's row. Each name is bound once, the explicit and the earlier binding counting.
-/

namespace EntityMapper

/-- A statement and its parameters, for the table or backend of a name. -/
structure Command where
  object : String
  text : String
  parameters : List (String × Value) := []
  row : Option Row := none
deriving DecidableEq, Inhabited

namespace Command

/-- The name of a parameter without the object's name in front. -/
def bareName (object name : String) : String :=
  let qualifier := object.toList ++ ['.']
  if qualifier.isPrefixOf name.toList then String.ofList (name.toList.drop qualifier.length) else name

/-- Adds a parameter. -/
def withParameter (c : Command) (name : String) (v : Value) : Command :=
  { c with parameters := c.parameters ++ [(bareName c.object name, v)] }

/-- Adds the parameters of a predicate. -/
def withPredicate (c : Command) (p : CompiledPredicate) : Command :=
  p.parameters.foldl (fun c (name, v) => c.withParameter name v) c

/-- Adds the parameters of a predicate, if there is one. -/
def withPredicate? (c : Command) (p : Option CompiledPredicate) : Command :=
  p.elim c c.withPredicate

/-- Binds the columns of a row as well. -/
def withRow (c : Command) (row : Row) : Command := { c with row := some row }

/-- The first binding of each name, in order. -/
def firstOfEach (bindings : List (String × Value)) : List (String × Value) :=
  bindings.foldl (fun seen b => if seen.any (fun s => s.1 == b.1) then seen else seen ++ [b]) []

/-- What is bound to each name: explicit parameters in order, then the columns of the row. -/
def bindings (c : Command) : List (String × Value) :=
  firstOfEach (c.parameters ++ c.row.elim [] Row.columns)

end Command

/-! ## Traces -/

/-- Whether a character can stand in the name of a parameter. -/
def isParameterChar (c : Char) : Bool := c.isAlphanum || c == '_'

/-- A value as an SQL literal. -/
def sqlLiteral (d : Dialect) : Value → List Char
  | .text s => '\'' :: s.toList.flatMap (fun c => if c = '\'' then ['\'', '\''] else [c]) ++ ['\'']
  | .blob bytes => 'X' :: '\'' :: (hexText bytes).toList ++ ['\'']
  | .datetime t => '\'' :: (t.render d.subseconds).toList ++ ['\'']
  | .bool b => if b then ['1'] else ['0']
  | v => v.display.toList

/-- A text with every bound parameter replaced by its literal; what is put in is not looked at
again. -/
def substitute (marker : Char) (literal? : List Char → Option (List Char)) :
    List Char → List Char
  | [] => []
  | c :: r =>
    if c = marker then
      let name := r.takeWhile isParameterChar
      (literal? name).getD (c :: name) ++ substitute marker literal? (r.dropWhile isParameterChar)
    else c :: substitute marker literal? r
termination_by cs => cs.length
decreasing_by
  · have := (List.dropWhile_sublist isParameterChar (l := r)).length_le
    simp
    omega
  · simp

/-- A command as one text with its values in place; it is for reading, never for running. -/
def Command.trace (c : Command) (d : Dialect) : String :=
  let literal? (name : List Char) := (c.bindings.lookup (String.ofList name)).map (sqlLiteral d)
  String.ofList (substitute d.marker literal? c.text.toList)

end EntityMapper
