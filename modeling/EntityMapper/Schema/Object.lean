import EntityMapper.Row
import EntityMapper.Schema.Table

/-!
# Objects

An object of a mapped type has a value for each column and the objects it leads to for each
association, in the order of the table's fields. An object knows its type, and a table refuses to
read one of another type.
-/

namespace EntityMapper

namespace Table

/-- A fresh object. -/
def blank (t : Table) : Object where
  typeId := t.typeId
  values := t.scalarFields.map Field.initial
  children := t.associations.zipIdx.map fun (_, place) => t.initialChildren place
  unmapped := t.unmapped

/-- Whether an object is of a table's entity type. -/
def owns (t : Table) (o : Object) : Bool := o.typeId == t.typeId

/-- The columns with an object's values. -/
def entries (t : Table) (o : Object) : List (Field × Datum) := t.scalarFields.zip o.values

/-- The value of the first column of a name. -/
def value? (t : Table) (o : Object) (name : String) : Option Datum :=
  ((t.entries o).find? fun e => e.1.name == name).map Prod.snd

/-- Reads a field. -/
def readField (t : Table) (o : Object) (f : Field) : Except SchemaError Value :=
  if f.isScalar && t.owns o then
    match t.value? o f.name with
    | some d => .ok d.toValue
    | none => .error (.accessorMismatch t.entity f.name)
  else .error (.accessorMismatch t.entity f.name)

/-- The row of an object: its columns by name. -/
def toRow (t : Table) (o : Object) : Except SchemaError Row :=
  if t.owns o then .ok (Row.ofColumns ((t.entries o).map fun e => (e.1.name, e.2.toValue)))
  else match t.scalarFields.head? with
    | some f => .error (.accessorMismatch t.entity f.name)
    | none => .ok Row.empty

/-- The failure of one rule, if the object does not meet it. -/
def check (t : Table) (o : Object) (r : Rule) : Except SchemaError (Option ValidationFailure) := do
  match t.field? r.field with
  | none => throw (.unknownField t.entity r.field)
  | some f =>
    let v ← t.readField o f
    return if r.accepts v then none else some ⟨r.field, r.message⟩

/-- The failures of all rules, in order; none means that the object is valid. -/
def validate (t : Table) (o : Object) : Except SchemaError (List ValidationFailure) := do
  return (← t.rules.mapM (t.check o)).filterMap id

end Table

namespace Object

/-- The object with another value in the column at a place among its columns. -/
def setValue (o : Object) (place : Nat) (d : Datum) : Object :=
  { o with values := o.values.set place d }

end Object

/-- An entity type: its table, and how an object without an assigned identity takes its keys. -/
structure EntityType where
  table : Table
  assignKeys : Object → Object := id

end EntityMapper
