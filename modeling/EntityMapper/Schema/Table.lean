import EntityMapper.Error

/-!
# Tables

How an entity type is mapped: a table name and the fields in declaration order, scalar ones that
are columns and associations that lead to other entity types. What tells entity types apart is not
their names, which two of them may share: an association leads to an entity type by its identity,
and a `Catalog` has the table for it. A table also says what a fresh object of its type holds.
-/

namespace EntityMapper

/-! ## Fields -/

/-- How a backend fills a column when a row is inserted. -/
inductive Automatic
  | none
  /-- assigned by the backend and read back -/
  | identity
  /-- computed by the backend and never written -/
  | computed
deriving DecidableEq, Repr, Inhabited

/-- The name of a way to fill a column. -/
def Automatic.name : Automatic → String
  | .none => "none"
  | .identity => "identity"
  | .computed => "computed"

/-- The flags of a field. -/
structure FieldOptions where
  primaryKey : Bool := false
  automatic : Automatic := .none
  ignoreForSave : Bool := false
deriving DecidableEq, Repr, Inhabited

/-- How many objects an association leads to. -/
inductive Cardinality
  | one
  | many
deriving DecidableEq, Repr, Inhabited

/-- The name of a cardinality. -/
def Cardinality.name : Cardinality → String
  | .one => "one"
  | .many => "many"

/-- An association: `child.childColumn = parent.parentColumn` joins its target. -/
structure Association where
  cardinality : Cardinality
  parentColumn : String
  childColumn : String
  /-- the identity of the entity type that it leads to -/
  target : String
deriving DecidableEq, Repr, Inhabited

/-- What a field is. -/
inductive FieldKind
  | scalar (type : FieldType)
  | association (a : Association)
deriving DecidableEq, Inhabited

/-- What the type of a field holds at first; an association has no value. -/
def FieldKind.initial : FieldKind → Datum
  | .scalar t => t.default
  | .association _ => .absent

/-- A mapped field. -/
structure Field where
  name : String
  kind : FieldKind
  options : FieldOptions := {}
  /-- what a fresh object of the entity type holds in the field -/
  initial : Datum := kind.initial
deriving DecidableEq, Inhabited

namespace Field

/-- A column of a type. -/
def ofType (name : String) (type : FieldType) (options : FieldOptions := {}) : Field :=
  { name, kind := .scalar type, options }

/-- The field of an association, which is never saved. -/
def ofAssociation (name : String) (a : Association) : Field :=
  { name, kind := .association a, options := { ignoreForSave := true } }

/-- Whether a field is a column. -/
def isScalar (f : Field) : Bool :=
  match f.kind with
  | .scalar _ => true
  | .association _ => false

/-- The association that a field is, if it is one. -/
def association? (f : Field) : Option Association :=
  match f.kind with
  | .scalar _ => none
  | .association a => some a

/-- The type of a column. -/
def type? (f : Field) : Option FieldType :=
  match f.kind with
  | .scalar t => some t
  | .association _ => none

/-- The kind of value that a field is declared as; an association has none. -/
def valueType (f : Field) : ValueType := f.type?.elim .null FieldType.valueType

/-- Whether a column may be null. -/
def isNullable (f : Field) : Bool := f.type?.elim false FieldType.nullable

/-- Whether a field is filled by the backend. -/
def isAutomatic (f : Field) : Bool := f.options.automatic != .none

/-- Whether the backend assigns a field and hands it back. -/
def isIdentity (f : Field) : Bool := f.options.automatic == .identity

/-- What a value means to a field. -/
def read (f : Field) (v : Value) : Except CoercionError Datum :=
  match f.kind with
  | .scalar t => t.read v
  | .association _ => .error (.mismatch v.type .null)

end Field

/-! ## Rules -/

/-- A rule that a field's value has to meet before it is saved. -/
structure Rule where
  field : String
  message : String
  accepts : Value → Bool

namespace Rule

/-- The value is there, and it is not blank text. -/
def required (field : String) : Rule where
  field
  message := s!"{field} is required"
  accepts
    | .null => false
    | .text s => !(trim s.toList).isEmpty
    | _ => true

/-- A text has at most so many characters; other values pass. -/
def maxLength (field : String) (most : Nat) : Rule where
  field
  message := s!"{field} must be at most {most} characters"
  accepts
    | .text s => s.length ≤ most
    | _ => true

end Rule

/-- A rule that a value did not meet. -/
structure ValidationFailure where
  field : String
  message : String
deriving DecidableEq, Repr, Inhabited

/-! ## Tables -/

/-- The backend of tables that name none. -/
def defaultBackend : String := "default"

/-- The database that a table belongs to, and whether it is shown in SQL. -/
structure DatabaseName where
  name : String
  shown : Bool
deriving DecidableEq, Repr, Inhabited

/-- An object of an entity type. `children` has the objects of each association; where it leads to
one object only there is at most one. -/
structure Object where
  /-- the identity of its entity type -/
  typeId : String
  values : List Datum
  children : List (List Object)
  unmapped : List (String × Datum) := []
deriving Inhabited

/-- The mapping of an entity type, and what a fresh object of it holds: the columns say what stands
in them, `initialChildren` has the objects by the place of their association, and `unmapped` is what
objects hold beside the mapped fields. -/
structure Table where
  entity : String
  /-- what tells entity types apart, those of one name too -/
  typeId : String := entity
  tableName : String
  database : Option DatabaseName := none
  backend : String := defaultBackend
  fields : List Field := []
  rules : List Rule := []
  initialChildren : Nat → List Object := fun _ => []
  unmapped : List (String × Datum) := []

namespace Table

/-- The table name in SQL, behind that of the database where this is asked for. -/
def name (t : Table) : String :=
  match t.database with
  | some ⟨database, true⟩ => s!"{database}.{t.tableName}"
  | _ => t.tableName

/-- The first field of a name. -/
def field? (t : Table) (name : String) : Option Field := t.fields.find? fun f => f.name == name

/-- The columns, in order. -/
def scalarFields (t : Table) : List Field := t.fields.filter Field.isScalar

/-- The associations with the names of their fields, in order. -/
def associations (t : Table) : List (String × Association) :=
  t.fields.filterMap fun f => f.association?.map fun a => (f.name, a)

/-- The columns of the primary key, in order. -/
def primaryKey (t : Table) : List Field := t.scalarFields.filter fun f => f.options.primaryKey

/-- Whether a table declares a primary key. -/
def hasPrimaryKey (t : Table) : Bool := !t.primaryKey.isEmpty

/-- Refuses an operation that needs a primary key on a table without one. -/
def requirePrimaryKey (t : Table) (operation : String) : Except SchemaError Unit :=
  if t.hasPrimaryKey then .ok () else .error (.missingPrimaryKey t.entity operation)

/-- The column that the backend assigns on insert, if there is one. -/
def identityField? (t : Table) : Option Field := t.scalarFields.find? Field.isIdentity

end Table

/-! ## Catalogs -/

/-- The tables of a program, each entity type once. -/
structure Catalog where
  tables : List Table

namespace Catalog

/-- The table of an entity type. -/
def find? (c : Catalog) (typeId : String) : Option Table :=
  c.tables.find? fun t => t.typeId == typeId

/-- The table of an entity type; one that the catalog does not know has no fields. -/
def table (c : Catalog) (typeId : String) : Table :=
  (c.find? typeId).getD { entity := typeId, tableName := typeId }

/-- Whether the catalog knows an entity type. -/
def contains (c : Catalog) (typeId : String) : Bool := (c.find? typeId).isSome

end Catalog

end EntityMapper
