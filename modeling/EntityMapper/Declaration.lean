import EntityMapper.Declaration.Attribute
import EntityMapper.Schema.Table
import EntityMapper.Text.SnakeCase

/-!
# Declarations of entity types

A type that is declared in source text with attributes is mapped by deriving its mapping. Only
records with named fields can be mapped, and no generic ones. Each field is a column, an association
or neither; an association is declared in the wrapper that says how many objects it leads to.
-/

namespace EntityMapper

/-! ## What is declared -/

/-- The kinds of declarations. -/
inductive DeclarationShape
  | record
  | tuple
  | unit
  | enumeration
  | union
  | function
deriving DecidableEq, Repr, Inhabited

/-- A declared field. -/
structure FieldDeclaration where
  name : String
  type : List Lexeme
  attributes : List AttributeGroup := []
deriving DecidableEq, Repr, Inhabited

/-- A declaration. -/
structure Declaration where
  shape : DeclarationShape := .record
  name : String
  visibility : List Lexeme := []
  /-- the generic parameters with their brackets -/
  generics : List Lexeme := []
  attributes : List AttributeGroup := []
  fields : List FieldDeclaration := []
deriving DecidableEq, Repr, Inhabited

/-- Whether a declaration has generic parameters; empty brackets have none. -/
def Declaration.isGeneric (d : Declaration) : Bool :=
  match d.generics with
  | .mark '<' :: .mark '>' :: _ => false
  | .mark '<' :: _ => true
  | _ => false

/-- A name without the mark of a raw one. -/
def plainName (name : String) : String :=
  match name.toList with
  | 'r' :: '#' :: r => String.ofList r
  | _ => name

/-! ## What is derived -/

/-- The wrapper that says how many objects an association leads to. -/
def Cardinality.wrapper : Cardinality → String
  | .one => "Option"
  | .many => "Vec"

/-- The word for an association. -/
def Cardinality.relation : Cardinality → String
  | .one => "one_to_one"
  | .many => "one_to_many"

/-- Why no mapping can be derived. -/
inductive DeriveError
  | notAType
  /-- a keyword where a name is needed -/
  | reserved (word : String)
  /-- a field whose type does not start as one -/
  | notAFieldType
  | generic
  | noNamedFields
  | attribute (e : AttributeError)
  | notWrapped (c : Cardinality)
deriving DecidableEq, Repr, Inhabited

/-- The wording of why no mapping can be derived. -/
def DeriveError.message : DeriveError → String
  | .notAType => "expected one of: `struct`, `enum`, `union`"
  | .reserved word => (PathFault.keyword word).message
  | .notAFieldType => typeStarts
  | .generic => "Entity cannot be derived for generic types"
  | .noNamedFields => "Entity can only be derived for structs with named fields"
  | .attribute e => e.message
  | .notWrapped c => s!"{c.relation} fields must be declared as {c.wrapper}<T>"

/-- A field that is mapped. -/
inductive MappedField
  | column (name : String) (type : List Lexeme) (attributes : FieldAttributes)
  | association (name : String) (cardinality : Cardinality) (target : List Lexeme)
      (parentColumn childColumn : String)
deriving DecidableEq, Repr, Inhabited

/-- The name of a mapped field as it is declared. -/
def MappedField.name : MappedField → String
  | .column name .. => name
  | .association name .. => name

/-- The mapping of a declared type. -/
structure Mapped where
  name : String
  visibility : List Lexeme
  tableName : String
  database : Option DatabaseName
  backend : Option String
  assignKeys : Option (List Lexeme)
  fields : List MappedField
deriving DecidableEq, Repr, Inhabited

/-! ## Deriving -/

/-- The column of a child that leads to its owner, where none is named. -/
def defaultChildColumn (owner : String) : String := snakeCase owner ++ "_id"

/-- The association that a field is. Its parent column is `id` where none is named. -/
def associationOf (owner : String) (f : FieldDeclaration) (c : Cardinality) (a : FieldAttributes) :
    Except DeriveError MappedField :=
  match wrapped? c.wrapper f.type with
  | none => .error (.notWrapped c)
  | some target => .ok (.association f.name c target (a.parentColumn.getD "id")
      (a.childColumn.getD (defaultChildColumn owner)))

/-- What a declared field is to the mapping, if it is anything. -/
def FieldDeclaration.mapped? (owner : String) (f : FieldDeclaration) :
    Except DeriveError (Option MappedField) := do
  let a ← (FieldAttributes.ofGroups f.attributes).mapError .attribute
  match a.role with
  | .skip => return none
  | .scalar => return some (.column f.name f.type a)
  | .oneToMany => some <$> associationOf owner f .many a
  | .oneToOne => some <$> associationOf owner f .one a

/-- What is wrong with how a field is written, if anything. A field without a name is written `_`. -/
def FieldDeclaration.fault? (named : Bool) (f : FieldDeclaration) : Option DeriveError :=
  if named && f.name != "_" && isReserved f.name then some (.reserved f.name)
  else if f.type.isEmpty || startsType f.type then none
  else some .notAFieldType

/-- What is wrong with how a declaration is written, if anything. -/
def Declaration.fault? (d : Declaration) : Option DeriveError :=
  if d.shape = .function then some .notAType
  else if isReserved d.name then some (.reserved d.name)
  else
    match d.shape with
    | .record => d.fields.findSome? (FieldDeclaration.fault? true)
    | .union => d.fields.findSome? (FieldDeclaration.fault? true)
    | .tuple => d.fields.findSome? (FieldDeclaration.fault? false)
    | _ => none

/-- The mapping of a declaration. -/
def Declaration.mapped (d : Declaration) : Except DeriveError Mapped := do
  if let some e := d.fault? then throw e
  if d.isGeneric then throw .generic
  if d.shape ≠ .record then throw .noNamedFields
  let a ← (EntityAttributes.ofGroups d.attributes).mapError .attribute
  let fields ← d.fields.mapM (FieldDeclaration.mapped? d.name)
  return {
    name := d.name
    visibility := d.visibility
    tableName := a.table.getD d.name
    database := a.database.map fun name => ⟨name, a.showDatabase⟩
    backend := a.backend
    assignKeys := a.assignKeys
    fields := fields.filterMap id }

end EntityMapper
