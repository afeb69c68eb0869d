import EntityMapper.FieldType
import EntityMapper.Predicate.Expr

/-!
# Errors

Each error names its cause; its wording is one function beside it.
-/

namespace EntityMapper

/-! ## Mapping -/

/-- A mapping that is missing or inconsistent. -/
inductive SchemaError
  | missingPrimaryKey (entity operation : String)
  | unknownField (entity field : String)
  | associationCycle (entity field : String)
  | missingKeyColumn (entity column : String)
  | accessorMismatch (entity field : String)
  | backendNotFound (name : String)
  | backendAlreadyRegistered (name : String)
deriving DecidableEq, Repr, Inhabited

/-- The kind of a mapping error. -/
def SchemaError.name : SchemaError → String
  | .missingPrimaryKey .. => "MissingPrimaryKey"
  | .unknownField .. => "UnknownField"
  | .associationCycle .. => "AssociationCycle"
  | .missingKeyColumn .. => "MissingKeyColumn"
  | .accessorMismatch .. => "AccessorMismatch"
  | .backendNotFound _ => "BackendNotFound"
  | .backendAlreadyRegistered _ => "BackendAlreadyRegistered"

/-- The wording of a mapping error. -/
def SchemaError.message : SchemaError → String
  | .missingPrimaryKey e op => s!"entity '{e}' declares no primary key; '{op}' requires one"
  | .unknownField e f => s!"entity '{e}' has no field '{f}'"
  | .associationCycle e f => s!"association cycle detected at '{e}.{f}'"
  | .missingKeyColumn e c => s!"row is missing primary-key column '{c}' for entity '{e}'"
  | .accessorMismatch e f => s!"accessor for '{e}.{f}' was called with a foreign type"
  | .backendNotFound name => s!"backend '{name}' is not registered"
  | .backendAlreadyRegistered name => s!"backend '{name}' is already registered"

/-! ## Expressions -/

/-- Why an expression has no SQL form. -/
inductive UnsupportedExpression
  | nullOrdering (op : CompareOp)
  | notOneText (method : Method)
  | notLiteral (method : Method)
  | unexpectedArguments (method : Method)
  | unknownMethod (method : Method)
  | conditional
  | emptyPath
  | chainWithoutAlias (path : List String)
  | notAnAssociation (entity field : String)
  | endsOnAssociation (entity field : String)
deriving DecidableEq, Repr, Inhabited

namespace UnsupportedExpression

/-- The kind of the node that has no SQL form. -/
def node : UnsupportedExpression → String
  | .nullOrdering _ => "Compare"
  | .notOneText m => s!"Call({m.name})"
  | .notLiteral m => s!"Call({m.name})"
  | .unexpectedArguments m => s!"Call({m.name})"
  | .unknownMethod m => s!"Call({m.name})"
  | .conditional => "Conditional"
  | _ => "Member"

/-- What is wrong with the node. -/
def reason : UnsupportedExpression → String
  | .nullOrdering op => s!"null can only be compared with = or <>, not {op.sql}"
  | .notOneText _ => "expects one text literal argument"
  | .notLiteral _ => "expects literal arguments"
  | .unexpectedArguments _ => "takes no arguments"
  | .unknownMethod _ => "method has no SQL translation"
  | .conditional => "conditional expressions have no SQL translation"
  | .emptyPath => "empty member path"
  | .chainWithoutAlias path => "association chain '" ++ ".".intercalate path ++ "' needs a root alias"
  | .notAnAssociation e f => s!"'{e}.{f}' is not an association"
  | .endsOnAssociation e f => s!"member chain ends on association '{e}.{f}'"

/-- The wording of an unsupported expression. -/
def message (u : UnsupportedExpression) : String :=
  s!"unsupported expression node '{u.node}': {u.reason}"

end UnsupportedExpression

/-! ## Values -/

/-- A value of a row that a field cannot hold. -/
structure FieldCoercionError where
  entity : String
  field : String
  declared : ValueType
  found : ValueType
  source : CoercionError
deriving DecidableEq, Inhabited

/-- The wording of a value that a field cannot hold. -/
def FieldCoercionError.message (e : FieldCoercionError) : String :=
  s!"cannot assign {e.found.name} to field '{e.entity}.{e.field}' ({e.declared.name}): " ++
    e.source.message

/-! ## Backends -/

/-- A failure that a backend reports, in the context it arose in. -/
structure BackendError where
  context : String
  message : String
deriving DecidableEq, Repr, Inhabited

namespace BackendError

/-- A backend failure with its context in front. -/
def display (e : BackendError) : String := s!"{e.context}: {e.message}"

/-- The failure in an outer context; the inner one stays in the message. -/
def within (e : BackendError) (context : String) : BackendError := ⟨context, e.display⟩

end BackendError

/-! ## All of them -/

/-- Any failure of the mapper. -/
inductive MapperError
  | schema (e : SchemaError)
  | unsupported (e : UnsupportedExpression)
  | coercion (e : FieldCoercionError)
  | backend (e : BackendError)
deriving DecidableEq, Inhabited

namespace MapperError

/-- The wording of a failure. -/
def message : MapperError → String
  | .schema e => e.message
  | .unsupported e => e.message
  | .coercion e => e.message
  | .backend e => e.display

/-- The class of a failure. -/
def label : MapperError → String
  | .schema _ => "schema"
  | .unsupported _ => "unsupported"
  | .coercion _ => "coercion"
  | .backend _ => "backend"

/-- The wording with the class in front. -/
def labeled (e : MapperError) : String := s!"{e.label}: {e.message}"

/-- Whether a failure shows a mistake in the mapping or the program. -/
def isFatal : MapperError → Bool
  | .schema _ => true
  | .unsupported _ => true
  | _ => false

instance : Coe SchemaError MapperError := ⟨.schema⟩

instance : Coe UnsupportedExpression MapperError := ⟨.unsupported⟩

end MapperError

end EntityMapper
