import EntityMapper.Schema.Table
import EntityMapper.Value.Inspect

/-!
# The structure of tables

A table with its fields and rules. What reads a field, where an association leads and what a rule
accepts are functions, and are left out.
-/

namespace EntityMapper

/-- The flags of a field. -/
def FieldOptions.inspect (o : FieldOptions) : String :=
  recordText "FieldOptions" [("primary_key", boolText o.primaryKey), ("automatic", o.automatic.name.capitalize),
    ("ignore_for_save", boolText o.ignoreForSave)]

/-- An association without its target. -/
def Association.inspect (a : Association) : String :=
  openRecordText "AssociationDefinition" [("cardinality", a.cardinality.name.capitalize),
    ("keys", recordText "JoinKeys"
      [("parent_column", quoted a.parentColumn), ("child_column", quoted a.childColumn)])]

/-- What a field is. -/
def FieldKind.inspect : FieldKind → String
  | .scalar t => recordText "Scalar" [("value_type", t.valueType.label), ("nullable", boolText t.nullable)]
  | .association a => appliedText "Association" [a.inspect]

/-- A mapped field. -/
def Field.inspect (f : Field) : String :=
  openRecordText "FieldDefinition"
    [("name", quoted f.name), ("kind", f.kind.inspect), ("options", f.options.inspect)]

/-- A rule without its test. -/
def Rule.inspect (r : Rule) : String :=
  openRecordText "ValidationRule" [("field", quoted r.field), ("message", quoted r.message)]

/-- The mapping of an entity type. -/
def Table.inspect (t : Table) : String :=
  openRecordText "TableDefinition" [("entity_name", quoted t.entity), ("table_name", quoted t.tableName),
    ("database_name", optionText (t.database.map fun d => quoted d.name)),
    ("prefix_database_name", boolText (t.database.elim false DatabaseName.shown)),
    ("backend", quoted t.backend), ("fields", bracketed (t.fields.map Field.inspect)),
    ("rules", bracketed (t.rules.map Rule.inspect))]

end EntityMapper
