import EntityMapper.Predicate.Compile
import EntityMapper.Statement.JoinTree
import EntityMapper.Statement.Kind

/-!
# Statements

The SQL for one table in one dialect. Values are never written into a statement: a column is
compared with and set to the parameter of its own name.
-/

namespace EntityMapper

/-- A table with the catalog it belongs to and the dialect that its statements are written in. -/
structure Mapping where
  catalog : Catalog
  table : Table
  dialect : Dialect

namespace Mapping

/-- The name that a count is returned under. -/
def countAlias : String := "tt"

/-- The alias of the root table where several are joined. -/
def rootAlias (m : Mapping) : String := m.table.tableName

/-- The parameter of a column. -/
def placeholder (m : Mapping) (f : Field) : String := m.dialect.placeholder f.name

/-- The condition on the key columns. -/
def keyCondition (m : Mapping) (qualifier : Option String) : String :=
  " and ".intercalate <| m.table.primaryKey.map fun f =>
    Condition.columnText qualifier f.name ++ " = " ++ m.placeholder f

/-- A statement with a condition, unless that is empty. -/
def filtered (sql : String) (p : Option CompiledPredicate) : String :=
  match p with
  | none => sql
  | some p => if p.isEmpty then sql else sql ++ "\nwhere " ++ p.text

/-! ## Reading -/

/-- The tables that a select reaches. -/
def joinTree (m : Mapping) : Except SchemaError JoinTree :=
  JoinTree.build m.catalog m.table m.rootAlias "" [m.table.typeId]

/-- The root table with its alias. -/
def fromClause (m : Mapping) : String :=
  if m.table.name = m.rootAlias then m.table.name else m.table.name ++ " " ++ m.rootAlias

/-- The root table and all joins. -/
def source (m : Mapping) (j : JoinTree) : String :=
  "from " ++ m.fromClause ++ String.join (j.joins.map fun join => "\n" ++ join.sql)

/-- Every column of every table that associations lead to. -/
def select (m : Mapping) : Except SchemaError String := do
  let j ← m.joinTree
  return "select " ++ ", ".intercalate (j.columns.map JoinTree.ResultColumn.sql) ++ "\n" ++ m.source j

/-- The select with a condition compiled under the root alias. -/
def selectWhere (m : Mapping) (p : Option CompiledPredicate) : Except SchemaError String := do
  return filtered (← m.select) p

/-- The select of one object by its key. -/
def reload (m : Mapping) : Except SchemaError String := do
  m.table.requirePrimaryKey "reload"
  return (← m.select) ++ "\nwhere " ++ m.keyCondition (some m.rootAlias)

/-- The number of joined rows that meet a condition. -/
def count (m : Mapping) (p : Option CompiledPredicate) : Except SchemaError String := do
  return filtered ("select count(0) as " ++ countAlias ++ "\n" ++ m.source (← m.joinTree)) p

/-- The number of rows with an object's key. -/
def existenceCheck (m : Mapping) : Except SchemaError String := do
  m.table.requirePrimaryKey "existence check"
  return "select count(0) as " ++ countAlias ++ " from " ++ m.table.name ++ "\nwhere " ++
    m.keyCondition none

/-! ## Writing -/

/-- The columns that an insert writes: none that are computed or not saved, and those that the
backend assigns only where they are not to be ignored. -/
def insertColumns (m : Mapping) (ignoreAutomatic : Bool) : List Field :=
  m.table.scalarFields.filter fun f =>
    !f.options.ignoreForSave && f.options.automatic != .computed &&
      !(ignoreAutomatic && f.isAutomatic)

/-- An insert that leaves out what the backend fills writes the other columns that are saved. -/
theorem mem_insertColumns {m : Mapping} {f : Field} : f ∈ m.insertColumns true ↔
    f ∈ m.table.scalarFields ∧ f.options.ignoreForSave = false ∧ f.isAutomatic = false := by
  unfold insertColumns Field.isAutomatic
  rw [List.mem_filter]
  cases f.options.automatic <;> simp

/-- The insert of one object. -/
def insert (m : Mapping) (ignoreAutomatic : Bool) : String :=
  let fields := m.insertColumns ignoreAutomatic
  s!"insert into {m.table.name} (" ++ ", ".intercalate (fields.map Field.name) ++ ") values (" ++
    ", ".intercalate (fields.map m.placeholder) ++ ")"

/-- The columns that an update sets. A table of nothing but keys sets those, so that matched rows
are counted. -/
def updateColumns (m : Mapping) : List Field :=
  let fields := m.table.scalarFields.filter fun f =>
    !f.options.ignoreForSave && !f.options.primaryKey && !f.isAutomatic
  if fields.isEmpty then m.table.primaryKey else fields

/-- The update of one object by its key. -/
def update (m : Mapping) : Except SchemaError String := do
  m.table.requirePrimaryKey "update"
  return s!"update {m.table.name} set " ++
    ", ".intercalate (m.updateColumns.map fun f => f.name ++ " = " ++ m.placeholder f) ++
    "\nwhere " ++ m.keyCondition none

/-- The deletion of one object by its key. -/
def delete (m : Mapping) : Except SchemaError String := do
  m.table.requirePrimaryKey "delete"
  return s!"delete from {m.table.name}\nwhere " ++ m.keyCondition none

/-- The deletion of all rows that meet a condition compiled without a root alias. -/
def deleteAll (m : Mapping) (p : Option CompiledPredicate) : String :=
  filtered s!"delete from {m.table.name}" p

/-- The removal of all rows. -/
def truncate (m : Mapping) : String :=
  match m.dialect.database with
  | .sqlite => s!"delete from {m.table.name}"
  | _ => s!"truncate table {m.table.name}"

/-! ## Defining tables -/

/-- Whether the identity column declares the key: it has to be the whole key. -/
def inlineKey (m : Mapping) : Bool :=
  m.dialect.inlineIdentityKey &&
    match m.table.primaryKey, m.table.identityField? with
    | [key], some identity => key.name == identity.name
    | _, _ => false

/-- The declaration of a column. -/
def columnDefinition (m : Mapping) (f : Field) : String :=
  if f.isIdentity && (m.inlineKey || !m.dialect.inlineIdentityKey) then
    s!"{f.name} {m.dialect.identityColumn}"
  else
    s!"{f.name} {m.dialect.columnType f.valueType} " ++ if f.isNullable then "null" else "not null"

/-- The lines that declare a table: its columns and, unless a column declares it, its key. -/
def definitionLines (m : Mapping) : List String :=
  m.table.scalarFields.map m.columnDefinition ++
    if m.table.hasPrimaryKey && !m.inlineKey then
      ["primary key (" ++ ", ".intercalate (m.table.primaryKey.map Field.name) ++ ")"]
    else []

/-- The statement that creates the table. -/
def createTable (m : Mapping) : String :=
  s!"create table {m.table.name} (\n    " ++ ",\n    ".intercalate m.definitionLines ++ "\n)"

/-- The statement that drops the table. -/
def dropTable (m : Mapping) : String := s!"drop table {m.table.name}"

/-! ## By kind -/

/-- The statement of a kind; two kinds have none. -/
def render (m : Mapping) (kind : StatementKind) (p : Option CompiledPredicate) :
    Except SchemaError (Option String) :=
  match kind with
  | .select => some <$> m.selectWhere p
  | .reload => some <$> m.reload
  | .insert => .ok (some (m.insert true))
  | .update => some <$> m.update
  | .delete => some <$> m.delete
  | .deleteAll => .ok (some (m.deleteAll p))
  | .existenceCheck => some <$> m.existenceCheck
  | .createTable => .ok (some m.createTable)
  | .dropTable => .ok (some m.dropTable)
  | .none => .ok none
  | .unknown => .ok none

end Mapping

/-! ## Comparing definitions -/

/-- Replaces the two-character line ends of a text. -/
def unifyLineEnds : List Char → List Char
  | '\r' :: '\n' :: r => '\n' :: unifyLineEnds r
  | c :: r => c :: unifyLineEnds r
  | [] => []

/-- Whether a saved definition says the same as a generated one, apart from line ends and white
space at the end. -/
def definitionsMatch (saved generated : String) : Bool :=
  trimRight (unifyLineEnds saved.toList) == trimRight (unifyLineEnds generated.toList)

end EntityMapper
