import EntityMapper.DateTime.Text
import EntityMapper.Value

/-!
# SQL dialects

What differs from one database to the next: how a parameter is marked, how a column is declared,
how a new identity is read back.
-/

namespace EntityMapper

/-- The databases that statements can be written for. -/
inductive Database
  | mysql
  | oracle
  | postgresql
  | sqlite
  | sqlserver
deriving DecidableEq, Repr, Inhabited

namespace Database

/-- The name of a database. -/
def name : Database → String
  | .mysql => "mysql"
  | .oracle => "oracle"
  | .postgresql => "postgresql"
  | .sqlite => "sqlite"
  | .sqlserver => "sqlserver"

/-- All databases. -/
def all : List Database := [.mysql, .oracle, .postgresql, .sqlite, .sqlserver]

/-- The database of a name. -/
def ofName? (s : String) : Option Database := all.find? fun d => d.name == s

theorem ofName?_name (d : Database) : ofName? d.name = some d := by cases d <;> decide

end Database

/-- The SQL of one database. -/
structure Dialect where
  database : Database
  /-- the character in front of a parameter's name -/
  marker : Char
  /-- the query that reads the identity of the last inserted row -/
  lastIdentity : Option String
  /-- how a trace shows the fraction of a second -/
  subseconds : DateTime.SubsecondLayout
  /-- whether an identity column declares the primary key itself -/
  inlineIdentityKey : Bool
deriving DecidableEq, Repr

namespace Dialect

/-- The SQL of a database. -/
def of (database : Database) : Dialect where
  database
  marker := match database with
    | .oracle => ':'
    | _ => '@'
  lastIdentity := match database with
    | .mysql => some "select last_insert_id()"
    | .oracle => none
    | .postgresql => some "select lastval()"
    | .sqlite => some "select last_insert_rowid()"
    | .sqlserver => some "select scope_identity()"
  subseconds := match database with
    | .mysql => .microseconds
    | .postgresql => .microseconds
    | _ => .asNeeded
  inlineIdentityKey := database == .sqlite

instance : Inhabited Dialect := ⟨.of .sqlite⟩

/-- The layout in which a trace shows datetimes. -/
def datetimeFormat (d : Dialect) : String :=
  match d.subseconds with
  | .microseconds => "%Y-%m-%d %H:%M:%S%.6f"
  | .asNeeded => "%Y-%m-%d %H:%M:%S%.f"

/-- A parameter in SQL. -/
def placeholder (d : Dialect) (name : String) : String := d.marker.toString ++ name

/-- The type of a column for a kind of value. -/
def columnType (d : Dialect) (type : ValueType) : String :=
  match d.database with
  | .sqlite => match type with
    | .bool => "integer"
    | .int => "integer"
    | .float => "real"
    | .blob => "blob"
    | _ => "text"
  | .sqlserver => match type with
    | .bool => "bit"
    | .int => "bigint"
    | .float => "float"
    | .blob => "varbinary(max)"
    | .datetime => "datetime2(7)"
    | _ => "nvarchar(max)"
  | .mysql => match type with
    | .bool => "tinyint(1)"
    | .int => "bigint"
    | .float => "double"
    | .blob => "longblob"
    | .datetime => "datetime(6)"
    | _ => "longtext"
  | .postgresql => match type with
    | .bool => "boolean"
    | .int => "bigint"
    | .float => "double precision"
    | .blob => "bytea"
    | .datetime => "timestamp"
    | _ => "text"
  | .oracle => match type with
    | .bool => "number(1)"
    | .int => "number(19)"
    | .float => "binary_double"
    | .blob => "blob"
    | .datetime => "timestamp(7)"
    | _ => "nclob"

/-- The declaration of a column that the backend assigns. -/
def identityColumn (d : Dialect) : String :=
  match d.database with
  | .sqlite => "integer primary key autoincrement"
  | .sqlserver => "bigint identity(1,1)"
  | .mysql => "bigint auto_increment"
  | .postgresql => "bigserial"
  | .oracle => "number(19) generated by default as identity"

/-- The statement that renames a table. -/
def renameTable (d : Dialect) (old new : String) : String :=
  match d.database with
  | .mysql => s!"rename table {old} to {new}"
  | .sqlserver => s!"exec sp_rename '{old}', '{new}'"
  | _ => s!"alter table {old} rename to {new}"

end Dialect

end EntityMapper
