import EntityMapper.Engine.Cell
import EntityMapper.Engine.Token
import EntityMapper.Predicate.Expr

/-!
# SQL that the engine understands

The tree of a statement. A column is what the reader of the tree makes of it: a name at first, a
place in a row once names are resolved.
-/

namespace EntityMapper.Engine

/-! ## Expressions -/

/-- The functions that can be called; any other is known by its name only. -/
inductive SqlFunction
  | lower
  | upper
  /-- the rows in which an argument is not null -/
  | count
  | lastRowId
  | other
deriving DecidableEq, Repr, Inhabited

namespace SqlFunction

/-- The function of a name. -/
def ofName (name : String) : SqlFunction :=
  match String.ofList (name.toList.map Char.toLower) with
  | "lower" => .lower
  | "upper" => .upper
  | "count" => .count
  | "last_insert_rowid" => .lastRowId
  | _ => .other

/-- How many arguments a function takes. -/
def arity : SqlFunction → Nat
  | .lastRowId => 0
  | _ => 1

end SqlFunction

/-- A name and the byte at which it is written. -/
structure Located where
  name : String
  offset : Nat
deriving DecidableEq, Repr, Inhabited

/-- An expression over columns of some kind. -/
inductive SqlExpr (χ : Type)
  | literal (c : Cell)
  | parameter (name : String)
  | column (c : χ)
  | negate (e : SqlExpr χ)
  | not (e : SqlExpr χ)
  | and (l r : SqlExpr χ)
  | or (l r : SqlExpr χ)
  | compare (op : CompareOp) (l r : SqlExpr χ)
  /-- equality that takes null for a value -/
  | same (l r : SqlExpr χ)
  | arithmetic (op : ArithmeticOp) (l r : SqlExpr χ)
  | concat (l r : SqlExpr χ)
  | like (e pattern : SqlExpr χ)
  | isIn (e : SqlExpr χ) (items : List (SqlExpr χ))
  | cast (e : SqlExpr χ) (a : Affinity)
  | call (f : SqlFunction) (name : Located) (args : List (SqlExpr χ))
deriving Inhabited

/-! ## Names -/

/-- A column by name, with the byte at which the name is written. -/
structure ColumnName where
  qualifier : Option String
  name : String
  offset : Nat
deriving DecidableEq, Repr, Inhabited

/-- A table by name. -/
structure TableName where
  database : Option String
  name : String
  /-- the byte at which the name of the table is written, and that of its database -/
  offset : Nat
  databaseOffset : Nat
deriving DecidableEq, Repr, Inhabited

/-- A name as it is written. -/
def TableName.display (t : TableName) : String := (t.database.elim "" (· ++ ".")) ++ t.name

/-! ## Statements -/

/-- An item of the list that a select returns. -/
inductive SelectItem
  | all
  | allOf (table : String)
  | expr (e : SqlExpr ColumnName) (written : String) (label : Option String)
deriving Inhabited

/-- A table that rows are read from. -/
structure Source where
  table : TableName
  tableAlias : String
deriving Inhabited

/-- A further table. -/
structure Joined where
  source : Source
  /-- whether rows without a partner are kept -/
  keeps : Bool
  on : Option (SqlExpr ColumnName)
deriving Inhabited

/-- A select. -/
structure Select where
  items : List SelectItem
  source : Option (Source × List Joined)
  condition : Option (SqlExpr ColumnName)
deriving Inhabited

/-- A column in the definition of a table. -/
structure ColumnDefinition where
  name : String
  type : String
  notNull : Bool := false
  primaryKey : Bool := false
  autoincrement : Bool := false
deriving DecidableEq, Repr, Inhabited

/-- A statement. -/
inductive SqlStatement
  | empty
  | select (s : Select)
  | insert (table : TableName) (columns : Option (List String)) (rows : List (List (SqlExpr ColumnName)))
  | update (table : TableName) (sets : List (String × SqlExpr ColumnName))
      (condition : Option (SqlExpr ColumnName))
  | delete (table : TableName) (condition : Option (SqlExpr ColumnName))
  | create (table : TableName) (ifMissing : Bool) (columns : List ColumnDefinition)
      (key : Option (List String))
  | drop (table : TableName) (ifPresent : Bool)
  | rename (table : TableName) (name : String)
deriving Inhabited

/-! ## Failures -/

/-- Why a statement is refused or fails. -/
inductive SqlError
  | unexpected (near : Token)
  | incomplete
  | noSuchTable (name : String)
  | noSuchColumn (c : ColumnName)
  | ambiguousColumn (c : ColumnName)
  /-- a column that is to be set -/
  | noSuchTarget (column : String)
  | noColumnNamed (table column : String)
  | noSuchFunction (name : String) (offset : Nat)
  | wrongArguments (name : String) (offset : Nat)
  | valueCount (table : String) (columns values : Nat) (listed : Bool)
  | tableExists (name : String) (offset : Nat)
  | nameTaken (name : String)
  | unknownDatabase (name : String) (offset : Nat)
  | duplicateColumn (name : String)
  | severalKeys (table : String)
  | misplacedAutoincrement
  | mismatch
  | full
  | notNull (table column : String)
  | notUnique (table : String) (columns : List String)
  | nothingToRun
  | returnsRows

/-- A column as it is written. -/
def ColumnName.display (c : ColumnName) : String := (c.qualifier.elim "" (· ++ ".")) ++ c.name

namespace SqlError

/-- What went wrong, and where in the statement if that is told. -/
def cause : SqlError → String × Option Nat
  | .unexpected t =>
    if t.kind = .unknown then (s!"unrecognized token: \"{t.written}\"", some t.offset)
    else (s!"near \"{t.written}\": syntax error", some t.offset)
  | .incomplete => ("incomplete input", none)
  | .noSuchTable name => (s!"no such table: {name}", none)
  | .noSuchColumn c => (s!"no such column: {c.display}", some c.offset)
  | .ambiguousColumn c => (s!"ambiguous column name: {c.display}", some c.offset)
  | .noSuchTarget column => (s!"no such column: {column}", none)
  | .noColumnNamed table column => (s!"table {table} has no column named {column}", none)
  | .noSuchFunction name offset => (s!"no such function: {name}", some offset)
  | .wrongArguments name offset => (s!"wrong number of arguments to function {name}()", some offset)
  | .valueCount table columns values listed =>
    (if listed then s!"{values} values for {columns} columns"
     else s!"table {table} has {columns} columns but {values} values were supplied", none)
  | .tableExists name offset => (s!"table {name} already exists", some offset)
  | .nameTaken name => (s!"there is already another table or index with this name: {name}", none)
  | .unknownDatabase name offset => (s!"unknown database {name}", some offset)
  | .duplicateColumn name => (s!"duplicate column name: {name}", none)
  | .severalKeys table => (s!"table \"{table}\" has more than one primary key", none)
  | .misplacedAutoincrement => ("AUTOINCREMENT is only allowed on an INTEGER PRIMARY KEY", none)
  | .mismatch => ("datatype mismatch", none)
  | .full => ("database or disk is full", none)
  | .notNull table column => (s!"NOT NULL constraint failed: {table}.{column}", none)
  | .notUnique table columns =>
    ("UNIQUE constraint failed: " ++ ", ".intercalate (columns.map fun c => s!"{table}.{c}"), none)
  | .nothingToRun => ("not an error", none)
  | .returnsRows => ("Execute returned results - did you mean to call query?", none)

/-- Whether a failure arises only while a statement runs. -/
def isLate : SqlError → Bool
  | .mismatch => true
  | .full => true
  | .notNull .. => true
  | .notUnique .. => true
  | _ => false

/-- The wording of a failure of a statement. -/
def message (sql : String) (e : SqlError) : String :=
  match e.cause with
  | (text, none) => text
  | (text, some offset) => s!"{text} in {sql} at offset {offset}"

end SqlError

end EntityMapper.Engine
