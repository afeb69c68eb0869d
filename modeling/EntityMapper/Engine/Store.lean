import EntityMapper.Engine.Sql

/-!
# What the engine stores

A table keeps its rows by row number. An integer column that is the whole key holds the row number
itself; any other key is kept free of duplicates, where null is no duplicate of anything. A table
with `autoincrement` never gives a number out twice.
-/

namespace EntityMapper.Engine

/-! ## Tables -/

/-- A column of a stored table. -/
structure StoredColumn where
  name : String
  affinity : Affinity
  notNull : Bool
deriving DecidableEq, Repr, Inhabited

/-- A row: its number and its cells, in the order of the columns. -/
abbrev StoredRow := Int × List Cell

/-- A stored table. -/
structure StoredTable where
  name : String
  columns : List StoredColumn
  /-- the place of the column that holds the row number -/
  numbered : Option Nat
  autoincrement : Bool
  /-- the places of the columns of any other key -/
  key : List Nat
  /-- the rows, in the order of their numbers -/
  rows : List StoredRow := []
  /-- the largest row number that was ever used -/
  lastUsed : Int := 0
deriving Inhabited

/-- Whether two names are the same; the case of letters does not matter. -/
def sameName (a b : String) : Bool := a.toList.map Char.toLower == b.toList.map Char.toLower

/-- The largest row number. -/
def greatestRow : Int := twoTo 63 - 1

namespace StoredTable

/-- The place of a column. -/
def place? (t : StoredTable) (name : String) : Option Nat :=
  t.columns.findIdx? fun c => sameName c.name name

/-- The name of the column at a place. -/
def columnName (t : StoredTable) (place : Nat) : String :=
  (t.columns[place]?.map StoredColumn.name).getD ""

/-- Cells as the columns store them. -/
def storeCells (t : StoredTable) (cells : List Cell) : List Cell :=
  List.zipWith (fun c v => c.affinity.store v) t.columns cells

/-! ## Constraints -/

/-- The first column that must not be null and is. The row number is never null. -/
def missing? (t : StoredTable) (cells : List Cell) : Option StoredColumn :=
  ((t.columns.zip cells).zipIdx.find? fun ((c, v), i) =>
    c.notNull && v.isNull && t.numbered != some i).map fun e => e.1.1

/-- Whether two rows have the same key. -/
def sameKey (t : StoredTable) (a b : List Cell) : Bool :=
  t.key.all fun i =>
    match a[i]?, b[i]? with
    | some x, some y => !x.isNull && x.order y == .eq
    | _, _ => false

/-- Checks a row against the others. -/
def check (t : StoredTable) (others : List StoredRow) (row : StoredRow) : Except SqlError Unit :=
  match t.missing? row.2 with
  | some c => .error (.notNull t.name c.name)
  | none =>
    if others.any (fun r => r.1 == row.1) then
      .error (.notUnique t.name (t.numbered.toList.map t.columnName))
    else if !t.key.isEmpty && others.any (fun r => t.sameKey r.2 row.2) then
      .error (.notUnique t.name (t.key.map t.columnName))
    else .ok ()

/-! ## Writing -/

/-- Puts a row at its place among rows in the order of their numbers. -/
def placeRow (row : StoredRow) : List StoredRow → List StoredRow
  | [] => [row]
  | r :: rest => if row.1 < r.1 then row :: r :: rest else r :: placeRow row rest

/-- The number of the next row: one past the largest, and past every one that was ever used where
none is used again. -/
def nextNumber (t : StoredTable) : Int :=
  let next := (t.rows.getLast?.map fun r => r.1 + 1).getD 1
  if t.autoincrement then max next (t.lastUsed + 1) else next

/-- The row number that a cell gives. -/
def numberOf (c : Cell) : Except SqlError Int :=
  match Affinity.store .integer c with
  | .int n => .ok n.toInt
  | _ => .error .mismatch

/-- The number of a new row: the one that its numbered column gives, or the next one. -/
def newNumber (t : StoredTable) (cells : List Cell) : Except SqlError Int :=
  match t.numbered.bind fun i => cells[i]? with
  | some c =>
    if c.isNull then (if t.nextNumber ≤ greatestRow then .ok t.nextNumber else .error .full)
    else numberOf c
  | none => if t.nextNumber ≤ greatestRow then .ok t.nextNumber else .error .full

/-- A row with its number in the numbered column. -/
def numberedRow (t : StoredTable) (number : Int) (cells : List Cell) : StoredRow :=
  (number, t.numbered.elim cells fun i => cells.set i (.int (Int64.ofInt number)))

/-- Inserts a row: the table, and the number of the row. -/
def insert (t : StoredTable) (cells : List Cell) : Except SqlError (StoredTable × Int) := do
  let number ← t.newNumber cells
  let row := t.numberedRow number (t.storeCells cells)
  t.check t.rows row
  return ({ t with rows := placeRow row t.rows, lastUsed := max t.lastUsed number }, number)

/-- Puts other cells into a row. -/
def replace (t : StoredTable) (old : StoredRow) (cells : List Cell) : Except SqlError StoredTable := do
  let number ← match t.numbered.bind fun i => cells[i]? with
    | some c => numberOf c
    | none => .ok old.1
  let row := t.numberedRow number (t.storeCells cells)
  let others := t.rows.filter fun r => r.1 != old.1
  t.check others row
  return { t with rows := placeRow row others }

/-! ## Defining -/

/-- The first name that is defined twice. -/
def repeated? : List String → List String → Option String
  | _, [] => none
  | seen, n :: rest => if seen.any (sameName n) then some n else repeated? (n :: seen) rest

/-- Whether a column can hold the row number as the whole key. -/
def canNumber (d : ColumnDefinition) : Bool := sameName d.type "integer"

/-- The table of a definition. -/
def define (name : String) (columns : List ColumnDefinition) (key : Option (List String)) :
    Except SqlError StoredTable := do
  if let some n := repeated? [] (columns.map ColumnDefinition.name) then throw (.duplicateColumn n)
  let inline := (columns.filter ColumnDefinition.primaryKey).map ColumnDefinition.name
  let keys := inline.map (fun n => [n]) ++ key.toList
  if 1 < keys.length then throw (.severalKeys name)
  let places := (keys.headD []).filterMap fun n => columns.findIdx? fun c => sameName c.name n
  let numbers : Bool := match places with
    | [i] => columns[i]?.any canNumber
    | _ => false
  let autoincrement := columns.any ColumnDefinition.autoincrement
  if autoincrement && !numbers then throw .misplacedAutoincrement
  return {
    name, autoincrement
    columns := columns.map fun c => ⟨c.name, .ofType c.type, c.notNull⟩
    numbered := if numbers then places.head? else none
    key := if numbers then [] else places }

end StoredTable

/-! ## The store -/

/-- All tables. -/
structure Store where
  tables : List StoredTable := []
deriving Inhabited

namespace Store

/-- The database that tables are in if none is named. -/
def mainDatabase : String := "main"

/-- The table of a name. -/
def find? (s : Store) (t : TableName) : Option StoredTable :=
  if t.database.all (sameName mainDatabase) then s.tables.find? fun u => sameName u.name t.name
  else none

/-- The table of a name, which has to be there. -/
def table (s : Store) (t : TableName) : Except SqlError StoredTable :=
  match s.find? t with
  | some t => .ok t
  | none => .error (.noSuchTable t.display)

/-- The store with a table in place of the one of its name. -/
def put (s : Store) (t : StoredTable) : Store :=
  ⟨s.tables.map fun u => if sameName u.name t.name then t else u⟩

/-- Creates a table. -/
def create (s : Store) (t : TableName) (ifMissing : Bool) (columns : List ColumnDefinition)
    (key : Option (List String)) : Except SqlError Store := do
  if !t.database.all (sameName mainDatabase) then
    throw (.unknownDatabase (t.database.getD "") t.databaseOffset)
  if (s.find? t).isSome then
    if ifMissing then return s else throw (.tableExists t.name t.offset)
  return ⟨s.tables ++ [← StoredTable.define t.name columns key]⟩

/-- Drops a table with all that was known of its row numbers. -/
def drop (s : Store) (t : TableName) (ifPresent : Bool) : Except SqlError Store :=
  match s.find? t with
  | some found => .ok ⟨s.tables.filter fun u => !sameName u.name found.name⟩
  | none => if ifPresent then .ok s else .error (.noSuchTable t.display)

/-- Gives a table another name. -/
def rename (s : Store) (t : TableName) (name : String) : Except SqlError Store := do
  let found ← s.table t
  if s.tables.any (fun u => sameName u.name name) then throw (.nameTaken name)
  return ⟨s.tables.map fun u => if sameName u.name found.name then { u with name } else u⟩

/-- Whether there is a table of exactly this name. -/
def contains (s : Store) (name : String) : Bool := s.tables.any fun t => t.name == name

end Store

end EntityMapper.Engine
