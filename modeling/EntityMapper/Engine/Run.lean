import EntityMapper.Engine.Evaluate
import EntityMapper.Engine.Grammar

/-!
# Running statements

A select joins its tables from left to right and returns rows in the order of their numbers. A
statement that writes either does all it is asked for or leaves the store alone.
-/

namespace EntityMapper.Engine

/-! ## Selecting -/

/-- Rows under names. -/
structure RowSet where
  headers : List String := []
  rows : List (List Cell) := []
deriving Inhabited

/-- Rows joined with those of one more table. -/
def joinRows (left : List (List Cell)) (t : StoredTable) (keeps : Bool) (on : Option (SqlExpr Place))
    (f : Frame) : List (List Cell) :=
  left.flatMap fun l =>
    let found := (t.rows.map fun r => l ++ r.2).filter fun row => on.all fun e => e.holds { f with row }
    if found.isEmpty && keeps then [l ++ t.columns.map fun _ => .null] else found

/-- A condition with its names resolved, if there is one. -/
def resolve? (scope : List ScopeColumn) (e : Option (SqlExpr ColumnName)) :
    Except SqlError (Option (SqlExpr Place)) :=
  match e with
  | none => .ok none
  | some e => some <$> e.resolve scope

/-- What an item of a select stands for: expressions with their headers. -/
def itemColumns (scope : List ScopeColumn) : SelectItem →
    Except SqlError (List (String × SqlExpr Place))
  | .all => .ok (scope.zipIdx.map fun (c, i) => (c.name, .column ⟨i, c.affinity⟩))
  | .allOf table =>
    match scope.zipIdx.filter fun e => sameName e.1.table table with
    | [] => .error (.noSuchTable table)
    | found => .ok (found.map fun (c, i) => (c.name, .column ⟨i, c.affinity⟩))
  | .expr e written label => do
    let r ← e.resolve scope
    let header := match r with
      | .column p => (scope[p.index]?.map ScopeColumn.name).getD written
      | _ => written
    return [(label.getD header, r)]

namespace Store

/-- The tables of a select, under their aliases. -/
def sources (s : Store) (q : Select) : Except SqlError (List (String × StoredTable)) :=
  match q.source with
  | none => .ok []
  | some (first, joined) => (first :: joined.map Joined.source).mapM fun x => do
    return (x.tableAlias, ← s.table x.table)

/-- Runs a select. -/
def select (s : Store) (f : Frame) (q : Select) : Except SqlError RowSet := do
  let tables ← s.sources q
  let scope := tables.flatMap fun t => scopeOf t.1 t.2
  let columns := (← q.items.mapM (itemColumns scope)).flatten
  let condition ← resolve? scope q.condition
  let joins := (q.source.map Prod.snd).getD []
  let ons ← joins.mapM fun j => resolve? scope j.on
  let first := match tables.head? with
    | some t => t.2.rows.map Prod.snd
    | none => [[]]
  let joined := ((tables.drop 1).zip (joins.zip ons)).foldl
    (fun rows (t, j, on) => joinRows rows t.2 j.keeps on f) first
  let rows := joined.filter fun row => condition.all fun e => e.holds { f with row }
  let headers := columns.map Prod.fst
  let exprs := columns.map Prod.snd
  if SqlExpr.countsAny exprs then
    return ⟨headers, [SqlExpr.evalAll exprs { f with row := rows.getLast?.getD [], group := rows }]⟩
  else return ⟨headers, rows.map fun row => SqlExpr.evalAll exprs { f with row }⟩

end Store

/-! ## Writing -/

/-- What a statement that writes has done. -/
structure Written where
  store : Store
  changes : Nat
  lastRowId : Option Int := none

/-- The places of the columns that an insert names, or of all. -/
def targetPlaces (t : StoredTable) (columns : Option (List String)) : Except SqlError (List Nat) :=
  match columns with
  | none => .ok (List.range t.columns.length)
  | some names => names.mapM fun n =>
    match t.place? n with
    | some i => .ok i
    | none => .error (.noColumnNamed t.name n)

/-- Cells at places, with null at all others. -/
def cellsAt (t : StoredTable) (places : List Nat) (values : List Cell) : List Cell :=
  (List.range t.columns.length).map fun i => ((places.zip values).lookup i).getD .null

namespace Store

/-- Inserts rows. -/
def insert (s : Store) (f : Frame) (name : TableName) (columns : Option (List String))
    (rows : List (List (SqlExpr ColumnName))) : Except SqlError Written := do
  let t ← s.table name
  let places ← targetPlaces t columns
  let values ← rows.mapM fun row => do
    if row.length ≠ places.length then
      throw (.valueCount t.name places.length row.length columns.isSome)
    return SqlExpr.evalAll (← SqlExpr.resolveAll [] row) f
  let (t, last) ← values.foldlM (fun (t, _) cells => do
    let (t, number) ← t.insert (cellsAt t places cells)
    return (t, some number)) (t, none)
  return ⟨s.put t, rows.length, last⟩

/-- Whether a condition holds of a row, if there is one. -/
def selects (condition : Option (SqlExpr Place)) (f : Frame) (row : List Cell) : Bool :=
  condition.all fun e => e.holds { f with row }

/-- Updates the rows that meet a condition, one after the other. -/
def update (s : Store) (f : Frame) (name : TableName) (sets : List (String × SqlExpr ColumnName))
    (condition : Option (SqlExpr ColumnName)) : Except SqlError Written := do
  let t ← s.table name
  let scope := scopeOf name.name t
  let sets ← sets.mapM fun (n, e) => do
    match t.place? n with
    | some i => return (i, ← e.resolve scope)
    | none => throw (.noSuchTarget n)
  let condition ← resolve? scope condition
  let chosen := t.rows.filter fun r => selects condition f r.2
  let t ← chosen.foldlM (fun t row =>
    t.replace row (sets.foldl (fun cells (i, e) => cells.set i (e.eval { f with row := row.2 })) row.2)) t
  return ⟨s.put t, chosen.length, none⟩

/-- Deletes the rows that meet a condition. -/
def delete (s : Store) (f : Frame) (name : TableName) (condition : Option (SqlExpr ColumnName)) :
    Except SqlError Written := do
  let t ← s.table name
  let condition ← resolve? (scopeOf name.name t) condition
  let kept := t.rows.filter fun r => !selects condition f r.2
  return ⟨s.put { t with rows := kept }, t.rows.length - kept.length, none⟩

end Store

/-! ## Statements -/

/-- A store with what is remembered of the last writes. -/
structure Handle where
  store : Store := {}
  /-- how many rows the last statement that wrote rows has touched -/
  changes : Nat := 0
  lastRowId : Int := 0
deriving Inhabited

namespace Handle

/-- Remembers what was written. A write that fails while it runs has touched no rows. -/
def remember (h : Handle) : Except SqlError Written → Except SqlError (Option RowSet) × Handle
  | .ok w => (.ok none, ⟨w.store, w.changes, w.lastRowId.getD h.lastRowId⟩)
  | .error err => (.error err, if err.isLate then { h with changes := 0 } else h)

/-- Goes on with another store. -/
def redefine (h : Handle) : Except SqlError Store → Except SqlError (Option RowSet) × Handle
  | .ok store => (.ok none, { h with store })
  | .error err => (.error err, h)

/-- Runs a statement: its rows, if it is one that returns rows. -/
def run (h : Handle) (parameter : String → Cell) (sql : String) :
    Except SqlError (Option RowSet) × Handle :=
  let f : Frame := { parameter, lastRowId := h.lastRowId }
  match SqlStatement.ofText sql with
  | .error err => (.error err, h)
  | .ok .empty => (.error .nothingToRun, h)
  | .ok (.select q) => (some <$> h.store.select f q, h)
  | .ok (.insert t columns rows) => h.remember (h.store.insert f t columns rows)
  | .ok (.update t sets condition) => h.remember (h.store.update f t sets condition)
  | .ok (.delete t condition) => h.remember (h.store.delete f t condition)
  | .ok (.create t ifMissing columns key) => h.redefine (h.store.create t ifMissing columns key)
  | .ok (.drop t ifPresent) => h.redefine (h.store.drop t ifPresent)
  | .ok (.rename t name) => h.redefine (h.store.rename t name)

/-- Runs a statement that returns no rows: how many rows the last write has touched. -/
def execute (h : Handle) (parameter : String → Cell) (sql : String) : Except SqlError Nat × Handle :=
  match h.run parameter sql with
  | (.ok none, h) => (.ok h.changes, h)
  | (.ok (some _), h) => (.error .returnsRows, h)
  | (.error err, h) => (.error err, h)

/-- Runs a statement: its rows, which are none where it returns none. -/
def query (h : Handle) (parameter : String → Cell) (sql : String) : Except SqlError RowSet × Handle :=
  let (r, h) := h.run parameter sql
  (r.map fun rows => rows.getD {}, h)

end Handle

end EntityMapper.Engine
