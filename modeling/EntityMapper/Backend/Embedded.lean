import EntityMapper.Engine.Run
import EntityMapper.Session.Program

/-!
# Embedded backends

A backend over the engine of this library. In memory one handle serves every connection; over a
file each connection has a handle of its own, so that only the store outlives it. A parameter is
bound by its name behind `@`, and one that nothing binds is null.
-/

namespace EntityMapper

open Engine (Cell SqlError Handle RowSet)

/-- Where the store of a backend is kept. -/
inductive StoreLocation
  | memory
  | file (path : String)
deriving DecidableEq, Repr, Inhabited

/-- A backend over the engine. -/
structure Embedded where
  location : StoreLocation
  /-- whether a file at the location can be opened -/
  reachable : Bool := true
  isOpen : Bool := false
  handle : Handle := {}
deriving Inhabited

namespace Embedded

/-- The cell that a parameter stands for. -/
def bound (c : Command) (parameter : String) : Cell :=
  match parameter.toList with
  | '@' :: name => ((c.bindings.lookup (String.ofList name)).map Cell.ofValue).getD .null
  | _ => .null

/-- Opens a connection. -/
def openHandle (e : Embedded) : Except BackendError Unit × Embedded :=
  match e.location with
  | .memory => (.ok (), { e with isOpen := true })
  | .file path =>
    if e.reachable then (.ok (), { e with isOpen := true, handle := { store := e.handle.store } })
    else (.error ⟨"open", s!"unable to open database file: {path}"⟩, e)

/-- Runs something over an open connection; what fails is told with its context. -/
def onHandle {α : Type} (e : Embedded) (context : String)
    (run : Handle → Except String α × Handle) : Except BackendError α × Embedded :=
  if e.isOpen then
    let (r, handle) := run e.handle
    (r.mapError (⟨context, ·⟩), { e with handle })
  else (.error ⟨context, "connection is not open"⟩, e)

/-- Runs a statement that returns no rows. -/
def execute (c : Command) (h : Handle) : Except String Nat × Handle :=
  let (r, h) := h.execute (bound c) c.text
  (r.mapError (SqlError.message c.text), h)

/-- Runs a statement that may return rows. -/
def query (c : Command) (h : Handle) : Except String RowSet × Handle :=
  let (r, h) := h.query (bound c) c.text
  (r.mapError (SqlError.message c.text), h)

/-- A row under its headers, the first of each name counting. -/
def toRow (headers : List String) (cells : List Cell) : Row :=
  Row.ofColumns (headers.zip (cells.map Cell.toValue))

/-- The first cell of the first row, or null. -/
def firstCell (rows : RowSet) : Value :=
  ((rows.rows.head?.bind List.head?).map Cell.toValue).getD .null

/-- Runs a statement and reads the first cell. -/
def scalar (c : Command) (h : Handle) : Except String Value × Handle :=
  let (r, h) := query c h
  (r.map firstCell, h)

/-- Inserts a row and reads its identity. -/
def insertIdentity (c : Command) (lastIdentity : String) (h : Handle) :
    Except String Value × Handle :=
  match execute c h with
  | (.ok _, h) => scalar { c with text := lastIdentity } h
  | (.error e, h) => (.error e, h)

/-- Answers a call. -/
def answer : (c : Call) → Embedded → Except BackendError c.Reply × Embedded
  | .connect, e => (.ok (), { e with isOpen := false })
  | .open, e => e.openHandle
  | .close, e => (.ok (), { e with isOpen := false })
  | .execute c, e => e.onHandle "execute" fun h =>
    let (r, h) := execute c h
    (r.map Int.ofNat, h)
  | .scalar c, e => e.onHandle "execute scalar" (scalar c)
  | .reader c, e => e.onHandle "execute reader" fun h =>
    let (r, h) := query c h
    (r.map fun rows => rows.rows.map (toRow rows.headers), h)
  | .insertIdentity c last, e => e.onHandle "insert" (insertIdentity c last)
  | .tableExists table, e => e.onHandle "table exists" fun h => (.ok (h.store.contains table), h)

end Embedded

end EntityMapper
