import EntityMapper.Graph
import EntityMapper.Session.Program
import EntityMapper.Statement

/-!
# Sessions

A session knows which backends there are and in which dialect each is spoken to. Every operation
opens one connection at most and closes it before it ends, whatever happens in between; a
connection that cannot be closed is noted and changes nothing.
-/

namespace EntityMapper

/-! ## Backends -/

/-- The registered backends with their dialects. -/
structure Backends where
  entries : List (String × Dialect) := []

namespace Backends

/-- The dialect of a backend. -/
def dialect? (b : Backends) (name : String) : Option Dialect := b.entries.lookup name

/-- Registers a backend under a name that is not taken yet. -/
def register (b : Backends) (name : String) (d : Dialect) : Except SchemaError Backends :=
  if (b.dialect? name).isSome then .error (.backendAlreadyRegistered name)
  else .ok ⟨b.entries ++ [(name, d)]⟩

/-- The names of the backends, sorted. -/
def names (b : Backends) : List String := (b.entries.map Prod.fst).mergeSort fun x y => !(y < x)

/-- The dialect of a backend, which has to be registered. -/
def find (b : Backends) (name : String) : Except SchemaError Dialect :=
  match b.dialect? name with
  | some d => .ok d
  | none => .error (.backendNotFound name)

end Backends

/-! ## Connections -/

/-- Runs a body between the opening of a connection and its closing. The body is not run where
there is no connection. -/
def withConnection {α : Type} (backend : String) (failed : BackendError → α) (body : Program α) :
    Program α := do
  match ← Program.ask backend .connect with
  | .error e => return failed (e.within "connect")
  | .ok _ =>
    match ← Program.ask backend .open with
    | .error e => return failed (e.within "open")
    | .ok _ =>
      let a ← body
      match ← Program.ask backend .close with
      | .error e => Program.take (.log (.closeFailed backend e))
      | .ok _ => pure ()
      return a

/-- Notes the start of an operation and its end, with the number of rows that its result tells. -/
def spanned {α : Type} (kind : OperationKind) (entity : String) (rows : α → Nat)
    (body : Program α) : Program α := do
  Program.take (.metric (.started kind entity))
  let a ← body
  Program.take (.metric (.finished kind entity (rows a)))
  return a

/-! ## Sessions -/

/-- The name that statements without an entity are counted under. -/
def rawStatement : String := "<statement>"

/-- A session over the tables of a catalog. Metrics go to `sink` if it names one. -/
structure Session where
  catalog : Catalog
  backends : Backends
  debug : Bool := false
  sink : Option String := none

/-- The context of a failure while a statement ran. -/
def Mapping.context (m : Mapping) (kind : StatementKind) : String := s!"{kind.name} {m.table.name}"

/-- A command for the table. -/
def Mapping.command (m : Mapping) (sql : String) : Command :=
  { object := m.table.tableName, text := sql }

/-- A predicate over the table. -/
def Mapping.compile (m : Mapping) (rootAlias : Option String) (e : Expr) :
    Except MapperError CompiledPredicate :=
  Scope.compile ⟨m.catalog, m.table, rootAlias⟩ m.dialect "" e

/-- A predicate over the table, if there is one. -/
def Mapping.compile? (m : Mapping) (rootAlias : Option String) (e : Option Expr) :
    Except MapperError (Option CompiledPredicate) :=
  match e with
  | none => .ok none
  | some e => (m.compile rootAlias e).map some

namespace Session

/-- The mapping of a table in the dialect of its backend. -/
def target (s : Session) (t : Table) : Except SchemaError Mapping := do
  return ⟨s.catalog, t, ← s.backends.find t.backend⟩

/-- Notes that a command is about to be handed to a connection. -/
def announce (s : Session) (entity : String) (d : Dialect) (kind : StatementKind) (c : Command) :
    Program Unit := do
  Program.takeIf s.debug (.log (.executing entity kind (c.trace d)))
  Program.take (.metric (.statement kind entity))

/-- Announces a command and hands it to the connection; a failure is put into the context of the
statement. -/
def send (s : Session) (m : Mapping) (kind : StatementKind) (c : Command) (call : Call) :
    Program (Except BackendError call.Reply) := do
  s.announce m.table.entity m.dialect kind c
  let r ← Program.ask m.table.backend call
  return r.mapError fun e => e.within (m.context kind)

/-- A write that a backend refused becomes a failed outcome; other errors stay errors. -/
def capture {α : Type} (entity : String) (kind : StatementKind)
    (result : Except MapperError (Outcome α)) (onFail : String → Program Unit) :
    Program (Except MapperError (Outcome α)) := do
  match result with
  | .error (.backend e) =>
    let message := e.display
    Program.take (.log (.writeFailed entity kind message))
    Program.take (.metric (.writeFailed entity))
    onFail message
    return .ok (.fail kind message)
  | result => return result

/-- The rows that an outcome tells; an error tells none. -/
def outcomeRows {α : Type} : Except MapperError (Outcome α) → Nat
  | .ok o => o.rows
  | .error _ => 0

end Session

end EntityMapper
