import EntityMapper.Session.Write
import EntityMapper.Text.Search

/-!
# Statements and definitions

Raw statements, and statements that create, drop, empty and rebuild tables. What a backend refuses
is a failed outcome, except while a table is rebuilt.
-/

namespace EntityMapper.Session

/-! ## Raw statements -/

/-- Runs a statement on a backend. -/
def raw (s : Session) (backend : String) (sql : Dialect → String) :
    Program (Except MapperError (Outcome Unit)) :=
  prepared ((s.backends.find backend).mapError .schema) fun d =>
    spanned .statement rawStatement (fun _ => 0) do
      let c : Command := { object := "", text := sql d }
      let r ← withConnection backend .error do
        s.announce rawStatement d .unknown c
        Program.ask backend (.execute c)
      match r with
      | .ok affected => return .ok (.ok .unknown affected)
      | .error e =>
        Program.take (.log (.statementFailed backend e.display))
        Program.take (.metric (.writeFailed rawStatement))
        return .ok (.fail .unknown e.display)

/-- Runs a given statement. -/
def executeOn (s : Session) (backend sql : String) : Program (Except MapperError (Outcome Unit)) :=
  s.raw backend fun _ => sql

/-- Renames a table. -/
def renameOn (s : Session) (backend old new : String) :
    Program (Except MapperError (Outcome Unit)) :=
  s.raw backend fun d => d.renameTable old new

/-! ## Definitions -/

/-- Sends statements one after the other until one fails: the step that was tried last, and the
rows of the last statement. -/
def sendAll (s : Session) (m : Mapping) (last : StatementKind) (affected : Int) :
    List (StatementKind × String) → Program (StatementKind × Except BackendError Int)
  | [] => .done (last, .ok affected)
  | (kind, sql) :: rest => do
    match ← s.send m kind (m.command sql) (.execute (m.command sql)) with
    | .error e => return (kind, .error e)
    | .ok affected => s.sendAll m kind affected rest

/-- Runs statements over one connection. -/
def define (s : Session) (t : Table) (statements : Mapping → List (StatementKind × String)) :
    Program (Except MapperError (Outcome Unit)) :=
  prepared ((s.target t).mapError .schema) fun m =>
    spanned .define t.entity (fun _ => 0) do
      let (last, r) ← withConnection t.backend (fun e => (StatementKind.none, .error e))
        (s.sendAll m .none 0 (statements m))
      capture t.entity last ((r.mapError .backend).map (.ok last)) fun _ => pure ()

/-- Creates the table. -/
def createTable (s : Session) (t : Table) : Program (Except MapperError (Outcome Unit)) :=
  s.define t fun m => [(.createTable, m.createTable)]

/-- Drops the table. -/
def dropTable (s : Session) (t : Table) : Program (Except MapperError (Outcome Unit)) :=
  s.define t fun m => [(.dropTable, m.dropTable)]

/-- Empties the table; dropping and creating it also starts identities anew. -/
def truncate (s : Session) (t : Table) (recreate : Bool) :
    Program (Except MapperError (Outcome Unit)) :=
  s.define t fun m =>
    if recreate then [(.dropTable, m.dropTable), (.createTable, m.createTable)]
    else [(.deleteAll, m.truncate)]

/-! ## Rebuilding a table -/

/-- Whether a failure says that a table is missing. -/
def isMissingTable (e : BackendError) : Bool :=
  occursIn "no such table".toList (e.message.toList.map Char.toLower)

/-- Inserts objects with the keys they have. -/
def restore (s : Session) (e : EntityType) (m : Mapping) : List Object → Program (Except MapperError Unit)
  | [] => .done (.ok ())
  | o :: rest => do
    match (← s.insertObject e m false o).2 with
    | .error err => return .error err
    | .ok _ => s.restore e m rest

/-- Reads what is stored, as far as there is a table: the objects, and whether there is one. -/
def backUp (s : Session) (m : Mapping) : Program (Except MapperError (List Object × Bool)) := do
  let c := m.command s!"select * from {m.table.name}"
  s.announce m.table.entity m.dialect .select c
  match ← Program.ask m.table.backend (.reader c) with
  | .ok rows => return (materialize s.catalog m.table rows).map fun objects => (objects, true)
  | .error e =>
    if isMissingTable e then return .ok ([], false)
    else return .error (.backend (e.within (m.context .select)))

/-- Rebuilds a table over an open connection. -/
def rebuild (s : Session) (e : EntityType) (m : Mapping) : Program (Except MapperError Nat) := do
  match ← s.backUp m with
  | .error err => return .error err
  | .ok (objects, existed) =>
    let drop := if existed then [(StatementKind.dropTable, m.dropTable)] else []
    match ← s.sendAll m .none 0 (drop ++ [(.createTable, m.createTable)]) with
    | (_, .error err) => return .error (.backend err)
    | (_, .ok _) =>
      match ← s.restore e m objects with
      | .error err => return .error err
      | .ok _ =>
        Program.take (.log (.rebuilt m.table.entity objects.length))
        return .ok objects.length

/-- Rebuilds the table from its definition and keeps its rows; a missing one is created. -/
def alterTable (s : Session) (e : EntityType) : Program (Except MapperError Nat) :=
  prepared ((s.target e.table).mapError .schema) fun m =>
    spanned .define m.table.entity (fun r => r.toOption.getD 0) <|
      withConnection m.table.backend (fun err => .error (.backend err)) (s.rebuild e m)

/-! ## Scripts -/

/-- The script that creates the table. -/
def createScript (s : Session) (t : Table) : Except MapperError String :=
  ((s.target t).mapError .schema).map Mapping.createTable

/-- The script that drops the table. -/
def dropScript (s : Session) (t : Table) : Except MapperError String :=
  ((s.target t).mapError .schema).map Mapping.dropTable

/-- Whether a saved script still says what would be generated. -/
def scriptMatches (s : Session) (t : Table) (saved : String) : Except MapperError Bool :=
  (s.createScript t).map (definitionsMatch saved)

/-- The statement of a kind with its values in place; two kinds have none. -/
def statementTrace (s : Session) (t : Table) (kind : StatementKind) (e : Option Expr)
    (o : Option Object) : Except MapperError (Option String) := do
  let m ← (s.target t).mapError .schema
  let p ← m.compile? (if kind = .deleteAll then none else some m.rootAlias) e
  match ← (m.render kind p).mapError .schema with
  | none => return none
  | some sql =>
    let c := (m.command sql).withPredicate? p
    match o with
    | none => return some (c.trace m.dialect)
    | some o => return some ((c.withRow (← (t.toRow o).mapError .schema)).trace m.dialect)

end EntityMapper.Session
