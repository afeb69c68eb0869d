import EntityMapper.Session

/-!
# Reading

Objects are read with everything that associations lead to, and rebuilt from the joined rows. A
failure of the backend is an error here.
-/

namespace EntityMapper.Session

/-- Reads the objects that a command selects. -/
def read (s : Session) (m : Mapping) (kind : StatementKind) (c : Command) :
    Program (Except MapperError (List Object)) :=
  spanned .load m.table.entity (fun r => r.toOption.elim 0 List.length) do
    let rows ← withConnection m.table.backend .error (s.send m kind c (.reader c))
    match rows with
    | .error e => return .error (.backend e)
    | .ok rows =>
      match materialize s.catalog m.table rows with
      | .error e => return .error e
      | .ok objects =>
        Program.take (.metric (.materialized m.table.entity rows.length objects.length))
        return .ok objects

/-- Whether a command counts at least one row. -/
def count (s : Session) (m : Mapping) (c : Command) : Program (Except MapperError Bool) :=
  spanned .exists m.table.entity (fun _ => 0) do
    let r ← withConnection m.table.backend .error (s.send m .existenceCheck c (.scalar c))
    return (r.mapError .backend).map fun v => v.asCount.any (0 < ·)

/-- Goes on with what has been prepared, or ends with the error. -/
def prepared {α β : Type} (a : Except MapperError α) (next : α → Program (Except MapperError β)) :
    Program (Except MapperError β) :=
  match a with
  | .error e => .done (.error e)
  | .ok a => next a

/-- The command of a query. -/
def queryCommand (m : Mapping) (e : Option Expr) : Except MapperError Command := do
  let p ← m.compile? (some m.rootAlias) e
  let sql ← (m.selectWhere p).mapError .schema
  return (m.command sql).withPredicate? p

/-- All objects that meet a condition. -/
def query (s : Session) (t : Table) (e : Option Expr) : Program (Except MapperError (List Object)) :=
  prepared ((s.target t).mapError .schema) fun m =>
    prepared (queryCommand m e) fun c => s.read m .select c

/-- The first object that meets a condition. -/
def load (s : Session) (t : Table) (e : Expr) : Program (Except MapperError (Option Object)) := do
  return (← s.query t (some e)).map List.head?

/-- The objects that a given statement selects; the names of its parameters may be marked. -/
def querySql (s : Session) (t : Table) (sql : String) (parameters : List (String × Value)) :
    Program (Except MapperError (List Object)) :=
  prepared ((s.target t).mapError .schema) fun m =>
    s.read m .select <| parameters.foldl (fun c (name, v) =>
      c.withParameter (String.ofList (name.toList.dropWhile (· == m.dialect.marker))) v) (m.command sql)

/-- The command of an entity: a statement with the columns of the object bound. -/
def objectCommand (m : Mapping) (sql : Except SchemaError String) (o : Object) :
    Except MapperError Command := do
  let sql ← sql.mapError .schema
  return (m.command sql).withRow (← (m.table.toRow o).mapError .schema)

/-- The object as it is stored now, if it still is. -/
def reload (s : Session) (t : Table) (o : Object) : Program (Except MapperError (Option Object)) :=
  prepared ((s.target t).mapError .schema) fun m =>
    prepared (objectCommand m m.reload o) fun c => do
      return (← s.read m .reload c).map List.head?

/-- The command that counts what meets a condition. -/
def countCommand (m : Mapping) (e : Expr) : Except MapperError Command := do
  let p ← m.compile (some m.rootAlias) e
  let sql ← (m.count (some p)).mapError .schema
  return (m.command sql).withPredicate p

/-- Whether anything meets a condition. -/
def existsWhere (s : Session) (t : Table) (e : Expr) : Program (Except MapperError Bool) :=
  prepared ((s.target t).mapError .schema) fun m =>
    prepared (countCommand m e) fun c => s.count m c

/-- Whether an object's key is stored. -/
def existsObject (s : Session) (t : Table) (o : Object) : Program (Except MapperError Bool) :=
  prepared ((s.target t).mapError .schema) fun m =>
    prepared (objectCommand m m.existenceCheck o) fun c => s.count m c

/-- Whether the backend has the table. -/
def tableExists (s : Session) (t : Table) : Program (Except MapperError Bool) :=
  prepared ((s.target t).mapError .schema) fun _ =>
    spanned .exists t.entity (fun _ => 0) do
      let r ← withConnection t.backend .error do
        let r ← Program.ask t.backend (.tableExists t.tableName)
        return r.mapError fun e => e.within s!"table exists {t.name}"
      return (r.mapError .backend : Except MapperError Bool)

end EntityMapper.Session
