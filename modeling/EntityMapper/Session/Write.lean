import EntityMapper.Session.Read

/-!
# Writing

A save looks whether the key is stored and then inserts or updates, never both. An identity that
the backend assigned is written into the object; where there is none the object assigns its own
keys before an insert. The object is returned beside the outcome, as it is in the end.
-/

namespace EntityMapper.Session

/-! ## Attempts -/

/-- How an object is to be written. -/
inductive WriteMode
  | save
  | insert
  | update
deriving DecidableEq, Repr

/-- What a write tries first. -/
def WriteMode.firstStep : WriteMode → StatementKind
  | .save => .existenceCheck
  | .insert => .insert
  | .update => .update

/-- Where a write has come to: the object, the step that was tried last, and its result. -/
structure Attempt where
  object : Object
  step : StatementKind
  result : Except MapperError (Outcome Object)

/-- Writes an assigned identity into an object; null leaves it alone. -/
def assignIdentity (t : Table) (f : Field) (o : Object) (generated : Value) :
    Except MapperError Object :=
  if generated.isNull then .ok o
  else match f.read generated with
    | .ok d => .ok (o.setValue (t.scalarFields.findIdx (·.isIdentity)) d)
    | .error e => .error (.coercion ⟨t.entity, f.name, f.valueType, generated.type, e⟩)

/-- Inserts an object over an open connection: the object as it is then, and the number of rows. -/
def insertObject (s : Session) (e : EntityType) (m : Mapping) (ignoreAutomatic : Bool)
    (o : Object) : Program (Object × Except MapperError Int) := do
  let identity := m.table.identityField?
  let o := if identity.isNone then e.assignKeys o else o
  match objectCommand m (.ok (m.insert ignoreAutomatic)) o with
  | .error err => return (o, .error err)
  | .ok c =>
    match (if ignoreAutomatic then identity else none), m.dialect.lastIdentity with
    | some f, some last =>
      match ← s.send m .insert c (.insertIdentity c last) with
      | .error err => return (o, .error (.backend err))
      | .ok generated =>
        match assignIdentity m.table f o generated with
        | .ok o => return (o, .ok 1)
        | .error err => return (o, .error err)
    | _, _ =>
      return (o, (← s.send m .insert c (.execute c)).mapError .backend)

/-- Inserts an object as a step of a write. -/
def insertStep (s : Session) (e : EntityType) (m : Mapping) (options : SaveOptions) (o : Object) :
    Program Attempt := do
  let (o, r) ← s.insertObject e m options.ignoreAutomatic o
  return ⟨o, .insert, r.map (.ok .insert)⟩

/-- Updates an object as a step of a write. -/
def updateStep (s : Session) (m : Mapping) (o : Object) : Program Attempt := do
  match objectCommand m m.update o with
  | .error err => return ⟨o, .update, .error err⟩
  | .ok c =>
    let r ← s.send m .update c (.execute c)
    return ⟨o, .update, (r.mapError .backend).map (.ok .update)⟩

/-- Writes an object over an open connection, after the existence check if there is to be one. -/
def writeSteps (s : Session) (e : EntityType) (m : Mapping) (options : SaveOptions) (mode : WriteMode)
    (check : Option Command) (o : Object) : Program Attempt := do
  match check, mode with
  | some c, _ =>
    match ← s.send m .existenceCheck c (.scalar c) with
    | .error err => return ⟨o, .existenceCheck, .error (.backend err)⟩
    | .ok found =>
      if !found.asCount.any (0 < ·) then s.insertStep e m options o
      else if options.keepExisting && mode == .save then
        return ⟨o, .existenceCheck, .ok (.ok .none (-1))⟩
      else s.updateStep m o
  | none, .update => s.updateStep m o
  | none, _ => s.insertStep e m options o

/-- The command of the existence check, which only a save makes. -/
def checkCommand (m : Mapping) (mode : WriteMode) (o : Object) :
    Except MapperError (Option Command) :=
  match mode with
  | .save => (objectCommand m m.existenceCheck o).map some
  | _ => .ok none

/-- Opens a connection and writes an object. -/
def writeObject (s : Session) (e : EntityType) (m : Mapping) (options : SaveOptions)
    (mode : WriteMode) (o : Object) : Program Attempt :=
  match checkCommand m mode o with
  | .error err => .done ⟨o, mode.firstStep, .error err⟩
  | .ok check =>
    withConnection m.table.backend (fun err => ⟨o, mode.firstStep, .error (.backend err)⟩)
      (s.writeSteps e m options mode check o)

/-! ## Writing with rules and notices -/

/-- The result of a write, and the object as it is in the end. -/
abbrev Written := Except MapperError (Outcome Object) × Object

/-- The outcome of a write that the rules refuse, if they do. -/
def checkRules (m : Mapping) (options : SaveOptions) (o : Object) :
    Program (Except MapperError (Option (Outcome Object))) := do
  match m.table.validate o with
  | .error e => return .error (.schema e)
  | .ok [] => return .ok none
  | .ok failures =>
    Program.take (.metric (.validationFailed m.table.entity))
    Program.takeIf options.observed (.notice (.validationFailed failures o))
    return .ok (some (.fail .none ("; ".intercalate (failures.map ValidationFailure.message))))

/-- Writes an object that no rule refuses, with the notices around it. -/
def writeNotified (s : Session) (e : EntityType) (m : Mapping) (options : SaveOptions)
    (mode : WriteMode) (o : Object) : Program Written := do
  Program.takeIf (options.observed && options.fire.firesBefore)
    (.notice (.around .beforeSave 0 .unknown o))
  let a ← s.writeObject e m options mode o
  let r ← capture m.table.entity a.step a.result fun message =>
    Program.takeIf options.observed (.notice (.operationFailed a.step message a.object))
  match r with
  | .error err => return (.error err, a.object)
  | .ok outcome =>
    if outcome.isOk then
      Program.takeIf (options.observed && options.fire.firesAfter)
        (.notice (.around .afterSave outcome.affected outcome.kind a.object))
      return (.ok (outcome.withData a.object), a.object)
    else return (.ok outcome, a.object)

/-- Writes an object. -/
def write (s : Session) (e : EntityType) (mode : WriteMode) (options : SaveOptions) (o : Object) :
    Program Written :=
  match s.target e.table with
  | .error err => .done (.error (.schema err), o)
  | .ok m =>
    spanned .save m.table.entity (fun r => outcomeRows r.1) do
      match ← (if options.validate then checkRules m options o else pure (.ok none)) with
      | .error err => return (.error err, o)
      | .ok (some rejected) => return (.ok rejected, o)
      | .ok none => s.writeNotified e m options mode o

/-- Inserts an object if its key is new, and updates it otherwise. -/
def save (s : Session) (e : EntityType) (options : SaveOptions) (o : Object) : Program Written :=
  s.write e .save options o

/-- Inserts an object. -/
def insert (s : Session) (e : EntityType) (options : SaveOptions) (o : Object) : Program Written :=
  s.write e .insert options o

/-- Updates an object by its key; that no row has the key is no failure. -/
def update (s : Session) (e : EntityType) (options : SaveOptions) (o : Object) : Program Written :=
  s.write e .update options o

/-! ## Deleting -/

/-- Sends one write over a connection of its own. -/
def sendWrite {α : Type} (s : Session) (m : Mapping) (kind : StatementKind) (c : Command) :
    Program (Except MapperError (Outcome α)) := do
  let r ← withConnection m.table.backend .error (s.send m kind c (.execute c))
  return (r.mapError .backend).map (.ok kind)

/-- Deletes an object by its key. -/
def delete (s : Session) (t : Table) (options : DeleteOptions) (o : Object) :
    Program (Except MapperError (Outcome Object)) :=
  prepared ((s.target t).mapError .schema) fun m =>
    spanned .delete t.entity outcomeRows do
      match objectCommand m m.delete o with
      | .error err => return .error err
      | .ok c =>
        Program.takeIf (options.observed && options.fireBefore) (.notice (.around .beforeDelete 0 .delete o))
        let r ← capture t.entity .delete (← s.sendWrite m .delete c) fun message =>
          Program.takeIf options.observed (.notice (.operationFailed .delete message o))
        match r with
        | .ok outcome =>
          Program.takeIf (outcome.isOk && options.observed && options.fireAfter)
            (.notice (.around .afterDelete outcome.affected outcome.kind o))
          return .ok outcome
        | .error err => return .error err

/-- The command that deletes what meets a condition; it names no alias. -/
def deleteAllCommand (m : Mapping) (e : Option Expr) : Except MapperError Command := do
  let p ← m.compile? none e
  return (m.command (m.deleteAll p)).withPredicate? p

/-- Deletes all rows that meet a condition, or all rows. -/
def deleteAll (s : Session) (t : Table) (e : Option Expr) :
    Program (Except MapperError (Outcome Object)) :=
  prepared ((s.target t).mapError .schema) fun m =>
    spanned .delete t.entity outcomeRows do
      match deleteAllCommand m e with
      | .error err => return .error err
      | .ok c => capture t.entity .deleteAll (← s.sendWrite m .deleteAll c) fun _ => pure ()

end EntityMapper.Session
