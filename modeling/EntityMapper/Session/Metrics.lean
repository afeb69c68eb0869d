import EntityMapper.Double.Rounding
import EntityMapper.Statement.Kind

/-!
# Metrics

What a session did, as events; and counters of them, for the process and for each entity. A
counter that has reached the largest 64-bit number stays there.
-/

namespace EntityMapper

/-! ## Events -/

/-- The families of session operations. -/
inductive OperationKind
  | load
  | exists
  | save
  | delete
  | statement
  | define
deriving DecidableEq, Repr, Inhabited

/-- The name of a family of operations. -/
def OperationKind.name : OperationKind → String
  | .load => "Load"
  | .exists => "Exists"
  | .save => "Save"
  | .delete => "Delete"
  | .statement => "Statement"
  | .define => "Ddl"

/-- Something that is counted. -/
inductive MetricEvent
  | started (kind : OperationKind) (entity : String)
  | finished (kind : OperationKind) (entity : String) (rows : Nat)
  | statement (kind : StatementKind) (entity : String)
  | materialized (entity : String) (rows objects : Nat)
  | writeFailed (entity : String)
  | validationFailed (entity : String)
deriving DecidableEq, Repr

/-- The name of an event. -/
def MetricEvent.name : MetricEvent → String
  | .started .. => "OpStart"
  | .finished .. => "OpFinish"
  | .statement .. => "Statement"
  | .materialized .. => "RowsMaterialized"
  | .writeFailed _ => "WriteFailed"
  | .validationFailed _ => "ValidationFailed"

/-- The entity that an event is about. -/
def MetricEvent.entity : MetricEvent → String
  | .started _ e => e
  | .finished _ e _ => e
  | .statement _ e => e
  | .materialized e _ _ => e
  | .writeFailed e => e
  | .validationFailed e => e

/-! ## Counters -/

/-- The largest count. -/
def greatestCount : Nat := twoTo 64 - 1

/-- A count raised, up to the largest one. -/
def raise (count n : Nat) : Nat := min (count + n) greatestCount

/-- What is counted for an entity. -/
structure Counters where
  loadCalls : Nat := 0
  existsCalls : Nat := 0
  saveCalls : Nat := 0
  deleteCalls : Nat := 0
  statements : Nat := 0
  rowsRead : Nat := 0
  rowsLoaded : Nat := 0
  rowsSaved : Nat := 0
  rowsDeleted : Nat := 0
  writeFailures : Nat := 0
  validationFailures : Nat := 0
deriving DecidableEq, Repr, Inhabited

/-- Counts a call of an operation. Raw statements and definitions are not counted for an entity. -/
def Counters.called (c : Counters) : OperationKind → Counters
  | .load => { c with loadCalls := raise c.loadCalls 1 }
  | .exists => { c with existsCalls := raise c.existsCalls 1 }
  | .save => { c with saveCalls := raise c.saveCalls 1 }
  | .delete => { c with deleteCalls := raise c.deleteCalls 1 }
  | .statement => c
  | .define => c

/-- Counts an event. -/
def Counters.record (c : Counters) : MetricEvent → Counters
  | .started kind _ => c.called kind
  | .finished kind _ n =>
    match kind with
    | .load => { c with rowsLoaded := raise c.rowsLoaded n }
    | .save => { c with rowsSaved := raise c.rowsSaved n }
    | .delete => { c with rowsDeleted := raise c.rowsDeleted n }
    | _ => c
  | .statement _ _ => { c with statements := raise c.statements 1 }
  | .materialized _ n _ => { c with rowsRead := raise c.rowsRead n }
  | .writeFailed _ => { c with writeFailures := raise c.writeFailures 1 }
  | .validationFailed _ => { c with validationFailures := raise c.validationFailures 1 }

/-- What is counted for the process. -/
structure Totals extends Counters where
  statementCalls : Nat := 0
  defineCalls : Nat := 0
  writeStatements : Nat := 0
  objectsBuilt : Nat := 0
deriving DecidableEq, Repr, Inhabited

/-- Counts a call of an operation. -/
def Totals.called (t : Totals) : OperationKind → Totals
  | .load => { t with loadCalls := raise t.loadCalls 1 }
  | .exists => { t with existsCalls := raise t.existsCalls 1 }
  | .save => { t with saveCalls := raise t.saveCalls 1 }
  | .delete => { t with deleteCalls := raise t.deleteCalls 1 }
  | .statement => { t with statementCalls := raise t.statementCalls 1 }
  | .define => { t with defineCalls := raise t.defineCalls 1 }

/-- Counts an event. -/
def Totals.record (t : Totals) : MetricEvent → Totals
  | .started kind _ => t.called kind
  | .finished kind _ n =>
    match kind with
    | .load => { t with rowsLoaded := raise t.rowsLoaded n }
    | .save => { t with rowsSaved := raise t.rowsSaved n }
    | .delete => { t with rowsDeleted := raise t.rowsDeleted n }
    | _ => t
  | .statement kind _ =>
    let t := { t with statements := raise t.statements 1 }
    if kind.isWrite then { t with writeStatements := raise t.writeStatements 1 } else t
  | .materialized _ rows objects =>
    { t with rowsRead := raise t.rowsRead rows, objectsBuilt := raise t.objectsBuilt objects }
  | .writeFailed _ => { t with writeFailures := raise t.writeFailures 1 }
  | .validationFailed _ => { t with validationFailures := raise t.validationFailures 1 }

/-- Counts an event for its entity; the entities are kept sorted by name. -/
def recordFor (e : MetricEvent) : List (String × Counters) → List (String × Counters)
  | [] => [(e.entity, ({} : Counters).record e)]
  | (name, c) :: rest =>
    if e.entity < name then (e.entity, ({} : Counters).record e) :: (name, c) :: rest
    else if e.entity = name then (name, c.record e) :: rest
    else (name, c) :: recordFor e rest

/-- All counters, and when the counting began, in milliseconds since 1970. -/
structure Metrics where
  since : Nat := 0
  totals : Totals := {}
  entities : List (String × Counters) := []
deriving Inhabited

/-- Counts an event, for the process and for its entity. -/
def Metrics.record (m : Metrics) (e : MetricEvent) : Metrics :=
  { m with totals := m.totals.record e, entities := recordFor e m.entities }

/-! ## Reports -/

/-- The counters of an entity that a report leads with, by name. -/
def Counters.leading (c : Counters) : List (String × Nat) :=
  [("load_calls", c.loadCalls), ("save_calls", c.saveCalls), ("delete_calls", c.deleteCalls),
   ("rows_read", c.rowsRead), ("rows_loaded", c.rowsLoaded), ("rows_deleted", c.rowsDeleted),
   ("write_failures", c.writeFailures)]

/-- The counters of an entity by name. -/
def Counters.byName (c : Counters) : List (String × Nat) :=
  c.leading ++
    [("exists_calls", c.existsCalls), ("statements", c.statements), ("rows_saved", c.rowsSaved),
     ("validation_failures", c.validationFailures)]

/-- The counters of the process by name. -/
def Totals.byName (t : Totals) : List (String × Nat) :=
  t.toCounters.byName ++
    [("statement_calls", t.statementCalls), ("ddl_calls", t.defineCalls),
     ("write_statements", t.writeStatements), ("objects_built", t.objectsBuilt)]

/-- A count for each load, zero where there was none. -/
def perLoad (n loads : Nat) : Double :=
  if loads = 0 then .zero false else (Double.ofInt n).div (.ofInt loads)

/-- The order of a report: the most rows for each load first, then the most rows, then by name. -/
def reportsBefore (a b : String × Counters) : Bool :=
  match (perLoad b.2.rowsLoaded b.2.loadCalls).compare? (perLoad a.2.rowsLoaded a.2.loadCalls) with
  | some .lt => true
  | some .gt => false
  | _ => b.2.rowsLoaded < a.2.rowsLoaded || (b.2.rowsLoaded == a.2.rowsLoaded && !(b.1 < a.1))

/-- The counters of each entity in the order of a report. -/
def Metrics.summaries (m : Metrics) : List (String × Counters) := m.entities.mergeSort reportsBefore

/-- What is told of the counters. -/
structure Report where
  counters : Option Metrics := none
  summaries : List (String × Counters) := []
deriving Inhabited

/-- The report of a window of time. The counters know no times but that of their start, so they are
told as a whole, and not at all of a window that starts after it. -/
def Metrics.report (m : Metrics) (windowStart : Option Nat) : Report :=
  if windowStart.any (m.since < ·) then {} else ⟨some m, m.summaries⟩

end EntityMapper
