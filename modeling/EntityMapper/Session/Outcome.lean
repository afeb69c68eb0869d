import EntityMapper.Schema.Object
import EntityMapper.Statement.Kind

/-!
# Outcomes of writes

A write that a backend refuses is an outcome like any other; only mistakes in the mapping are
errors. An observer hears of a write before and after it, and of what went wrong.
-/

namespace EntityMapper

/-! ## Outcomes -/

/-- How a write ended. -/
inductive OutcomeStatus
  | none
  | ok
  | fail
deriving DecidableEq, Repr, Inhabited

/-- The name of how a write ended. -/
def OutcomeStatus.name : OutcomeStatus → String
  | .none => "None"
  | .ok => "Ok"
  | .fail => "Fail"

/-- The outcome of a write; -1 rows are affected where no statement has run. -/
structure Outcome (α : Type) where
  status : OutcomeStatus := .none
  affected : Int := -1
  kind : StatementKind := .none
  message : Option String := none
  data : Option α := none

namespace Outcome

variable {α : Type}

/-- A write that the backend accepted. -/
def ok (kind : StatementKind) (affected : Int) : Outcome α := { status := .ok, kind, affected }

/-- A write that failed. -/
def fail (kind : StatementKind) (message : String) : Outcome α :=
  { status := .fail, kind, message := some message }

/-- The outcome with the object that was written. -/
def withData (o : Outcome α) (a : α) : Outcome α := { o with data := some a }

/-- Whether the backend accepted the write. -/
def isOk (o : Outcome α) : Bool := o.status == .ok

/-- Whether the write failed. -/
def isFail (o : Outcome α) : Bool := o.status == .fail

/-- The number of rows that were touched. -/
def rows (o : Outcome α) : Nat := o.affected.toNat

end Outcome

/-! ## What an observer hears -/

/-- Which of the notices around a save are given. -/
inductive Fire
  | none
  | before
  | after
  | both
deriving DecidableEq, Repr, Inhabited

namespace Fire

/-- The names of the ways to give notice. -/
def names : List (String × Fire) :=
  [("None", .none), ("OnBeforeSave", .before), ("OnAfterSave", .after), ("OnBeforeAndAfter", .both)]

/-- Whether the notice before a save is given. -/
def firesBefore : Fire → Bool
  | .before => true
  | .both => true
  | _ => false

/-- Whether the notice after a save is given. -/
def firesAfter : Fire → Bool
  | .after => true
  | .both => true
  | _ => false

end Fire

/-- When an observer hears of a write that goes well. -/
inductive Moment
  | beforeSave
  | afterSave
  | beforeDelete
  | afterDelete
deriving DecidableEq, Repr, Inhabited

/-- The name of a moment. -/
def Moment.name : Moment → String
  | .beforeSave => "before_save"
  | .afterSave => "after_save"
  | .beforeDelete => "before_delete"
  | .afterDelete => "after_delete"

/-- What an observer is told. -/
inductive Notice
  | around (moment : Moment) (affected : Int) (kind : StatementKind) (object : Object)
  | validationFailed (failures : List ValidationFailure) (object : Object)
  | operationFailed (kind : StatementKind) (message : String) (object : Object)

/-! ## Options -/

/-- How an object is saved. -/
structure SaveOptions where
  /-- leave identity and computed columns out of inserts -/
  ignoreAutomatic : Bool := true
  fire : Fire := .both
  /-- leave a row alone that is there already -/
  keepExisting : Bool := false
  validate : Bool := false
  /-- whether an observer listens -/
  observed : Bool := false
deriving DecidableEq, Repr, Inhabited

/-- How an object is deleted. -/
structure DeleteOptions where
  fireBefore : Bool := true
  fireAfter : Bool := true
  /-- whether an observer listens -/
  observed : Bool := false
deriving DecidableEq, Repr, Inhabited

/-- The options with no notice around the deletion. -/
def DeleteOptions.silent (o : DeleteOptions) : DeleteOptions :=
  { o with fireBefore := false, fireAfter := false }

end EntityMapper
