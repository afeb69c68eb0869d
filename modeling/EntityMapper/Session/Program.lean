import EntityMapper.Session.Metrics
import EntityMapper.Session.Outcome
import EntityMapper.Statement.Command

/-!
# Programs over backends

What a session does is a program: a tree of calls to a backend, each continued by every reply that
may come, and of the notes that are taken on the way. It says nothing of backends. A `Handler`
answers calls from a state of its own, and `Program.run` gives the result, the handler's last
state and everything that happened, in order.
-/

namespace EntityMapper

/-! ## Calls and replies -/

/-- What a backend can be asked to do. -/
inductive Call
  | connect
  | open
  | close
  | execute (c : Command)
  | scalar (c : Command)
  | reader (c : Command)
  /-- insert a row and read the identity that it was given -/
  | insertIdentity (c : Command) (lastIdentity : String)
  | tableExists (table : String)

/-- What a call does, in a word or with the table that it is about. -/
def Call.name : Call → String
  | .connect => "connect"
  | .open => "open"
  | .close => "close"
  | .execute _ => "execute"
  | .scalar _ => "scalar"
  | .reader _ => "reader"
  | .insertIdentity .. => "identity"
  | .tableExists t => "table_exists " ++ t

/-- What a backend replies if it does not fail. -/
abbrev Call.Reply : Call → Type
  | .connect => Unit
  | .open => Unit
  | .close => Unit
  | .execute _ => Int
  | .scalar _ => Value
  | .reader _ => List Row
  | .insertIdentity _ _ => Value
  | .tableExists _ => Bool

/-- The command that a call hands to its connection. -/
def Call.command? : Call → Option Command
  | .execute c => some c
  | .scalar c => some c
  | .reader c => some c
  | .insertIdentity c _ => some c
  | _ => none

/-! ## Notes -/

/-- How serious an entry of the log is. -/
inductive LogLevel
  | info
  | warn
deriving DecidableEq, Repr

/-- The name of a log level. -/
def LogLevel.name : LogLevel → String
  | .info => "INFO"
  | .warn => "WARN"

/-- An entry of the log. -/
inductive LogEntry
  | executing (entity : String) (kind : StatementKind) (sql : String)
  | closeFailed (backend : String) (e : BackendError)
  | writeFailed (entity : String) (kind : StatementKind) (error : String)
  | statementFailed (backend error : String)
  | rebuilt (entity : String) (restored : Nat)

namespace LogEntry

/-- How serious an entry is. -/
def level : LogEntry → LogLevel
  | .executing .. => .info
  | .rebuilt .. => .info
  | _ => .warn

/-- What an entry says. -/
def message : LogEntry → String
  | .executing .. => "executing statement"
  | .closeFailed .. => "connection close failed"
  | .writeFailed .. => "write failed"
  | .statementFailed .. => "statement failed"
  | .rebuilt .. => "table rebuilt"

/-- What an entry says it of. -/
def fields : LogEntry → List (String × String)
  | .executing entity kind sql => [("entity", entity), ("statement", kind.name), ("sql", sql)]
  | .closeFailed backend e => [("backend", backend), ("error", e.display)]
  | .writeFailed entity kind error =>
    [("entity", entity), ("statement", kind.name), ("error", error)]
  | .statementFailed backend error => [("backend", backend), ("error", error)]
  | .rebuilt entity restored => [("entity", entity), ("restored", toString restored)]

end LogEntry

/-- What is noted on the way. -/
inductive Note
  | metric (e : MetricEvent)
  | log (e : LogEntry)
  | notice (n : Notice)

/-! ## Programs -/

/-- A program over backends with a result. -/
inductive Program (α : Type)
  | done (a : α)
  | call (backend : String) (c : Call) (next : Except BackendError c.Reply → Program α)
  | note (n : Note) (next : Program α)

namespace Program

variable {α β : Type}

/-- One program after another. -/
def bind : Program α → (α → Program β) → Program β
  | .done a, f => f a
  | .call backend c next, f => .call backend c fun r => (next r).bind f
  | .note n next, f => .note n (next.bind f)

instance : Monad Program where
  pure := .done
  bind := bind

/-- Asks a backend. -/
def ask (backend : String) (c : Call) : Program (Except BackendError c.Reply) :=
  .call backend c .done

/-- Takes a note. -/
def take (n : Note) : Program Unit := .note n (.done ())

/-- Takes a note where that is wanted. -/
def takeIf (wanted : Bool) (n : Note) : Program Unit := if wanted then take n else .done ()

/-! ## Running -/

/-- Something that happened while a program ran. -/
inductive Event
  | called (backend : String) (c : Call) (reply : Except BackendError c.Reply)
  | noted (n : Note)

/-- Answers calls from a state, which it may change. -/
abbrev Handler (σ : Type) := String → (c : Call) → σ → Except BackendError c.Reply × σ

/-- Runs a program: its result, the last state, and what happened. -/
def run {σ : Type} (h : Handler σ) : Program α → σ → α × σ × List Event
  | .done a, s => (a, s, [])
  | .call backend c next, s =>
    let (reply, s) := h backend c s
    let (a, s, events) := (next reply).run h s
    (a, s, .called backend c reply :: events)
  | .note n next, s =>
    let (a, s, events) := next.run h s
    (a, s, .noted n :: events)

theorem bind_done (p : Program α) : p.bind .done = p := by
  induction p with
  | done a => rfl
  | call backend c next ih => simp [bind, ih]
  | note n next ih => simp [bind, ih]

theorem bind_assoc {γ : Type} (p : Program α) (f : α → Program β) (g : β → Program γ) :
    (p.bind f).bind g = p.bind fun a => (f a).bind g := by
  induction p with
  | done a => rfl
  | call backend c next ih => simp [bind, ih]
  | note n next ih => simp [bind, ih]

/-- A program after another runs from the state that the first one left. -/
theorem run_bind {σ : Type} (h : Handler σ) (p : Program α) (f : α → Program β) (s : σ) :
    (p.bind f).run h s =
      let (a, s', events) := p.run h s
      let (b, s'', more) := (f a).run h s'
      (b, s'', events ++ more) := by
  induction p generalizing s with
  | done a => rfl
  | call backend c next ih => simp [bind, run, ih]
  | note n next ih => simp [bind, run, ih]

end Program

end EntityMapper
