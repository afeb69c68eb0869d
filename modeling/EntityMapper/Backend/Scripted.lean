import EntityMapper.Session.Program

/-!
# Scripted backends

A backend that gives prepared replies: each kind of call takes the next reply of its queue, and a
default when the queue is empty. It runs no SQL.
-/

namespace EntityMapper

/-- The prepared replies of a backend. -/
structure Scripted where
  /-- whether the backend can tell which tables there are -/
  knowsTables : Bool := false
  connect : List (Except BackendError Unit) := []
  opening : List (Except BackendError Unit) := []
  closing : List (Except BackendError Unit) := []
  affected : List (Except BackendError Int) := []
  scalar : List (Except BackendError Value) := []
  rows : List (Except BackendError (List Row)) := []
  tables : List (Except BackendError Bool) := []
deriving Inhabited

namespace Scripted

/-- The next reply of a queue, or the default, and the rest of the queue. -/
def next {α : Type} (queue : List (Except BackendError α)) (default : α) :
    Except BackendError α × List (Except BackendError α) :=
  (queue.headD (.ok default), queue.tail)

/-- The command in which a backend with no other way reads an identity: the insert and, on a line
of its own, the query. -/
def combined (c : Command) (lastIdentity : String) : Command :=
  { c with text := c.text ++ "\n" ++ lastIdentity }

/-- What reaches the backend of a call, if anything does. -/
def received (s : Scripted) : Call → Option Call
  | .insertIdentity c last => some (.scalar (combined c last))
  | .tableExists t => if s.knowsTables then some (.tableExists t) else none
  | c => some c

/-- Answers a call. -/
def answer : (c : Call) → Scripted → Except BackendError c.Reply × Scripted
  | .connect, s => let (r, q) := next s.connect (); (r, { s with connect := q })
  | .open, s => let (r, q) := next s.opening (); (r, { s with opening := q })
  | .close, s => let (r, q) := next s.closing (); (r, { s with closing := q })
  | .execute _, s => let (r, q) := next s.affected 1; (r, { s with affected := q })
  | .scalar _, s => let (r, q) := next s.scalar .null; (r, { s with scalar := q })
  | .insertIdentity _ _, s => let (r, q) := next s.scalar .null; (r, { s with scalar := q })
  | .reader _, s => let (r, q) := next s.rows []; (r, { s with rows := q })
  | .tableExists _, s =>
    if s.knowsTables then
      let (r, q) := next s.tables true
      (r, { s with tables := q })
    else (.ok false, s)

end Scripted

end EntityMapper
