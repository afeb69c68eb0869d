import EntityMapper.Backend.Embedded
import EntityMapper.Backend.Scripted
import EntityMapper.Session
import EntityMapper.Text.Quoted

/-!
# Backends

The backends that a session can be run over, by name.
-/

namespace EntityMapper

/-- A backend. -/
inductive Backend
  | scripted (s : Scripted)
  | embedded (e : Embedded)

namespace Backend

/-- What can be seen from outside of a call, if anything can. -/
def received : Backend → Call → Option Call
  | .scripted s, c => s.received c
  | .embedded _, _ => none

/-- Answers a call. -/
def answer (c : Call) : Backend → Except BackendError c.Reply × Backend
  | .scripted s => let (r, s) := s.answer c; (r, .scripted s)
  | .embedded e => let (r, e) := e.answer c; (r, .embedded e)

end Backend

/-- Answers calls by the first backend of the name. -/
def answerAmong : Program.Handler (List (String × Backend))
  | _, _, [] => (.error ⟨"connect", "no such backend"⟩, [])
  | name, c, (other, b) :: rest =>
    if other = name then
      let (r, b) := b.answer c
      (r, (other, b) :: rest)
    else
      let (r, rest) := answerAmong name c rest
      (r, (other, b) :: rest)

/-- The registered backends as one text. -/
def Backends.text (b : Backends) : String :=
  "BackendRegistry \x7b backends: " ++ bracketed (b.names.map quoted) ++ " \x7d"

end EntityMapper
