import Mathlib.Tactic.Choose
import EntityMapper.Proofs.Session.Operations
import EntityMapper.Proofs.Session.Service

/-!
# Connections are opened once and closed

Whatever an operation is, whatever it is given and whoever replies, it opens one connection at most,
hands commands to it only while it is open, closes it if it was opened, and once, before it ends, and
tells an observer nothing meanwhile. How the closing goes changes no result.

* `Program.Orderly` — programs with one connection at most, and notes before it and after it
* `Disciplined` — what happens in such a program
* `Disciplined.countP_isClosing` — as many closings as openings, and one at most
* `Request` — what a session can be asked for, with its result
* `orderly_perform` — what is done for it is orderly
* `perform_disciplined` — what happens in it, and what the closing changes
-/

namespace EntityMapper

namespace Program

variable {α β σ : Type}

/-! ## Orderly programs -/

/-- Programs with one connection at most, and notes before it and after it. -/
inductive Orderly {α : Type} : Program α → Prop
  | silent {p : Program α} (h : p.Silent) : Orderly p
  | note {n : Note} {next : Program α} (h : Orderly next) : Orderly (.note n next)
  | connection {β : Type} {backend : String} {failed : BackendError → β} {body : Program β}
      {next : β → Program α} (hbody : body.Serves backend) (hnext : ∀ b, (next b).Silent) :
      Orderly (withConnection backend failed body >>= next)

variable {p : Program α} {f : α → Program β}

theorem Orderly.bind (hp : p.Orderly) (hf : ∀ a, (f a).Silent) : (p >>= f).Orderly := by
  induction hp with
  | silent h => exact .silent (Only.bind h hf)
  | note h ih => exact .note ih
  | @connection _ backend failed body next hbody hnext =>
    have hassoc : withConnection backend failed body >>= next >>= f =
        withConnection backend failed body >>= fun b => next b >>= f :=
      bind_assoc _ _ _
    rw [hassoc]
    exact .connection hbody fun b => Only.bind (hnext b) hf

theorem Silent.bind_orderly (hp : p.Silent) (hf : ∀ a, (f a).Orderly) : (p >>= f).Orderly := by
  induction p with
  | done a => exact hf a
  | call backend c next ih => exact hp.1.elim
  | note n next ih => exact .note (ih hp.2)

theorem silent_take (n : Note) : (take n).Silent := only_take.mpr trivial

theorem silent_takeIf (wanted : Bool) (n : Note) : (takeIf wanted n).Silent :=
  only_takeIf fun _ => trivial

/-! ## What happens in them -/

/-- What happens with one connection at most. -/
inductive Disciplined : List Event → Prop
  /-- nothing is called -/
  | unused (notes : List Note) : Disciplined (notes.map .noted)
  /-- there is no connection -/
  | notConnected (before after : List Note) (backend : String) (err : BackendError) :
      Disciplined (before.map .noted ++
        .called backend .connect (.error err) :: after.map .noted)
  /-- the connection cannot be opened -/
  | notOpened (before after : List Note) (backend : String) (err : BackendError) :
      Disciplined (before.map .noted ++
        .called backend .connect (.ok ()) :: .called backend .open (.error err) ::
          after.map .noted)
  /-- the connection is open, serves its backend and is closed, be it in vain -/
  | served (before after : List Note) (backend : String) {inside : List Event}
      (hinside : ∀ x ∈ inside, x.Is (fun b c => b = backend ∧ c.isService = true)
        fun n => n.isNotice = false) (closed : Except BackendError Unit) :
      Disciplined (before.map .noted ++
        .called backend .connect (.ok ()) :: .called backend .open (.ok ()) ::
          (inside ++ .called backend .close closed :: after.map .noted))

theorem Disciplined.note {events : List Event} (h : Disciplined events) (n : Note) :
    Disciplined (.noted n :: events) := by
  cases h with
  | unused notes => exact .unused (n :: notes)
  | notConnected before after backend err => exact .notConnected (n :: before) after backend err
  | notOpened before after backend err => exact .notOpened (n :: before) after backend err
  | served before after backend hinside closed =>
    exact .served (n :: before) after backend hinside closed

/-- A connection was opened. -/
def Event.isOpening : Event → Bool
  | .called _ .open (.ok _) => true
  | _ => false

/-- A connection was to be closed. -/
def Event.isClosing : Event → Bool
  | .called _ .close _ => true
  | _ => false

/-- What serves an open connection neither opens one nor closes one, and no note does. -/
theorem countP_of_service {events : List Event}
    (h : ∀ x ∈ events, x.Is (fun _ c => c.isService = true) fun _ => True) :
    events.countP Event.isOpening = 0 ∧ events.countP Event.isClosing = 0 := by
  constructor
  all_goals
    refine List.countP_eq_zero.mpr fun x hx => ?_
    have hx := h x hx
    cases x with
    | noted n => exact Bool.false_ne_true
    | called backend c reply => cases c <;> first | exact Bool.false_ne_true | cases hx

theorem countP_noted (notes : List Note) :
    (notes.map Event.noted).countP Event.isOpening = 0 ∧
      (notes.map Event.noted).countP Event.isClosing = 0 := by
  refine countP_of_service fun x hx => ?_
  obtain ⟨n, -, rfl⟩ := List.mem_map.mp hx
  trivial

/-- One connection is opened at most, and there are as many closings as openings. -/
theorem Disciplined.countP_isClosing {events : List Event} (h : Disciplined events) :
    events.countP Event.isOpening ≤ 1 ∧
      events.countP Event.isClosing = events.countP Event.isOpening := by
  cases h with
  | unused => simp [-List.countP_map, countP_noted]
  | notConnected => simp [-List.countP_map, countP_noted, Event.isOpening, Event.isClosing]
  | notOpened => simp [-List.countP_map, countP_noted, Event.isOpening, Event.isClosing]
  | served before after backend hinside closed =>
    have hservice := countP_of_service fun x hx =>
      (hinside x hx).mono (fun _ _ hcall => hcall.2) fun _ _ => trivial
    simp [-List.countP_map, List.countP_cons, countP_noted, hservice, Event.isOpening,
      Event.isClosing]

/-- A silent program gives one result and takes the same notes, whoever replies. -/
theorem Silent.run_eq (hp : p.Silent) :
    ∃ a notes, ∀ {σ : Type} (h : Handler σ) (s : σ), p.run h s = (a, s, List.map .noted notes) := by
  induction p with
  | done a => exact ⟨a, [], fun h s => rfl⟩
  | call backend c next ih => exact hp.1.elim
  | note n next ih =>
    obtain ⟨a, notes, hrun⟩ := ih hp.2
    exact ⟨a, n :: notes, fun h s => by simp only [run, hrun, List.map_cons]⟩

/-- What the closing of a connection leaves to be noted. -/
def closingNotes (backend : String) : Except BackendError Unit → List Note
  | .error err => [.log (.closeFailed backend err)]
  | .ok _ => []

/-- A call goes on with the reply to it. -/
theorem run_call {h : Handler σ} {backend : String} {c : Call}
    {next : Except BackendError c.Reply → Program α} {reply : Except BackendError c.Reply}
    {s s' s'' : σ} {a : α} {events : List Event} (hreply : h backend c s = (reply, s'))
    (hnext : (next reply).run h s' = (a, s'', events)) :
    (Program.call backend c next).run h s = (a, s'', .called backend c reply :: events) := by
  simp only [run, hreply, hnext]

/-- A program after another goes on with the result of that one. -/
theorem run_after {h : Handler σ} {p : Program α} {f : α → Program β} {s s' s'' : σ} {a : α} {b : β}
    {events more : List Event} (hp : p.run h s = (a, s', events))
    (hf : (f a).run h s' = (b, s'', more)) : (p >>= f).run h s = (b, s'', events ++ more) := by
  show (p.bind f).run h s = _
  rw [run_bind, hp]
  simp only [hf]

section Connections

variable {h : Handler σ} {backend : String} {failed : BackendError → α} {body : Program α}
  {s s₁ s₂ s₃ s₄ : σ}

theorem run_notConnected {err : BackendError} (hconnect : h backend .connect s = (.error err, s₁)) :
    (withConnection backend failed body).run h s =
      (failed (err.within "connect"), s₁, [.called backend .connect (.error err)]) :=
  run_call hconnect rfl

theorem run_notOpened {err : BackendError} (hconnect : h backend .connect s = (.ok (), s₁))
    (hopen : h backend .open s₁ = (.error err, s₂)) :
    (withConnection backend failed body).run h s = (failed (err.within "open"), s₂,
      [.called backend .connect (.ok ()), .called backend .open (.error err)]) :=
  run_call hconnect (run_call hopen rfl)

/-- A body runs between the opening of a connection and its closing. -/
theorem run_served {a : α} {inside : List Event} {closed : Except BackendError Unit}
    (hconnect : h backend .connect s = (.ok (), s₁)) (hopen : h backend .open s₁ = (.ok (), s₂))
    (hbody : body.run h s₂ = (a, s₃, inside)) (hclose : h backend .close s₃ = (closed, s₄)) :
    (withConnection backend failed body).run h s = (a, s₄,
      .called backend .connect (.ok ()) :: .called backend .open (.ok ()) ::
        (inside ++ .called backend .close closed :: (closingNotes backend closed).map .noted)) := by
  refine run_call hconnect (run_call hopen ?_)
  show Program.run h (body >>= _) s₂ = _
  refine run_after hbody (run_call hclose ?_)
  cases closed <;> rfl

end Connections

/-- What happens in an orderly program, and what the closing of its connection changes: nothing of
the result. -/
theorem Orderly.disciplined {p : Program α} (hp : p.Orderly) (h : Handler σ) (s : σ) :
    Disciplined (p.run h s).2.2 ∧ ∀ h' : Handler σ,
      (∀ backend c s, c ≠ .close → h' backend c s = h backend c s) →
        (p.run h' s).1 = (p.run h s).1 := by
  induction hp generalizing s with
  | silent hp =>
    obtain ⟨a, notes, hrun⟩ := hp.run_eq
    simp only [hrun]
    exact ⟨.unused notes, fun h' _ => trivial⟩
  | note hp ih =>
    obtain ⟨hevents, hresult⟩ := ih s
    exact ⟨hevents.note _, hresult⟩
  | @connection β backend failed body next hbody hnext =>
    -- what comes after the connection gives the same, whatever state the handler is in then
    choose result notes hnext using fun b => (hnext b).run_eq
    have hafter : ∀ {h' : Handler σ} {s' : σ} {b : β} {events : List Event},
        (withConnection backend failed body).run h' s = (b, s', events) →
          (withConnection backend failed body >>= next).run h' s =
            (result b, s', events ++ (notes b).map .noted) :=
      fun hrun => run_after hrun (hnext _ _ _)
    rcases hconnect : h backend .connect s with ⟨err | ⟨⟩, s₁⟩
    · rw [hafter (run_notConnected hconnect)]
      refine ⟨.notConnected [] _ backend err, fun h' hagree => ?_⟩
      rw [hafter (run_notConnected ((hagree backend .connect s nofun).trans hconnect))]
    rcases hopen : h backend .open s₁ with ⟨err | ⟨⟩, s₂⟩
    · rw [hafter (run_notOpened hconnect hopen)]
      refine ⟨.notOpened [] _ backend err, fun h' hagree => ?_⟩
      rw [hafter (run_notOpened ((hagree backend .connect s nofun).trans hconnect)
        ((hagree backend .open s₁ nofun).trans hopen))]
    rcases hrun : body.run h s₂ with ⟨b, s₃, inside⟩
    rcases hclose : h backend .close s₃ with ⟨closed, s₄⟩
    rw [hafter (run_served hconnect hopen hrun hclose)]
    constructor
    · have hserved := Disciplined.served [] (closingNotes backend closed ++ notes b) backend
        (only_of_run hbody hrun) closed
      simpa using hserved
    · intro h' hagree
      have hrun' : body.run h' s₂ = (b, s₃, inside) := by
        rw [run_congr hbody fun b c s hc => hagree b c s ?_, hrun]
        rintro rfl
        exact absurd hc.2 nofun
      rcases hclose' : h' backend .close s₃ with ⟨closed', s₄'⟩
      rw [hafter (run_served ((hagree backend .connect s nofun).trans hconnect)
        ((hagree backend .open s₁ nofun).trans hopen) hrun' hclose')]

end Program

open Program

variable {α : Type}

/-! ## Parts of operations -/

theorem orderly_withConnection {backend : String} {failed : BackendError → α} {body : Program α}
    (hbody : body.Serves backend) : (withConnection backend failed body).Orderly := by
  have hpure : (withConnection backend failed body >>= pure).Orderly :=
    .connection hbody fun _ => only_pure
  rwa [show withConnection backend failed body >>= pure = _ from bind_done _] at hpure

theorem orderly_spanned {kind : OperationKind} {entity : String} {rows : α → Nat}
    {body : Program α} (hbody : body.Orderly) : (spanned kind entity rows body).Orderly :=
  (silent_take _).bind_orderly fun _ => hbody.bind fun _ =>
    Only.bind (silent_take _) fun _ => only_pure

namespace Session

variable {s : Session} {e : EntityType} {m : Mapping} {t : Table} {o : Object} {kind : StatementKind}
  {c : Command}

theorem orderly_prepared {β : Type} {x : Except MapperError β}
    {next : β → Program (Except MapperError α)} (hnext : ∀ b, (next b).Orderly) :
    (prepared x next).Orderly := by
  unfold prepared
  cases x with
  | error err => exact .silent only_done
  | ok b => exact hnext b

theorem silent_capture {entity : String} {result : Except MapperError (Outcome α)}
    {onFail : String → Program Unit} (honFail : ∀ message, (onFail message).Silent) :
    (capture entity kind result onFail).Silent :=
  only_capture (fun _ => trivial) (fun _ => trivial) honFail

/-- One command over a connection of its own. -/
theorem orderly_connected {call : Call} (hcall : call.isService = true) :
    (withConnection m.table.backend .error (s.send m kind c call)).Orderly :=
  orderly_withConnection (serves_send hcall)

theorem orderly_read : (s.read m kind c).Orderly := by
  refine orderly_spanned ((orderly_connected rfl).bind fun rows => ?_)
  split
  · exact only_pure
  · split
    · exact only_pure
    · exact Only.bind (silent_take _) fun _ => only_pure

theorem orderly_count : (s.count m c).Orderly :=
  orderly_spanned ((orderly_connected rfl).bind fun _ => only_pure)

theorem orderly_query {condition : Option Expr} : (s.query t condition).Orderly :=
  orderly_prepared fun _ => orderly_prepared fun _ => orderly_read

theorem orderly_tableExists : (s.tableExists t).Orderly := by
  refine orderly_prepared fun _ => orderly_spanned (Orderly.bind ?_ fun _ => only_pure)
  exact orderly_withConnection (Only.bind (only_ask.mpr ⟨rfl, rfl⟩) fun _ => only_pure)

theorem orderly_sendWrite : (s.sendWrite (α := α) m kind c).Orderly :=
  (orderly_connected rfl).bind fun _ => only_pure

/-! ## Writes -/

theorem orderly_writeObject {options : SaveOptions} {mode : WriteMode} :
    (s.writeObject e m options mode o).Orderly := by
  unfold writeObject
  split
  · exact .silent only_done
  · exact orderly_withConnection serves_writeSteps

theorem orderly_writeNotified {options : SaveOptions} {mode : WriteMode} :
    (s.writeNotified e m options mode o).Orderly := by
  refine (silent_takeIf _ _).bind_orderly fun _ => orderly_writeObject.bind fun a =>
    Only.bind (silent_capture fun _ => silent_takeIf _ _) fun r => ?_
  split
  · exact only_pure
  · split
    · exact Only.bind (silent_takeIf _ _) fun _ => only_pure
    · exact only_pure

theorem silent_checkRules {options : SaveOptions} : (checkRules m options o).Silent := by
  unfold checkRules
  split
  · exact only_pure
  · exact only_pure
  · exact Only.bind (silent_take _) fun _ => Only.bind (silent_takeIf _ _) fun _ => only_pure

theorem orderly_write {options : SaveOptions} {mode : WriteMode} :
    (s.write e mode options o).Orderly := by
  unfold write
  split
  · exact .silent only_done
  · refine orderly_spanned (Silent.bind_orderly ?_ fun r => ?_)
    · split
      · exact silent_checkRules
      · exact only_pure
    · split
      · exact .silent only_pure
      · exact .silent only_pure
      · exact orderly_writeNotified

theorem orderly_delete {options : DeleteOptions} : (s.delete t options o).Orderly := by
  refine orderly_prepared fun _ => orderly_spanned ?_
  split
  · exact .silent only_pure
  · refine (silent_takeIf _ _).bind_orderly fun _ => orderly_sendWrite.bind fun _ =>
      Only.bind (silent_capture fun _ => silent_takeIf _ _) fun r => ?_
    split
    · exact Only.bind (silent_takeIf _ _) fun _ => only_pure
    · exact only_pure

theorem orderly_deleteAll {condition : Option Expr} : (s.deleteAll t condition).Orderly := by
  refine orderly_prepared fun _ => orderly_spanned ?_
  split
  · exact .silent only_pure
  · exact orderly_sendWrite.bind fun _ => silent_capture fun _ => only_pure

/-! ## Statements and definitions -/

theorem orderly_raw {backend : String} {sql : Dialect → String} : (s.raw backend sql).Orderly := by
  refine orderly_prepared fun _ => orderly_spanned (Orderly.bind ?_ fun r => ?_)
  · exact orderly_withConnection (Only.bind serves_announce fun _ => only_ask.mpr ⟨rfl, rfl⟩)
  · split
    · exact only_pure
    · exact Only.bind (silent_take _) fun _ => Only.bind (silent_take _) fun _ => only_pure

theorem orderly_define {statements : Mapping → List (StatementKind × String)} :
    (s.define t statements).Orderly := by
  unfold define prepared
  split
  · exact .silent only_done
  · next m hm =>
    obtain rfl : m.table = t := target_eq_ok (mapError_eq_ok hm)
    exact orderly_spanned ((orderly_withConnection serves_sendAll).bind fun _ =>
      silent_capture fun _ => only_pure)

theorem orderly_alterTable : (s.alterTable e).Orderly :=
  orderly_prepared fun _ => orderly_spanned (orderly_withConnection serves_rebuild)

/-! ## Every operation -/

namespace Operation

/-- What an operation results in. -/
def Result : Operation → Type
  | .query _ => Except MapperError (List Object)
  | .load _ => Except MapperError (Option Object)
  | .reload _ => Except MapperError (Option Object)
  | .existsWhere _ => Except MapperError Bool
  | .existsObject _ => Except MapperError Bool
  | .write .. => Written
  | .delete .. => Except MapperError (Outcome Object)
  | .deleteAll _ => Except MapperError (Outcome Object)
  | .createTable => Except MapperError (Outcome Unit)
  | .dropTable => Except MapperError (Outcome Unit)
  | .truncate _ => Except MapperError (Outcome Unit)
  | .alterTable => Except MapperError Nat

/-- What an operation does, up to its result. -/
def program (s : Session) (e : EntityType) : (q : Operation) → Program q.Result
  | .query condition => s.query e.table condition
  | .load condition => s.load e.table condition
  | .reload o => s.reload e.table o
  | .existsWhere condition => s.existsWhere e.table condition
  | .existsObject o => s.existsObject e.table o
  | .write mode options o => s.write e mode options o
  | .delete options o => s.delete e.table options o
  | .deleteAll condition => s.deleteAll e.table condition
  | .createTable => s.createTable e.table
  | .dropTable => s.dropTable e.table
  | .truncate recreate => s.truncate e.table recreate
  | .alterTable => s.alterTable e

end Operation

/-- What a session can be asked for: an operation on an entity type, whether there is a table, and
what is given to it as text. -/
inductive Request
  | operation (e : EntityType) (q : Operation)
  | tableExists (t : Table)
  | querySql (t : Table) (sql : String) (parameters : List (String × Value))
  | executeOn (backend sql : String)
  | renameOn (backend old new : String)

namespace Request

/-- What a request results in. -/
def Result : Request → Type
  | .operation _ q => q.Result
  | .tableExists _ => Except MapperError Bool
  | .querySql .. => Except MapperError (List Object)
  | .executeOn .. => Except MapperError (Outcome Unit)
  | .renameOn .. => Except MapperError (Outcome Unit)

/-- What is done for a request. -/
def perform (s : Session) : (q : Request) → Program q.Result
  | .operation e q => q.program s e
  | .tableExists t => s.tableExists t
  | .querySql t sql parameters => s.querySql t sql parameters
  | .executeOn backend sql => s.executeOn backend sql
  | .renameOn backend old new => s.renameOn backend old new

end Request

theorem orderly_program (q : Operation) : (q.program s e).Orderly := by
  cases q with
  | query => exact orderly_query
  | load => exact orderly_query.bind fun _ => only_pure
  | reload =>
    exact orderly_prepared fun _ => orderly_prepared fun _ => orderly_read.bind fun _ => only_pure
  | existsWhere => exact orderly_prepared fun _ => orderly_prepared fun _ => orderly_count
  | existsObject => exact orderly_prepared fun _ => orderly_prepared fun _ => orderly_count
  | write => exact orderly_write
  | delete => exact orderly_delete
  | deleteAll => exact orderly_deleteAll
  | createTable => exact orderly_define
  | dropTable => exact orderly_define
  | truncate => exact orderly_define
  | alterTable => exact orderly_alterTable

/-- What is done for every request is orderly. -/
theorem orderly_perform (q : Request) : (q.perform s).Orderly := by
  cases q with
  | operation e q => exact orderly_program q
  | tableExists => exact orderly_tableExists
  | querySql => exact orderly_prepared fun _ => orderly_read
  | executeOn => exact orderly_raw
  | renameOn => exact orderly_raw

/-- **Connections are opened once and closed.** Whatever is asked for and whoever replies, one
connection is opened at most, commands are handed over only while it is open, it is closed if it was
opened, and once, before the end, and an observer is told nothing meanwhile. Whatever is replied to
the closing, and whatever comes of it, the result is the same. -/
theorem perform_disciplined {σ : Type} (s : Session) (q : Request) (h : Handler σ) (st : σ)
    {r : q.Result} {st' : σ} {events : List Event} (hrun : (q.perform s).run h st = (r, st', events)) :
    Disciplined events ∧ events.countP Event.isOpening ≤ 1 ∧
      events.countP Event.isClosing = events.countP Event.isOpening ∧
      ∀ h' : Handler σ, (∀ backend c st, c ≠ .close → h' backend c st = h backend c st) →
        ∃ st'' events', (q.perform s).run h' st = (r, st'', events') ∧ Disciplined events' := by
  have horderly : (q.perform s).Orderly := orderly_perform q
  obtain ⟨hevents, hresult⟩ := horderly.disciplined h st
  rw [hrun] at hevents hresult
  obtain ⟨hopenings, hclosings⟩ := hevents.countP_isClosing
  refine ⟨hevents, hopenings, hclosings, fun h' hagree => ?_⟩
  have hevents' := (horderly.disciplined h' st).1
  rcases hrun' : (q.perform s).run h' st with ⟨r', st'', events'⟩
  have hr := hresult h' hagree
  rw [hrun'] at hr hevents'
  obtain rfl : r' = r := hr
  exact ⟨st'', events', rfl, hevents'⟩

/-- The backend of `Guests.answer`, with connections that cannot be closed. -/
def Guests.locked (identity : Value) : Handler Unit
  | _, .close, _ => (.error ⟨"close", "locked"⟩, ())
  | backend, c, st => Guests.answer identity backend c st

/-- The request to insert a guest. -/
def Guests.arrival : Request := .operation ⟨Guests.table, id⟩ (.write .insert {} (Guests.guest 0))

/-- A guest gets the number 7, also over a connection that cannot be closed. -/
theorem perform_disciplined_guests :
    ∃ events events', (Guests.arrival.perform Guests.session).run (Guests.answer (.int 7)) () =
        (accepted .insert 1 (Guests.guest 7), (), events) ∧ Disciplined events ∧
      (Guests.arrival.perform Guests.session).run (Guests.locked (.int 7)) () =
        (accepted .insert 1 (Guests.guest 7), (), events') ∧ Disciplined events' := by
  have hrun : (Guests.arrival.perform Guests.session).run (Guests.answer (.int 7)) () =
      (accepted .insert 1 (Guests.guest 7), (), _) := rfl
  obtain ⟨hevents, -, -, hclosing⟩ := perform_disciplined _ _ _ _ hrun
  obtain ⟨st, events', hrun', hevents'⟩ := hclosing (Guests.locked (.int 7)) fun backend c st hc => by
    cases c with
    | close => exact absurd rfl hc
    | _ => rfl
  exact ⟨_, events', hrun, hevents, hrun', hevents'⟩

end Session

end EntityMapper
