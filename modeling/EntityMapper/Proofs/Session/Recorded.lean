import EntityMapper.Proofs.Session.Accounts
import EntityMapper.Proofs.Session.Notices

/-!
# What is recorded of an operation

An operation records its start, the announcements of its commands, what came of them, and its end.
Where its backend is not known, or where it cannot be prepared, it records nothing.

* `accounts_read`, `accounts_write`, `accounts_define` and others — every operation is recorded so
* `Request.Labels`, `Request.preparation` — what is announced for a request, and what it needs
* `perform_recorded` — what is recorded of a request tells what happened
-/

namespace EntityMapper

open Program

namespace Session

variable {α β : Type} {s : Session} {e : EntityType} {m : Mapping} {t : Table} {o : Object}
  {kind : StatementKind} {c : Command} {L : MetricEvent → Call → Prop} {entity : String}

theorem accounts_prepared {operation : OperationKind} {x : Except MapperError β}
    {next : β → Program (Except MapperError α)} {preparation : β → Except MapperError Unit}
    {status : Except MapperError α → Option OutcomeStatus}
    (hnext : ∀ b, x = .ok b → (next b).Accounts L operation entity (preparation b) status) :
    (prepared x next).Accounts L operation entity (x >>= preparation) status := by
  unfold prepared
  cases x with
  | error err =>
    refine ⟨fun hrun => ⟨nofun, fun _ _ => ?_⟩⟩
    exact (run_pure_cases hrun).2.2
  | ok b => exact hnext b rfl

/-- An operation on a table that needs its backend and nothing else. -/
theorem accounts_targeted {operation : OperationKind} {rows : Except MapperError α → Nat}
    {body : Mapping → Program (Except MapperError α)}
    {status : Except MapperError α → Option OutcomeStatus}
    (hL : ∀ x c, L x c → x.isStatement = true)
    (hbody : ∀ m, s.target t = .ok m → (body m).Concludes L m.table.entity status) :
    (prepared ((s.target t).mapError .schema) fun m =>
      spanned operation t.entity rows (body m)).Accounts L operation t.entity
        ((s.target t).mapError .schema >>= fun _ => .ok ()) status := by
  refine accounts_prepared fun m hm => Concludes.accounts ?_ hL
  have hm := mapError_eq_ok hm
  rw [← target_eq_ok hm]
  exact hbody m hm

/-- An operation on a table that needs its backend and a command. -/
theorem accounts_commanded {operation : OperationKind}
    {command : Mapping → Except MapperError Command}
    {next : Mapping → Command → Program (Except MapperError α)}
    {status : Except MapperError α → Option OutcomeStatus}
    (hnext : ∀ m c, s.target t = .ok m → command m = .ok c →
      (next m c).Accounts L operation m.table.entity (.ok ()) status) :
    (prepared ((s.target t).mapError .schema) fun m =>
      prepared (command m) (next m)).Accounts L operation t.entity
        ((s.target t).mapError .schema >>= fun m => command m >>= fun _ => .ok ()) status := by
  refine accounts_prepared fun m hm => accounts_prepared fun c hc => ?_
  have hm := mapError_eq_ok hm
  rw [← target_eq_ok hm]
  exact hnext m c hm hc

/-! ## Outcomes -/

/-- How an outcome says that a write ended; an error is no outcome. -/
def outcomeStatus (r : Except MapperError (Outcome α)) : Option OutcomeStatus :=
  r.toOption.map Outcome.status

/-- What a backend refused is recorded as it is captured. -/
theorem settles_capture {result : Except MapperError (Outcome α)} {onFail : String → Program Unit}
    (hstatus : outcomeStatus result ≠ some .fail)
    (honFail : ∀ message, (onFail message).Unrecorded fun _ => True) :
    (capture entity kind result onFail).Settles entity outcomeStatus (Unblamed result) := by
  unfold capture
  split
  · next err =>
    refine (unrecorded_take rfl).settles_bind fun _ => settles_metric fun _ =>
      (honFail _).bind fun _ _ => unrecorded_pure ⟨.refused rfl, fun _ hgood => hgood err rfl⟩
  · exact settles_pure hstatus

theorem outcomeStatus_map_ok (r : Except MapperError Int) :
    outcomeStatus (r.map (Outcome.ok (α := α) kind)) ≠ some .fail := by
  cases r <;> nofun

/-! ## Reading -/

theorem accounts_read (hL : ∀ e c, L e c → e.isStatement = true)
    (hcall : L (.statement kind m.table.entity) (.reader c)) :
    (s.read m kind c).Accounts L .load m.table.entity (.ok ()) fun _ => none := by
  refine Concludes.accounts ((announces_connected rfl hcall).concludes fun rows => ?_) hL
  split
  · exact settles_pure nofun
  · split
    · exact settles_pure nofun
    · exact settles_metric fun _ => unrecorded_pure ⟨.materialized nofun, nofun⟩

theorem accounts_count (hL : ∀ e c, L e c → e.isStatement = true)
    (hcall : L (.statement .existenceCheck m.table.entity) (.scalar c)) :
    (s.count m c).Accounts L .exists m.table.entity (.ok ()) fun _ => none :=
  Concludes.accounts ((announces_connected rfl hcall).concludes fun _ => settles_pure nofun) hL

theorem accounts_tableExists (hL : ∀ e c, L e c → e.isStatement = true) :
    (s.tableExists t).Accounts L .exists t.entity ((s.target t).mapError .schema >>= fun _ => .ok ())
      fun _ => none := by
  refine accounts_targeted hL fun m _ => Announces.concludes (Q := fun _ => True)
    (announces_withConnection ?_) fun _ => settles_pure nofun
  exact (announces_ask rfl (by nofun)).bind fun _ => announces_pure fun _ => trivial

/-! ## Writes -/

/-- What the rules leave to be recorded: that they refused the object, or nothing. -/
theorem run_rules_recorded {σ : Type} {h : Handler σ} {st st' : σ} {events : List Event}
    {options : SaveOptions} {r : Except MapperError (Option (Outcome Object))}
    (hrun : (if options.validate then checkRules m options o else pure (.ok none)).run h st =
      (r, st', events)) :
    exchanges events = [] ∧
      ((∃ outcome, r = .ok (some outcome) ∧ metrics events = [.validationFailed m.table.entity]) ∨
        (∀ outcome, r ≠ .ok (some outcome)) ∧ metrics events = []) := by
  split at hrun
  · unfold checkRules at hrun
    split at hrun
    · obtain ⟨rfl, rfl, rfl⟩ := run_pure_cases hrun
      exact ⟨rfl, .inr ⟨nofun, rfl⟩⟩
    · obtain ⟨rfl, rfl, rfl⟩ := run_pure_cases hrun
      exact ⟨rfl, .inr ⟨nofun, rfl⟩⟩
    · obtain ⟨_, st₁, _, _, hmetric, hmore, rfl⟩ := run_bind_cases hrun
      obtain ⟨rfl, rfl⟩ := run_take_cases hmetric
      obtain ⟨_, st₂, _, _, htells, hend, rfl⟩ := run_bind_cases hmore
      obtain ⟨hexchanges, hmetrics, -⟩ := (unrecorded_takeIf rfl).of_run htells
      obtain ⟨rfl, rfl, rfl⟩ := run_pure_cases hend
      refine ⟨?_, .inl ⟨_, rfl, ?_⟩⟩
      · rw [List.append_nil, exchanges_append, hexchanges]
        rfl
      · rw [List.append_nil, metrics_append, hmetrics]
        rfl
  · obtain ⟨rfl, rfl, rfl⟩ := run_pure_cases hrun
    exact ⟨rfl, .inr ⟨nofun, rfl⟩⟩

variable {options : SaveOptions} {mode : WriteMode}

/-- How a write says that it ended. -/
def writtenStatus (w : Written) : Option OutcomeStatus := outcomeStatus w.1

theorem Attempt.Sound.status {a : Attempt} (h : a.Sound) : outcomeStatus a.result ≠ some .fail := by
  unfold outcomeStatus
  cases hresult : a.result with
  | error err => nofun
  | ok outcome =>
    have hstatus : outcome.status = .ok := h outcome hresult
    simp [Except.toOption, hstatus]

theorem concludes_writeNotified :
    (s.writeNotified e m options mode o).Concludes (Operation.Announced e m (.write mode options o))
      m.table.entity writtenStatus := by
  unfold writeNotified
  refine (unrecorded_takeIf rfl).concludes fun _ _ =>
    announces_writeObject.concludes_of_meets meets_writeObject_sound fun a ha => ?_
  refine (settles_capture ha.status fun _ => unrecorded_takeIf rfl).bind fun r => ?_
  split
  · exact unrecorded_pure rfl
  · split
    · exact (unrecorded_takeIf rfl).bind fun _ _ => unrecorded_pure rfl
    · exact unrecorded_pure rfl

theorem accounts_write (hL : ∀ x c, L x c → x.isStatement = true)
    (hq : ∀ m, s.target e.table = .ok m →
      ∀ x c, Operation.Announced e m (.write mode options o) x c → L x c) :
    (s.write e mode options o).Accounts L .save e.table.entity
      ((s.target e.table).mapError .schema >>= fun _ => .ok ()) writtenStatus := by
  unfold write
  cases htarget : s.target e.table with
  | error err => exact ⟨fun hrun => ⟨nofun, fun _ _ => (run_pure_cases hrun).2.2⟩⟩
  | ok m =>
    rw [← target_eq_ok htarget]
    refine Concludes.accounts ⟨fun hrun => ?_⟩ hL
    obtain ⟨r, st, asked, rest, hrules, hmore, rfl⟩ := run_bind_cases hrun
    obtain ⟨hexchanges, ⟨outcome, rfl, hmetrics⟩ | ⟨hnot, hmetrics⟩⟩ := run_rules_recorded hrules
    · -- the rules refuse the object, and no call is made that could have failed
      obtain ⟨rfl, rfl, rfl⟩ := run_pure_cases hmore
      rw [List.append_nil]
      exact concluded_of_exchanges hexchanges (hmetrics ▸ .rejected id)
    · refine Concluded.prepend (Concludes.of_run ?_ hmore) hexchanges hmetrics
      split
      · exact concludes_pure
      · next outcome => exact absurd rfl (hnot outcome)
      · exact concludes_writeNotified.imp (hq m htarget)

/-- A write that is sent by itself has not failed unless the backend refused it. -/
theorem meets_sendWrite_status :
    (s.sendWrite (α := Object) m kind c).Meets (fun _ => True) fun r =>
      outcomeStatus r ≠ some .fail := by
  refine meets_sendWrite_cases.mono fun r hr => ?_
  obtain ⟨n, rfl⟩ | ⟨err, rfl⟩ := hr <;> nofun

theorem accounts_delete {options : DeleteOptions} (hL : ∀ x c, L x c → x.isStatement = true)
    (hcall : ∀ m c, s.target t = .ok m → objectCommand m m.delete o = .ok c →
      L (.statement .delete m.table.entity) (.execute c)) :
    (s.delete t options o).Accounts L .delete t.entity
      ((s.target t).mapError .schema >>= fun _ => .ok ()) outcomeStatus := by
  refine accounts_targeted hL fun m hm => ?_
  rw [← target_eq_ok hm]
  split
  · exact concludes_pure
  · next c hc =>
    refine (unrecorded_takeIf rfl).concludes fun _ _ =>
      (announces_sendWrite (hcall m c hm hc)).concludes_of_meets meets_sendWrite_status fun r hr =>
        (settles_capture hr fun _ => unrecorded_takeIf rfl).bind fun r => ?_
    split
    · exact (unrecorded_takeIf rfl).bind fun _ _ => unrecorded_pure rfl
    · exact unrecorded_pure rfl

theorem accounts_deleteAll {condition : Option Expr} (hL : ∀ x c, L x c → x.isStatement = true)
    (hcall : ∀ m c, s.target t = .ok m → deleteAllCommand m condition = .ok c →
      L (.statement .deleteAll m.table.entity) (.execute c)) :
    (s.deleteAll t condition).Accounts L .delete t.entity
      ((s.target t).mapError .schema >>= fun _ => .ok ()) outcomeStatus := by
  refine accounts_targeted hL fun m hm => ?_
  rw [← target_eq_ok hm]
  split
  · exact concludes_pure
  · next c hc =>
    exact (announces_sendWrite (hcall m c hm hc)).concludes_of_meets meets_sendWrite_status
      fun r hr => settles_capture hr fun _ => unrecorded_pure trivial

/-! ## Statements and definitions -/

theorem accounts_raw {backend : String} {sql : Dialect → String}
    (hL : ∀ x c, L x c → x.isStatement = true)
    (hcall : ∀ d, s.backends.find backend = .ok d →
      L (.statement .unknown rawStatement) (.execute { object := "", text := sql d })) :
    (s.raw backend sql).Accounts L .statement rawStatement
      ((s.backends.find backend).mapError .schema >>= fun _ => .ok ()) outcomeStatus := by
  refine accounts_prepared fun d hd => Concludes.accounts ?_ hL
  refine (announces_withConnection
    (announces_announced rfl (hcall d (mapError_eq_ok hd)))).concludes fun r => ?_
  split
  · exact settles_pure nofun
  · refine (unrecorded_take rfl).settles_bind fun _ => settles_metric fun _ =>
      unrecorded_pure ⟨.refused rfl, ?_⟩
    rintro - ⟨v, hv⟩
    cases hv

theorem accounts_define {statements : Mapping → List (StatementKind × String)}
    (hL : ∀ x c, L x c → x.isStatement = true)
    (hcall : ∀ m, s.target t = .ok m → ∀ x ∈ statements m,
      L (.statement x.1 m.table.entity) (.execute (m.command x.2))) :
    (s.define t statements).Accounts L .define t.entity
      ((s.target t).mapError .schema >>= fun _ => .ok ()) outcomeStatus := by
  refine accounts_targeted hL fun m hm => ?_
  rw [← target_eq_ok hm]
  refine (announces_withConnection (announces_sendAll (hcall m hm))).concludes fun x => ?_
  obtain ⟨last, r⟩ := x
  refine (settles_capture (outcomeStatus_map_ok _) fun _ => unrecorded_pure trivial).mono ?_
  rintro ⟨n, hn⟩
  obtain rfl : r = .ok n := hn
  exact unblamed_ok _

theorem accounts_alterTable (hL : ∀ x c, L x c → x.isStatement = true)
    (hq : ∀ m, s.target e.table = .ok m →
      ∀ x c, Operation.Announced e m .alterTable x c → L x c) :
    (s.alterTable e).Accounts L .define e.table.entity
      ((s.target e.table).mapError .schema >>= fun _ => .ok ()) fun _ => none := by
  refine accounts_prepared fun m hm => ?_
  have hm := mapError_eq_ok hm
  rw [← target_eq_ok hm]
  refine Concludes.accounts (Concludes.imp ?_ (hq m hm)) hL
  exact (announces_withConnection announces_rebuild).concludes_of_status fun _ => rfl

end Session

/-! ## Every request -/

namespace Session

variable {s : Session}

namespace Operation

/-- The family of an operation. -/
def kind : Operation → OperationKind
  | .query _ => .load
  | .load _ => .load
  | .reload _ => .load
  | .existsWhere _ => .exists
  | .existsObject _ => .exists
  | .write .. => .save
  | .delete .. => .delete
  | .deleteAll _ => .delete
  | .createTable => .define
  | .dropTable => .define
  | .truncate _ => .define
  | .alterTable => .define

/-- What an operation on a table needs before it starts: the command of what it reads. Commands that
write are made once it has started. -/
def preparation (m : Mapping) : Operation → Except MapperError Unit
  | .query condition => queryCommand m condition >>= fun _ => .ok ()
  | .load condition => queryCommand m (some condition) >>= fun _ => .ok ()
  | .reload o => objectCommand m m.reload o >>= fun _ => .ok ()
  | .existsWhere condition => countCommand m condition >>= fun _ => .ok ()
  | .existsObject o => objectCommand m m.existenceCheck o >>= fun _ => .ok ()
  | _ => .ok ()

/-- How an operation says that a write ended; reading and rebuilding have no outcome. -/
def status : (q : Operation) → q.Result → Option OutcomeStatus
  | .write .. => writtenStatus
  | .delete .. => outcomeStatus (α := Object)
  | .deleteAll _ => outcomeStatus (α := Object)
  | .createTable => outcomeStatus (α := Unit)
  | .dropTable => outcomeStatus (α := Unit)
  | .truncate _ => outcomeStatus (α := Unit)
  | .query _ => fun _ => none
  | .load _ => fun _ => none
  | .reload _ => fun _ => none
  | .existsWhere _ => fun _ => none
  | .existsObject _ => fun _ => none
  | .alterTable => fun _ => none

end Operation

namespace Request

/-- The family of what is done for a request. -/
def kind : Request → OperationKind
  | .operation _ q => q.kind
  | .tableExists _ => .exists
  | .querySql .. => .load
  | .executeOn .. => .statement
  | .renameOn .. => .statement

/-- The entity that a request is counted for. -/
def entity : Request → String
  | .operation e _ => e.table.entity
  | .tableExists t => t.entity
  | .querySql t _ _ => t.entity
  | .executeOn .. => rawStatement
  | .renameOn .. => rawStatement

/-- The backend that a request is for. -/
def backend : Request → String
  | .operation e _ => e.table.backend
  | .tableExists t => t.backend
  | .querySql t _ _ => t.backend
  | .executeOn backend _ => backend
  | .renameOn backend _ _ => backend

/-- What a request needs before anything is done for it. -/
def preparation (s : Session) : Request → Except MapperError Unit
  | .operation e q => (s.target e.table).mapError .schema >>= q.preparation
  | .tableExists t => (s.target t).mapError .schema >>= fun _ => .ok ()
  | .querySql t _ _ => (s.target t).mapError .schema >>= fun _ => .ok ()
  | .executeOn backend _ => (s.backends.find backend).mapError .schema >>= fun _ => .ok ()
  | .renameOn backend _ _ => (s.backends.find backend).mapError .schema >>= fun _ => .ok ()

/-- How the outcome of a request says that a write ended, if it has one. -/
def status : (q : Request) → q.Result → Option OutcomeStatus
  | .operation _ q => q.status
  | .tableExists _ => fun _ => none
  | .querySql .. => fun _ => none
  | .executeOn .. => outcomeStatus (α := Unit)
  | .renameOn .. => outcomeStatus (α := Unit)

/-- The announcements of the commands of a request: of the kind of the statement and for the entity
that it is counted for. -/
inductive Labels (s : Session) : Request → MetricEvent → Call → Prop
  | operation {e : EntityType} {q : Operation} {m : Mapping} {x : MetricEvent} {c : Call}
      (target : s.target e.table = .ok m) (announced : q.Announced e m x c) :
      Labels s (.operation e q) x c
  | querySql {t : Table} {sql : String} {parameters : List (String × Value)} {c : Command}
      (text : c.text = sql) :
      Labels s (.querySql t sql parameters) (.statement .select t.entity) (.reader c)
  | executeOn {backend sql : String} :
      Labels s (.executeOn backend sql) (.statement .unknown rawStatement)
        (.execute { object := "", text := sql })
  | renameOn {backend old new : String} {d : Dialect} (dialect : s.backends.find backend = .ok d) :
      Labels s (.renameOn backend old new) (.statement .unknown rawStatement)
        (.execute { object := "", text := d.renameTable old new })

theorem Labels.isStatement {q : Request} {x : MetricEvent} {c : Call} (h : q.Labels s x c) :
    x.isStatement = true := by
  cases h with
  | operation target announced =>
    cases announced
    rfl
  | querySql => rfl
  | executeOn => rfl
  | renameOn => rfl

/-- For a backend that is not registered nothing can be prepared. -/
theorem preparation_of_unregistered {q : Request} (h : s.backends.dialect? q.backend = none) :
    ∃ err, q.preparation s = .error err := by
  have hfind : s.backends.find q.backend = .error (.backendNotFound q.backend) := by
    rw [Backends.find, h]
  have htarget : ∀ t : Table, t.backend = q.backend →
      s.target t = .error (.backendNotFound q.backend) := by
    intro t ht
    rw [target, ht, hfind]
    rfl
  refine ⟨.schema (.backendNotFound q.backend), ?_⟩
  cases q with
  | operation e q => rw [preparation, htarget e.table rfl]; rfl
  | tableExists t => rw [preparation, htarget t rfl]; rfl
  | querySql t sql parameters => rw [preparation, htarget t rfl]; rfl
  | executeOn backend sql => exact congrArg (fun x => Except.mapError _ x >>= _) hfind
  | renameOn backend old new => exact congrArg (fun x => Except.mapError _ x >>= _) hfind

end Request

/-- What leaves the text of a command alone does so however often it is done. -/
theorem text_foldl {β : Type} {f : Command → β → Command} (hf : ∀ c x, (f c x).text = c.text)
    (c : Command) (l : List β) : (l.foldl f c).text = c.text := by
  induction l generalizing c with
  | nil => rfl
  | cons x rest ih => rw [List.foldl_cons, ih, hf]

theorem accounts_program (e : EntityType) (q : Operation) :
    (q.program s e).Accounts (Request.Labels s (.operation e q)) q.kind e.table.entity
      ((s.target e.table).mapError .schema >>= q.preparation) q.status := by
  have hL : ∀ x c, Request.Labels s (.operation e q) x c → x.isStatement = true :=
    fun x c h => h.isStatement
  have hq : ∀ m, s.target e.table = .ok m → ∀ x c, q.Announced e m x c →
      Request.Labels s (.operation e q) x c := fun m hm x c h => .operation hm h
  cases q with
  | query condition =>
    exact accounts_commanded fun m c hm hc => accounts_read hL (hq m hm _ _ (.mk (.query hc)))
  | load condition =>
    have hquery : (s.query e.table (some condition)).Accounts _ _ _ _ _ :=
      accounts_commanded fun m c hm hc => accounts_read hL (hq m hm _ _ (.mk (.load hc)))
    exact hquery.map _
  | reload o =>
    exact accounts_commanded fun m c hm hc =>
      (accounts_read hL (hq m hm _ _ (.mk (.reload hc)))).map _
  | existsWhere condition =>
    exact accounts_commanded fun m c hm hc => accounts_count hL (hq m hm _ _ (.mk (.existsWhere hc)))
  | existsObject o =>
    exact accounts_commanded fun m c hm hc => accounts_count hL (hq m hm _ _ (.mk (.existsObject hc)))
  | write mode options o => exact accounts_write hL hq
  | delete options o => exact accounts_delete hL fun m c hm hc => hq m hm _ _ (.mk (.delete hc))
  | deleteAll condition =>
    exact accounts_deleteAll hL fun m c hm hc => hq m hm _ _ (.mk (.deleteAll hc))
  | createTable =>
    refine accounts_define hL fun m hm x hx => hq m hm _ _ ?_
    obtain rfl := List.mem_singleton.mp hx
    exact .mk .createTable
  | dropTable =>
    refine accounts_define hL fun m hm x hx => hq m hm _ _ ?_
    obtain rfl := List.mem_singleton.mp hx
    exact .mk .dropTable
  | truncate recreate =>
    refine accounts_define hL fun m hm x hx => hq m hm _ _ ?_
    cases recreate with
    | false =>
      obtain rfl := List.mem_singleton.mp hx
      exact .mk .truncate
    | true =>
      rcases List.mem_cons.mp hx with rfl | hx
      · exact .mk .dropAnew
      · obtain rfl := List.mem_singleton.mp hx
        exact .mk .createAnew
  | alterTable => exact accounts_alterTable hL hq

theorem accounts_perform (q : Request) :
    (q.perform s).Accounts (q.Labels s) q.kind q.entity (q.preparation s) q.status := by
  have hL : ∀ x c, q.Labels s x c → x.isStatement = true := fun x c h => h.isStatement
  cases q with
  | operation e q => exact accounts_program e q
  | tableExists t => exact accounts_tableExists hL
  | querySql t sql parameters =>
    refine accounts_prepared fun m hm => ?_
    obtain rfl : m.table = t := target_eq_ok (mapError_eq_ok hm)
    refine accounts_read (fun x c h => h.isStatement) (.querySql ?_)
    exact text_foldl (fun c x => by rfl) (m.command sql) parameters
  | executeOn backend sql => exact accounts_raw hL fun d hd => .executeOn
  | renameOn backend old new => exact accounts_raw hL fun d hd => .renameOn hd

/-- **What is recorded tells what happened.** Whatever is asked for and whoever replies, nothing
happens where the backend is not registered, or where what is to be read cannot be prepared.
Otherwise the start of the operation is recorded first and its end last, and between them neither a
start nor an end; the statements that are recorded are those of the commands that were handed over,
each of its command, in order and with its kind, whether that failed or not; and a refused write is
recorded once if the outcome says that the write failed and a call did fail, and not otherwise. -/
theorem perform_recorded {σ : Type} (s : Session) (q : Request) (h : Handler σ) (st : σ)
    {r : q.Result} {st' : σ} {events : List Event}
    (hrun : (q.perform s).run h st = (r, st', events)) :
    (s.backends.dialect? q.backend = none → events = []) ∧
      (∀ err, q.preparation s = .error err → events = []) ∧
      (q.preparation s = .ok () →
        Recorded (q.Labels s) q.kind q.entity (q.status r = some .fail ∧ Failing events) events) := by
  obtain ⟨hrecorded, hnothing⟩ := (accounts_perform q).of_run hrun
  refine ⟨fun hbackend => ?_, hnothing, hrecorded⟩
  obtain ⟨err, herr⟩ := Request.preparation_of_unregistered hbackend
  exact hnothing err herr

/-- The request to create the table of guests. -/
def Guests.founding : Request := .operation ⟨Guests.table, id⟩ .createTable

/-- A backend that refuses to create the table of guests leaves one refusal between the start and the
end of the definition. -/
theorem perform_recorded_guests :
    ∃ r events, (Guests.founding.perform Guests.session).run Guests.stored 0 = (r, 0, events) ∧
      metrics events = [.started .define "Guest", .statement .createTable "Guest",
        .writeFailed "Guest", .finished .define "Guest" 0] ∧
      Recorded (Guests.founding.Labels Guests.session) .define "Guest"
        (Guests.founding.status r = some .fail ∧ Failing events) events := by
  have hrun : (Guests.founding.perform Guests.session).run Guests.stored 0 = (_, 0, _) := rfl
  exact ⟨_, _, hrun, rfl, (perform_recorded Guests.session Guests.founding Guests.stored 0 hrun).2.2 rfl⟩

end Session

end EntityMapper
