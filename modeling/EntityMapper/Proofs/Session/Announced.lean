import Mathlib.Data.List.Forall2
import EntityMapper.Proofs.Session.Deeds
import EntityMapper.Proofs.Session.Discipline

/-!
# What is announced of the commands of a connection

Each command is announced as it is handed over. `p.Announces L Q` says that, in every run of `p`, the
metric events are the announcements of the commands, one for each and in order, where `L` says which
event announces which call, and that the result is of the class `Q` unless a call has failed.

* `metrics`, `commands` — what was recorded, and the calls that handed over a command
* `Failing` — a call has failed, other than the closing of a connection
* `Program.Announces.bind`, `announces_send` and others — how programs are put together
* `Operation.Labels` — the kinds of the commands of an operation
* `announces_writeSteps`, `announces_rebuild` and others — all commands are announced so
-/

namespace EntityMapper

namespace Program

/-! ## Events and commands -/

/-- The metric event in something that happened, if it is one. -/
def Event.metric? : Event → Option MetricEvent
  | .noted (.metric e) => some e
  | _ => none

/-- The metric events in what happened, in order. -/
def metrics (events : List Event) : List MetricEvent := events.filterMap Event.metric?

/-- The calls that handed over a command, in order. -/
def commands (events : List Event) : List Call :=
  ((exchanges events).map Exchange.call).filter fun c => c.command?.isSome

/-- A call has failed, other than the closing of a connection. -/
def Failing (events : List Event) : Prop :=
  ∃ x ∈ exchanges events, x.call ≠ .close ∧ ∃ err, x.reply = .error err

variable {α β : Type} {events more : List Event}

@[simp] theorem metrics_nil : metrics [] = [] := rfl

@[simp] theorem commands_nil : commands [] = [] := rfl

@[simp] theorem metrics_append : metrics (events ++ more) = metrics events ++ metrics more :=
  List.filterMap_append

@[simp] theorem commands_append : commands (events ++ more) = commands events ++ commands more := by
  simp [commands]

theorem Failing.append_left (h : Failing more) : Failing (events ++ more) := by
  obtain ⟨x, hx, hfailed⟩ := h
  refine ⟨x, ?_, hfailed⟩
  rw [exchanges_append]
  exact List.mem_append_right _ hx

theorem Failing.append_right (h : Failing events) : Failing (events ++ more) := by
  obtain ⟨x, hx, hfailed⟩ := h
  refine ⟨x, ?_, hfailed⟩
  rw [exchanges_append]
  exact List.mem_append_left _ hx

/-- Where nothing is exchanged, nothing fails. -/
theorem not_failing_of_exchanges (h : exchanges events = []) : ¬ Failing events := by
  rintro ⟨x, hx, -⟩
  rw [h] at hx
  exact absurd hx List.not_mem_nil

theorem commands_of_exchanges (h : exchanges events = []) : commands events = [] := by
  rw [commands, h]
  rfl

/-! ## Announcements -/

/-- In every run the metric events announce the commands, and the result is of a class unless a call
has failed. -/
structure Announces (L : MetricEvent → Call → Prop) (p : Program α) (Q : α → Prop) : Prop where
  of_run : ∀ {σ : Type} {h : Handler σ} {s s' : σ} {a : α} {events : List Event},
    p.run h s = (a, s', events) →
      List.Forall₂ L (metrics events) (commands events) ∧ (Q a ∨ Failing events)

variable {L : MetricEvent → Call → Prop} {p : Program α} {f : α → Program β} {Q Q' : α → Prop}
  {R : β → Prop}

theorem announces_pure {a : α} (ha : Q a) : (pure a : Program α).Announces L Q := by
  refine ⟨fun {_ _ _ _ a' events} hrun => ?_⟩
  obtain ⟨rfl, rfl, rfl⟩ := run_pure_cases hrun
  exact ⟨.nil, .inl ha⟩

theorem Announces.mono (hp : p.Announces L Q) (hQ : ∀ a, Q a → Q' a) : p.Announces L Q' := by
  refine ⟨fun {_ _ _ _ a events} hrun => ?_⟩
  obtain ⟨hlabels, hresult⟩ := hp.of_run hrun
  exact ⟨hlabels, hresult.imp_left (hQ a)⟩

/-- One program after another; the second one may rely on the first unless that has failed. -/
theorem Announces.bind (hp : p.Announces L Q) (hf : ∀ a, (f a).Announces L fun b => Q a → R b) :
    (p >>= f).Announces L R := by
  refine ⟨fun {_ _ _ _ b events} hrun => ?_⟩
  obtain ⟨a, s₁, before, after, hbefore, hafter, rfl⟩ := run_bind_cases hrun
  obtain ⟨hlabels, hresult⟩ := hp.of_run hbefore
  obtain ⟨hmore, hlast⟩ := (hf a).of_run hafter
  refine ⟨?_, ?_⟩
  · rw [metrics_append, commands_append]
    exact List.rel_append hlabels hmore
  · rcases hresult with ha | hfailing
    · rcases hlast with hb | hfailing
      · exact .inl (hb ha)
      · exact .inr hfailing.append_left
    · exact .inr hfailing.append_right

theorem announces_takeIf {wanted : Bool} {n : Note} (hn : Event.metric? (.noted n) = none) :
    (takeIf wanted n).Announces L fun _ => True := by
  refine ⟨fun {_ _ _ _ u events} hrun => ?_⟩
  cases wanted with
  | false =>
    obtain ⟨-, -, rfl⟩ := run_pure_cases hrun
    exact ⟨.nil, .inl trivial⟩
  | true =>
    obtain ⟨-, rfl⟩ := run_take_cases hrun
    refine ⟨?_, .inl trivial⟩
    rw [metrics, List.filterMap_cons, hn]
    exact .nil

theorem announces_take {n : Note} (hn : Event.metric? (.noted n) = none) :
    (take n).Announces L fun _ => True :=
  @announces_takeIf L true n hn

/-- A call is one exchange, with the reply that the handler gives. -/
theorem run_ask_cases {σ : Type} {h : Handler σ} {s s' : σ} {backend : String} {c : Call}
    {r : Except BackendError c.Reply} (hrun : (ask backend c).run h s = (r, s', events)) :
    events = [.called backend c r] := by
  obtain ⟨rfl, hrest⟩ := Prod.mk.inj hrun
  exact (Prod.mk.inj hrest).2.symm

/-- A call other than the closing of a connection has failed, or it has given a reply. -/
theorem ok_or_failing {backend : String} {c : Call} (hclose : c ≠ .close)
    (r : Except BackendError c.Reply) : (∃ v, r = .ok v) ∨ Failing [.called backend c r] := by
  cases r with
  | ok v => exact .inl ⟨v, rfl⟩
  | error err => exact .inr ⟨⟨backend, c, .error err⟩, List.mem_singleton_self _, hclose, err, rfl⟩

/-- What follows a failed call may give any result. -/
theorem announces_pure_error {ε γ : Type} {err : ε} {a : α} :
    (pure a : Program α).Announces L fun b => (∃ v : γ, Except.error err = .ok v) → Q b := by
  refine announces_pure ?_
  rintro ⟨v, hv⟩
  cases hv

/-- A call that hands over no command. -/
theorem announces_ask {backend : String} {c : Call} (hc : c.command? = none) (hclose : c ≠ .close) :
    (ask backend c).Announces L fun r => ∃ v, r = .ok v := by
  refine ⟨fun {_ _ _ _ r events} hrun => ?_⟩
  obtain rfl := run_ask_cases hrun
  refine ⟨?_, ok_or_failing hclose r⟩
  have hnone : commands [.called backend c r] = [] := by
    simp [commands, exchanges, Event.exchange?, hc]
  rw [hnone]
  exact .nil

theorem announces_close {backend : String} :
    (ask backend .close).Announces L fun _ => True := by
  refine ⟨fun {_ _ _ _ r events} hrun => ?_⟩
  obtain rfl := run_ask_cases hrun
  exact ⟨.nil, .inl trivial⟩

end Program

open Program

variable {α : Type} {L : MetricEvent → Call → Prop} {Q : α → Prop}

/-- A body over a connection of its own: where there is none, a call has failed. -/
theorem announces_withConnection {backend : String} {failed : BackendError → α} {body : Program α}
    (hbody : body.Announces L Q) : (withConnection backend failed body).Announces L Q := by
  refine (announces_ask rfl (by nofun)).bind fun connected => ?_
  cases connected with
  | error err => exact announces_pure_error
  | ok _ =>
    refine Announces.mono (Q := Q) ((announces_ask rfl (by nofun)).bind fun opened => ?_) fun a ha _ => ha
    cases opened with
    | error err => exact announces_pure_error
    | ok _ =>
      refine Announces.mono (Q := Q) (hbody.bind fun a => announces_close.bind fun closed => ?_)
        fun a ha _ => ha
      cases closed with
      | error err =>
        exact (announces_take rfl).bind fun _ => announces_pure fun _ _ ha => ha
      | ok _ => exact announces_pure fun _ ha => ha

namespace Session

variable {s : Session} {e : EntityType} {m : Mapping} {o : Object} {kind : StatementKind}
  {c : Command}

/-- A command is announced and handed over. -/
theorem announces_announced {backend entity : String} {d : Dialect} {call : Call}
    (hcall : call.command?.isSome = true) (hL : L (.statement kind entity) call) :
    (s.announce entity d kind c >>= fun _ => ask backend call).Announces L
      fun r => ∃ v, r = .ok v := by
  refine ⟨fun {_ _ _ _ r events} hrun => ?_⟩
  obtain ⟨u, st₁, before, after, hbefore, hafter, rfl⟩ := run_bind_cases hrun
  obtain rfl := run_ask_cases hafter
  have hclose : call ≠ .close := by
    rintro rfl
    exact absurd hcall Bool.false_ne_true
  -- in the log there may be an entry in front of the event
  have hannounced : metrics before = [.statement kind entity] ∧ exchanges before = [] := by
    obtain ⟨_, st₂, _, _, hlog, hmetric, rfl⟩ := run_bind_cases hbefore
    obtain ⟨-, rfl⟩ := run_take_cases hmetric
    cases hdebug : s.debug with
    | false =>
      rw [hdebug] at hlog
      obtain ⟨-, -, rfl⟩ := run_pure_cases hlog
      exact ⟨rfl, rfl⟩
    | true =>
      rw [hdebug] at hlog
      obtain ⟨-, rfl⟩ := run_take_cases hlog
      exact ⟨rfl, rfl⟩
  obtain ⟨hmetrics, hexchanges⟩ := hannounced
  have hcommands : commands [.called backend call r] = [call] := by
    simp [commands, exchanges, Event.exchange?, hcall]
  refine ⟨?_, (ok_or_failing hclose r).imp_right Failing.append_left⟩
  rw [metrics_append, commands_append, hmetrics, commands_of_exchanges hexchanges, hcommands]
  exact .cons hL .nil

/-- A command is announced and handed over, and what follows may rely on a reply. -/
theorem announces_announced_bind {backend entity : String} {d : Dialect} {call : Call}
    {f : Except BackendError call.Reply → Program α} (hcall : call.command?.isSome = true)
    (hL : L (.statement kind entity) call)
    (hf : ∀ r, (f r).Announces L fun a => (∃ v, r = .ok v) → Q a) :
    (s.announce entity d kind c >>= fun _ => ask backend call >>= f).Announces L Q := by
  have hassoc : (s.announce entity d kind c >>= fun _ => ask backend call >>= f) =
      (s.announce entity d kind c >>= fun _ => ask backend call) >>= f :=
    (bind_assoc _ _ _).symm
  rw [hassoc]
  exact (announces_announced hcall hL).bind hf

theorem announces_send {call : Call} (hcall : call.command?.isSome = true)
    (hL : L (.statement kind m.table.entity) call) :
    (s.send m kind c call).Announces L fun r => ∃ v, r = .ok v := by
  refine announces_announced_bind hcall hL fun r => announces_pure ?_
  rintro ⟨v, rfl⟩
  exact ⟨v, rfl⟩

/-! ## Writes -/

/-- A result that is no failure of a backend. -/
def Unblamed {β : Type} (r : Except MapperError β) : Prop := ∀ err, r ≠ .error (.backend err)

theorem unblamed_ok {β : Type} (b : β) : Unblamed (.ok b) := nofun

theorem unblamed_map {β γ : Type} {r : Except MapperError β} (h : Unblamed r) (f : β → γ) :
    Unblamed (r.map f) := by
  cases r with
  | ok b => exact unblamed_ok (f b)
  | error err =>
    intro cause hcause
    exact h cause (congrArg Except.error (Except.error.inj hcause))

/-- The command of an object cannot be made for want of something in the mapping or the object. -/
theorem unblamed_objectCommand {β : Type} {sql : Except SchemaError String} {err : MapperError}
    (h : objectCommand m sql o = .error err) : Unblamed (.error err : Except MapperError β) := by
  obtain ⟨cause, rfl⟩ := objectCommand_error h
  nofun

theorem announces_insertObject {ignoreAutomatic : Bool}
    (h : ∀ c, objectCommand m (.ok (m.insert ignoreAutomatic)) (keyed e m o) = .ok c →
      L (.statement .insert m.table.entity) (insertCall m ignoreAutomatic c)) :
    (s.insertObject e m ignoreAutomatic o).Announces L fun r => Unblamed r.2 := by
  have hkeyed : (if m.table.identityField?.isNone then e.assignKeys o else o) = keyed e m o := rfl
  unfold insertObject
  dsimp only
  rw [hkeyed]
  split
  · next err hc => exact announces_pure (unblamed_objectCommand hc)
  · next c hc =>
    have hL := h c hc
    unfold insertCall readBack? at hL
    split
    · next f last hf hlast =>
      rw [hf, hlast] at hL
      have hL : L (.statement .insert m.table.entity) (.insertIdentity c last) := hL
      refine (announces_send rfl hL).bind fun r => ?_
      cases r with
      | error err => exact announces_pure_error
      | ok generated =>
        dsimp only
        split
        · exact announces_pure fun _ => unblamed_ok 1
        · next err herr =>
          obtain ⟨-, cause, -, rfl⟩ := assignIdentity_error herr
          exact announces_pure fun _ => by nofun
    · next hnone =>
      have hL : L (.statement .insert m.table.entity) (.execute c) := by
        split at hL
        · next f last hf hlast => exact absurd hlast (hnone f last hf)
        · exact hL
      refine (announces_send rfl hL).bind fun r => announces_pure ?_
      rintro ⟨n, rfl⟩
      exact unblamed_ok n

theorem announces_updateStep
    (h : ∀ c, objectCommand m m.update o = .ok c →
      L (.statement .update m.table.entity) (.execute c)) :
    (s.updateStep m o).Announces L fun a => Unblamed a.result := by
  unfold updateStep
  split
  · next err hc => exact announces_pure (unblamed_objectCommand hc)
  · next c hc =>
    refine (announces_send rfl (h c hc)).bind fun r => announces_pure ?_
    rintro ⟨n, rfl⟩
    exact unblamed_ok _

/-- The kinds of the commands of an operation, each in the call that hands it over. -/
inductive Operation.Labels (e : EntityType) (m : Mapping) :
    Operation → StatementKind → Call → Prop
  | query {condition : Option Expr} {c : Command} (command : queryCommand m condition = .ok c) :
      Labels e m (.query condition) .select (.reader c)
  | load {condition : Expr} {c : Command} (command : queryCommand m (some condition) = .ok c) :
      Labels e m (.load condition) .select (.reader c)
  | reload {o : Object} {c : Command} (command : objectCommand m m.reload o = .ok c) :
      Labels e m (.reload o) .reload (.reader c)
  | existsWhere {condition : Expr} {c : Command} (command : countCommand m condition = .ok c) :
      Labels e m (.existsWhere condition) .existenceCheck (.scalar c)
  | existsObject {o : Object} {c : Command} (command : objectCommand m m.existenceCheck o = .ok c) :
      Labels e m (.existsObject o) .existenceCheck (.scalar c)
  /-- a save looks for the key of the object -/
  | check {options : SaveOptions} {o : Object} {c : Command}
      (command : objectCommand m m.existenceCheck o = .ok c) :
      Labels e m (.write .save options o) .existenceCheck (.scalar c)
  | insert {mode : WriteMode} {options : SaveOptions} {o : Object} {c : Command}
      (inserts : mode ≠ .update)
      (command : objectCommand m (.ok (m.insert options.ignoreAutomatic)) (keyed e m o) = .ok c) :
      Labels e m (.write mode options o) .insert (insertCall m options.ignoreAutomatic c)
  | update {mode : WriteMode} {options : SaveOptions} {o : Object} {c : Command}
      (updates : mode ≠ .insert) (command : objectCommand m m.update o = .ok c) :
      Labels e m (.write mode options o) .update (.execute c)
  | delete {options : DeleteOptions} {o : Object} {c : Command}
      (command : objectCommand m m.delete o = .ok c) :
      Labels e m (.delete options o) .delete (.execute c)
  | deleteAll {condition : Option Expr} {c : Command}
      (command : deleteAllCommand m condition = .ok c) :
      Labels e m (.deleteAll condition) .deleteAll (.execute c)
  | createTable : Labels e m .createTable .createTable (.execute (m.command m.createTable))
  | dropTable : Labels e m .dropTable .dropTable (.execute (m.command m.dropTable))
  | truncate : Labels e m (.truncate false) .deleteAll (.execute (m.command m.truncate))
  /-- a table that is created anew is dropped before -/
  | dropAnew : Labels e m (.truncate true) .dropTable (.execute (m.command m.dropTable))
  | createAnew : Labels e m (.truncate true) .createTable (.execute (m.command m.createTable))
  /-- a rebuild reads all rows, drops and creates the table and restores the objects -/
  | backUp : Labels e m .alterTable .select (.reader (backupCommand m))
  | dropRebuilt : Labels e m .alterTable .dropTable (.execute (m.command m.dropTable))
  | createRebuilt : Labels e m .alterTable .createTable (.execute (m.command m.createTable))
  | restore {o : Object} {c : Command} (command : restoreCommand e m o = .ok c) :
      Labels e m .alterTable .insert (.execute c)

/-- An event announces a command of an operation, with its kind and for the entity of the table. -/
inductive Operation.Announced (e : EntityType) (m : Mapping) (q : Operation) :
    MetricEvent → Call → Prop
  | mk {kind : StatementKind} {call : Call} (labels : q.Labels e m kind call) :
      Announced e m q (.statement kind m.table.entity) call

variable {options : SaveOptions} {mode : WriteMode}

theorem announces_insertStep (hmode : mode ≠ .update) :
    (s.insertStep e m options o).Announces (Operation.Announced e m (.write mode options o))
      fun a => Unblamed a.result := by
  refine (announces_insertObject fun c hc => .mk (.insert hmode hc)).bind fun r => ?_
  exact announces_pure fun hr => unblamed_map hr _

theorem announces_writeSteps {check : Option Command} (hcheck : checkCommand m mode o = .ok check) :
    (s.writeSteps e m options mode check o).Announces
      (Operation.Announced e m (.write mode options o)) fun a => Unblamed a.result := by
  cases mode with
  | save =>
    obtain ⟨c, hc, rfl⟩ := checkCommand_save hcheck
    unfold writeSteps
    refine (announces_send rfl (.mk (.check hc))).bind fun r => ?_
    cases r with
    | error err => exact announces_pure_error
    | ok found =>
      dsimp only
      split
      · exact (announces_insertStep (by decide)).mono fun _ ha _ => ha
      · split
        · exact announces_pure fun _ => unblamed_ok _
        · exact (announces_updateStep fun c hc => .mk (.update (by decide) hc)).mono fun _ ha _ => ha
  | insert =>
    obtain rfl := Except.ok.inj hcheck
    exact announces_insertStep (by decide)
  | update =>
    obtain rfl := Except.ok.inj hcheck
    exact announces_updateStep fun c hc => .mk (.update (by decide) hc)

theorem announces_writeObject :
    (s.writeObject e m options mode o).Announces (Operation.Announced e m (.write mode options o))
      fun a => Unblamed a.result := by
  unfold writeObject
  split
  · next err herr =>
    obtain ⟨cause, rfl⟩ := checkCommand_error herr
    exact announces_pure nofun
  · next check hcheck => exact announces_withConnection (announces_writeSteps hcheck)

/-- One command over a connection of its own. -/
theorem announces_connected {call : Call} (hcall : call.command?.isSome = true)
    (hL : L (.statement kind m.table.entity) call) :
    (withConnection m.table.backend .error (s.send m kind c call)).Announces L
      fun r => ∃ v, r = .ok v :=
  announces_withConnection (announces_send hcall hL)

theorem announces_sendWrite {β : Type} (hL : L (.statement kind m.table.entity) (.execute c)) :
    (s.sendWrite (α := β) m kind c).Announces L Unblamed := by
  refine (announces_connected rfl hL).bind fun r => announces_pure ?_
  rintro ⟨n, rfl⟩
  exact unblamed_ok _

/-! ## Definitions -/

theorem announces_sendAll {statements : List (StatementKind × String)} {last : StatementKind}
    {affected : Int}
    (h : ∀ x ∈ statements, L (.statement x.1 m.table.entity) (.execute (m.command x.2))) :
    (s.sendAll m last affected statements).Announces L fun r => ∃ n, r.2 = .ok n := by
  induction statements generalizing last affected with
  | nil => exact announces_pure ⟨affected, rfl⟩
  | cons x rest ih =>
    obtain ⟨kind, sql⟩ := x
    unfold sendAll
    refine (announces_send rfl (h _ List.mem_cons_self)).bind fun r => ?_
    cases r with
    | error err => exact announces_pure_error
    | ok n => exact (ih fun y hy => h y (List.mem_cons_of_mem _ hy)).mono fun _ ha _ => ha

theorem announces_restore {objects : List Object} :
    (s.restore e m objects).Announces (Operation.Announced e m .alterTable) fun _ => True := by
  induction objects with
  | nil => exact announces_pure trivial
  | cons o rest ih =>
    have hcall : ∀ c, insertCall m false c = .execute c := fun c => rfl
    have hinsert : (s.insertObject e m false o).Announces (Operation.Announced e m .alterTable)
        fun r => Unblamed r.2 :=
      announces_insertObject fun c hc => by rw [hcall]; exact .mk (.restore hc)
    unfold restore
    refine hinsert.bind fun r => ?_
    split
    · exact announces_pure fun _ => trivial
    · exact ih.mono fun _ _ _ => trivial

theorem announces_backUp :
    (s.backUp m).Announces (Operation.Announced e m .alterTable) fun _ => True := by
  unfold backUp
  refine announces_announced_bind rfl (.mk .backUp) fun r => ?_
  split
  · exact announces_pure fun _ => trivial
  · split <;> exact announces_pure fun _ => trivial

theorem announces_rebuild :
    (s.rebuild e m).Announces (Operation.Announced e m .alterTable) fun _ => True := by
  unfold rebuild
  refine announces_backUp.bind fun r => ?_
  split
  · exact announces_pure fun _ => trivial
  · next objects existed =>
    dsimp only
    refine (announces_sendAll fun x hx => ?_).bind fun r => ?_
    · rcases List.mem_append.mp hx with hx | hx
      · split at hx
        · obtain rfl := List.mem_singleton.mp hx
          exact .mk .dropRebuilt
        · exact absurd hx List.not_mem_nil
      · obtain rfl := List.mem_singleton.mp hx
        exact .mk .createRebuilt
    · split
      · exact announces_pure fun _ _ => trivial
      · refine announces_restore.bind fun r => ?_
        split
        · exact announces_pure fun _ _ _ => trivial
        · exact (announces_take rfl).bind fun _ => announces_pure fun _ _ _ _ => trivial

end Session

end EntityMapper
