import EntityMapper.Proofs.Session.Announced

/-!
# What programs record

What is recorded of an operation is put together along its program: the announcements of its
commands, what is recorded after the last one, and the start and the end around both.

* `Recorded` — what is recorded of an operation, and what that tells of its commands and its outcome
* `Unrecorded`, `Settles`, `Concludes` — nothing is recorded, what came of the commands, both the
  commands and what came of them
* `Accounts` — nothing happens where a program cannot be prepared, and otherwise it is recorded
* `Announces.concludes_of_meets`, `Concludes.accounts` and others — how programs are put together
-/

namespace EntityMapper

/-! ## Kinds of events -/

namespace MetricEvent

/-- Whether an event is the start or the end of an operation. -/
def isBoundary : MetricEvent → Bool
  | .started .. => true
  | .finished .. => true
  | _ => false

/-- Whether an event announces a command. -/
def isStatement : MetricEvent → Bool
  | .statement .. => true
  | _ => false

/-- Whether an event says that a backend refused a write. -/
def isWriteFailed : MetricEvent → Bool
  | .writeFailed _ => true
  | _ => false

end MetricEvent

namespace Program

/-! ## Records -/

/-- What is recorded of an operation: its start first and its end last, of the same kind and for the
same entity, and between them no start and no end, the announcements of the commands, each of its
command and in order, and one refusal if a write has `failed` and none if not. -/
inductive Recorded (L : MetricEvent → Call → Prop) (kind : OperationKind) (entity : String)
    (failed : Prop) (events : List Event) : Prop
  | mk (inside : List MetricEvent) (rows : Nat)
      (span : metrics events = .started kind entity :: (inside ++ [.finished kind entity rows]))
      (within : ∀ x ∈ inside, x.isBoundary = false)
      (statements : List.Forall₂ L (inside.filter MetricEvent.isStatement) (commands events))
      (refused : failed → inside.countP MetricEvent.isWriteFailed = 1)
      (accepted : ¬ failed → inside.countP MetricEvent.isWriteFailed = 0)

/-- What is recorded after the last command: that the backend refused a write if it has `failed`, and
otherwise nothing, or how many objects were made of rows, or that the rules refused an object. -/
inductive Aftermath (entity : String) (failed : Prop) : List MetricEvent → Prop
  | nothing (h : ¬ failed) : Aftermath entity failed []
  | materialized {rows objects : Nat} (h : ¬ failed) :
      Aftermath entity failed [.materialized entity rows objects]
  | rejected (h : ¬ failed) : Aftermath entity failed [.validationFailed entity]
  | refused (h : failed) : Aftermath entity failed [.writeFailed entity]

/-- The announcements of the commands are recorded, and then the aftermath. -/
inductive Concluded (L : MetricEvent → Call → Prop) (entity : String) (failed : Prop)
    (events : List Event) : Prop
  | mk (announced after : List MetricEvent) (parts : metrics events = announced ++ after)
      (labels : List.Forall₂ L announced (commands events))
      (aftermath : Aftermath entity failed after)

variable {α β : Type} {L : MetricEvent → Call → Prop} {kind : OperationKind} {entity : String}
  {failed failed' : Prop} {events more : List Event}

theorem Aftermath.congr {after : List MetricEvent} (h : Aftermath entity failed after)
    (hiff : failed ↔ failed') : Aftermath entity failed' after := by
  rwa [← propext hiff]

/-- What the aftermath of the commands is, and what it is not. -/
theorem Aftermath.cases {after : List MetricEvent} (h : Aftermath entity failed after) :
    (∀ x ∈ after, x.isBoundary = false) ∧ after.filter MetricEvent.isStatement = [] ∧
      (failed → after.countP MetricEvent.isWriteFailed = 1) ∧
      (¬ failed → after.countP MetricEvent.isWriteFailed = 0) := by
  cases h with
  | nothing hnot => exact ⟨by simp, rfl, fun h => absurd h hnot, fun _ => rfl⟩
  | materialized hnot =>
    exact ⟨by simp [MetricEvent.isBoundary], rfl, fun h => absurd h hnot, fun _ => rfl⟩
  | rejected hnot =>
    exact ⟨by simp [MetricEvent.isBoundary], rfl, fun h => absurd h hnot, fun _ => rfl⟩
  | refused h =>
    exact ⟨by simp [MetricEvent.isBoundary], rfl, fun _ => rfl, fun hnot => absurd h hnot⟩

/-- Among the announcements of commands and their aftermath the announcements are the statements. -/
theorem Concluded.recorded (h : Concluded L entity failed events)
    (hL : ∀ e c, L e c → e.isStatement = true) {rows : Nat} {all : List Event}
    (hmetrics : metrics all =
      .started kind entity :: (metrics events ++ [.finished kind entity rows]))
    (hcommands : commands all = commands events) : Recorded L kind entity failed all := by
  obtain ⟨announced, after, hparts, hlabels, haftermath⟩ := h
  obtain ⟨hwithin, hnone, hrefused, haccepted⟩ := haftermath.cases
  have hstatement : ∀ x ∈ announced, x.isStatement = true :=
    ((List.forall₂_and_left _ _).mp (hlabels.imp fun e c h => ⟨hL e c h, h⟩)).1
  have hcount : announced.countP MetricEvent.isWriteFailed = 0 := by
    refine List.countP_eq_zero.mpr fun x hx hfailed => ?_
    have := hstatement x hx
    cases x <;> simp [MetricEvent.isStatement, MetricEvent.isWriteFailed] at this hfailed
  refine .mk (announced ++ after) rows (by rw [hmetrics, hparts]) ?_ ?_ ?_ ?_
  · intro x hx
    rcases List.mem_append.mp hx with hx | hx
    · have := hstatement x hx
      cases x <;> simp [MetricEvent.isStatement, MetricEvent.isBoundary] at this ⊢
    · exact hwithin x hx
  · rw [List.filter_append, List.filter_eq_self.mpr hstatement, hnone, List.append_nil, hcommands]
    exact hlabels
  · exact fun h => by rw [List.countP_append, hcount, hrefused h]
  · exact fun h => by rw [List.countP_append, hcount, haccepted h]

/-- Where nothing is exchanged, there are no commands to be announced and nothing has failed. -/
theorem concluded_of_exchanges (h : exchanges events = [])
    (haftermath : Aftermath entity False (metrics events)) :
    Concluded L entity (failed ∧ Failing events) events := by
  refine .mk [] (metrics events) rfl ?_ (haftermath.congr ?_)
  · rw [commands_of_exchanges h]
    exact .nil
  · exact iff_of_false id fun hfailed => not_failing_of_exchanges h hfailed.2

/-- What is neither exchanged nor recorded may precede. -/
theorem Concluded.prepend (h : Concluded L entity (failed ∧ Failing events) events)
    (hexchanges : exchanges more = []) (hmetrics : metrics more = []) :
    Concluded L entity (failed ∧ Failing (more ++ events)) (more ++ events) := by
  obtain ⟨announced, after, hparts, hlabels, haftermath⟩ := h
  refine .mk announced after ?_ ?_ (haftermath.congr ?_)
  · rw [metrics_append, hmetrics, hparts]
    rfl
  · rwa [commands_append, commands_of_exchanges hexchanges]
  · simp only [Failing, exchanges_append, hexchanges, List.nil_append]

/-! ## Parts of programs -/

/-- A program exchanges nothing, records nothing, and its result is of a class. -/
structure Unrecorded (p : Program α) (Q : α → Prop) : Prop where
  of_run : ∀ {σ : Type} {h : Handler σ} {s s' : σ} {a : α} {events : List Event},
    p.run h s = (a, s', events) → exchanges events = [] ∧ metrics events = [] ∧ Q a

/-- A program exchanges nothing and records the aftermath of commands: a write has failed if its
status says so, and then what came before was not `good`. -/
structure Settles (entity : String) (status : α → Option OutcomeStatus) (good : Prop)
    (p : Program α) : Prop where
  of_run : ∀ {σ : Type} {h : Handler σ} {s s' : σ} {a : α} {events : List Event},
    p.run h s = (a, s', events) →
      exchanges events = [] ∧ Aftermath entity (status a = some .fail) (metrics events) ∧
        (status a = some .fail → ¬ good)

/-- A program announces its commands and records their aftermath: a write has failed if its status
says so and a call has failed. -/
structure Concludes (L : MetricEvent → Call → Prop) (entity : String)
    (status : α → Option OutcomeStatus) (p : Program α) : Prop where
  of_run : ∀ {σ : Type} {h : Handler σ} {s s' : σ} {a : α} {events : List Event},
    p.run h s = (a, s', events) →
      Concluded L entity (status a = some .fail ∧ Failing events) events

variable {p : Program α} {f : α → Program β} {Q : α → Prop} {R : β → Prop} {good good' : Prop}
  {status : α → Option OutcomeStatus} {status' : β → Option OutcomeStatus}

theorem unrecorded_pure {a : α} (ha : Q a) : (pure a : Program α).Unrecorded Q := by
  refine ⟨fun hrun => ?_⟩
  obtain ⟨rfl, -, rfl⟩ := run_pure_cases hrun
  exact ⟨rfl, rfl, ha⟩

theorem Unrecorded.bind (hp : p.Unrecorded Q) (hf : ∀ a, Q a → (f a).Unrecorded R) :
    (p >>= f).Unrecorded R := by
  refine ⟨fun hrun => ?_⟩
  obtain ⟨a, s₁, before, after, hbefore, hafter, rfl⟩ := run_bind_cases hrun
  obtain ⟨hexchanges, hmetrics, ha⟩ := hp.of_run hbefore
  obtain ⟨hexchanges', hmetrics', hb⟩ := (hf a ha).of_run hafter
  exact ⟨by rw [exchanges_append, hexchanges, hexchanges']; rfl,
    by rw [metrics_append, hmetrics, hmetrics']; rfl, hb⟩

theorem unrecorded_takeIf {wanted : Bool} {n : Note} (hn : Event.metric? (.noted n) = none) :
    (takeIf wanted n).Unrecorded fun _ => True := by
  refine ⟨fun hrun => ?_⟩
  cases wanted with
  | false =>
    obtain ⟨-, -, rfl⟩ := run_pure_cases hrun
    exact ⟨rfl, rfl, trivial⟩
  | true =>
    obtain ⟨-, rfl⟩ := run_take_cases hrun
    refine ⟨rfl, ?_, trivial⟩
    rw [metrics, List.filterMap_cons, hn]
    rfl

theorem unrecorded_take {n : Note} (hn : Event.metric? (.noted n) = none) :
    (take n).Unrecorded fun _ => True :=
  @unrecorded_takeIf true n hn

/-- What records nothing settles what has not failed. -/
theorem Unrecorded.settles (hp : p.Unrecorded fun a => status a ≠ some .fail) :
    p.Settles entity status good := by
  refine ⟨fun hrun => ?_⟩
  obtain ⟨hexchanges, hmetrics, hstatus⟩ := hp.of_run hrun
  rw [hmetrics]
  exact ⟨hexchanges, .nothing hstatus, fun h => absurd h hstatus⟩

theorem settles_pure {a : α} (ha : status a ≠ some .fail) :
    (pure a : Program α).Settles entity status good :=
  Unrecorded.settles (unrecorded_pure (Q := fun a => status a ≠ some .fail) ha)

theorem Settles.mono (hp : p.Settles entity status good) (h : good' → good) :
    p.Settles entity status good' := by
  refine ⟨fun hrun => ?_⟩
  obtain ⟨hexchanges, haftermath, hgood⟩ := hp.of_run hrun
  exact ⟨hexchanges, haftermath, fun hfailed => mt h (hgood hfailed)⟩

/-- What is not recorded may follow, as long as the status stays. -/
theorem Settles.bind (hp : p.Settles entity status good)
    (hf : ∀ a, (f a).Unrecorded fun b => status' b = status a) :
    (p >>= f).Settles entity status' good := by
  refine ⟨fun hrun => ?_⟩
  obtain ⟨a, s₁, before, after, hbefore, hafter, rfl⟩ := run_bind_cases hrun
  obtain ⟨hexchanges, haftermath, hgood⟩ := hp.of_run hbefore
  obtain ⟨hexchanges', hmetrics, hstatus⟩ := (hf a).of_run hafter
  rw [metrics_append, hmetrics, List.append_nil, exchanges_append, hexchanges, hexchanges', hstatus]
  exact ⟨rfl, haftermath, hgood⟩

/-- What is not recorded may precede. -/
theorem Unrecorded.settles_bind (hp : p.Unrecorded Q)
    (hf : ∀ a, (f a).Settles entity status' good) : (p >>= f).Settles entity status' good := by
  refine ⟨fun hrun => ?_⟩
  obtain ⟨a, s₁, before, after, hbefore, hafter, rfl⟩ := run_bind_cases hrun
  obtain ⟨hexchanges, hmetrics, -⟩ := hp.of_run hbefore
  rw [exchanges_append, hexchanges, metrics_append, hmetrics]
  exact (hf a).of_run hafter

/-- An event is the aftermath if nothing else is recorded. -/
theorem settles_metric {x : MetricEvent} {f : Unit → Program α}
    (hf : ∀ u, (f u).Unrecorded fun a =>
      Aftermath entity (status a = some .fail) [x] ∧ (status a = some .fail → ¬ good)) :
    (take (.metric x) >>= f).Settles entity status good := by
  refine ⟨fun hrun => ?_⟩
  obtain ⟨u, s₁, before, after, hbefore, hafter, rfl⟩ := run_bind_cases hrun
  obtain ⟨-, rfl⟩ := run_take_cases hbefore
  obtain ⟨hexchanges, hmetrics, haftermath⟩ := (hf u).of_run hafter
  rw [exchanges_append, hexchanges, metrics_append, hmetrics]
  exact ⟨rfl, haftermath⟩

/-- Commands are announced, and then their aftermath is recorded; it may rely on what every result
is. -/
theorem Announces.concludes_of_meets {S : α → Prop} (hp : p.Announces L Q)
    (hmeets : p.Meets (fun _ => True) S) (hf : ∀ a, S a → (f a).Settles entity status' (Q a)) :
    (p >>= f).Concludes L entity status' := by
  refine ⟨fun hrun => ?_⟩
  obtain ⟨a, s₁, before, after, hbefore, hafter, rfl⟩ := run_bind_cases hrun
  obtain ⟨hlabels, hresult⟩ := hp.of_run hbefore
  obtain ⟨hexchanges, haftermath, hgood⟩ := (hf a (meets_of_run hmeets hbefore).2).of_run hafter
  refine .mk (metrics before) (metrics after) metrics_append ?_ (haftermath.congr ?_)
  · rw [commands_append, commands_of_exchanges hexchanges, List.append_nil]
    exact hlabels
  · -- a write that has failed comes of a call that has failed
    refine ⟨fun hfailed => ⟨hfailed, ?_⟩, And.left⟩
    exact (hresult.resolve_left (hgood hfailed)).append_right

/-- Commands are announced, and then their aftermath is recorded. -/
theorem Announces.concludes (hp : p.Announces L Q)
    (hf : ∀ a, (f a).Settles entity status' (Q a)) : (p >>= f).Concludes L entity status' :=
  hp.concludes_of_meets (S := fun _ => True) (meets_of_forall (fun _ => trivial) fun _ => trivial)
    fun a _ => hf a

/-- Commands without an outcome have no aftermath. -/
theorem Announces.concludes_of_status (hp : p.Announces L Q) (hstatus : ∀ a, status a = none) :
    p.Concludes L entity status := by
  refine ⟨fun {_ _ _ _ a events} hrun => ?_⟩
  have hnot : ¬ (status a = some .fail ∧ Failing events) := fun h => by simp [hstatus] at h
  exact .mk _ [] (List.append_nil _).symm (hp.of_run hrun).1 (.nothing hnot)

/-- What is not recorded may precede. -/
theorem Unrecorded.concludes (hp : p.Unrecorded Q) (hf : ∀ a, Q a → (f a).Concludes L entity status') :
    (p >>= f).Concludes L entity status' := by
  refine ⟨fun hrun => ?_⟩
  obtain ⟨a, s₁, before, after, hbefore, hafter, rfl⟩ := run_bind_cases hrun
  obtain ⟨hexchanges, hmetrics, ha⟩ := hp.of_run hbefore
  exact ((hf a ha).of_run hafter).prepend hexchanges hmetrics

theorem Concludes.imp {L' : MetricEvent → Call → Prop} (hp : p.Concludes L entity status)
    (hL : ∀ x c, L x c → L' x c) : p.Concludes L' entity status := by
  refine ⟨fun hrun => ?_⟩
  obtain ⟨announced, after, hparts, hlabels, haftermath⟩ := hp.of_run hrun
  exact .mk announced after hparts (hlabels.imp hL) haftermath

theorem concludes_pure {a : α} : (pure a : Program α).Concludes L entity status := by
  refine ⟨fun hrun => ?_⟩
  obtain ⟨rfl, -, rfl⟩ := run_pure_cases hrun
  exact concluded_of_exchanges rfl (.nothing id)

/-! ## Whole programs -/

/-- Nothing happens where a program cannot be prepared; otherwise it is recorded. -/
structure Accounts (L : MetricEvent → Call → Prop) (kind : OperationKind) (entity : String)
    (preparation : Except MapperError Unit) (status : α → Option OutcomeStatus) (p : Program α) :
    Prop where
  of_run : ∀ {σ : Type} {h : Handler σ} {s s' : σ} {a : α} {events : List Event},
    p.run h s = (a, s', events) →
      (preparation = .ok () → Recorded L kind entity (status a = some .fail ∧ Failing events) events) ∧
        ∀ err, preparation = .error err → events = []

/-- The start and the end of an operation are recorded around what it does. -/
theorem Concludes.accounts {rows : α → Nat} (hp : p.Concludes L entity status)
    (hL : ∀ e c, L e c → e.isStatement = true) :
    (spanned kind entity rows p).Accounts L kind entity (.ok ()) status := by
  refine ⟨fun {_ _ _ _ a _} hrun => ⟨fun _ => ?_, fun err herr => by cases herr⟩⟩
  obtain ⟨_, s₁, _, _, hstart, hmore, rfl⟩ := run_bind_cases hrun
  obtain ⟨rfl, rfl⟩ := run_take_cases hstart
  obtain ⟨b, s₂, inside, _, hbody, hlast, rfl⟩ := run_bind_cases hmore
  obtain ⟨_, s₃, _, _, hfinish, hend, rfl⟩ := run_bind_cases hlast
  obtain ⟨rfl, rfl⟩ := run_take_cases hfinish
  obtain ⟨rfl, rfl, rfl⟩ := run_pure_cases hend
  have hconcluded := hp.of_run hbody
  have hmetrics : metrics ([.noted (.metric (.started kind entity))] ++
      (inside ++ ([.noted (.metric (.finished kind entity (rows a)))] ++ []))) =
        .started kind entity :: (metrics inside ++ [.finished kind entity (rows a)]) := by
    simp only [metrics_append]
    rfl
  have hexchanges : exchanges ([.noted (.metric (.started kind entity))] ++
      (inside ++ ([.noted (.metric (.finished kind entity (rows a)))] ++ []))) =
        exchanges inside := by
    simp only [exchanges_append]
    exact List.append_nil _
  simp only [Failing, hexchanges]
  exact hconcluded.recorded hL hmetrics (by rw [commands, hexchanges]; rfl)

/-- A result without a status may be changed at the end. -/
theorem Accounts.map {preparation : Except MapperError Unit}
    (hp : p.Accounts L kind entity preparation fun _ => none) (g : α → β) :
    (p >>= fun a => pure (g a)).Accounts L kind entity preparation fun _ => none := by
  refine ⟨fun hrun => ?_⟩
  obtain ⟨a, s₁, before, after, hbefore, hafter, rfl⟩ := run_bind_cases hrun
  obtain ⟨-, -, rfl⟩ := run_pure_cases hafter
  rw [List.append_nil]
  exact hp.of_run hbefore

end Program

end EntityMapper
