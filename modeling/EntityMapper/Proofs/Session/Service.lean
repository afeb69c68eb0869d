import EntityMapper.Proofs.Session.Exchange
import EntityMapper.Session.Define

/-!
# What programs do over an open connection

`p.Only P Q` says that each call that a program makes is of the class `P` and each note that it takes
is of the class `Q`, whatever the replies are. What a session does over an open connection calls one
backend and neither opens nor closes anything, and no observer is told of it.

* `only_of_run`, `run_congr` — what happens in a run is of the classes, and only those replies matter
* `Program.Serves` — what may be done over an open connection
* `serves_send`, `serves_writeSteps`, `serves_rebuild` and others — all of it is done so
-/

namespace EntityMapper

/-- Whether a call needs an open connection. -/
def Call.isService : Call → Bool
  | .connect => false
  | .open => false
  | .close => false
  | _ => true

/-- Whether a note is told to an observer. -/
def Note.isNotice : Note → Bool
  | .notice _ => true
  | _ => false

namespace Program

variable {α β σ : Type}

/-! ## Classes of calls and notes -/

/-- Whatever the replies are, each call is of a class and each note is of another. -/
def Only (P : String → Call → Prop) (Q : Note → Prop) : Program α → Prop
  | .done _ => True
  | .call backend c next => P backend c ∧ ∀ reply, Only P Q (next reply)
  | .note n next => Q n ∧ Only P Q next

/-- What happened is a call of a class or a note of another. -/
def Event.Is (P : String → Call → Prop) (Q : Note → Prop) : Event → Prop
  | .called backend c _ => P backend c
  | .noted n => Q n

variable {P P' : String → Call → Prop} {Q Q' : Note → Prop} {p : Program α} {f : α → Program β}
  {h h' : Handler σ} {s s' : σ} {a : α} {events : List Event}

theorem Event.Is.mono {x : Event} (hx : x.Is P Q) (hP : ∀ backend c, P backend c → P' backend c)
    (hQ : ∀ n, Q n → Q' n) : x.Is P' Q' := by
  cases x with
  | called backend c reply => exact hP _ _ hx
  | noted n => exact hQ _ hx

@[simp] theorem only_done : (Program.done a).Only P Q := trivial

@[simp] theorem only_pure : (pure a : Program α).Only P Q := trivial

@[simp] theorem only_ask {backend : String} {c : Call} :
    (ask backend c).Only P Q ↔ P backend c := by
  simp [ask, Only]

@[simp] theorem only_take {n : Note} : (take n).Only P Q ↔ Q n := by
  simp [take, Only]

theorem only_takeIf {wanted : Bool} {n : Note} (hn : wanted = true → Q n) :
    (takeIf wanted n).Only P Q := by
  cases wanted with
  | false => exact only_done
  | true => exact only_take.mpr (hn rfl)

theorem Only.bind (hp : p.Only P Q) (hf : ∀ a, (f a).Only P Q) : (p >>= f).Only P Q := by
  show (p.bind f).Only P Q
  induction p with
  | done a => exact hf a
  | call backend c next ih => exact ⟨hp.1, fun reply => ih reply (hp.2 reply)⟩
  | note n next ih => exact ⟨hp.1, ih hp.2⟩

theorem Only.mono (hp : p.Only P Q) (hP : ∀ backend c, P backend c → P' backend c)
    (hQ : ∀ n, Q n → Q' n) : p.Only P' Q' := by
  induction p with
  | done a => trivial
  | call backend c next ih => exact ⟨hP _ _ hp.1, fun reply => ih reply (hp.2 reply)⟩
  | note n next ih => exact ⟨hQ _ hp.1, ih hp.2⟩

/-- What happens in a run is of the classes. -/
theorem only_of_run (hp : p.Only P Q) (hrun : p.run h s = (a, s', events)) :
    ∀ x ∈ events, x.Is P Q := by
  induction p generalizing s events with
  | done b =>
    simp only [run, Prod.mk.injEq] at hrun
    obtain ⟨-, -, rfl⟩ := hrun
    exact fun x hx => absurd hx List.not_mem_nil
  | call backend c next ih =>
    simp only [run, Prod.mk.injEq] at hrun
    obtain ⟨rfl, rfl, rfl⟩ := hrun
    exact List.forall_mem_cons.mpr ⟨hp.1, ih _ (hp.2 _) (s := (h backend c s).2) rfl⟩
  | note n next ih =>
    simp only [run, Prod.mk.injEq] at hrun
    obtain ⟨rfl, rfl, rfl⟩ := hrun
    exact List.forall_mem_cons.mpr ⟨hp.1, ih hp.2 (s := s) rfl⟩

/-- Handlers that answer the calls of a class alike run a program alike. -/
theorem run_congr (hp : p.Only P Q) (hagree : ∀ backend c s, P backend c →
    h' backend c s = h backend c s) (s : σ) : p.run h' s = p.run h s := by
  induction p generalizing s with
  | done a => rfl
  | call backend c next ih =>
    simp only [run, hagree backend c s hp.1, ih _ (hp.2 _)]
  | note n next ih => simp only [run, ih hp.2]

/-! ## Over an open connection -/

/-- What may be done over an open connection: calls to its backend that neither open nor close one,
and no notices. -/
def Serves (backend : String) : Program α → Prop :=
  Only (fun b c => b = backend ∧ c.isService = true) fun n => n.isNotice = false

/-- A program that calls no backend. -/
def Silent : Program α → Prop := Only (fun _ _ => False) fun _ => True

/-- A program that no observer is told of. -/
def Quiet : Program α → Prop := Only (fun _ _ => True) fun n => n.isNotice = false

theorem Serves.quiet {backend : String} (hp : p.Serves backend) : p.Quiet :=
  hp.mono (fun _ _ _ => trivial) fun _ hn => hn

end Program

open Program

variable {α : Type}

/-- A body that is quiet is so over a connection of its own. -/
theorem quiet_withConnection {backend : String} {failed : BackendError → α} {body : Program α}
    (hbody : body.Quiet) : (withConnection backend failed body).Quiet := by
  refine Only.bind (only_ask.mpr trivial) fun connected => ?_
  cases connected with
  | error err => exact only_pure
  | ok _ =>
    refine Only.bind (only_ask.mpr trivial) fun opened => ?_
    cases opened with
    | error err => exact only_pure
    | ok _ =>
      refine Only.bind hbody fun a => Only.bind (only_ask.mpr trivial) fun closed => ?_
      cases closed with
      | error err => exact Only.bind (only_take.mpr rfl) fun _ => only_pure
      | ok _ => exact only_pure

/-- The start and the end of an operation are noted around its body. -/
theorem only_spanned {P : String → Call → Prop} {Q : Note → Prop} {kind : OperationKind}
    {entity : String} {rows : α → Nat} {body : Program α}
    (hmetric : ∀ e, Q (.metric e)) (hbody : body.Only P Q) :
    (spanned kind entity rows body).Only P Q :=
  Only.bind (only_take.mpr (hmetric _)) fun _ => Only.bind hbody fun _ =>
    Only.bind (only_take.mpr (hmetric _)) fun _ => only_pure

namespace Session

variable {s : Session} {e : EntityType} {m : Mapping} {o : Object} {kind : StatementKind}
  {c : Command}

/-- A refusal is noted as it is captured, and then told. -/
theorem only_capture {P : String → Call → Prop} {Q : Note → Prop} {entity : String}
    {result : Except MapperError (Outcome α)} {onFail : String → Program Unit}
    (hlog : ∀ e, Q (.log e)) (hmetric : ∀ e, Q (.metric e))
    (honFail : ∀ message, (onFail message).Only P Q) :
    (capture entity kind result onFail).Only P Q := by
  unfold capture
  split
  · exact Only.bind (only_take.mpr (hlog _)) fun _ => Only.bind (only_take.mpr (hmetric _)) fun _ =>
      Only.bind (honFail _) fun _ => only_pure
  · exact only_pure

theorem serves_announce {backend entity : String} {d : Dialect} :
    (s.announce entity d kind c).Serves backend :=
  Only.bind (only_takeIf fun _ => rfl) fun _ => only_take.mpr rfl

theorem serves_send {call : Call} (hcall : call.isService = true) :
    (s.send m kind c call).Serves m.table.backend :=
  Only.bind serves_announce fun _ => Only.bind (only_ask.mpr ⟨rfl, hcall⟩) fun _ => only_pure

/-! ## Writes -/

theorem serves_insertObject {ignoreAutomatic : Bool} :
    (s.insertObject e m ignoreAutomatic o).Serves m.table.backend := by
  unfold insertObject
  dsimp only
  split
  · exact only_pure
  · split
    · refine Only.bind (serves_send rfl) fun r => ?_
      split
      · exact only_pure
      · split <;> exact only_pure
    · exact Only.bind (serves_send rfl) fun _ => only_pure

theorem serves_insertStep {options : SaveOptions} :
    (s.insertStep e m options o).Serves m.table.backend :=
  Only.bind serves_insertObject fun _ => only_pure

theorem serves_updateStep : (s.updateStep m o).Serves m.table.backend := by
  unfold updateStep
  split
  · exact only_pure
  · exact Only.bind (serves_send rfl) fun _ => only_pure

theorem serves_writeSteps {options : SaveOptions} {mode : WriteMode} {check : Option Command} :
    (s.writeSteps e m options mode check o).Serves m.table.backend := by
  unfold writeSteps
  split
  · refine Only.bind (serves_send rfl) fun r => ?_
    split
    · exact only_pure
    · split
      · exact serves_insertStep
      · split
        · exact only_pure
        · exact serves_updateStep
  · exact serves_updateStep
  · exact serves_insertStep

/-! ## Definitions -/

theorem serves_sendAll {statements : List (StatementKind × String)} {last : StatementKind}
    {affected : Int} : (s.sendAll m last affected statements).Serves m.table.backend := by
  induction statements generalizing last affected with
  | nil => exact only_done
  | cons x rest ih =>
    refine Only.bind (serves_send rfl) fun r => ?_
    split
    · exact only_pure
    · exact ih

theorem serves_restore {objects : List Object} :
    (s.restore e m objects).Serves m.table.backend := by
  induction objects with
  | nil => exact only_done
  | cons o rest ih =>
    refine Only.bind serves_insertObject fun r => ?_
    split
    · exact only_pure
    · exact ih

theorem serves_backUp : (s.backUp m).Serves m.table.backend := by
  refine Only.bind serves_announce fun _ => Only.bind (only_ask.mpr ⟨rfl, rfl⟩) fun r => ?_
  split
  · exact only_pure
  · split <;> exact only_pure

theorem serves_rebuild : (s.rebuild e m).Serves m.table.backend := by
  refine Only.bind serves_backUp fun r => ?_
  split
  · exact only_pure
  · refine Only.bind serves_sendAll fun r => ?_
    split
    · exact only_pure
    · refine Only.bind serves_restore fun r => ?_
      split
      · exact only_pure
      · exact Only.bind (only_take.mpr rfl) fun _ => only_pure

end Session

end EntityMapper
