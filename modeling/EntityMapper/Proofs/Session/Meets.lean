import EntityMapper.Proofs.Session.Exchange

/-!
# What every call of a program is

`p.Meets P Q` says that each call that a program makes is of the class `P` and that its result is of
the class `Q`, whatever the replies are. It is the weakest condition that gives both, and it is put
together along a program as the program is.

* `meets_of_run` — in a run each call is of the class, and so is the result
* `meets_bind` — one program after another
* `meets_withConnection`, `meets_send` and others — the parts of a session
-/

namespace EntityMapper

namespace Program

variable {α β σ : Type}

/-- Whatever the replies are, each call is of a class and the result is of another. -/
def Meets (P : Call → Prop) : Program α → (α → Prop) → Prop
  | .done a, Q => Q a
  | .call _ c next, Q => P c ∧ ∀ reply, Meets P (next reply) Q
  | .note _ next, Q => Meets P next Q

variable {P : Call → Prop} {p : Program α} {Q Q' : α → Prop} {R : β → Prop}

@[simp] theorem meets_done {a : α} : (Program.done a).Meets P Q ↔ Q a := Iff.rfl

@[simp] theorem meets_pure {a : α} : (pure a : Program α).Meets P Q ↔ Q a := Iff.rfl

theorem Meets.mono (h : p.Meets P Q) (hQ : ∀ a, Q a → Q' a) : p.Meets P Q' := by
  induction p with
  | done a => exact hQ a h
  | call backend c next ih => exact ⟨h.1, fun reply => ih reply (h.2 reply)⟩
  | note n next ih => exact ih h

/-- A class of all calls and all results is met. -/
theorem meets_of_forall (hP : ∀ c, P c) (hQ : ∀ a, Q a) : p.Meets P Q := by
  induction p with
  | done a => exact hQ a
  | call backend c next ih => exact ⟨hP c, ih⟩
  | note n next ih => exact ih

/-- A program after another starts from a result of that one. -/
@[simp] theorem meets_bind {f : α → Program β} :
    (p >>= f).Meets P R ↔ p.Meets P fun a => (f a).Meets P R := by
  show (p.bind f).Meets P R ↔ _
  induction p with
  | done a => rfl
  | call backend c next ih =>
    simp only [bind, Meets, ih]
  | note n next ih =>
    simp only [bind, Meets, ih]

@[simp] theorem meets_ask {backend : String} {c : Call} {Q : Except BackendError c.Reply → Prop} :
    (ask backend c).Meets P Q ↔ P c ∧ ∀ reply, Q reply := Iff.rfl

@[simp] theorem meets_take {n : Note} {Q : Unit → Prop} : (take n).Meets P Q ↔ Q () := Iff.rfl

@[simp] theorem meets_takeIf {wanted : Bool} {n : Note} {Q : Unit → Prop} :
    (takeIf wanted n).Meets P Q ↔ Q () := by
  cases wanted <;> exact Iff.rfl

/-- In each course of a program the calls are of the class, and so is the result. -/
theorem Goes.meets {xs : List Exchange} {a : α} (h : p.Goes xs a) (hp : p.Meets P Q) :
    (∀ x ∈ xs, P x.call) ∧ Q a := by
  induction h with
  | done a => exact ⟨fun x hx => absurd hx List.not_mem_nil, hp⟩
  | call h ih =>
    obtain ⟨hcall, hnext⟩ := hp
    obtain ⟨hrest, hresult⟩ := ih (hnext _)
    refine ⟨fun x hx => ?_, hresult⟩
    rcases List.mem_cons.mp hx with rfl | hx
    · exact hcall
    · exact hrest x hx
  | note h ih => exact ih hp

/-- In a run each call is of the class, and so is the result. -/
theorem meets_of_run {h : Handler σ} {s s' : σ} {a : α} {events : List Event} (hp : p.Meets P Q)
    (hrun : p.run h s = (a, s', events)) : (∀ x ∈ exchanges events, P x.call) ∧ Q a :=
  (goes_of_run hrun).1.meets hp

end Program

open Program

variable {α : Type} {P : Call → Prop} {Q : α → Prop}

/-- A body over a connection of its own. -/
theorem meets_withConnection {backend : String} {failed : BackendError → α} {body : Program α}
    (hconnect : P .connect) (hopen : P .open) (hclose : P .close) (hfailed : ∀ err, Q (failed err))
    (hbody : body.Meets P Q) : (withConnection backend failed body).Meets P Q := by
  unfold withConnection
  rw [meets_bind]
  refine meets_ask.mpr ⟨hconnect, fun connected => ?_⟩
  cases connected with
  | error err => exact hfailed _
  | ok _ =>
    dsimp only
    rw [meets_bind]
    refine meets_ask.mpr ⟨hopen, fun opened => ?_⟩
    cases opened with
    | error err => exact hfailed _
    | ok _ =>
      dsimp only
      rw [meets_bind]
      refine hbody.mono fun a ha => ?_
      rw [meets_bind]
      refine meets_ask.mpr ⟨hclose, fun closed => ?_⟩
      cases closed with
      | error err => exact ha
      | ok _ => exact ha

@[simp] theorem meets_spanned {kind : OperationKind} {entity : String} {rows : α → Nat}
    {body : Program α} : (spanned kind entity rows body).Meets P Q ↔ body.Meets P Q := by
  simp [spanned]

namespace Session

variable {s : Session} {m : Mapping} {kind : StatementKind}

@[simp] theorem meets_announce {entity : String} {d : Dialect} {c : Command} {Q : Unit → Prop} :
    (s.announce entity d kind c).Meets P Q ↔ Q () := by
  simp [announce]

/-- A command that is sent is one call. -/
theorem meets_send {c : Command} {call : Call} {Q : Except BackendError call.Reply → Prop}
    (hcall : P call) (hreply : ∀ reply, Q reply) : (s.send m kind c call).Meets P Q := by
  simp only [send, meets_bind, meets_announce, meets_ask]
  exact ⟨hcall, fun reply => hreply _⟩

/-- A result is captured without a call. -/
theorem meets_capture {entity : String} {result : Except MapperError (Outcome α)}
    {onFail : String → Program Unit} {Q : Except MapperError (Outcome α) → Prop}
    (honFail : ∀ message, (onFail message).Meets P fun _ => True) (hresult : ∀ r, Q r) :
    (capture entity kind result onFail).Meets P Q := by
  unfold capture
  split
  · simp only [meets_bind, meets_take]
    exact (honFail _).mono fun _ _ => hresult _
  · exact hresult _

/-- What follows a preparation that has gone well. -/
theorem meets_prepared {β : Type} {x : Except MapperError β}
    {next : β → Program (Except MapperError α)} {Q : Except MapperError α → Prop}
    (herror : ∀ err, Q (.error err)) (hnext : ∀ b, x = .ok b → (next b).Meets P Q) :
    (prepared x next).Meets P Q := by
  unfold prepared
  cases x with
  | error err => exact herror err
  | ok b => exact hnext b rfl

end Session

end EntityMapper
