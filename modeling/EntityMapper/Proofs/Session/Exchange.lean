import EntityMapper.Session.Read

/-!
# What a program exchanges with its backends

A program goes through calls and the replies to them. Which exchanges a program can go through, and
what its result is then, does not depend on who replies; a handler picks one of these courses.

* `Program.Goes` — the courses of a program with their results, whatever the replies are
* `Handler.Gives` — a handler replies so, from one state to another
* `goes_of_run` — what happens in a run is a course of the program that the handler gives
* `goes_withConnection`, `goes_send` and others — the courses of the parts of a session
-/

namespace EntityMapper

namespace Program

variable {α β σ : Type}

/-! ## Exchanges -/

/-- A call to a backend and the reply to it. -/
structure Exchange where
  backend : String
  call : Call
  reply : Except BackendError call.Reply

/-- The exchange in something that happened; a note is none. -/
def Event.exchange? : Event → Option Exchange
  | .called backend c reply => some ⟨backend, c, reply⟩
  | .noted _ => none

/-- The exchanges in what happened, in order. -/
def exchanges (events : List Event) : List Exchange := events.filterMap Event.exchange?

/-- A program goes through exchanges to a result. -/
inductive Goes : Program α → List Exchange → α → Prop
  | done (a : α) : Goes (.done a) [] a
  | call {backend : String} {c : Call} {next : Except BackendError c.Reply → Program α}
      {reply : Except BackendError c.Reply} {xs : List Exchange} {a : α}
      (h : Goes (next reply) xs a) : Goes (.call backend c next) (⟨backend, c, reply⟩ :: xs) a
  | note {n : Note} {next : Program α} {xs : List Exchange} {a : α} (h : Goes next xs a) :
      Goes (.note n next) xs a

/-- A handler gives the replies of exchanges, one after the other, and ends in a state. -/
inductive Handler.Gives (h : Handler σ) : σ → List Exchange → σ → Prop
  | nil (s : σ) : Gives h s [] s
  | cons {s s' : σ} {x : Exchange} {xs : List Exchange} (reply : (h x.backend x.call s).1 = x.reply)
      (rest : Gives h (h x.backend x.call s).2 xs s') : Gives h s (x :: xs) s'

/-- **A run is a course of the program**, and it is the one that the handler gives. -/
theorem goes_of_run {h : Handler σ} {p : Program α} {s s' : σ} {a : α} {events : List Event}
    (hrun : p.run h s = (a, s', events)) :
    p.Goes (exchanges events) a ∧ h.Gives s (exchanges events) s' := by
  induction p generalizing s events with
  | done b =>
    simp only [run, Prod.mk.injEq] at hrun
    obtain ⟨rfl, rfl, rfl⟩ := hrun
    exact ⟨.done b, .nil s⟩
  | call backend c next ih =>
    simp only [run, Prod.mk.injEq] at hrun
    obtain ⟨rfl, rfl, rfl⟩ := hrun
    obtain ⟨hgoes, hgives⟩ := ih (h backend c s).1 (s := (h backend c s).2) rfl
    exact ⟨.call hgoes, .cons rfl hgives⟩
  | note n next ih =>
    simp only [run, Prod.mk.injEq] at hrun
    obtain ⟨rfl, rfl, rfl⟩ := hrun
    obtain ⟨hgoes, hgives⟩ := ih (s := s) rfl
    exact ⟨.note hgoes, hgives⟩

namespace Handler

variable {h : Handler σ} {s s' : σ} {x : Exchange} {xs ys : List Exchange}

@[simp] theorem gives_nil : h.Gives s [] s' ↔ s' = s :=
  ⟨fun hgives => by cases hgives; rfl, fun heq => by rw [heq]; exact .nil s⟩

theorem gives_cons : h.Gives s (x :: xs) s' ↔
    (h x.backend x.call s).1 = x.reply ∧ h.Gives (h x.backend x.call s).2 xs s' :=
  ⟨fun hgives => by cases hgives with | cons reply rest => exact ⟨reply, rest⟩,
    fun ⟨reply, rest⟩ => .cons reply rest⟩

/-- A handler gives exchanges after others from the state that it is in then. -/
theorem gives_append : h.Gives s (xs ++ ys) s' ↔ ∃ t, h.Gives s xs t ∧ h.Gives t ys s' := by
  induction xs generalizing s with
  | nil => simp
  | cons x xs ih => simp only [List.cons_append, gives_cons, ih, and_assoc, exists_and_left]

end Handler

/-! ## Courses of programs -/

section Courses

variable {xs : List Exchange} {a : α} {b : β}

@[simp] theorem goes_done {a' : α} : (Program.done a').Goes xs a ↔ xs = [] ∧ a = a' := by
  constructor
  · intro h
    cases h
    exact ⟨rfl, rfl⟩
  · rintro ⟨rfl, rfl⟩
    exact .done a

@[simp] theorem goes_pure {a' : α} : (pure a' : Program α).Goes xs a ↔ xs = [] ∧ a = a' := goes_done

theorem goes_call {backend : String} {c : Call} {next : Except BackendError c.Reply → Program α} :
    (Program.call backend c next).Goes xs a ↔
      ∃ reply ys, (next reply).Goes ys a ∧ xs = ⟨backend, c, reply⟩ :: ys := by
  constructor
  · intro h
    cases h with
    | call h => exact ⟨_, _, h, rfl⟩
  · rintro ⟨reply, ys, h, rfl⟩
    exact .call h

@[simp] theorem goes_note {n : Note} {next : Program α} :
    (Program.note n next).Goes xs a ↔ next.Goes xs a :=
  ⟨fun h => by cases h with | note h => exact h, .note⟩

/-- A program after another goes on where that one has ended. -/
theorem goes_bind {p : Program α} {f : α → Program β} :
    (p >>= f).Goes xs b ↔ ∃ ys a zs, p.Goes ys a ∧ (f a).Goes zs b ∧ xs = ys ++ zs := by
  show (p.bind f).Goes xs b ↔ _
  induction p generalizing xs with
  | done a' =>
    simp only [bind, goes_done]
    constructor
    · intro hf
      exact ⟨[], a', xs, ⟨rfl, rfl⟩, hf, rfl⟩
    · rintro ⟨ys, a, zs, ⟨rfl, rfl⟩, hf, rfl⟩
      exact hf
  | call backend c next ih =>
    simp only [bind, goes_call, ih]
    constructor
    · rintro ⟨reply, -, ⟨ys, a, zs, hp, hf, rfl⟩, rfl⟩
      exact ⟨_, a, zs, ⟨reply, ys, hp, rfl⟩, hf, rfl⟩
    · rintro ⟨-, a, zs, ⟨reply, ys, hp, rfl⟩, hf, rfl⟩
      exact ⟨reply, _, ⟨ys, a, zs, hp, hf, rfl⟩, rfl⟩
  | note n next ih => simp only [bind, goes_note, ih]

@[simp] theorem goes_ask {backend : String} {c : Call} {reply : Except BackendError c.Reply} :
    (ask backend c).Goes xs reply ↔ xs = [⟨backend, c, reply⟩] := by
  rw [ask, goes_call]
  constructor
  · rintro ⟨reply', ys, h, rfl⟩
    obtain ⟨rfl, rfl⟩ := goes_done.mp h
    rfl
  · rintro rfl
    exact ⟨reply, [], .done reply, rfl⟩

@[simp] theorem goes_take {n : Note} {u : Unit} : (take n).Goes xs u ↔ xs = [] := by
  simp [take]

@[simp] theorem goes_takeIf {wanted : Bool} {n : Note} {u : Unit} :
    (takeIf wanted n).Goes xs u ↔ xs = [] := by
  unfold takeIf
  split <;> simp

/-- What comes after a program that exchanges nothing. -/
theorem goes_bind_silent {p : Program Unit} {f : Unit → Program β}
    (hp : ∀ {ys}, p.Goes ys () ↔ ys = []) : (p >>= f).Goes xs b ↔ (f ()).Goes xs b := by
  rw [goes_bind]
  constructor
  · rintro ⟨ys, ⟨⟩, zs, hys, hf, rfl⟩
    rw [hp.mp hys]
    exact hf
  · intro hf
    exact ⟨[], (), xs, hp.mpr rfl, hf, rfl⟩

end Courses

end Program

open Program

/-! ## Courses of connections -/

variable {α : Type} {xs : List Exchange} {a : α}

/-- The exchanges of a connection that is opened and closed, with those in between. -/
def connected (backend : String) (body : List Exchange) (closed : Except BackendError Unit) :
    List Exchange :=
  ⟨backend, .connect, .ok ()⟩ :: ⟨backend, .open, .ok ()⟩ ::
    (body ++ [⟨backend, .close, closed⟩])

/-- Which exchange of a connection comes after others: its opening, its closing or one of the
body, after the beginning of the body. -/
theorem next_of_connected {backend : String} {body before rest : List Exchange} {x : Exchange}
    {closed : Except BackendError Unit} (h : before ++ x :: rest = connected backend body closed) :
    x = ⟨backend, .connect, .ok ()⟩ ∨ x = ⟨backend, .open, .ok ()⟩ ∨ x = ⟨backend, .close, closed⟩ ∨
      ∃ inside more, body = inside ++ x :: more ∧
        before = ⟨backend, .connect, .ok ()⟩ :: ⟨backend, .open, .ok ()⟩ :: inside := by
  rw [connected] at h
  rcases List.append_eq_cons_iff.mp h with ⟨-, hx⟩ | ⟨opened, rfl, hopened⟩
  · exact .inl (List.cons.inj hx).1
  rcases List.append_eq_cons_iff.mp hopened.symm with ⟨-, hx⟩ | ⟨inside, rfl, hclosed⟩
  · exact .inr (.inl (List.cons.inj hx).1)
  rcases List.eq_nil_or_concat rest with rfl | ⟨more, last, rfl⟩
  · obtain ⟨-, hlast⟩ := List.append_inj' hclosed rfl
    exact .inr (.inr (.inl (List.cons.inj hlast).1.symm))
  · rw [List.concat_eq_append, ← List.cons_append, ← List.append_assoc] at hclosed
    obtain ⟨hbody, -⟩ := List.append_inj' hclosed rfl
    exact .inr (.inr (.inr ⟨inside, more, hbody, rfl⟩))

/-- How a body goes between the opening of a connection and its closing. -/
inductive Connects (backend : String) (failed : BackendError → α) (body : List Exchange → α → Prop) :
    List Exchange → α → Prop
  /-- there is no connection -/
  | notConnected (err : BackendError) :
      Connects backend failed body [⟨backend, .connect, .error err⟩] (failed (err.within "connect"))
  /-- the connection cannot be opened -/
  | notOpened (err : BackendError) :
      Connects backend failed body
        [⟨backend, .connect, .ok ()⟩, ⟨backend, .open, .error err⟩] (failed (err.within "open"))
  /-- the connection is open, and it is closed after the body, be it in vain -/
  | opened {ys : List Exchange} {a : α} (h : body ys a) (closed : Except BackendError Unit) :
      Connects backend failed body (connected backend ys closed) a

theorem goes_withConnection {backend : String} {failed : BackendError → α} {body : Program α}
    (h : (withConnection backend failed body).Goes xs a) :
    Connects backend failed body.Goes xs a := by
  unfold withConnection at h
  rw [goes_bind] at h
  obtain ⟨_, connect, ys, hconnect, h, rfl⟩ := h
  obtain rfl := goes_ask.mp hconnect
  cases connect with
  | error err =>
    obtain ⟨rfl, rfl⟩ := goes_pure.mp h
    exact .notConnected err
  | ok _ =>
    rw [goes_bind] at h
    obtain ⟨_, opening, zs, hopening, h, rfl⟩ := h
    obtain rfl := goes_ask.mp hopening
    cases opening with
    | error err =>
      obtain ⟨rfl, rfl⟩ := goes_pure.mp h
      exact .notOpened err
    | ok _ =>
      rw [goes_bind] at h
      obtain ⟨body, b, rest, hbody, h, rfl⟩ := h
      rw [goes_bind] at h
      obtain ⟨_, closed, last, hclosed, h, rfl⟩ := h
      obtain rfl := goes_ask.mp hclosed
      have hlast : last = [] ∧ a = b := by
        cases closed with
        | error err => exact goes_pure.mp ((goes_bind_silent goes_take).mp h)
        | ok _ => exact goes_pure.mp h
      obtain ⟨rfl, rfl⟩ := hlast
      exact .opened hbody closed

theorem Connects.map {β : Type} {g : α → β} {backend : String} {failed : BackendError → α}
    {failed' : BackendError → β} {body : List Exchange → α → Prop} {body' : List Exchange → β → Prop}
    (hfailed : ∀ err, g (failed err) = failed' err) (hbody : ∀ {ys a}, body ys a → body' ys (g a))
    (h : Connects backend failed body xs a) : Connects backend failed' body' xs (g a) := by
  cases h with
  | notConnected err =>
    rw [hfailed]
    exact .notConnected err
  | notOpened err =>
    rw [hfailed]
    exact .notOpened err
  | opened h closed => exact .opened (hbody h) closed

@[simp] theorem goes_spanned {kind : OperationKind} {entity : String} {rows : α → Nat}
    {body : Program α} : (spanned kind entity rows body).Goes xs a ↔ body.Goes xs a := by
  unfold spanned
  rw [goes_bind_silent goes_take, goes_bind]
  constructor
  · rintro ⟨ys, b, zs, hbody, h, rfl⟩
    rw [goes_bind_silent goes_take, goes_pure] at h
    obtain ⟨rfl, rfl⟩ := h
    rwa [List.append_nil]
  · intro h
    refine ⟨xs, a, [], h, ?_, (List.append_nil xs).symm⟩
    exact (goes_bind_silent goes_take).mpr (goes_pure.mpr ⟨rfl, rfl⟩)

namespace Session

variable {s : Session} {m : Mapping} {kind : StatementKind}

@[simp] theorem goes_announce {entity : String} {d : Dialect} {c : Command} {u : Unit} :
    (s.announce entity d kind c).Goes xs u ↔ xs = [] := by
  unfold announce
  rw [goes_bind_silent goes_takeIf, goes_take]

/-- A command that is sent is one exchange; a failure gets the context of the statement. -/
theorem goes_send {c : Command} {call : Call} {r : Except BackendError call.Reply}
    (h : (s.send m kind c call).Goes xs r) :
    ∃ reply : Except BackendError call.Reply, xs = [⟨m.table.backend, call, reply⟩] ∧
      r = reply.mapError fun err => err.within (m.context kind) := by
  unfold send at h
  rw [goes_bind_silent goes_announce, goes_bind] at h
  obtain ⟨_, reply, _, hreply, h, rfl⟩ := h
  obtain ⟨rfl, rfl⟩ := goes_pure.mp h
  exact ⟨reply, by rw [goes_ask.mp hreply, List.append_nil], rfl⟩

/-- A refusal by the backend as a failed outcome. -/
def captured (kind : StatementKind) :
    Except MapperError (Outcome α) → Except MapperError (Outcome α)
  | .error (.backend err) => .ok (.fail kind err.display)
  | result => result

/-- A result is captured without a further exchange. -/
theorem goes_capture {entity : String} {result r : Except MapperError (Outcome α)}
    {onFail : String → Program Unit} (honFail : ∀ {message ys}, (onFail message).Goes ys () ↔ ys = [])
    (h : (capture entity kind result onFail).Goes xs r) : xs = [] ∧ r = captured kind result := by
  unfold capture at h
  split at h
  · rw [goes_bind_silent goes_take, goes_bind_silent goes_take, goes_bind_silent honFail] at h
    exact goes_pure.mp h
  · next result hresult =>
    obtain ⟨rfl, rfl⟩ := goes_pure.mp h
    refine ⟨rfl, ?_⟩
    unfold captured
    split
    · exact absurd rfl (hresult _)
    · rfl

/-- What follows a preparation that has gone well; otherwise nothing is exchanged. -/
theorem goes_prepared {β : Type} {x : Except MapperError β}
    {next : β → Program (Except MapperError α)} {r : Except MapperError α}
    (h : (prepared x next).Goes xs r) :
    (∃ err, x = .error err ∧ xs = [] ∧ r = .error err) ∨ ∃ b, x = .ok b ∧ (next b).Goes xs r := by
  unfold prepared at h
  cases x with
  | error err => exact .inl ⟨err, rfl, goes_done.mp h⟩
  | ok b => exact .inr ⟨b, rfl, h⟩

end Session

end EntityMapper
