import EntityMapper.Proofs.Session.Service

/-!
# What is done and told in a run

Of what happens in a run the exchanges with backends and what an observer is told are its deeds; the
log and the metrics are not. A run is taken apart as its program is put together. Without its notices
a program is run in the same way, and nobody is told.

* `deeds` — the exchanges and the notices in what happened, in order
* `run_bind_cases`, `run_takeIf_cases` and others — the parts of a run
* `Program.unheard`, `run_unheard` — a program without its notices, and its runs
-/

namespace EntityMapper

namespace Program

variable {α β σ : Type} {h : Handler σ} {s s' s'' : σ} {a : α} {b : β} {events more : List Event}
  {p p' : Program α} {f f' : α → Program β}

/-! ## Deeds -/

/-- An exchange with a backend, or what an observer is told. -/
inductive Deed
  | exchanged (x : Exchange)
  | told (n : Notice)

/-- The deed in something that happened; metrics and the log are none. -/
def Event.deed? : Event → Option Deed
  | .called backend c reply => some (.exchanged ⟨backend, c, reply⟩)
  | .noted (.notice n) => some (.told n)
  | .noted _ => none

/-- The deeds in what happened, in order. -/
def deeds (events : List Event) : List Deed := events.filterMap Event.deed?

/-- The exchange that a deed is, if it is one. -/
def Deed.exchange? : Deed → Option Exchange
  | .exchanged x => some x
  | .told _ => none

/-- The exchanges are those among the deeds. -/
theorem filterMap_deeds (events : List Event) :
    (deeds events).filterMap Deed.exchange? = exchanges events := by
  rw [deeds, exchanges, List.filterMap_filterMap]
  congr 1
  funext x
  cases x with
  | called => rfl
  | noted n => cases n <;> rfl

@[simp] theorem deeds_nil : deeds [] = [] := rfl

@[simp] theorem deeds_append : deeds (events ++ more) = deeds events ++ deeds more :=
  List.filterMap_append

@[simp] theorem exchanges_append : exchanges (events ++ more) = exchanges events ++ exchanges more :=
  List.filterMap_append

/-- A quiet program does nothing but exchange. -/
theorem Quiet.deeds_eq (hp : p.Quiet) (hrun : p.run h s = (a, s', events)) :
    deeds events = (exchanges events).map .exchanged := by
  have hevents := only_of_run hp hrun
  clear hrun
  induction events with
  | nil => rfl
  | cons x rest ih =>
    obtain ⟨hx, hrest⟩ := List.forall_mem_cons.mp hevents
    have ih := ih hrest
    unfold deeds exchanges at ih ⊢
    cases x with
    | called backend c reply =>
      simp only [List.filterMap_cons, Event.deed?, Event.exchange?, List.map_cons, ih]
    | noted n =>
      cases n with
      | notice n => exact absurd hx (by simp [Event.Is, Note.isNotice])
      | metric | log => simp only [List.filterMap_cons, Event.deed?, Event.exchange?, ih]

/-! ## Runs taken apart -/

theorem run_bind_cases (hrun : (p >>= f).run h s = (b, s'', events)) :
    ∃ a s' before after, p.run h s = (a, s', before) ∧ (f a).run h s' = (b, s'', after) ∧
      events = before ++ after := by
  have hrun : (p.bind f).run h s = (b, s'', events) := hrun
  rw [run_bind] at hrun
  rcases hp : p.run h s with ⟨a, s', before⟩
  rcases hf : (f a).run h s' with ⟨b', s''', after⟩
  rw [hp] at hrun
  simp only [hf, Prod.mk.injEq] at hrun
  obtain ⟨rfl, rfl, rfl⟩ := hrun
  exact ⟨a, s', before, after, rfl, hf, rfl⟩

theorem run_pure_cases {a' : α} (hrun : (pure a : Program α).run h s = (a', s', events)) :
    a' = a ∧ s' = s ∧ events = [] := by
  obtain ⟨rfl, hrest⟩ := Prod.mk.inj hrun
  obtain ⟨rfl, rfl⟩ := Prod.mk.inj hrest
  exact ⟨rfl, rfl, rfl⟩

theorem run_take_cases {n : Note} {u : Unit} (hrun : (take n).run h s = (u, s', events)) :
    s' = s ∧ events = [.noted n] := by
  obtain ⟨-, hrest⟩ := Prod.mk.inj hrun
  obtain ⟨rfl, rfl⟩ := Prod.mk.inj hrest
  exact ⟨rfl, rfl⟩

/-- A notice, if it is wanted. -/
def noticeIf (wanted : Bool) (n : Notice) : List Notice := if wanted then [n] else []

/-- Where nothing is done but a notice that may be wanted, nothing is exchanged. -/
theorem exchanges_of_told {wanted : Bool} {n : Notice}
    (h : deeds events = (noticeIf wanted n).map .told) : exchanges events = [] := by
  rw [← filterMap_deeds, h]
  cases wanted <;> rfl

theorem run_takeIf_cases {wanted : Bool} {n : Notice} {u : Unit}
    (hrun : (takeIf wanted (.notice n)).run h s = (u, s', events)) :
    s' = s ∧ exchanges events = [] ∧ deeds events = (noticeIf wanted n).map .told := by
  cases wanted with
  | false =>
    obtain ⟨-, rfl, rfl⟩ := run_pure_cases hrun
    exact ⟨rfl, rfl, rfl⟩
  | true =>
    obtain ⟨rfl, rfl⟩ := run_take_cases hrun
    exact ⟨rfl, rfl, rfl⟩

/-! ## Without notices -/

/-- A program without its notices. -/
def unheard : Program α → Program α
  | .done a => .done a
  | .call backend c next => .call backend c fun reply => (next reply).unheard
  | .note n next => if n.isNotice then next.unheard else .note n next.unheard

/-- Whether something that happened is told to an observer. -/
def Event.isNotice : Event → Bool
  | .noted n => n.isNotice
  | .called .. => false

/-- What happened, without the notices. -/
def unheardEvents (events : List Event) : List Event := events.filter fun x => !x.isNotice

/-- Without its notices a program runs in the same way. -/
theorem run_unheard (h : Handler σ) (p : Program α) (s : σ) :
    p.unheard.run h s =
      ((p.run h s).1, (p.run h s).2.1, unheardEvents (p.run h s).2.2) := by
  induction p generalizing s with
  | done a => rfl
  | call backend c next ih =>
    simp only [unheard, run, ih]
    rfl
  | note n next ih =>
    cases hn : n.isNotice with
    | true =>
      have hnotice : (Event.noted n).isNotice = true := hn
      simp only [unheard, hn, if_true, run, ih, unheardEvents, List.filter_cons, hnotice,
        Bool.not_true, Bool.false_eq_true, if_false]
    | false =>
      have hnotice : (Event.noted n).isNotice = false := hn
      simp only [unheard, hn, Bool.false_eq_true, if_false, run, ih, unheardEvents,
        List.filter_cons, hnotice, Bool.not_false, if_true]

theorem unheard_bind : (p >>= f).unheard = p.unheard >>= fun a => (f a).unheard := by
  show (p.bind f).unheard = p.unheard.bind _
  induction p with
  | done a => rfl
  | call backend c next ih => simp only [bind, unheard, ih]
  | note n next ih =>
    cases hn : n.isNotice <;> simp [bind, unheard, hn, ih]

theorem unheard_bind_congr (hp : p.unheard = p'.unheard)
    (hf : ∀ a, (f a).unheard = (f' a).unheard) : (p >>= f).unheard = (p' >>= f').unheard := by
  rw [unheard_bind, unheard_bind, hp]
  simp only [hf]

theorem unheard_takeIf (wanted : Bool) (n : Notice) :
    (takeIf wanted (.notice n)).unheard = .done () := by
  cases wanted <;> rfl

/-- Programs that are the same without their notices run in the same way but for those. -/
theorem run_of_unheard_eq (hp : p'.unheard = p.unheard) (hrun : p.run h s = (a, s', events)) :
    ∃ events', p'.run h s = (a, s', events') ∧ unheardEvents events' = unheardEvents events := by
  have hrun' := run_unheard h p' s
  rw [hp, run_unheard, hrun] at hrun'
  obtain ⟨ha, hrest⟩ := Prod.mk.inj hrun'
  obtain ⟨hs, hevents⟩ := Prod.mk.inj hrest
  refine ⟨(p'.run h s).2.2, ?_, hevents.symm⟩
  exact Prod.ext ha.symm (Prod.ext hs.symm rfl)

end Program

end EntityMapper
