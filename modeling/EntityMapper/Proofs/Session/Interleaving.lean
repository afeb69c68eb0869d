import Mathlib.Data.List.Basic
import Mathlib.Logic.Function.Basic
import EntityMapper.Proofs.Session.Exchange

/-!
# Programs side by side

Several programs run over one backend, command by command in any order. Each of them sees the
replies to its own commands alone, so what it has exchanged so far is the beginning of one of its
courses, whatever the others do in between. An invariant of the backend and of all that was
exchanged therefore has to be shown for one command at a time, with what its program has exchanged
before.

* `Company` — programs with the state of their backend and the exchanges of all of them
* `Company.goes_done` — a party that is done has gone through one of its courses
* `Company.run_invariant` — what every command preserves holds at every point
-/

namespace EntityMapper.Program

variable {ι σ α : Type}

/-! ## Courses that go on -/

/-- A program can always go on to some end. -/
theorem exists_goes (p : Program α) : ∃ xs a, p.Goes xs a := by
  induction p with
  | done a => exact ⟨[], a, .done a⟩
  | call backend c next ih =>
    obtain ⟨xs, a, hgoes⟩ := ih (.error default)
    exact ⟨_, a, .call hgoes⟩
  | note n next ih =>
    obtain ⟨xs, a, hgoes⟩ := ih
    exact ⟨xs, a, .note hgoes⟩

/-! ## Parties -/

/-- Parties that run their programs over one handler: what is left of each program, the state of the
handler, and who has exchanged what. -/
structure Company (ι σ α : Type) where
  programs : ι → Program α
  state : σ
  trace : List (ι × Exchange) := []

/-- What a party has exchanged. -/
def past [DecidableEq ι] (i : ι) (trace : List (ι × Exchange)) : List Exchange :=
  (trace.filter fun x => x.1 = i).map Prod.snd

variable [DecidableEq ι]

theorem mem_past {i : ι} {trace : List (ι × Exchange)} {x : Exchange} :
    x ∈ past i trace ↔ (i, x) ∈ trace := by
  unfold past
  constructor
  · intro hx
    obtain ⟨⟨j, y⟩, hy, rfl⟩ := List.mem_map.mp hx
    obtain ⟨hmem, hj⟩ := List.mem_filter.mp hy
    obtain rfl : j = i := by simpa using hj
    exact hmem
  · intro hx
    exact List.mem_map.mpr ⟨(i, x), List.mem_filter.mpr ⟨hx, by simp⟩, rfl⟩

theorem past_append (i j : ι) (trace : List (ι × Exchange)) (x : Exchange) :
    past i (trace ++ [(j, x)]) = past i trace ++ if j = i then [x] else [] := by
  unfold past
  rw [List.filter_append, List.map_append]
  by_cases hj : j = i <;> simp [hj]

namespace Company

variable {h : Handler σ} {c : Company ι σ α} {programs : ι → Program α} {st : σ}

/-- A turn of a party: it takes a note, or it hands one command to the handler and goes on with the
reply. A party that is done stays so. -/
def turn (h : Handler σ) (c : Company ι σ α) (i : ι) : Company ι σ α :=
  match c.programs i with
  | .done _ => c
  | .note _ next => { c with programs := Function.update c.programs i next }
  | .call backend asked next =>
    let (reply, state) := h backend asked c.state
    { programs := Function.update c.programs i (next reply)
      state
      trace := c.trace ++ [(i, ⟨backend, asked, reply⟩)] }

theorem turn_of_done {i : ι} {a : α} (hi : c.programs i = .done a) : c.turn h i = c := by
  unfold turn
  rw [hi]

theorem turn_of_note {i : ι} {n : Note} {next : Program α} (hi : c.programs i = .note n next) :
    c.turn h i = { c with programs := Function.update c.programs i next } := by
  unfold turn
  rw [hi]

theorem turn_of_call {i : ι} {backend : String} {asked : Call}
    {next : Except BackendError asked.Reply → Program α}
    (hi : c.programs i = .call backend asked next) : c.turn h i =
      { programs := Function.update c.programs i (next (h backend asked c.state).1)
        state := (h backend asked c.state).2
        trace := c.trace ++ [(i, ⟨backend, asked, (h backend asked c.state).1⟩)] } := by
  unfold turn
  rw [hi]

/-- Parties that have not exchanged anything yet. -/
def start (programs : ι → Program α) (st : σ) : Company ι σ α := { programs, state := st }

/-- The parties of a schedule take their turns, one after the other. -/
def run (h : Handler σ) (c : Company ι σ α) (schedule : List ι) : Company ι σ α :=
  schedule.foldl (turn h) c

/-- What is left of each program goes on from what its party has exchanged. -/
def Continues (programs : ι → Program α) (c : Company ι σ α) : Prop :=
  ∀ i ys a, (c.programs i).Goes ys a → (programs i).Goes (past i c.trace ++ ys) a

theorem continues_start (programs : ι → Program α) (st : σ) :
    Continues programs (start programs st) := fun _ _ _ hgoes => hgoes

/-- A turn continues the programs. -/
theorem Continues.turn (hc : Continues programs c) (h : Handler σ) (i : ι) :
    Continues programs (c.turn h i) := by
  cases hi : c.programs i with
  | done a => rwa [turn_of_done hi]
  | note n next =>
    rw [turn_of_note hi]
    intro j ys a hgoes
    dsimp only at hgoes ⊢
    by_cases hj : j = i
    · subst hj
      rw [Function.update_self] at hgoes
      exact hc j ys a (hi ▸ Goes.note hgoes)
    · rw [Function.update_of_ne hj] at hgoes
      exact hc j ys a hgoes
  | call backend asked next =>
    rw [turn_of_call hi]
    intro j ys a hgoes
    dsimp only at hgoes ⊢
    rw [past_append]
    by_cases hj : j = i
    · subst hj
      rw [Function.update_self] at hgoes
      rw [if_pos rfl, List.append_assoc]
      exact hc j _ a (hi ▸ Goes.call hgoes)
    · rw [Function.update_of_ne hj] at hgoes
      rw [if_neg fun heq => hj heq.symm, List.append_nil]
      exact hc j ys a hgoes

theorem Continues.run (hc : Continues programs c) (h : Handler σ) (schedule : List ι) :
    Continues programs (c.run h schedule) := by
  induction schedule generalizing c with
  | nil => exact hc
  | cons i schedule ih => exact ih (hc.turn h i)

/-- **A party that is done has gone through one of its courses.** -/
theorem goes_done (schedule : List ι) {i : ι} {a : α}
    (hdone : ((start programs st).run h schedule).programs i = .done a) :
    (programs i).Goes (past i ((start programs st).run h schedule).trace) a := by
  have hcontinues := (continues_start programs st).run h schedule
  have hgoes := hcontinues i [] a (hdone ▸ Goes.done a)
  rwa [List.append_nil] at hgoes

/-- **What every command preserves holds at every point.** For a command it is known that it goes on
from what its party has exchanged before, in one of the courses of the party's program. -/
theorem run_invariant {I : σ → List (ι × Exchange) → Prop} (hstart : I st [])
    (hstep : ∀ {st trace i x ys a}, I st trace → (h x.backend x.call st).1 = x.reply →
      (programs i).Goes (past i trace ++ x :: ys) a →
      I (h x.backend x.call st).2 (trace ++ [(i, x)])) (schedule : List ι) :
    I ((start programs st).run h schedule).state
      ((start programs st).run h schedule).trace := by
  suffices ∀ c : Company ι σ α, Continues programs c → I c.state c.trace →
      I (c.run h schedule).state (c.run h schedule).trace from
    this _ (continues_start programs st) hstart
  induction schedule with
  | nil => exact fun c _ hI => hI
  | cons i schedule ih =>
    intro c hc hI
    refine ih (c.turn h i) (hc.turn h i) ?_
    cases hi : c.programs i with
    | done a => rwa [turn_of_done hi]
    | note n next => rwa [turn_of_note hi]
    | call backend asked next =>
      rw [turn_of_call hi]
      obtain ⟨ys, a, hgoes⟩ := exists_goes (next (h backend asked c.state).1)
      exact hstep (x := ⟨backend, asked, (h backend asked c.state).1⟩) hI rfl
        (hc i _ a (hi ▸ Goes.call hgoes))

end Company

end EntityMapper.Program
