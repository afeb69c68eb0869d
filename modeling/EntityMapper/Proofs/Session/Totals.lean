import Mathlib.Data.String.Basic
import EntityMapper.Session.Metrics

/-!
# Totals are sums over entities

What is counted for the process and what is counted for each entity are kept apart, and each event is
counted once in both. As long as a total has not reached the largest count, it is the sum of its
counter over the entities.

* `Totals.record_toCounters` — an event is counted alike for the process and for its entity
* `Counters.record_cases` — an event leaves a counter alone or raises it by a number of its own
* `Metrics.Balanced.record` — what one more event keeps
* `totals_eq_sum` — what any events lead to
-/

namespace EntityMapper

/-- The counters that are kept for the process and for each entity. -/
def Counters.each : List (Counters → Nat) :=
  [loadCalls, existsCalls, saveCalls, deleteCalls, statements, rowsRead, rowsLoaded, rowsSaved,
   rowsDeleted, writeFailures, validationFailures]

/-! ## One event -/

/-- An event is counted alike for the process and for its entity. -/
theorem Totals.record_toCounters (t : Totals) (e : MetricEvent) :
    (t.record e).toCounters = t.toCounters.record e := by
  cases e with
  | started kind _ => cases kind <;> rfl
  | finished kind _ _ => cases kind <;> rfl
  | statement kind _ =>
    unfold Totals.record
    dsimp only
    split <;> rfl
  | materialized => rfl
  | writeFailed => rfl
  | validationFailed => rfl

variable {count : Counters → Nat} {e : MetricEvent}

/-- Nothing is counted at first. -/
theorem Counters.each_empty (h : count ∈ Counters.each) : count {} = 0 := by
  revert count
  simp [Counters.each]

/-- An event leaves a counter alone, or raises it by a number of its own. -/
theorem Counters.record_cases (h : count ∈ Counters.each) (e : MetricEvent) :
    (∀ c : Counters, count (c.record e) = count c) ∨
      ∃ n, ∀ c : Counters, count (c.record e) = raise (count c) n := by
  simp only [Counters.each, List.mem_cons, List.not_mem_nil, or_false] at h
  cases e with
  | started kind _ =>
    cases kind
    all_goals rcases h with rfl | rfl | rfl | rfl | rfl | rfl | rfl | rfl | rfl | rfl | rfl
    all_goals first | exact .inl fun _ => rfl | exact .inr ⟨1, fun _ => rfl⟩
  | finished kind _ n =>
    cases kind
    all_goals rcases h with rfl | rfl | rfl | rfl | rfl | rfl | rfl | rfl | rfl | rfl | rfl
    all_goals first | exact .inl fun _ => rfl | exact .inr ⟨n, fun _ => rfl⟩
  | materialized _ n _ =>
    rcases h with rfl | rfl | rfl | rfl | rfl | rfl | rfl | rfl | rfl | rfl | rfl
    all_goals first | exact .inl fun _ => rfl | exact .inr ⟨n, fun _ => rfl⟩
  | statement | writeFailed | validationFailed =>
    rcases h with rfl | rfl | rfl | rfl | rfl | rfl | rfl | rfl | rfl | rfl | rfl
    all_goals first | exact .inl fun _ => rfl | exact .inr ⟨1, fun _ => rfl⟩

/-- A count that is still below the largest was raised in full. -/
theorem raise_eq_add {a n : Nat} (h : raise a n < greatestCount) : raise a n = a + n := by
  unfold raise at *
  omega

theorem raise_of_le {a n : Nat} (h : a + n ≤ greatestCount) : raise a n = a + n := by
  unfold raise
  omega

/-! ## The entities -/

/-- A counter summed over entities. -/
def sumOver (count : Counters → Nat) : List (String × Counters) → Nat
  | [] => 0
  | (_, c) :: rest => count c + sumOver count rest

/-- An event that leaves a counter alone leaves its sum alone. -/
theorem sumOver_recordFor_of_alone (hempty : count {} = 0)
    (h : ∀ c : Counters, count (c.record e) = count c) (entities : List (String × Counters)) :
    sumOver count (recordFor e entities) = sumOver count entities := by
  induction entities with
  | nil => simp [sumOver, recordFor, h, hempty]
  | cons x rest ih =>
    obtain ⟨name, c⟩ := x
    unfold recordFor
    split
    · simp [sumOver, h, hempty]
    · split
      · simp [sumOver, h]
      · simpa [sumOver] using ih

/-- An event that raises a counter raises its sum as much, unless that would go too far. -/
theorem sumOver_recordFor_of_raised {n : Nat} (hempty : count {} = 0)
    (h : ∀ c : Counters, count (c.record e) = raise (count c) n)
    {entities : List (String × Counters)} (hsum : sumOver count entities + n ≤ greatestCount) :
    sumOver count (recordFor e entities) = sumOver count entities + n := by
  have hnew : count (({} : Counters).record e) = n := by
    rw [h, hempty, raise_of_le (by omega), Nat.zero_add]
  induction entities with
  | nil => simp [sumOver, recordFor, hnew]
  | cons x rest ih =>
    obtain ⟨name, c⟩ := x
    rw [sumOver] at hsum ⊢
    unfold recordFor
    split
    · rw [sumOver, sumOver, hnew]
      omega
    · split
      · rw [sumOver, h, raise_of_le (by omega)]
        omega
      · rw [sumOver, ih (by omega)]
        omega

/-- Whose entries there are after an event. -/
theorem mem_recordFor {entities : List (String × Counters)} {x : String × Counters}
    (h : x ∈ recordFor e entities) : x.1 = e.entity ∨ ∃ y ∈ entities, y.1 = x.1 := by
  induction entities with
  | nil =>
    obtain rfl := List.mem_singleton.mp h
    exact .inl rfl
  | cons z rest ih =>
    obtain ⟨name, c⟩ := z
    unfold recordFor at h
    split at h
    · rcases List.mem_cons.mp h with rfl | h
      · exact .inl rfl
      · exact .inr ⟨x, h, rfl⟩
    · split at h
      · next hname =>
        rcases List.mem_cons.mp h with rfl | h
        · exact .inl hname.symm
        · exact .inr ⟨x, List.mem_cons_of_mem _ h, rfl⟩
      · rcases List.mem_cons.mp h with rfl | h
        · exact .inr ⟨_, List.mem_cons_self, rfl⟩
        · rcases ih h with hx | ⟨y, hy, hyx⟩
          · exact .inl hx
          · exact .inr ⟨y, List.mem_cons_of_mem _ hy, hyx⟩

/-- The entries stay in the order of their names, so each entity has one. -/
theorem pairwise_recordFor {entities : List (String × Counters)}
    (h : entities.Pairwise fun x y => x.1 < y.1) :
    (recordFor e entities).Pairwise fun x y => x.1 < y.1 := by
  induction entities with
  | nil => exact List.pairwise_singleton _ _
  | cons x rest ih =>
    obtain ⟨name, c⟩ := x
    obtain ⟨hfirst, hrest⟩ := List.pairwise_cons.mp h
    unfold recordFor
    split
    · next hbefore =>
      refine List.pairwise_cons.mpr ⟨List.forall_mem_cons.mpr ⟨hbefore, fun y hy => ?_⟩, h⟩
      exact lt_trans hbefore (hfirst y hy)
    · next hnot =>
      split
      · exact List.pairwise_cons.mpr ⟨hfirst, hrest⟩
      · next hne =>
        refine List.pairwise_cons.mpr ⟨fun y hy => ?_, ih hrest⟩
        rcases mem_recordFor hy with hy | ⟨z, hz, hzy⟩
        · rw [hy]
          exact lt_of_le_of_ne (not_lt.mp hnot) (Ne.symm hne)
        · rw [← hzy]
          exact hfirst z hz

/-! ## All events -/

/-- The entities have one entry each, a total that has not reached the largest count is the sum over
them, and no more statements write than there are. -/
structure Metrics.Balanced (m : Metrics) : Prop where
  entries : m.entities.Pairwise fun x y => x.1 < y.1
  sums : ∀ count ∈ Counters.each, count m.totals.toCounters < greatestCount →
    count m.totals.toCounters = sumOver count m.entities
  writes : m.totals.writeStatements ≤ m.totals.statements
  bounded : m.totals.statements ≤ greatestCount

/-- Each statement that writes is counted as a statement. -/
theorem Totals.writeStatements_record {t : Totals} (h : t.writeStatements ≤ t.statements)
    (hbounded : t.statements ≤ greatestCount) (e : MetricEvent) :
    (t.record e).writeStatements ≤ (t.record e).statements ∧
      (t.record e).statements ≤ greatestCount := by
  cases e with
  | started kind _ => cases kind <;> exact ⟨h, hbounded⟩
  | finished kind _ _ => cases kind <;> exact ⟨h, hbounded⟩
  | statement kind _ =>
    unfold Totals.record
    dsimp only
    split
    · show raise t.writeStatements 1 ≤ raise t.statements 1 ∧ raise t.statements 1 ≤ greatestCount
      unfold raise
      omega
    · show t.writeStatements ≤ raise t.statements 1 ∧ raise t.statements 1 ≤ greatestCount
      unfold raise
      omega
  | materialized => exact ⟨h, hbounded⟩
  | writeFailed => exact ⟨h, hbounded⟩
  | validationFailed => exact ⟨h, hbounded⟩

/-- **One more event keeps the balance.** -/
theorem Metrics.Balanced.record {m : Metrics} (h : m.Balanced) (e : MetricEvent) :
    (m.record e).Balanced where
  entries := pairwise_recordFor h.entries
  sums := by
    intro count hcount hbelow
    have htotal : count (m.record e).totals.toCounters = count (m.totals.toCounters.record e) :=
      congrArg count (Totals.record_toCounters m.totals e)
    have hempty := Counters.each_empty hcount
    rw [htotal] at hbelow ⊢
    rcases Counters.record_cases hcount e with halone | ⟨n, hraised⟩
    · rw [halone] at hbelow ⊢
      rw [h.sums count hcount hbelow]
      exact (sumOver_recordFor_of_alone hempty halone m.entities).symm
    · -- the total was raised in full, so it was below the largest count before
      rw [hraised] at hbelow ⊢
      have hadd := raise_eq_add hbelow
      have hsum := h.sums count hcount (by omega)
      have hroom : sumOver count m.entities + n ≤ greatestCount := by omega
      rw [hadd, hsum]
      exact (sumOver_recordFor_of_raised hempty hraised hroom).symm
  writes := (Totals.writeStatements_record h.writes h.bounded e).1
  bounded := (Totals.writeStatements_record h.writes h.bounded e).2

theorem Metrics.balanced_empty : ({} : Metrics).Balanced where
  entries := .nil
  sums := fun _ hcount _ => Counters.each_empty hcount
  writes := Nat.le_refl 0
  bounded := Nat.zero_le _

/-- Any events keep the balance. -/
theorem Metrics.Balanced.foldl {m : Metrics} (h : m.Balanced) (events : List MetricEvent) :
    (events.foldl Metrics.record m).Balanced := by
  induction events generalizing m with
  | nil => exact h
  | cons e rest ih => exact ih (h.record e)

/-- **Totals are sums over entities.** Whatever happens after the counters were reset, each counter
that is kept for the process and for each entity is, for the process, the sum over all entities, as
long as the total has not reached the largest count. Each entity has one entry. Of the statements no
more write than there are. -/
theorem totals_eq_sum (events : List MetricEvent) :
    let m := events.foldl Metrics.record {}
    (∀ count ∈ Counters.each, count m.totals.toCounters < greatestCount →
      count m.totals.toCounters = sumOver count m.entities) ∧
    m.totals.writeStatements ≤ m.totals.statements ∧
    m.entities.Pairwise fun x y => x.1 < y.1 :=
  let h := Metrics.balanced_empty.foldl events
  ⟨h.sums, h.writes, h.entries⟩

/-- A user is inserted and updated and orders are read: three statements, two of which write. -/
theorem totals_eq_sum_shop :
    let m := [MetricEvent.statement .insert "User", .statement .select "Order",
      .statement .update "User"].foldl Metrics.record {}
    m.totals.statements = 3 ∧ m.entities.map Prod.fst = ["Order", "User"] ∧
      m.totals.statements = sumOver Counters.statements m.entities ∧
      m.totals.writeStatements = 2 := by
  refine ⟨by decide, by decide, ?_, by decide⟩
  exact (totals_eq_sum _).1 Counters.statements (by simp [Counters.each]) (by decide)

end EntityMapper
