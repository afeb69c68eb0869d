import EntityMapper.Proofs.Join.Aliases

/-!
# Cycles of associations

A select goes down every association of its root, and down those of each table that it comes to, in
the order of their declaration. It gives up where an association leads back to an entity type that
it is on its way from. A type that two ways lead to is no such case, however the ways part and meet.

A way is told by the positions of its associations, and ways are in the order in which they are gone
when their positions are in the order of lists.

* `Catalog.Path`, `Catalog.Closes` — the ways from a table, and those whose last association leads
  back
* `exists_closes_iff` — there are such if and only if a cycle can be reached
* `build_cases` — what is built is at fault where the first of them ends, or there is none
* `exists_walks_of_build` — what is built has one join for each way
* `JoinTree.OwnersKnown` — each of its joins hangs on a table that stands before it
* `select_cycles` — the select, or the association that it gives up at
-/

namespace EntityMapper

open JoinTree (ResultColumn Join)

/-! ## Ways -/

namespace Catalog

/-- A way from one table to another, by the positions of its associations. -/
inductive Path (c : Catalog) : Table → List Nat → Table → Prop
  | nil (t : Table) : Path c t [] t
  | cons {t u : Table} {i : Nat} {p : List Nat} {a : String × Association}
      (h : t.associations[i]? = some a) (hp : Path c (c.table a.2.target) p u) : Path c t (i :: p) u

/-- A way whose last association, a field of an entity type, leads to a type that the way has come
from. The branch has the types on the way to its first table, with that of the table. -/
inductive Closes (c : Catalog) : List String → Table → List Nat → String → String → Prop
  | here {branch : List String} {t : Table} {i : Nat} {a : String × Association}
      (h : t.associations[i]? = some a) (hback : a.2.target ∈ branch) :
      Closes c branch t [i] t.entity a.1
  | down {branch : List String} {t : Table} {i : Nat} {p : List Nat} {a : String × Association}
      {entity field : String} (h : t.associations[i]? = some a)
      (hp : Closes c (a.2.target :: branch) (c.table a.2.target) p entity field) :
      Closes c branch t (i :: p) entity field

/-- No way that is gone before leads back. -/
structure ClosesFirst (c : Catalog) (branch : List String) (t : Table) (p : List Nat)
    (entity field : String) : Prop where
  closes : c.Closes branch t p entity field
  first : ∀ q < p, ∀ entity field, ¬ c.Closes branch t q entity field

/-- The associations of a table lead back to its entity type. -/
def Cyclic (c : Catalog) (u : Table) : Prop :=
  ∃ v ∈ c.targets u, ∃ w, c.Reaches v w ∧ w.typeId = u.typeId

/-- The join that is written for a way, where the columns of its first table start with `leading`:
the last table on it, under the names of its associations, hangs on the table before. -/
inductive JoinsAlong (c : Catalog) : Table → String → String → List Nat → Join → Prop
  | here {t : Table} {owner leading : String} {i : Nat} {a : String × Association}
      (h : t.associations[i]? = some a) :
      JoinsAlong c t owner leading [i]
        ⟨(c.table a.2.target).name, leading ++ a.1, a.2.childColumn, owner, a.2.parentColumn⟩
  | down {t : Table} {owner leading : String} {i : Nat} {p : List Nat} {a : String × Association}
      {join : Join} (h : t.associations[i]? = some a)
      (hp : JoinsAlong c (c.table a.2.target) (leading ++ a.1) (leading ++ a.1 ++ "_") p join) :
      JoinsAlong c t owner leading (i :: p) join

end Catalog

variable {c : Catalog} {t u v w : Table} {p : List Nat} {i : Nat} {a : String × Association}
  {branch : List String} {entity field tableAlias leading : String} {j : JoinTree}

theorem path_cons_iff :
    c.Path t (i :: p) u ↔
      ∃ a, t.associations[i]? = some a ∧ c.Path (c.table a.2.target) p u := by
  constructor
  · rintro (_ | ⟨h, hp⟩)
    exact ⟨_, h, hp⟩
  · rintro ⟨a, h, hp⟩
    exact .cons h hp

/-- Ways through an association lead back at once or further down. -/
theorem closes_cons_iff (h : t.associations[i]? = some a) :
    c.Closes branch t (i :: p) entity field ↔
      (p = [] ∧ a.2.target ∈ branch ∧ entity = t.entity ∧ field = a.1) ∨
        c.Closes (a.2.target :: branch) (c.table a.2.target) p entity field := by
  constructor
  · rintro (⟨h', hback⟩ | ⟨h', hp⟩)
    · obtain rfl := Option.some.inj (h.symm.trans h')
      exact .inl ⟨rfl, hback, rfl, rfl⟩
    · obtain rfl := Option.some.inj (h.symm.trans h')
      exact .inr hp
  · rintro (⟨rfl, hback, rfl, rfl⟩ | hp)
    · exact .here h hback
    · exact .down h hp

/-- A way that leads back goes through an association. -/
theorem Catalog.Closes.exists_cons (h : c.Closes branch t p entity field) :
    ∃ i q a, p = i :: q ∧ t.associations[i]? = some a := by
  cases h with
  | here h => exact ⟨_, _, _, rfl, h⟩
  | down h => exact ⟨_, _, _, rfl, h⟩

/-! ## Ways that lead back and cycles -/

theorem mem_targets (h : t.associations[i]? = some a) : c.table a.2.target ∈ c.targets t :=
  List.mem_map.mpr ⟨a, List.mem_of_getElem? h, rfl⟩

theorem exists_of_mem_targets (h : v ∈ c.targets t) :
    ∃ (i : Nat) (a : String × Association), t.associations[i]? = some a ∧ c.table a.2.target = v := by
  obtain ⟨a, ha, rfl⟩ := List.mem_map.mp h
  obtain ⟨i, hi⟩ := List.mem_iff_getElem?.mp ha
  exact ⟨i, a, hi, rfl⟩

/-- What leads back leads around a cycle, or to where the branch was before. -/
theorem Catalog.Closes.cyclic_or (h : c.Closes branch t p entity field) :
    (∃ u, c.Reaches t u ∧ c.Cyclic u) ∨
      ∃ v ∈ c.targets t, ∃ w, c.Reaches v w ∧ w.typeId ∈ branch := by
  induction h with
  | here h hback =>
    exact .inr ⟨_, mem_targets h, _, .refl _, (c.typeId_table _).symm ▸ hback⟩
  | down h _ ih =>
    rcases ih with ⟨u, hu, hcyclic⟩ | ⟨v, hv, w, hw, hback⟩
    · exact .inl ⟨u, .step (mem_targets h) hu, hcyclic⟩
    · rcases List.mem_cons.mp hback with hback | hback
      · exact .inl ⟨_, .step (mem_targets h) (.refl _), v, hv, w, hw,
          hback.trans (c.typeId_table _).symm⟩
      · exact .inr ⟨_, mem_targets h, w, .step hv hw, hback⟩

/-- Where a type of the branch is reached again, some way leads back. -/
theorem exists_closes_of_reaches (hv : v ∈ c.targets t) (hw : c.Reaches v w)
    (hback : w.typeId ∈ branch) : ∃ p entity field, c.Closes branch t p entity field := by
  induction hw generalizing t branch with
  | refl v =>
    obtain ⟨i, a, h, rfl⟩ := exists_of_mem_targets hv
    rw [c.typeId_table] at hback
    exact ⟨_, _, _, .here h hback⟩
  | step hv' _ ih =>
    obtain ⟨i, a, h, rfl⟩ := exists_of_mem_targets hv
    obtain ⟨p, entity, field, hp⟩ := ih hv' (List.mem_cons_of_mem a.2.target hback)
    exact ⟨_, _, _, .down h hp⟩

/-- Where a cycle is reached, some way leads back. -/
theorem exists_closes_of_cyclic (hu : c.Reaches t u) (hcyclic : c.Cyclic u)
    (hbranch : t.typeId ∈ branch) : ∃ p entity field, c.Closes branch t p entity field := by
  induction hu generalizing branch with
  | refl t =>
    obtain ⟨v, hv, w, hw, hback⟩ := hcyclic
    exact exists_closes_of_reaches hv hw (hback ▸ hbranch)
  | step hv _ ih =>
    obtain ⟨i, a, h, rfl⟩ := exists_of_mem_targets hv
    have hmem : (c.table a.2.target).typeId ∈ a.2.target :: branch :=
      List.mem_cons.mpr (.inl (c.typeId_table _))
    obtain ⟨p, entity, field, hp⟩ := ih hcyclic hmem
    exact ⟨_, _, _, .down h hp⟩

/-- **Some way leads back if and only if a cycle can be reached.** -/
theorem exists_closes_iff (c : Catalog) (t : Table) :
    (∃ p entity field, c.Closes [t.typeId] t p entity field) ↔
      ∃ u, c.Reaches t u ∧ c.Cyclic u := by
  constructor
  · rintro ⟨p, entity, field, h⟩
    rcases h.cyclic_or with hcyclic | ⟨v, hv, w, hw, hback⟩
    · exact hcyclic
    · exact ⟨t, .refl t, v, hv, w, hw, List.mem_singleton.mp hback⟩
  · rintro ⟨u, hu, hcyclic⟩
    exact exists_closes_of_cyclic hu hcyclic (List.mem_singleton_self _)

/-! ## Going down -/

namespace JoinTree

/-- What is built for an association: nothing where it leads back to the branch. -/
def enter (c : Catalog) (t : Table) (leading : String) (branch : List String)
    (a : String × Association) : Except SchemaError ((String × Association) × JoinTree) :=
  if a.2.target ∈ branch then .error (.associationCycle t.entity a.1)
  else (build c (c.table a.2.target) (leading ++ a.1) (leading ++ a.1 ++ "_")
    (a.2.target :: branch)).map fun j => (a, j)

/-- A type that the catalog does not know leads nowhere. -/
theorem associations_of_find?_eq_none {entity : String} (h : c.find? entity = none) :
    (c.table entity).associations = [] := by
  rw [Catalog.table, h]
  rfl

theorem table_of_find?_eq_some {entity : String} (h : c.find? entity = some u) :
    c.table entity = u := by
  rw [Catalog.table, h]
  rfl

/-- A table without associations has no tables below it. -/
theorem build_of_associations_eq_nil (h : t.associations = []) :
    build c t tableAlias leading branch = .ok (.mk t tableAlias leading []) := by
  rw [build, h]
  rfl

/-- What is built goes down each association in turn. -/
theorem build_eq (c : Catalog) (t : Table) (tableAlias leading : String) (branch : List String) :
    build c t tableAlias leading branch =
      (t.associations.mapM (enter c t leading branch)).map (.mk t tableAlias leading) := by
  have hmap : ∀ {x y : Except SchemaError (List ((String × Association) × JoinTree))}, x = y →
      (x >>= fun joined => pure (JoinTree.mk t tableAlias leading joined)) =
        y.map (JoinTree.mk t tableAlias leading) := by
    rintro x _ rfl
    cases x <;> rfl
  rw [build]
  refine hmap (congrArg (fun f => t.associations.mapM f) (funext fun a => ?_))
  unfold enter
  by_cases hback : a.2.target ∈ branch
  · rw [dif_pos (List.contains_iff_mem.mpr hback), if_pos hback]
    rfl
  · rw [dif_neg (by simpa using hback), if_neg hback]
    split
    · next hfind =>
      rw [build_of_associations_eq_nil (associations_of_find?_eq_none hfind)]
      rfl
    · next next hfind =>
      rw [table_of_find?_eq_some hfind]
      cases build c next (leading ++ a.1) (leading ++ a.1 ++ "_") (a.2.target :: branch) <;> rfl

/-- What holds of a table on a branch if it holds of each table that is entered from it. -/
theorem branch_induction {motive : Table → List String → Prop}
    (step : ∀ t branch, (∀ a ∈ t.associations, a.2.target ∉ branch →
      motive (c.table a.2.target) (a.2.target :: branch)) → motive t branch)
    (t : Table) (branch : List String) : motive t branch := by
  -- each table that is entered leaves fewer tables of the catalog
  induction hn : (unvisited c branch).length using Nat.strongRecOn generalizing t branch with
  | _ n ih =>
    refine step t branch fun a _ hback => ?_
    cases hfind : c.find? a.2.target with
    | none =>
      refine step _ _ fun b hb => ?_
      rw [associations_of_find?_eq_none hfind] at hb
      exact absurd hb List.not_mem_nil
    | some next =>
      exact ih _ (hn ▸ unvisited_lt (by simpa using hback) hfind) _ _ rfl

end JoinTree

/-- What is built below a table is at fault where the first way that leads back ends, or none does. -/
def FaultsFirst (c : Catalog) (t : Table) (branch : List String) : Prop :=
  ∀ tableAlias leading : String,
    (∃ j, JoinTree.build c t tableAlias leading branch = .ok j ∧
      ∀ p entity field, ¬ c.Closes branch t p entity field) ∨
    ∃ p entity field, JoinTree.build c t tableAlias leading branch =
        .error (.associationCycle entity field) ∧ c.ClosesFirst branch t p entity field

/-- One association is at fault where the first way through it that leads back ends. -/
theorem enter_cases (leading : String) (h : t.associations[i]? = some a)
    (hbelow : a.2.target ∉ branch → FaultsFirst c (c.table a.2.target) (a.2.target :: branch)) :
    (∃ x, JoinTree.enter c t leading branch a = .ok x ∧
      ∀ q entity field, ¬ c.Closes branch t (i :: q) entity field) ∨
    ∃ p entity field, JoinTree.enter c t leading branch a =
        .error (.associationCycle entity field) ∧ c.Closes branch t (i :: p) entity field ∧
      ∀ q < p, ∀ entity field, ¬ c.Closes branch t (i :: q) entity field := by
  unfold JoinTree.enter
  by_cases hback : a.2.target ∈ branch
  · rw [if_pos hback]
    exact .inr ⟨[], _, _, rfl, .here h hback, fun q hq => absurd hq (List.not_lt_nil q)⟩
  · rw [if_neg hback]
    -- ways through the association are those from its target
    have hiff : ∀ q entity field, c.Closes branch t (i :: q) entity field ↔
        c.Closes (a.2.target :: branch) (c.table a.2.target) q entity field := by
      intro q entity field
      rw [closes_cons_iff h]
      exact or_iff_right fun hhere => hback hhere.2.1
    rcases hbelow hback (leading ++ a.1) (leading ++ a.1 ++ "_") with
      ⟨j, hj, hnone⟩ | ⟨p, entity, field, herror, hcloses, hfirst⟩
    · refine .inl ⟨_, by rw [hj]; rfl, fun q entity field hq => ?_⟩
      exact hnone q entity field ((hiff q entity field).mp hq)
    · refine .inr ⟨p, entity, field, by rw [herror]; rfl, (hiff p entity field).mpr hcloses,
        fun q hq entity field hclose => ?_⟩
      exact hfirst q hq entity field ((hiff q entity field).mp hclose)

/-- **What is built is at fault where the first way that leads back ends, or none does.** -/
theorem build_cases (c : Catalog) (t : Table) (branch : List String) : FaultsFirst c t branch := by
  induction t, branch using JoinTree.branch_induction with
  | step t branch ih =>
    intro tableAlias leading
    rw [JoinTree.build_eq]
    have henter {i : Nat} {a : String × Association} (h : t.associations[i]? = some a) :=
      enter_cases leading h (ih a (List.mem_of_getElem? h))
    -- no way leads back that starts with an association for which something is built
    have hnone : ∀ {k b y}, t.associations[k]? = some b →
        JoinTree.enter c t leading branch b = .ok y →
        ∀ q entity field, ¬ c.Closes branch t (k :: q) entity field := by
      intro k b y hb hy
      rcases henter hb with ⟨_, _, hnone⟩ | ⟨_, _, _, herror, -⟩
      · exact hnone
      · rw [herror] at hy
        cases hy
    rcases mapM_cases (JoinTree.enter c t leading branch) t.associations with
      ⟨joined, hjoined, hall⟩ | ⟨i, a, e, ha, herror, hmap, hbefore⟩
    · refine .inl ⟨_, by rw [hjoined]; rfl, fun p entity field hp => ?_⟩
      obtain ⟨i, q, a, rfl, ha⟩ := hp.exists_cons
      obtain ⟨x, hx⟩ := hall a (List.mem_of_getElem? ha)
      exact hnone ha hx q entity field hp
    · rcases henter ha with ⟨x, hx, -⟩ | ⟨p, entity, field, hcycle, hcloses, hfirst⟩
      · rw [herror] at hx
        cases hx
      · obtain rfl := Except.error.inj (herror.symm.trans hcycle)
        refine .inr ⟨i :: p, entity, field, by rw [hmap]; rfl, hcloses, ?_⟩
        intro q hq entity field hclose
        obtain ⟨k, q, b, rfl, hb⟩ := hclose.exists_cons
        rcases List.cons_lt_cons_iff.mp hq with hlt | ⟨rfl, hlt⟩
        · obtain ⟨y, hy⟩ := hbefore k hlt b hb
          exact hnone hb hy q entity field hclose
        · exact hfirst q hlt entity field hclose

/-! ## One join for each way -/

namespace JoinTree

/-- Joins of which each hangs on an alias that is known before it. -/
def OwnersKnown : List String → List Join → Prop
  | _, [] => True
  | known, join :: rest =>
    join.ownerAlias ∈ known ∧ OwnersKnown (known ++ [join.tableAlias]) rest

theorem OwnersKnown.append {l r : List Join} {known : List String} (hl : OwnersKnown known l)
    (hr : ∀ {more}, known ⊆ more → OwnersKnown more r) : OwnersKnown known (l ++ r) := by
  induction l generalizing known with
  | nil => exact hr (List.Subset.refl _)
  | cons join rest ih =>
    obtain ⟨howner, hrest⟩ := hl
    exact ⟨howner, ih hrest fun hmore => hr (List.Subset.trans (List.subset_append_left _ _) hmore)⟩

/-- The joins that are built hang on the table at the top and on tables joined before. -/
theorem ownersKnown_of_build {known : List String}
    (h : build c t tableAlias leading branch = .ok j) (hknown : tableAlias ∈ known) :
    OwnersKnown known j.joins := by
  refine (build_induction (motive := fun _ tableAlias _ j => j.tableAlias = tableAlias ∧
    ∀ {known}, tableAlias ∈ known → OwnersKnown known j.joins) ?_ h).2 hknown
  intro t tableAlias leading joined associations each
  refine ⟨rfl, fun {known} hknown => ?_⟩
  rw [joins, joinsAll_eq]
  clear associations
  induction joined generalizing known with
  | nil => exact trivial
  | cons x rest ih =>
    obtain ⟨halias, hbelow⟩ := each x List.mem_cons_self
    have hx : OwnersKnown known (joinOf tableAlias x :: x.2.joins) := by
      refine ⟨hknown, hbelow (List.mem_append_right _ (List.mem_singleton.mpr ?_))⟩
      exact halias.symm
    exact hx.append fun hmore => ih (fun y hy => each y (List.mem_cons_of_mem _ hy)) (hmore hknown)

/-- The ways from a table, in the order in which they are gone, with the joins for them. -/
structure Walks (c : Catalog) (t : Table) (tableAlias leading : String) (paths : List (List Nat))
    (joins : List Join) : Prop where
  sorted : paths.Pairwise (· < ·)
  complete : ∀ p, p ∈ paths ↔ p ≠ [] ∧ ∃ u, c.Path t p u
  joins : List.Forall₂ (c.JoinsAlong t tableAlias leading) paths joins

/-- The ways through the associations from one position on, with the joins for them. -/
theorem exists_walks_from {n : Nat} {joined : List ((String × Association) × JoinTree)}
    (hjoined : ∀ k, t.associations[n + k]? = (joined[k]?).map Prod.fst)
    (each : ∀ x ∈ joined, (x.2.table = c.table x.1.2.target ∧ x.2.tableAlias = leading ++ x.1.1) ∧
      ∃ paths, Walks c (c.table x.1.2.target) (leading ++ x.1.1) (leading ++ x.1.1 ++ "_") paths
        x.2.joins) :
    ∃ paths : List (List Nat), paths.Pairwise (· < ·) ∧
      (∀ p, p ∈ paths ↔ ∃ k q u, n ≤ k ∧ p = k :: q ∧ c.Path t p u) ∧
      List.Forall₂ (c.JoinsAlong t tableAlias leading) paths
        (joined.flatMap fun x => joinOf tableAlias x :: x.2.joins) := by
  induction joined generalizing n with
  | nil =>
    refine ⟨[], .nil, fun p => ⟨nofun, ?_⟩, .nil⟩
    rintro ⟨k, q, u, hk, rfl, hp⟩
    obtain ⟨a, ha, -⟩ := path_cons_iff.mp hp
    have hnone := hjoined (k - n)
    rw [Nat.add_sub_cancel' hk, ha] at hnone
    exact nomatch hnone
  | cons x rest ih =>
    have hx : t.associations[n]? = some x.1 := hjoined 0
    have hrest : ∀ k, t.associations[n + 1 + k]? = (rest[k]?).map Prod.fst := by
      intro k
      have hk := hjoined (k + 1)
      rwa [List.getElem?_cons_succ, ← Nat.add_assoc, Nat.add_right_comm] at hk
    obtain ⟨⟨htable, halias⟩, below, hbelow⟩ := each x List.mem_cons_self
    obtain ⟨later, hsorted, hcomplete, hjoins⟩ :=
      ih hrest fun y hy => each y (List.mem_cons_of_mem _ hy)
    refine ⟨([n] :: below.map (n :: ·)) ++ later, ?_, ?_, ?_⟩
    · -- a way goes before those that go on with it, and those before the ways through later ones
      have hbelow' : (below.map (n :: ·)).Pairwise (· < ·) :=
        List.pairwise_map.mpr (hbelow.sorted.imp fun h => List.cons_lt_cons_iff.mpr (.inr ⟨rfl, h⟩))
      have hfirst : ∀ p ∈ [n] :: below.map (n :: ·), ∃ q, p = n :: q := by
        intro p hp
        rcases List.mem_cons.mp hp with rfl | hp
        · exact ⟨[], rfl⟩
        · obtain ⟨q, -, rfl⟩ := List.mem_map.mp hp
          exact ⟨q, rfl⟩
      refine List.pairwise_append.mpr ⟨List.pairwise_cons.mpr ⟨fun p hp => ?_, hbelow'⟩, hsorted,
        fun p hp q hq => ?_⟩
      · obtain ⟨q, hq, rfl⟩ := List.mem_map.mp hp
        obtain ⟨first, rest, rfl⟩ := List.exists_cons_of_ne_nil ((hbelow.complete q).mp hq).1
        exact List.cons_lt_cons_iff.mpr (.inr ⟨rfl, List.nil_lt_cons _ _⟩)
      · obtain ⟨p, rfl⟩ := hfirst p hp
        obtain ⟨k, q, u, hk, rfl, -⟩ := (hcomplete q).mp hq
        exact List.cons_lt_cons_iff.mpr (.inl hk)
    · intro p
      rw [List.mem_append, List.mem_cons, List.mem_map, hcomplete p]
      constructor
      · rintro ((rfl | ⟨q, hq, rfl⟩) | ⟨k, q, u, hk, rfl, hp⟩)
        · exact ⟨n, [], _, Nat.le_refl n, rfl, .cons hx (.nil _)⟩
        · obtain ⟨-, u, hp⟩ := (hbelow.complete q).mp hq
          exact ⟨n, q, u, Nat.le_refl n, rfl, .cons hx hp⟩
        · exact ⟨k, q, u, Nat.le_of_succ_le hk, rfl, hp⟩
      · rintro ⟨k, q, u, hk, rfl, hp⟩
        rcases Nat.eq_or_lt_of_le hk with rfl | hk
        · by_cases hq : q = []
          · exact .inl (.inl (by rw [hq]))
          · obtain ⟨a, ha, hp⟩ := path_cons_iff.mp hp
            obtain rfl := Option.some.inj (hx.symm.trans ha)
            exact .inl (.inr ⟨q, (hbelow.complete q).mpr ⟨hq, u, hp⟩, rfl⟩)
        · exact .inr ⟨k, q, u, hk, rfl, hp⟩
    · have hhere : c.JoinsAlong t tableAlias leading [n] (joinOf tableAlias x) := by
        rw [joinOf, htable, halias]
        exact .here hx
      rw [List.flatMap_cons]
      refine List.rel_append (.cons hhere ?_) hjoins
      exact List.forall₂_map_left_iff.mpr (hbelow.joins.imp fun _ _ h => .down hx h)

end JoinTree

/-- **What is built has one join for each way**, in the order in which they are gone. -/
theorem exists_walks_of_build (h : JoinTree.build c t tableAlias leading branch = .ok j) :
    ∃ paths, JoinTree.Walks c t tableAlias leading paths j.joins := by
  refine (build_induction (motive := fun t tableAlias leading j =>
    (j.table = t ∧ j.tableAlias = tableAlias) ∧
      ∃ paths, JoinTree.Walks c t tableAlias leading paths j.joins) ?_ h).2
  intro t tableAlias leading joined associations each
  refine ⟨⟨rfl, rfl⟩, ?_⟩
  have hjoined : ∀ k : Nat, t.associations[0 + k]? = (joined[k]?).map Prod.fst := by
    intro k
    rw [Nat.zero_add, ← associations, List.getElem?_map]
  obtain ⟨paths, hsorted, hcomplete, hjoins⟩ := JoinTree.exists_walks_from hjoined each
  refine ⟨paths, hsorted, fun p => (hcomplete p).trans ⟨?_, ?_⟩, ?_⟩
  · rintro ⟨k, q, u, -, rfl, hp⟩
    exact ⟨List.cons_ne_nil _ _, u, hp⟩
  · rintro ⟨hp, u, hu⟩
    obtain ⟨k, q, rfl⟩ := List.exists_cons_of_ne_nil hp
    exact ⟨k, q, u, Nat.zero_le k, rfl, hu⟩
  · rw [JoinTree.joins, JoinTree.joinsAll_eq]
    exact hjoins

/-! ## Selects -/

/-- **A select has every table once for each way to it, or gives up at a cycle.** It gives up if and
only if a cycle of associations can be reached from the root, at the end of the first way that leads
back to a type on it. Otherwise it has one join for each way from the root, in the order in which
they are gone, and each joined table hangs on the root or on one that is joined before it. -/
theorem select_cycles (m : Mapping) :
    ((∃ entity field, m.select = .error (.associationCycle entity field)) ↔
      ∃ u, m.catalog.Reaches m.table u ∧ m.catalog.Cyclic u) ∧
    (∀ e, m.select = .error e → ∃ p entity field, e = .associationCycle entity field ∧
      m.catalog.ClosesFirst [m.table.typeId] m.table p entity field) ∧
    ((¬ ∃ u, m.catalog.Reaches m.table u ∧ m.catalog.Cyclic u) →
      ∃ j paths, m.joinTree = .ok j ∧
        m.select = .ok ("select " ++ ", ".intercalate (j.columns.map ResultColumn.sql) ++ "\n" ++
          ("from " ++ m.fromClause ++ String.join (j.joins.map fun join =>
            "\n" ++ ("left join " ++ join.tableName ++ " " ++ join.tableAlias ++ " on " ++
              join.tableAlias ++ "." ++ join.childColumn ++ " = " ++
              join.ownerAlias ++ "." ++ join.parentColumn)))) ∧
        JoinTree.Walks m.catalog m.table m.rootAlias "" paths j.joins ∧
        m.FromAlias m.rootAlias ∧ JoinTree.OwnersKnown [m.rootAlias] j.joins) := by
  have hselect : m.select = m.joinTree.map fun j =>
      "select " ++ ", ".intercalate (j.columns.map ResultColumn.sql) ++ "\n" ++ m.source j := by
    unfold Mapping.select
    cases m.joinTree <;> rfl
  rw [← exists_closes_iff]
  rcases build_cases m.catalog m.table [m.table.typeId] m.rootAlias "" with
    ⟨j, hj, hnone⟩ | ⟨p, entity, field, herror, hfirst⟩
  · have hj : m.joinTree = .ok j := hj
    rw [hj] at hselect
    refine ⟨⟨?_, fun ⟨p, entity, field, hp⟩ => absurd hp (hnone p entity field)⟩, ?_, fun _ => ?_⟩
    · rintro ⟨entity, field, herror⟩
      rw [hselect] at herror
      cases herror
    · intro e herror
      rw [hselect] at herror
      cases herror
    · obtain ⟨paths, hpaths⟩ := exists_walks_of_build hj
      exact ⟨j, paths, hj, hselect, hpaths, m.fromAlias_rootAlias,
        JoinTree.ownersKnown_of_build hj (List.mem_singleton_self _)⟩
  · have herror : m.joinTree = .error (.associationCycle entity field) := herror
    rw [herror] at hselect
    refine ⟨⟨fun _ => ⟨p, entity, field, hfirst.closes⟩, fun _ => ⟨entity, field, hselect⟩⟩,
      fun e he => ⟨p, entity, field, ?_, hfirst⟩, fun hnone => ?_⟩
    · exact Except.error.inj (he.symm.trans hselect)
    · exact absurd ⟨p, entity, field, hfirst.closes⟩ hnone

end EntityMapper
