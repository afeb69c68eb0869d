import EntityMapper.Proofs.Graph.Distinct
import EntityMapper.Proofs.Graph.Readable

/-!
# Rows that agree

Rows agree where they show one object: with the key columns of an object and of its owners they
also share its other columns, and they lead to one object through an association that has room for
one only. Then all that is seen of one object agrees, and each row can be read or cannot, whatever
other rows there are.

* `Catalog.Meets` — two rows show one object
* `Catalog.RowsConcord` — rows that agree
* `Occurrence.Of.concord` — views that agree show occurrences that agree
* `RowsConcord.concordant` — so do rows
-/

namespace EntityMapper

open Occurrence (nested? nestedIn)

variable {c : Catalog} {t : Table} {v w : View}

/-! ## Rows that show one object -/

/-- Two views of a table lead to two views of another through the same associations, and everywhere
on the way the key columns have the same texts: both show one object there, and so do its
owners. -/
inductive Catalog.Meets (c : Catalog) : Table → View → View → Table → View → View → Prop
  | here {t : Table} {v w : View} (opens : t.opens v = true) (same : t.sameObject v w = true) :
      Meets c t v w t v w
  | further {t u : Table} {v w v' w' : View} {a : String × Association} (opens : t.opens v = true)
      (same : t.sameObject v w = true) (ha : a ∈ t.associations)
      (h : Meets c (c.table a.2.target) (v.through a.1) (w.through a.1) u v' w') :
      Meets c t v w u v' w'

/-- Two views have the same columns of a table, with the same values. -/
def Table.SameColumns (t : Table) (v w : View) : Prop :=
  ∀ f ∈ t.scalarFields, v.cell? f.name = w.cell? f.name

/-- Two views of one object agree on its columns and on the object that an association leads to
where it leads to one only. -/
structure Catalog.Agree (c : Catalog) (t : Table) (v w : View) : Prop where
  columns : t.SameColumns v w
  one : ∀ a ∈ t.associations, a.2.cardinality = .one →
    (c.table a.2.target).opens (v.through a.1) = true →
    (c.table a.2.target).opens (w.through a.1) = true →
    (c.table a.2.target).sameObject (v.through a.1) (w.through a.1) = true

/-- Two views agree wherever they show one object. -/
def Catalog.Concords (c : Catalog) (t : Table) (v w : View) : Prop :=
  ∀ (u : Table) (v' w' : View), c.Meets t v w u v' w' → c.Agree u v' w'

/-- Any two rows agree wherever they show one object. -/
def Catalog.RowsConcord (c : Catalog) (t : Table) (rows : List Row) : Prop :=
  ∀ r ∈ rows, ∀ s ∈ rows, c.Concords t (.ofRow r) (.ofRow s)

theorem Catalog.RowsConcord.perm {rows rows' : List Row} (h : c.RowsConcord t rows)
    (hperm : rows.Perm rows') : c.RowsConcord t rows' :=
  fun r hr s hs => h r (hperm.mem_iff.mpr hr) s (hperm.mem_iff.mpr hs)

theorem Catalog.Concords.agree (h : c.Concords t v w) (hopens : t.opens v = true)
    (hsame : t.sameObject v w = true) : c.Agree t v w := h _ _ _ (.here hopens hsame)

theorem Catalog.Concords.through (h : c.Concords t v w) (hopens : t.opens v = true)
    (hsame : t.sameObject v w = true) {a : String × Association} (ha : a ∈ t.associations) :
    c.Concords (c.table a.2.target) (v.through a.1) (w.through a.1) :=
  fun _ _ _ hm => h _ _ _ (.further hopens hsame ha hm)

/-- Views agree where they show one object and what is seen below it agrees. -/
theorem Catalog.concords_of_below
    (hagree : t.opens v = true → t.sameObject v w = true → c.Agree t v w)
    (hbelow : t.opens v = true → t.sameObject v w = true → ∀ a ∈ t.associations,
      c.Concords (c.table a.2.target) (v.through a.1) (w.through a.1)) : c.Concords t v w := by
  intro u v' w' h
  cases h with
  | here opens same => exact hagree opens same
  | further opens same ha h => exact hbelow opens same _ ha u v' w' h

/-! ## What the same columns give -/

namespace Table.SameColumns

theorem key (h : t.SameColumns v w) {f : Field} (hf : f ∈ t.primaryKey) :
    v.cell? f.name = w.cell? f.name := h f (List.mem_of_mem_filter hf)

theorem columnValues_eq (h : t.SameColumns v w) {fs : List Field}
    (hfs : ∀ f ∈ fs, f ∈ t.scalarFields) :
    t.columnValues v.row v.leading fs = t.columnValues w.row w.leading fs := by
  induction fs with
  | nil => rfl
  | cons f fs ih =>
    have hcell : v.row.get? (v.leading ++ f.name) = w.row.get? (w.leading ++ f.name) :=
      h f (hfs f List.mem_cons_self)
    rw [Table.columnValues, Table.columnValues, Table.columnValue, Table.columnValue, hcell,
      ih fun f hf => hfs f (List.mem_cons_of_mem _ hf)]

theorem rowObject_eq (h : t.SameColumns v w) :
    t.rowObject v.row v.leading = t.rowObject w.row w.leading := by
  rw [Table.rowObject, Table.rowObject, h.columnValues_eq fun _ hf => hf]

theorem seen_eq (h : t.SameColumns v w) : t.seen v = t.seen w := by
  rw [Table.seen, Table.seen]
  congr 1
  exact List.map_congr_left fun f hf => by rw [Field.seenIn, Field.seenIn, h f hf]

theorem opens_eq (h : t.SameColumns v w) : t.opens v = t.opens w := by
  have hkey : t.groupKey? v = t.groupKey? w := by
    have hparts : (t.primaryKey.mapM fun f => f.keyCell? v) =
        t.primaryKey.mapM fun f => f.keyCell? w :=
      mapM_congr fun f hf => by rw [Field.keyCell?, Field.keyCell?, h.key hf]
    rw [Table.groupKey?, Table.groupKey?, hparts]
  have hreads : t.keyReads v = t.keyReads w := by
    rw [Bool.eq_iff_iff, Table.keyReads, Table.keyReads, List.all_eq_true, List.all_eq_true]
    exact forall₂_congr fun f hf => by rw [h.key hf]
  have hpresent : t.present v = t.present w := by
    rw [Bool.eq_iff_iff, Table.present, Table.present, List.any_eq_true, List.any_eq_true]
    exact exists_congr fun f => and_congr_right fun hf => by rw [h f hf]
  rw [Table.opens, Table.opens, hkey, hreads, hpresent]

end Table.SameColumns

/-! ## Keys of views -/

theorem Table.sameObject_iff : t.sameObject v w = true ↔
    ∃ k, t.groupKey? v = some k ∧ t.groupKey? w = some k := by
  unfold Table.sameObject
  cases t.groupKey? v with
  | none => simp
  | some k => simp

theorem Table.sameObject_comm (t : Table) (v w : View) : t.sameObject v w = t.sameObject w v := by
  rw [Bool.eq_iff_iff, Table.sameObject_iff, Table.sameObject_iff]
  exact exists_congr fun k => and_comm

/-- Views that agree show one object both or neither. -/
theorem Catalog.Concords.opens_eq (hv : c.Concords t v w) (hw : c.Concords t w v)
    (hsame : t.sameObject v w = true) : t.opens v = t.opens w := by
  rw [Bool.eq_iff_iff]
  refine ⟨fun h => ?_, fun h => ?_⟩
  · rwa [← (hv.agree h hsame).columns.opens_eq]
  · rwa [← (hw.agree h (t.sameObject_comm v w ▸ hsame)).columns.opens_eq]

/-! ## What the views show -/

variable {o p : Occurrence}

theorem Occurrence.SeenIn.sameObject (ho : o.SeenIn c v) (hp : p.SeenIn c w)
    (htable : p.table = o.table) (h : o.same p = true) : o.table.sameObject v w = true := by
  rw [Table.sameObject_iff]
  unfold Occurrence.same at h
  rcases ho.identity with ⟨k, hk, hi⟩ | ⟨-, hi⟩
  · rcases hp.identity with ⟨l, hl, hj⟩ | ⟨-, hj⟩
    · simp only [hi, hj, Bool.and_eq_true, beq_iff_eq] at h
      exact ⟨k, hk, by rw [← htable, hl, h.2]⟩
    · simp [hi, hj] at h
  · simp [hi] at h

theorem Occurrence.SeenIn.opens (ho : o.SeenIn c v) (hsame : o.table.sameObject v w = true)
    {ob : Object} (hob : o.object = .ok (some ob)) : o.table.opens v = true := by
  obtain ⟨k, hk, -⟩ := Table.sameObject_iff.mp hsame
  rw [ho.object] at hob
  rw [Table.opens, if_pos (hasPrimaryKey_of_groupKey? hk), hk, (seen_of_rowObject hob).2]
  rfl

/-- **Views that agree show occurrences that agree.** -/
theorem Occurrence.Of.concord (ho : o.Of c) (hdistinct : c.TargetsDistinct o.table)
    (hov : o.SeenIn c v) (hpw : p.SeenIn c w) (htable : p.table = o.table)
    (h : c.Concords o.table v w) : o.Concord p := by
  induction ho generalizing p v w with
  | @mk t identity object nested suits places each ih =>
    generalize hoeq : Occurrence.mk t identity object nested = o at *
    have hnested : o.nested = nested := hoeq ▸ rfl
    refine .mk (fun hsame ob hob => ?_) fun hsame ob hob x hx y hy => ?_
    · have hone := hov.sameObject hpw htable hsame
      have hagree := h.agree (hov.opens hone hob) hone
      rw [hpw.object, htable, ← hagree.columns.rowObject_eq, ← hov.object, hob]
    · have hone := hov.sameObject hpw htable hsame
      obtain ⟨a, ha, hxt, hxv⟩ := hov.nested_seenIn hx
      obtain ⟨b, hb, hyt, hyw⟩ := hpw.nested_seenIn hy
      rw [htable] at hb
      have hmem : a ∈ o.table.associations := List.mem_of_getElem? ha
      by_cases hname : (c.table a.2.target).entity = (c.table b.2.target).entity
      · -- what has one name is seen through one association
        have hplace := place_eq_of_name (hdistinct _ (.refl _)) ha hb hname
        rw [← hplace, ha, Option.some.injEq] at hb
        subst hb
        have hbelow := h.through (hov.opens hone hob) hone hmem
        refine ih x (hnested ▸ hx) ?_ hxv hyw (hyt.trans hxt.symm) (hxt ▸ hbelow)
        rw [hxt]
        exact hdistinct.of_mem (List.mem_map_of_mem hmem)
      · have hnot : ¬ x.2.same y.2 = true := fun hs => hname <| by
          have hentity := Occurrence.entity_of_same hs
          rwa [hxt, hyt] at hentity
        exact .mk (fun hs => absurd hs hnot) fun hs => absurd hs hnot

/-! ## Rows -/

theorem Catalog.RowsConcord.concordant {rows : List Row} (h : c.RowsConcord t rows)
    (hdistinct : c.TargetsDistinct t) : Concordant (rows.filterMap (Sight.readRow c t)) := by
  intro x hx y hy
  obtain ⟨r, hr, hx⟩ := List.mem_filterMap.mp hx
  obtain ⟨s, hs, hy⟩ := List.mem_filterMap.mp hy
  obtain ⟨hxt, hxv, hof⟩ := ofRow_seenIn (Sight.ofRow_of_readRow hx).2
  obtain ⟨hyt, hyw, -⟩ := ofRow_seenIn (Sight.ofRow_of_readRow hy).2
  exact hof.concord (hxt ▸ hdistinct) hxv hyw (hyt.trans hxt.symm) (hxt ▸ h r hr s hs)

end EntityMapper
