import Mathlib.Data.List.Nodup
import EntityMapper.Proofs.Graph.Distinct
import EntityMapper.Proofs.Graph.Sound
import EntityMapper.Proofs.Join.Product

/-!
# From objects to joined rows and back

The joined rows of objects are grouped by key at every table of the select. The groups come up in
the order of the objects, and in its group an object shows its own values and, in the columns of
each association, the rows of the objects under it. By induction on the select the objects come
back; no column ever holds what its field cannot, so there is always a result.

* `gives_of_show` — rows that show objects under a table of the select give them back
* `materialize_joinedRows` — materializing the joined rows of objects gives the objects
* `joinedRows_not_given_back` — and not where two types of one name are led to, or where fresh
  objects lead to some
-/

namespace EntityMapper

open JoinTree (rowsBelow belowIn)
open Occurrence (nested? nestedIn nestedPrefix)

variable {c : Catalog} {t : Table} {j : JoinTree} {rows : List Row} {o : Object}

/-- Rows show objects at a table of the select: in its columns they have the rows of the objects,
each at least once, and those that are new in their order. -/
def JoinTree.Show (j : JoinTree) (rows : List Row) (expected : List (List Value)) : Prop :=
  Alike (rows.map j.valuesIn) (expected.map (List.map some))

/-- Rows give objects at a table of the select: the groups of its views are the objects, and what is
seen there can be read. -/
structure JoinTree.Gives (c : Catalog) (j : JoinTree) (rows : List Row) (os : List Object) :
    Prop where
  objects : (j.table.groups (rows.map j.view)).map (c.grouped j.table) = os
  sound : ∀ row ∈ rows, ∀ o, nested? c row j.table j.leading = some o → o.Sound

/-! ## Fresh objects -/

/-- Fresh objects lead to none, in any table reached. -/
def Catalog.StartsEmpty (c : Catalog) (t : Table) : Prop :=
  ∀ u, c.Reaches t u → ∀ p < u.associations.length, u.initialChildren p = []

/-- Fresh objects lead to none where this is so in each table of the catalog. -/
theorem Catalog.startsEmpty_of_tables
    (h : ∀ u ∈ t :: c.tables, ∀ p < u.associations.length, u.initialChildren p = []) :
    c.StartsEmpty t := fun u hu => by
  refine hu.of_tables (P := fun u => ∀ p < u.associations.length, u.initialChildren p = []) h ?_
  intro u hnone p hp
  rw [Table.associations, hnone] at hp
  exact absurd hp (Nat.not_lt_zero p)

/-- An association that leads to nothing at first holds what is found for it. -/
theorem grouped_of_empty (h : ∀ p < t.associations.length, t.initialChildren p = [])
    (g : List View) : c.grouped t g =
      { t.seenFirst g with
        children := t.associations.map fun a => a.2.cardinality.keep [] <|
          ((c.table a.2.target).groups (g.map fun v => v.through a.1)).map
            (c.grouped (c.table a.2.target)) } := by
  rw [c.grouped_eq]
  refine congrArg (fun kids => { t.seenFirst g with children := kids }) ?_
  refine List.ext_getElem? fun p => ?_
  rw [List.getElem?_map, List.getElem?_map, List.getElem?_zipIdx, Option.map_map]
  cases ha : t.associations[p]? with
  | none => rfl
  | some a =>
    have hp : p < t.associations.length := (List.getElem?_eq_some_iff.mp ha).1
    simp only [Option.map_some, Function.comp_apply, Nat.zero_add, h p hp]

/-! ## No objects -/

/-- Nulls give no object. -/
theorem gives_nil (h : j.Show rows (j.rowsUnder [])) : j.Gives c rows [] := by
  rw [JoinTree.Show, JoinTree.rowsUnder_nil, List.map_singleton, List.map_replicate] at h
  have hnull : ∀ row ∈ rows, j.table.cells (j.view row) =
      List.replicate j.table.scalarFields.length (some .null) := by
    intro row hrow
    have hvalues := List.mem_singleton.mp ((h.mem_iff _).mp (List.mem_map_of_mem hrow))
    rw [← j.take_valuesIn, hvalues, List.take_replicate, JoinTree.labels_eq, List.length_append,
      List.length_map]
    congr 1
    omega
  have hnothing := fun row hrow => not_opens_of_null (c := c) (hnull row hrow)
  refine ⟨?_, fun row hrow o ho => nomatch (hnothing row hrow).2.symm.trans ho⟩
  have hgroups : j.table.groups (rows.map j.view) = [] := by
    refine firstSeen_eq_nil fun v hv => ?_
    obtain ⟨row, hrow, rfl⟩ := List.mem_map.mp hv
    exact (hnothing row hrow).1
  rw [hgroups, List.map_nil]

/-! ## One object -/

/-- The rows of an object start with its values. -/
theorem take_of_mem_rowsOf (ho : c.Describes j.table o) {values : List (Option Value)}
    (h : values ∈ (j.rowsOf o).map (List.map some)) :
    values.take j.table.scalarFields.length = o.cells := by
  rw [j.rowsOf_eq] at h
  obtain ⟨r, hr, rfl⟩ := List.mem_map.mp h
  obtain ⟨r', -, rfl⟩ := List.mem_map.mp hr
  rw [List.map_append, List.map_map]
  refine List.take_left' ?_
  rw [List.length_map, ho.holds.length_eq]

/-- Rows of one object show its values. -/
theorem shown_of_show (ho : c.Describes j.table o) (h : j.Show rows (j.rowsOf o)) :
    ∀ row ∈ rows, j.table.Shown (j.view row) o := by
  intro row hrow
  rw [Table.Shown, ← j.take_valuesIn]
  exact take_of_mem_rowsOf ho ((h.mem_iff _).mp (List.mem_map_of_mem hrow))

/-- Rows of one object show what it has below it. -/
theorem alike_below (ho : c.Describes j.table o) (h : j.Show rows (j.rowsOf o)) :
    Alike (rows.map (belowIn j.joined))
      ((rowsBelow j.joined o.children).map (List.map some)) := by
  have hdrop := h.map (List.drop j.table.scalarFields.length)
  rw [List.map_map, j.rowsOf_eq, List.map_map, List.map_map] at hdrop
  have hrow : (List.drop j.table.scalarFields.length) ∘ j.valuesIn = belowIn j.joined :=
    funext j.drop_valuesIn
  have hexpected : ((rowsBelow j.joined o.children).map
      ((List.drop j.table.scalarFields.length ∘ List.map some) ∘
        fun r => o.values.map Datum.toValue ++ r)) =
      (rowsBelow j.joined o.children).map (List.map some) := by
    refine List.map_congr_left fun r _ => ?_
    rw [Function.comp_apply, Function.comp_apply, List.map_append, List.map_map]
    refine List.drop_left' ?_
    rw [List.length_map, ho.holds.length_eq]
  rwa [hrow, hexpected] at hdrop

/-- Each association gives the objects under it. -/
theorem forall₂_gives (hj : j.Unfolds c)
    (ih : ∀ x ∈ j.joined, ∀ kids, Fits c x kids → x.2.Show rows (x.2.rowsUnder kids) →
      x.2.Gives c rows kids)
    (ho : c.Describes j.table o) (h : j.Show rows (j.rowsOf o)) :
    List.Forall₂ (fun x kids => x ∈ j.joined ∧ Fits c x kids ∧ x.2.Gives c rows kids)
      j.joined o.children := by
  have hbelow := alike_below ho h
  cases hj with
  | mk associations tables unfolds =>
    have hfits := (List.forall₂_and_left _ _).mpr
      ⟨fun x hx => hx, ho.fits associations fun x hx => (tables x hx).1⟩
    have hslices := alike_rowsUnder (hfits.imp fun x kids hx =>
        ⟨length_of_mem_rowsUnder (fun o ho => length_of_mem_rowsOf (unfolds x hx.1) ho) hx.2.each,
          JoinTree.rowsUnder_ne_nil (JoinTree.rowsOf_ne_nil (unfolds x hx.1)) kids⟩)
      (JoinTree.rowsBelow_ne_nil (fun x hx => JoinTree.rowsOf_ne_nil (unfolds x hx)) o.children)
      hbelow
    refine List.forall₂_iff_get.mpr ⟨hfits.length_eq, fun p hp hq => ?_⟩
    obtain ⟨hx, hfit⟩ := hfits.get hp hq
    exact ⟨hx, hfit, ih _ hx _ hfit (hslices.get hp hq)⟩

/-- **The object of rows that show it.** Its values are those of the first row, and what it leads
to comes of the columns below. -/
theorem grouped_of_show (hj : j.Unfolds c)
    (hempty : ∀ p < j.table.associations.length, j.table.initialChildren p = [])
    (ih : ∀ x ∈ j.joined, ∀ kids, Fits c x kids → x.2.Show rows (x.2.rowsUnder kids) →
      x.2.Gives c rows kids)
    (ho : c.Describes j.table o) (h : j.Show rows (j.rowsOf o)) :
    c.grouped j.table (rows.map j.view) = o := by
  have hgives := forall₂_gives hj ih ho h
  -- some row shows the object, so there is a first one
  have hrows : rows ≠ [] := by
    rintro rfl
    obtain ⟨r, rs, hr⟩ := List.exists_cons_of_ne_nil (JoinTree.rowsOf_ne_nil hj o)
    have hmem := (h.mem_iff (r.map some)).mpr (by rw [hr]; exact List.mem_cons_self)
    exact absurd hmem List.not_mem_nil
  obtain ⟨row, rest, rfl⟩ := List.exists_cons_of_ne_nil hrows
  have hseen := seen_of_shown ho (shown_of_show ho h row List.mem_cons_self)
  have hchildren : (j.table.associations.map fun a => a.2.cardinality.keep [] <|
      ((c.table a.2.target).groups (((row :: rest).map j.view).map fun v => v.through a.1)).map
        (c.grouped (c.table a.2.target))) = o.children := by
    cases hj with
    | @mk t tableAlias leading joined associations tables unfolds =>
      show t.associations.map _ = _
      rw [← associations, List.map_map, ← List.forall₂_eq_eq_eq, List.forall₂_map_left_iff]
      refine hgives.imp fun x kids hx => ?_
      obtain ⟨hmem, hfit, hgives⟩ := hx
      obtain ⟨htable, hleading⟩ := tables x hmem
      have hviews : (((row :: rest).map (JoinTree.mk t tableAlias leading joined).view).map
          fun v => v.through x.1.1) = (row :: rest).map x.2.view := by
        rw [List.map_map]
        refine List.map_congr_left fun row _ => ?_
        rw [JoinTree.view, hleading]
        rfl
      rw [Function.comp_apply, hviews, ← htable, hgives.objects]
      exact Cardinality.keep_eq hfit.single
  rw [grouped_of_empty hempty, hchildren]
  cases ho with
  | mk typeId unmapped _ _ _ _ _ _ =>
    obtain ⟨typeId', values', children', unmapped'⟩ := o
    simp only at typeId unmapped hseen
    subst typeId unmapped hseen
    rfl

/-- What is seen of an object in rows that show it can be read. -/
theorem sound_of_show (hj : j.Unfolds c)
    (ih : ∀ x ∈ j.joined, ∀ kids, Fits c x kids → x.2.Show rows (x.2.rowsUnder kids) →
      x.2.Gives c rows kids)
    (ho : c.Describes j.table o) (h : j.Show rows (j.rowsOf o)) {row : Row} (hrow : row ∈ rows)
    {x : Occurrence} (hx : nested? c row j.table j.leading = some x) : x.Sound := by
  have hgives := forall₂_gives hj ih ho h
  have hbelow := ((List.forall₂_and_left (R := fun _ _ => True) j.joined o.children).mp
    (hgives.imp fun x kids hx => ⟨hx.2.2.sound, trivial⟩)).1
  have hx : nested? c (j.view row).row j.table (j.view row).leading = some x := hx
  rw [nested?_eq] at hx
  obtain ⟨identity, -, rfl⟩ := Option.map_eq_some_iff.mp hx
  refine .mk (rowObject_of_shown ho (shown_of_show ho h row hrow)) fun y hy => ?_
  obtain ⟨a, ha, hy⟩ := mem_nestedIn hy
  cases hj with
  | mk associations tables unfolds =>
    obtain ⟨x, hxmem, rfl⟩ := List.mem_map.mp (associations ▸ List.mem_of_getElem? ha)
    obtain ⟨htable, hleading⟩ := tables x hxmem
    refine hbelow x hxmem row hrow y.2 ?_
    rw [htable, hleading]
    exact hy

/-! ## All objects -/

variable {os : List Object}

/-- The key in the columns of a table of the select. -/
def JoinTree.keyOf? (j : JoinTree) (values : List (Option Value)) : Option (List KeyPart) :=
  j.table.keyOfCells? (values.take j.table.scalarFields.length)

theorem keyOf?_valuesIn (j : JoinTree) (row : Row) :
    j.keyOf? (j.valuesIn row) = j.table.groupKey? (j.view row) := by
  rw [JoinTree.keyOf?, j.take_valuesIn, groupKey?_eq]

theorem keyOf?_of_mem_rowsOf (each : ∀ o ∈ os, c.Describes j.table o) :
    ∀ o ∈ os, ∀ values ∈ (j.rowsOf o).map (List.map some),
      j.keyOf? values = some (j.table.keyTexts o) := by
  intro o ho values hvalues
  rw [JoinTree.keyOf?, take_of_mem_rowsOf (each o ho) hvalues, keyOfCells?_cells (each o ho)]

/-- Different keys have different texts. -/
theorem nodup_keyTexts (hkey : j.table.KeyDiscrete) (each : ∀ o ∈ os, c.Describes j.table o)
    (distinct : (os.map j.table.keyValues).Nodup) :
    (os.map fun o => some (j.table.keyTexts o)).Nodup := by
  refine List.Nodup.map_on (fun o ho o' ho' h => ?_) distinct.of_map
  have htexts := keyTexts_injective hkey (each o ho) (each o' ho') (Option.some.inj h)
  exact List.inj_on_of_nodup_map distinct ho ho' htexts

/-- The rows that show an object among others. -/
def JoinTree.rowsFor (j : JoinTree) (rows : List Row) (o : Object) : List Row :=
  rows.filter fun row => j.table.groupKey? (j.view row) == some (j.table.keyTexts o)

/-- The rows that show an object show all of it. -/
theorem show_rowsFor (hkey : j.table.KeyDiscrete) (each : ∀ o ∈ os, c.Describes j.table o)
    (distinct : (os.map j.table.keyValues).Nodup) (h : j.Show rows (os.flatMap j.rowsOf))
    (ho : o ∈ os) : j.Show (j.rowsFor rows o) (j.rowsOf o) := by
  have hfilter := h.filter fun values => j.keyOf? values == some (j.table.keyTexts o)
  have hexpected := filter_flatMap_of_key (keyOf?_of_mem_rowsOf each)
    (nodup_keyTexts hkey each distinct) ho
  rw [List.map_flatMap, hexpected, List.filter_map] at hfilter
  have hrows : (rows.filter ((fun values => j.keyOf? values == some (j.table.keyTexts o)) ∘
      j.valuesIn)) = j.rowsFor rows o :=
    List.filter_congr fun row _ => by rw [Function.comp_apply, keyOf?_valuesIn]
  rwa [hrows] at hfilter

/-- **The groups of rows that show objects**: one for each object, in their order. -/
theorem groups_of_show (hj : j.Unfolds c) (hkey : j.table.KeyDiscrete)
    (each : ∀ o ∈ os, c.Describes j.table o) (distinct : (os.map j.table.keyValues).Nodup)
    (h : j.Show rows (os.flatMap j.rowsOf)) :
    j.table.groups (rows.map j.view) = os.map fun o => (j.rowsFor rows o).map j.view := by
  -- every row shows some object, so it opens a group for its key
  have hshown : ∀ v ∈ rows.map j.view, ∃ o ∈ os, j.table.Shown v o := by
    intro v hv
    obtain ⟨row, hrow, rfl⟩ := List.mem_map.mp hv
    have hmem := (h.mem_iff _).mp (List.mem_map_of_mem hrow)
    rw [List.map_flatMap] at hmem
    obtain ⟨o, ho, hmem⟩ := List.mem_flatMap.mp hmem
    refine ⟨o, ho, ?_⟩
    rw [Table.Shown, ← j.take_valuesIn]
    exact take_of_mem_rowsOf (each o ho) hmem
  have hopens : ∀ v ∈ rows.map j.view, j.table.opens v = true := by
    intro v hv
    obtain ⟨o, ho, hv⟩ := hshown v hv
    exact opens_of_shown (each o ho) hv
  have hsame : ∀ v ∈ rows.map j.view, ∀ w ∈ rows.map j.view,
      j.table.sameObject v w = (j.table.groupKey? w == j.table.groupKey? v) := by
    intro v hv w _
    obtain ⟨o, ho, hv⟩ := hshown v hv
    rw [Table.sameObject, groupKey?_of_shown (each o ho) hv]
  have hkeys : ((rows.map j.view).map j.table.groupKey?).eraseDups =
      os.map fun o => some (j.table.keyTexts o) := by
    have hexpected := alike_map_key (keyOf?_of_mem_rowsOf (j := j) each) fun o _ => by
      simpa using JoinTree.rowsOf_ne_nil hj o
    rw [← List.map_flatMap] at hexpected
    have halike := (h.map j.keyOf?).trans hexpected
    have hrows : (rows.map j.valuesIn).map j.keyOf? = (rows.map j.view).map j.table.groupKey? := by
      rw [List.map_map, List.map_map]
      exact List.map_congr_left fun row _ => keyOf?_valuesIn j row
    rw [← hrows, halike, eraseDups_eq_self (nodup_keyTexts hkey each distinct)]
  rw [Table.groups, firstSeen_eq_map_key hopens hsame, hkeys, List.map_map]
  refine List.map_congr_left fun o _ => ?_
  rw [Function.comp_apply, List.filter_map]
  rfl

/-- **Rows that show objects under a table of the select give them back.** -/
theorem gives_of_show (hj : j.Unfolds c) (hempty : c.StartsEmpty j.table)
    (hkeys : c.KeysDiscrete j.table)
    (each : ∀ o ∈ os, c.Describes j.table o) (distinct : (os.map j.table.keyValues).Nodup)
    (h : j.Show rows (j.rowsUnder os)) : j.Gives c rows os := by
  induction hj generalizing rows os with
  | @mk t tableAlias leading joined associations tables unfolds ih =>
    by_cases hos : os = []
    · subst hos
      exact gives_nil h
    rw [JoinTree.rowsUnder_of_ne_nil _ hos] at h
    have hj : (JoinTree.mk t tableAlias leading joined).Unfolds c :=
      .mk associations tables unfolds
    have hkey : (JoinTree.mk t tableAlias leading joined).table.KeyDiscrete := hkeys t (.refl t)
    have hbelow : ∀ rows : List Row, ∀ x ∈ joined, ∀ kids, Fits c x kids →
        x.2.Show rows (x.2.rowsUnder kids) → x.2.Gives c rows kids := by
      intro rows x hx kids hfit
      have htarget : x.2.table ∈ c.targets t := by
        rw [(tables x hx).1]
        exact List.mem_map_of_mem (associations ▸ List.mem_map_of_mem hx)
      exact ih x hx (fun u hu => hempty u (.step htarget hu))
        (fun u hu => hkeys u (.step htarget hu)) hfit.each hfit.distinct
    have hshow := fun o ho => show_rowsFor (o := o) hkey each distinct h ho
    constructor
    · rw [groups_of_show hj hkey each distinct h, List.map_map]
      refine (List.map_congr_left fun o ho => ?_).trans (List.map_id os)
      exact grouped_of_show hj (hempty t (.refl t)) (hbelow _) (each o ho) (hshow o ho)
    · intro row hrow x hx
      -- a row is among those of the object that it shows
      have hmem := (h.mem_iff _).mp (List.mem_map_of_mem hrow)
      rw [List.map_flatMap] at hmem
      obtain ⟨o, ho, hmem⟩ := List.mem_flatMap.mp hmem
      refine sound_of_show hj (hbelow _) (each o ho) (hshow o ho)
        (List.mem_filter.mpr ⟨hrow, ?_⟩) hx
      rw [beq_iff_eq, ← keyOf?_valuesIn]
      exact keyOf?_of_mem_rowsOf each o ho _ hmem

/-! ## Joined rows -/

/-- The view of a whole row shows the same object as the row. -/
theorem ofRow_eq_nested? {t : Table} {row : Row} {k : List KeyPart}
    (h : t.groupKey? (.ofRow row) = some k) :
    Occurrence.ofRow c t row = .ok (nested? c row t "") := by
  have hkey := hasPrimaryKey_of_groupKey? h
  have hnested : nested? c row t "" =
      some (.mk t (.keyed k) (t.rowObject row "") (nestedIn c row t "")) := by
    have hnested := nested?_eq c t (.ofRow row)
    rw [nestedIdentity?_eq, if_pos hkey, h] at hnested
    exact hnested
  have hparts : t.keyParts row "" = .ok k := by
    have hparts := toOption_keyParts t (.ofRow row)
    rw [h] at hparts
    cases hk : t.keyParts row "" with
    | error e => rw [View.ofRow, hk] at hparts; cases hparts
    | ok parts =>
      rw [View.ofRow, hk] at hparts
      exact congrArg _ (Option.some.inj hparts)
  rw [hnested, Occurrence.ofRow, Table.rootIdentity?, if_pos hkey, hparts]
  rfl

/-- Joined rows show the objects that they are made of. -/
theorem show_joinedRows (hj : j.Unfolds c) (hlabels : j.labels.Nodup)
    (each : ∀ o ∈ os, c.Describes j.table o) :
    j.Show ((os.flatMap j.rowsOf).map fun values => Row.ofColumns (j.labels.zip values))
      (os.flatMap j.rowsOf) := by
  have hvalues : ((os.flatMap j.rowsOf).map fun values => Row.ofColumns (j.labels.zip values)).map
      j.valuesIn = (os.flatMap j.rowsOf).map (List.map some) := by
    rw [List.map_map]
    refine List.map_congr_left fun values hvalues => ?_
    obtain ⟨o, ho, hvalues⟩ := List.mem_flatMap.mp hvalues
    exact map_get?_ofColumns hlabels (length_of_mem_rowsOf hj (each o ho) values hvalues).symm
  rw [JoinTree.Show, hvalues]
  exact .refl _

/-- Objects that joined rows can tell: there is a select with columns of different names, the keys
are integers, truth values, texts or named states, and no two of the objects have one. -/
structure Mapping.Joins (m : Mapping) (objects : List Object) : Prop where
  select : m.select.isOk = true
  labels : m.labels.Nodup
  keys : m.catalog.KeysDiscrete m.table
  each : ∀ o ∈ objects, m.catalog.Describes m.table o
  distinct : (objects.map m.table.keyValues).Nodup

/-- **Materializing the joined rows of objects gives the objects**: the same ones, with the same
values, and those under each association in their order. The associations of a table lead to types
of different names, and fresh objects lead to none. -/
theorem materialize_joinedRows {m : Mapping} {objects : List Object} (h : m.Joins objects)
    (hnames : m.catalog.NamesApart m.table) (hdistinct : m.catalog.TargetsDistinct m.table)
    (hempty : m.catalog.StartsEmpty m.table) :
    materialize m.catalog m.table (m.joinedRows objects) = .ok objects := by
  obtain ⟨hselect, hlabels, hkeys, each, distinct⟩ := h
  obtain ⟨sql, hselect⟩ := exists_of_isOk hselect
  obtain ⟨j, hj, -⟩ := exists_of_bind_eq_ok hselect
  obtain ⟨hunfolds, htable, hleading⟩ := unfolds_of_build hj
  have hlabels : j.labels.Nodup := by rwa [Mapping.labels, hj] at hlabels
  rw [← htable] at hnames hdistinct hempty hkeys each distinct ⊢
  generalize hrows : m.joinedRows objects = rows
  have hrows : rows =
      (objects.flatMap j.rowsOf).map fun values => Row.ofColumns (j.labels.zip values) := by
    rw [← hrows, Mapping.joinedRows, hj]
  have hshow : j.Show rows (objects.flatMap j.rowsOf) :=
    hrows ▸ show_joinedRows hunfolds hlabels each
  -- without objects there are no rows
  by_cases hnone : objects = []
  · subst hnone
    rw [hrows]
    rfl
  have hgives := gives_of_show hunfolds hempty hkeys each distinct
    (show j.Show rows (j.rowsUnder objects) by rwa [JoinTree.rowsUnder_of_ne_nil _ hnone])
  -- every row has a root object
  have hview : j.view = .ofRow := funext fun row => by rw [JoinTree.view, hleading]; rfl
  have hkey : ∀ row ∈ rows, ∃ k, j.table.groupKey? (.ofRow row) = some k := by
    intro row hrow
    have hmem := (hshow.mem_iff _).mp (List.mem_map_of_mem hrow)
    rw [List.map_flatMap] at hmem
    obtain ⟨o, ho, hmem⟩ := List.mem_flatMap.mp hmem
    refine ⟨j.table.keyTexts o, ?_⟩
    rw [← hview, ← keyOf?_valuesIn]
    exact keyOf?_of_mem_rowsOf each o ho _ hmem
  have hread : ∀ row ∈ rows, ∃ o, Occurrence.ofRow m.catalog j.table row = .ok o ∧
      ∀ x, o = some x → x.Sound := by
    intro row hrow
    obtain ⟨k, hk⟩ := hkey row hrow
    refine ⟨_, ofRow_eq_nested? hk, fun x hx => hgives.sound row hrow x ?_⟩
    rw [hleading]
    exact hx
  obtain ⟨result, hresult⟩ := exists_materialize hnames hread
  rw [hresult, materialize_grouped hnames hdistinct hresult]
  have hroots : j.table.rootGroups rows = j.table.groups (rows.map j.view) := by
    have hsome : rows ≠ [] := by
      obtain ⟨o, more, rfl⟩ := List.exists_cons_of_ne_nil hnone
      rw [hrows, List.flatMap_cons]
      simp [JoinTree.rowsOf_ne_nil hunfolds o]
    obtain ⟨row, rest, hcons⟩ := List.exists_cons_of_ne_nil hsome
    obtain ⟨k, hk⟩ := hkey row (by rw [hcons]; exact List.mem_cons_self)
    rw [Table.rootGroups, if_pos (hasPrimaryKey_of_groupKey? hk), hview]
  rw [hroots, hgives.objects]

/-! ## The rows of a library -/

namespace Library

/-- A book as an object. -/
def bookObject (id : Int) (title : String) : Object := ⟨"Book", [.int id, .text title], [], []⟩

/-- An author with books as an object. -/
def authorObject (id : Int) (books : List Object) : Object := ⟨"Author", [.int id], [books], []⟩

/-- The authors of a database in which they are joined with their books. -/
def authors : Mapping := ⟨catalog, author, .of .sqlite⟩

/-- One author with two books, another with none. -/
def shelf : List Object :=
  [authorObject 1 [bookObject 7 "A", bookObject 8 "B"], authorObject 2 []]

theorem holds_id {id : Int} (h : IntKind.int32.Holds id) :
    Field.Holds (.ofType "id" { scalar := .int .int32 } { primaryKey := true }) (.int id) :=
  ⟨_, rfl, .inr h⟩

theorem describes_book {id : Int} {title : String} (h : IntKind.int32.Holds id) :
    catalog.Describes book (bookObject id title) :=
  .of_children rfl rfl (.cons (holds_id h) (.cons ⟨_, rfl, .inr trivial⟩ .nil))
    ⟨.int id, List.mem_cons_self, nofun⟩ .nil

theorem describes_author {id : Int} {books : List Object} (h : IntKind.int32.Holds id)
    (each : ∀ b ∈ books, catalog.Describes book b)
    (distinct : (books.map book.keyValues).Nodup) :
    catalog.Describes author (authorObject id books) :=
  .of_children rfl rfl (.cons (holds_id h) .nil) ⟨.int id, List.mem_cons_self, nofun⟩
    (.cons ⟨nofun, distinct, each⟩ .nil)

theorem joins_shelf : authors.Joins shelf where
  select := by decide +kernel
  labels := by decide +kernel
  keys := Catalog.keysDiscrete_of_tables (by decide +kernel)
  each := by
    intro o ho
    simp only [shelf, List.mem_cons, List.not_mem_nil, or_false] at ho
    rcases ho with rfl | rfl
    · refine describes_author (by decide) (fun b hb => ?_) (by decide)
      simp only [List.mem_cons, List.not_mem_nil, or_false] at hb
      rcases hb with rfl | rfl
      · exact describes_book (by decide)
      · exact describes_book (by decide)
    · exact describes_author (by decide) (fun b hb => nomatch hb) (by decide)
  distinct := by decide +kernel

end Library

/-- Authors with two books and with none come back from the rows of their join. -/
theorem materialize_joinedRows_library :
    Library.authors.Joins Library.shelf ∧
      materialize Library.catalog Library.author (Library.authors.joinedRows Library.shelf) =
        .ok Library.shelf :=
  ⟨Library.joins_shelf, materialize_joinedRows Library.joins_shelf
    (Catalog.namesApart_of_tables (by decide +kernel))
    (Catalog.targetsDistinct_of_tables (by decide +kernel))
    (Catalog.startsEmpty_of_tables (by decide +kernel))⟩

/-! ## What is lost and what is added -/

namespace Parcels

/-- The parcels of a database in which they are joined with their addresses. -/
def parcels : Mapping := ⟨catalog, parcel, .of .sqlite⟩

/-- A parcel whose addresses have one number. -/
def sent : List Object :=
  [⟨"Parcel", [.int 1], [[⟨"billing::Address", [.int 5], [], []⟩],
    [⟨"shipping::Address", [.int 5], [], []⟩]], []⟩]

theorem joins_sent : parcels.Joins sent where
  select := by decide +kernel
  labels := by decide +kernel
  keys := Catalog.keysDiscrete_of_tables (by decide +kernel)
  each := by
    intro o ho
    rw [List.mem_singleton.mp ho]
    have hbilling : catalog.Describes billing ⟨"billing::Address", [.int 5], [], []⟩ :=
      .of_children rfl rfl (.cons (Library.holds_id (by decide)) .nil)
        ⟨.int 5, List.mem_cons_self, nofun⟩ .nil
    have hshipping : catalog.Describes shipping ⟨"shipping::Address", [.int 5], [], []⟩ :=
      .of_children rfl rfl (.cons (Library.holds_id (by decide)) .nil)
        ⟨.int 5, List.mem_cons_self, nofun⟩ .nil
    refine .of_children rfl rfl (.cons (Library.holds_id (by decide)) .nil)
      ⟨.int 1, List.mem_cons_self, nofun⟩ (.cons ⟨fun _ => Nat.le_refl 1, by decide +kernel, ?_⟩
        (.cons ⟨fun _ => Nat.le_refl 1, by decide +kernel, ?_⟩ .nil))
    · exact List.forall_mem_singleton.mpr hbilling
    · exact List.forall_mem_singleton.mpr hshipping
  distinct := by decide +kernel

end Parcels

namespace Drawers

/-- Keys with a number. -/
def key : Table where
  entity := "Key"
  tableName := "keys"
  fields := [.ofType "id" { scalar := .int .int32 } { primaryKey := true }]

/-- Drawers, of which a fresh one has a key. -/
def drawer : Table where
  entity := "Drawer"
  tableName := "drawers"
  fields := [.ofType "id" { scalar := .int .int32 } { primaryKey := true },
    .ofAssociation "keys" ⟨.many, "id", "drawer_id", "Key"⟩]
  initialChildren _ := [⟨"Key", [.int 9], [], []⟩]

/-- The drawers of a database in which they are joined with their keys. -/
def drawers : Mapping := ⟨⟨[drawer, key]⟩, drawer, .of .sqlite⟩

/-- A drawer without keys. -/
def unlocked : List Object := [⟨"Drawer", [.int 1], [[]], []⟩]

theorem joins_unlocked : drawers.Joins unlocked where
  select := by decide +kernel
  labels := by decide +kernel
  keys := Catalog.keysDiscrete_of_tables (by decide +kernel)
  each := by
    intro o ho
    rw [List.mem_singleton.mp ho]
    exact .of_children rfl rfl (.cons (Library.holds_id (by decide)) .nil)
      ⟨.int 1, List.mem_cons_self, nofun⟩ (.cons ⟨nofun, .nil, nofun⟩ .nil)
  distinct := by decide +kernel

end Drawers

/-- Where two types of one name are led to, an object of the second one is lost if it has the key
of one of the first; and what a fresh object leads to stays with an object that leads to none. -/
theorem joinedRows_not_given_back :
    (Parcels.parcels.Joins Parcels.sent ∧
      Parcels.catalog.TypesDistinct Parcels.parcel ∧
      Parcels.catalog.StartsEmpty Parcels.parcel ∧
      (materialize Parcels.catalog Parcels.parcel
          (Parcels.parcels.joinedRows Parcels.sent)).toOption.map
        (List.map fun o => o.children.map fun kids => kids.map Object.values) =
          some [[[[.int 5]], []]] ∧
      materialize Parcels.catalog Parcels.parcel
        (Parcels.parcels.joinedRows Parcels.sent) ≠ .ok Parcels.sent) ∧
    Drawers.drawers.Joins Drawers.unlocked ∧
      Drawers.drawers.catalog.TypesDistinct Drawers.drawer ∧
      Drawers.drawers.catalog.TargetsDistinct Drawers.drawer ∧
      (materialize Drawers.drawers.catalog Drawers.drawer
          (Drawers.drawers.joinedRows Drawers.unlocked)).toOption.map
        (List.map fun o => o.children.map fun kids => kids.map Object.values) =
          some [[[[.int 9]]]] ∧
      materialize Drawers.drawers.catalog Drawers.drawer
        (Drawers.drawers.joinedRows Drawers.unlocked) ≠ .ok Drawers.unlocked := by
  have hsent : (materialize Parcels.catalog Parcels.parcel
      (Parcels.parcels.joinedRows Parcels.sent)).toOption.map
        (List.map fun o => o.children.map fun kids => kids.map Object.values) =
          some [[[[.int 5]], []]] := by
    decide +kernel
  have hunlocked : (materialize Drawers.drawers.catalog Drawers.drawer
      (Drawers.drawers.joinedRows Drawers.unlocked)).toOption.map
        (List.map fun o => o.children.map fun kids => kids.map Object.values) =
          some [[[[.int 9]]]] := by
    decide +kernel
  refine ⟨⟨Parcels.joins_sent, Catalog.typesDistinct_of_tables (by decide +kernel),
      Catalog.startsEmpty_of_tables (by decide +kernel), hsent, fun h => ?_⟩,
    Drawers.joins_unlocked, Catalog.typesDistinct_of_tables (by decide +kernel),
      Catalog.targetsDistinct_of_tables (by decide +kernel), hunlocked, fun h => ?_⟩
  · rw [h] at hsent
    exact absurd hsent (by decide)
  · rw [h] at hunlocked
    exact absurd hunlocked (by decide)

end EntityMapper
