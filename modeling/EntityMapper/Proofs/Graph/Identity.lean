import EntityMapper.Proofs.Graph.Roots
import EntityMapper.Proofs.Join.Cells
import EntityMapper.Proofs.Text.DateTimeText
import EntityMapper.Proofs.Text.FloatText

/-!
# Which rows are one object

Rows are put together by the texts of their key columns, as they stand in the rows. Where these are
the values that are stored for the key of an object, the texts tell keys apart, but for datetimes
within a tenth of a microsecond. Where they are not, one key may show different texts, and different
keys one text.

* `Datum.Alike` — the values that have one text
* `ScalarType.display_eq_iff` — stored values of one type have one text just if they are alike
* `materialize_identity` — which rows are one object
-/

namespace EntityMapper

variable {c : Catalog} {t : Table} {o : Object} {row r s : Row} {rows : List Row}
  {objects : List Object} {d e : Datum}

/-! ## Texts of values -/

/-- Values that have one text where they are of one type: all floats that are no numbers have, and
datetimes that show the same. -/
def Datum.Alike : Datum → Datum → Prop
  | .float x, .float y => x = y ∨ x.isNaN = true ∧ y.isNaN = true
  | .datetime t, .datetime u => t.shown = u.shown
  | d, e => d = e

theorem hexText_injective {bs cs : List UInt8} (h : hexText bs = hexText cs) : bs = cs := by
  have hchars := String.ofList_inj.mp h
  rw [← hexBytes_flatMap_hexByte bs, hchars, hexBytes_flatMap_hexByte]

/-- **Stored values of one type have one text just if they are alike.** -/
theorem ScalarType.display_eq_iff {t : ScalarType} (hd : t.Holds d) (he : t.Holds e) :
    d.toValue.display = e.toValue.display ↔ d.Alike e := by
  have hdiscrete : t.isDiscrete = true → (d.toValue.display = e.toValue.display ↔ d = e) :=
    fun ht => ⟨ScalarType.display_injective ht hd he, fun h => by rw [h]⟩
  cases t with
  | int _ | enumeration _ | bool | text =>
    rw [hdiscrete rfl]
    cases d <;> first | exact hd.elim | exact Iff.rfl
  | single | double =>
    cases d with
    | float x =>
      cases e with
      | float y => exact Double.text_eq_iff
      | _ => exact he.elim
    | _ => exact hd.elim
  | blob =>
    cases d with
    | blob bs =>
      cases e with
      | blob cs => exact ⟨fun h => congrArg Datum.blob (hexText_injective h), fun h => by rw [h]⟩
      | _ => exact he.elim
    | _ => exact hd.elim
  | datetime =>
    cases d with
    | datetime t =>
      cases e with
      | datetime u => exact DateTime.text_eq_iff
      | _ => exact he.elim
    | _ => exact hd.elim

theorem Field.Holds.display_eq_iff {f : Field} (hd : f.Holds d) (he : f.Holds e)
    (hdnull : d.toValue ≠ .null) (henull : e.toValue ≠ .null) :
    d.toValue.display = e.toValue.display ↔ d.Alike e := by
  obtain ⟨t, ht, hd⟩ := hd
  obtain ⟨u, hu, he⟩ := he
  obtain rfl := Option.some.inj (ht.symm.trans hu)
  rcases hd with ⟨-, rfl⟩ | hd
  · exact absurd rfl hdnull
  · rcases he with ⟨-, rfl⟩ | he
    · exact absurd rfl henull
    · exact ScalarType.display_eq_iff hd he

/-! ## Keys of rows -/

theorem cell?_ofRow (row : Row) (name : String) : (View.ofRow row).cell? name = row.get? name := by
  simp [View.ofRow, View.cell?]

theorem mem_scalarFields {f : Field} (hf : f ∈ t.primaryKey) : f ∈ t.scalarFields :=
  List.mem_of_mem_filter hf

namespace Table

/-- The texts of the key columns. -/
def keyTextsOf (t : Table) (row : Row) : List (Option String) :=
  t.primaryKey.map fun f => (row.get? f.name).map Value.display

/-- The key columns of a row are there, they are not null, and their values can be read. -/
def Keyed (t : Table) (row : Row) : Prop :=
  ∀ f ∈ t.primaryKey, ∃ v, row.get? f.name = some v ∧ v ≠ .null ∧ (f.read v).isOk = true

theorem keyed_iff : t.Keyed row ↔ t.primaryKey.all (fun f =>
    (row.get? f.name).any fun v => !v.isNull && (f.read v).isOk) = true := by
  unfold Keyed
  rw [List.all_eq_true]
  refine forall₂_congr fun f _ => ?_
  rw [Option.any_eq_true]
  refine exists_congr fun v => and_congr_right fun _ => ?_
  rw [Bool.and_eq_true, Bool.not_eq_true', Bool.eq_false_iff, ne_eq, ne_eq, Value.isNull_iff]

instance (t : Table) (row : Row) : Decidable (t.Keyed row) := decidable_of_iff _ keyed_iff.symm

/-- The key columns of a row have values that are stored for values of their fields. -/
def StoresKey (t : Table) (row : Row) : Prop :=
  ∀ f ∈ t.primaryKey, ∃ d, f.Holds d ∧ row.get? f.name = some d.toValue

/-- The key that is read from a row. -/
def typedKey (t : Table) (row : Row) : List Datum := t.primaryKey.map fun f => f.seenIn (.ofRow row)

/-- The key of an object. -/
def keyOf (t : Table) (o : Object) : List Datum :=
  ((t.entries o).filter fun e => e.1.options.primaryKey).map Prod.snd

namespace Keyed

/-- The key of a row is the texts of its key columns. -/
theorem groupKey? (h : t.Keyed row) (hkey : t.hasPrimaryKey = true) :
    t.groupKey? (.ofRow row) = some (t.keyTextsOf row) := by
  have hparts : t.primaryKey.mapM (fun f => f.keyCell? (.ofRow row)) = some (t.keyTextsOf row) := by
    refine mapM_eq_some_map fun f hf => ?_
    obtain ⟨v, hv, hnull, -⟩ := h f hf
    have hnull : v.isNull = false := Bool.eq_false_iff.mpr fun hv => hnull (Value.isNull_iff.mp hv)
    unfold Field.keyCell?
    rw [cell?_ofRow, hv]
    simp [hnull]
  have hany : (t.keyTextsOf row).any Option.isSome = true := by
    unfold Table.keyTextsOf
    unfold Table.hasPrimaryKey at hkey
    cases hfields : t.primaryKey with
    | nil =>
      rw [hfields] at hkey
      exact nomatch hkey
    | cons f fs =>
      obtain ⟨v, hv, -⟩ := h f (by rw [hfields]; exact List.mem_cons_self)
      simp [hv]
  unfold Table.groupKey?
  simp only [hparts, hany, if_true]

theorem opens (h : t.Keyed row) (hkey : t.hasPrimaryKey = true) : t.opens (.ofRow row) = true := by
  have hreads : t.keyReads (.ofRow row) = true := by
    refine List.all_eq_true.mpr fun f hf => ?_
    obtain ⟨v, hv, -, hread⟩ := h f hf
    rw [cell?_ofRow, hv, Option.all_some]
    exact hread
  rw [Table.opens, if_pos hkey, h.groupKey? hkey, hreads]
  rfl

/-- Two rows show one object just if their key columns have one text each. -/
theorem sameObject_iff (hr : t.Keyed r) (hs : t.Keyed s) (hkey : t.hasPrimaryKey = true) :
    t.sameObject (.ofRow r) (.ofRow s) = true ↔ t.keyTextsOf r = t.keyTextsOf s := by
  unfold sameObject
  rw [hr.groupKey? hkey, hs.groupKey? hkey]
  simp only [beq_iff_eq, Option.some.injEq]
  exact eq_comm

/-- **Stored keys have one text each just if they are alike.** -/
theorem keyTextsOf_eq_iff (hr : t.Keyed r) (hs : t.Keyed s) (hrkey : t.StoresKey r)
    (hskey : t.StoresKey s) :
    t.keyTextsOf r = t.keyTextsOf s ↔ List.Forall₂ Datum.Alike (t.typedKey r) (t.typedKey s) := by
  unfold keyTextsOf typedKey
  rw [List.forall₂_map_left_iff, List.forall₂_map_right_iff, List.forall₂_same, List.map_inj_left]
  refine forall₂_congr fun f hf => ?_
  obtain ⟨d, hd, hrd⟩ := hrkey f hf
  obtain ⟨e, he, hse⟩ := hskey f hf
  obtain ⟨v, hv, hdnull, -⟩ := hr f hf
  obtain ⟨w, hw, henull, -⟩ := hs f hf
  obtain rfl := Option.some.inj (hrd.symm.trans hv)
  obtain rfl := Option.some.inj (hse.symm.trans hw)
  have hseen : ∀ {row : Row} {d : Datum}, f.Holds d → row.get? f.name = some d.toValue →
      f.seenIn (.ofRow row) = d := by
    intro row d hd hget
    unfold Field.seenIn
    rw [cell?_ofRow, hget]
    simp only [hd.read_toValue]
  rw [hrd, hse, hseen hd hrd, hseen he hse, Option.map_some, Option.map_some, Option.some.injEq]
  exact hd.display_eq_iff he hdnull henull

end Keyed

/-- The entries of an object that is seen in a row. -/
theorem entries_of_completes (h : o.Completes (t.seen (.ofRow row))) :
    t.entries o = t.scalarFields.map fun f => (f, f.seenIn (.ofRow row)) := by
  have hvalues : o.values = t.scalarFields.map fun f => f.seenIn (.ofRow row) := by
    rw [h]
    rfl
  have hzip := List.zip_map' (f := id) (g := fun f : Field => f.seenIn (.ofRow row))
    (l := t.scalarFields)
  rwa [List.map_id, ← hvalues] at hzip

/-- The key of an object that is seen in a row is the one that is read from it. -/
theorem keyOf_of_completes (h : o.Completes (t.seen (.ofRow row))) :
    t.keyOf o = t.typedKey row := by
  unfold keyOf typedKey primaryKey
  rw [entries_of_completes h, List.filter_map, List.map_map]
  rfl

end Table

/-! ## Which rows are one object -/

/-- The groups of rows that become objects. -/
def Table.rowGroups (t : Table) (rows : List Row) : List (List Row) :=
  firstSeen (fun r s => t.sameObject (.ofRow r) (.ofRow s)) (fun r => t.opens (.ofRow r)) rows

theorem Table.rootGroups_eq (hkey : t.hasPrimaryKey = true) (rows : List Row) :
    t.rootGroups rows = (t.rowGroups rows).map (List.map .ofRow) := by
  have hmap : firstSeen t.sameObject t.opens (rows.map View.ofRow) =
      (t.rowGroups rows).map (List.map View.ofRow) :=
    firstSeen_map (f := View.ofRow) (fun _ _ => rfl) (fun _ => rfl) rows
  rw [rootGroups, if_pos hkey, groups, hmap]

/-- Each root is seen in the first row of its group, and has the key of that. -/
theorem Table.forall₂_rowGroups (hkey : t.hasPrimaryKey = true)
    (h : materialize c t rows = .ok objects) :
    List.Forall₂ (fun g o => ∃ first more, g = first :: more ∧
      o.Completes (t.seen (.ofRow first)) ∧ t.keyOf o = t.typedKey first) (t.rowGroups rows)
      objects := by
  have hroots := materialize_roots h
  rw [rootGroups_eq hkey, List.forall₂_map_left_iff] at hroots
  refine ((List.forall₂_and_left _ _).mpr ⟨fun g hg => hg, hroots⟩).imp fun g o hgo => ?_
  obtain ⟨first, more, rfl, -⟩ := exists_of_mem_firstSeen hgo.1
  exact ⟨first, more, rfl, hgo.2, keyOf_of_completes hgo.2⟩

/-- What is apart on one side is apart on the other. -/
theorem pairwise_of_forall₂ {α β : Type} {R : α → β → Prop} {P : α → α → Prop} {Q : β → β → Prop}
    {l : List α} {m : List β} (h : List.Forall₂ R l m) (hP : l.Pairwise P)
    (hPQ : ∀ a a' b b', R a b → R a' b' → P a a' → Q b b') : m.Pairwise Q := by
  induction h with
  | nil => exact .nil
  | @cons a b l m hab hrest ih =>
    obtain ⟨ha, hP⟩ := List.pairwise_cons.mp hP
    refine List.pairwise_cons.mpr ⟨fun b' hb' => ?_, ih hP⟩
    obtain ⟨a', ha', hab'⟩ := exists_of_forall₂_mem hrest hb'
    exact hPQ a a' b b' hab hab' (ha a' ha')

/-- **Which rows are one object.** Let rows with keys that can be read be read into objects of a
keyed table. Then each row is in one of the groups that the objects were made of, and an object has
the key of the first row of its group. Two rows are in one group just if their key columns show the
same texts. So where the key columns hold what is stored for the rows' keys, they are just if these
are alike, and if all rows are so then no two objects have keys that are alike. -/
theorem materialize_identity (hkey : t.hasPrimaryKey = true) (hrows : ∀ row ∈ rows, t.Keyed row)
    (h : materialize c t rows = .ok objects) :
    ∃ groups : List (List Row), groups.flatten.Perm rows ∧
      List.Forall₂ (fun g o => ∃ first more, g = first :: more ∧
        o.Completes (t.seen (.ofRow first)) ∧ t.keyOf o = t.typedKey first) groups objects ∧
      (∀ r ∈ rows, ∀ s ∈ rows, (∃ g ∈ groups, r ∈ g ∧ s ∈ g) ↔ t.keyTextsOf r = t.keyTextsOf s) ∧
      (∀ r ∈ rows, ∀ s ∈ rows, t.StoresKey r → t.StoresKey s →
        ((∃ g ∈ groups, r ∈ g ∧ s ∈ g) ↔
          List.Forall₂ Datum.Alike (t.typedKey r) (t.typedKey s))) ∧
      ((∀ row ∈ rows, t.StoresKey row) →
        objects.Pairwise fun o p => ¬ List.Forall₂ Datum.Alike (t.keyOf o) (t.keyOf p)) := by
  have hopens : ∀ row ∈ rows, t.opens (.ofRow row) = true := fun row hrow =>
    (hrows row hrow).opens hkey
  have hsame : ∀ r ∈ rows, ∀ s ∈ rows,
      t.sameObject (.ofRow r) (.ofRow s) = true ↔ t.keyTextsOf r = t.keyTextsOf s :=
    fun r hr s hs => (hrows r hr).sameObject_iff (hrows s hs) hkey
  have hapart : (t.rowGroups rows).Pairwise fun g g' =>
      ∀ r ∈ g, ∀ s ∈ g', t.keyTextsOf r ≠ t.keyTextsOf s := (firstSeen_keyed hopens hsame).2
  have hperm : (t.rowGroups rows).flatten.Perm rows := perm_flatten_firstSeen hopens
  have hfirst := Table.forall₂_rowGroups hkey h
  have htexts : ∀ r ∈ rows, ∀ s ∈ rows,
      (∃ g ∈ t.rowGroups rows, r ∈ g ∧ s ∈ g) ↔ t.keyTextsOf r = t.keyTextsOf s :=
    fun r hr s hs => firstSeen_together_iff hopens hsame hr hs
  refine ⟨t.rowGroups rows, hperm, hfirst, htexts, fun r hr s hs hrkey hskey => ?_, fun hkeys => ?_⟩
  · rw [htexts r hr s hs]
    exact (hrows r hr).keyTextsOf_eq_iff (hrows s hs) hrkey hskey
  · have hmem : ∀ {g : List Row} {r : Row}, g ∈ t.rowGroups rows → r ∈ g → r ∈ rows :=
      fun hg hr => hperm.mem_iff.mp (List.mem_flatten.mpr ⟨_, hg, hr⟩)
    have hfirst := (List.forall₂_and_left _ _).mpr ⟨fun g hg => hg, hfirst⟩
    refine pairwise_of_forall₂ hfirst hapart ?_
    rintro g g' o p ⟨hg, r, more, rfl, -, hor⟩ ⟨hg', s, more', rfl, -, hps⟩ hne halike
    have hr := hmem hg List.mem_cons_self
    have hs := hmem hg' List.mem_cons_self
    rw [hor, hps] at halike
    refine hne r List.mem_cons_self s List.mem_cons_self ?_
    exact ((hrows r hr).keyTextsOf_eq_iff (hrows s hs) (hkeys r hr) (hkeys s hs)).mpr halike

/-! ## Samples -/

namespace Samples

/-- Samples by their probe and the time at which they were taken. -/
def table : Table where
  entity := "Sample"
  tableName := "samples"
  fields := [.ofType "probe" { scalar := .int .int64 } { primaryKey := true },
    .ofType "taken" { scalar := .datetime } { primaryKey := true }]

/-- The first nanosecond of a day. -/
def early : DateTime where
  year := 2024
  month := 1
  day := 1
  hour := 0
  minute := 0
  second := 0
  nanosecond := 1

/-- The nanosecond after that. -/
def late : DateTime := { early with nanosecond := 2, isInstant := by decide }

def first : Row := ⟨[("probe", .int 1), ("taken", .datetime early)]⟩

def second : Row := ⟨[("probe", .int 1), ("taken", .datetime late)]⟩

/-- The first sample with a number that stands there with a zero in front. -/
def padded : Row := ⟨[("probe", .text "01"), ("taken", .datetime early)]⟩

end Samples

/-- Two samples that were taken a nanosecond apart are one object, and one sample is two objects
where its number shows two texts. -/
theorem materialize_identity_samples :
    ∃ objects groups, materialize ⟨[Samples.table]⟩ Samples.table
        [Samples.first, Samples.second, Samples.padded] = .ok objects ∧
      List.Forall₂ (fun g o => ∃ first more, g = first :: more ∧
        Samples.table.keyOf o = Samples.table.typedKey first) groups objects ∧
      (∃ g ∈ groups, Samples.first ∈ g ∧ Samples.second ∈ g) ∧
      Samples.table.typedKey Samples.first ≠ Samples.table.typedKey Samples.second ∧
      (¬ ∃ g ∈ groups, Samples.first ∈ g ∧ Samples.padded ∈ g) ∧
      Samples.table.typedKey Samples.first = Samples.table.typedKey Samples.padded := by
  have hkeyed : ∀ row ∈ [Samples.first, Samples.second, Samples.padded],
      Samples.table.Keyed row := by decide +kernel
  obtain ⟨objects, hobjects⟩ : ∃ objects, materialize ⟨[Samples.table]⟩ Samples.table
      [Samples.first, Samples.second, Samples.padded] = .ok objects := ⟨_, rfl⟩
  obtain ⟨groups, -, hfirst, htexts, -, -⟩ := materialize_identity rfl hkeyed hobjects
  refine ⟨objects, groups, hobjects, hfirst.imp ?_, ?_, by decide +kernel, ?_, by decide +kernel⟩
  · rintro g o ⟨first, more, hg, -, hkey⟩
    exact ⟨first, more, hg, hkey⟩
  · refine (htexts _ (by simp) _ (by simp)).mpr ?_
    decide +kernel
  · rw [htexts _ (by simp) _ (by simp)]
    decide +kernel

end EntityMapper
