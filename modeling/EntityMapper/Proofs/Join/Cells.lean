import EntityMapper.Proofs.Graph.Reading
import EntityMapper.Proofs.Join.Rows

/-!
# What the columns of a table say of an object

The cells of a table in a row of its select are the stored values of an object, or all null. From
the stored values the object is told again, and its key.

* `keyOfCells?_toValue` — the key of the stored values of an object
* `seen_of_shown`, `keyReads_of_shown` — the object that is seen in them
* `rowObject_of_shown` — they can be read
* `not_opens_of_null` — in nulls nothing is seen
* `keyTexts_injective` — discrete keys are told apart by their texts
-/

namespace EntityMapper

variable {c : Catalog} {t : Table} {o : Object} {v : View}

/-! ## Keys of cells -/

/-- The text of a key column in a cell. -/
def Field.keyOfCell? (f : Field) : Option Value → Option KeyPart
  | none => none
  | some x => if x.isNull then (if f.isNullable then some none else none) else some (some x.display)

/-- The texts of the key columns in the cells of a table. -/
def Table.keyOfCells? (t : Table) (cells : List (Option Value)) : Option (List KeyPart) :=
  match ((t.scalarFields.zip cells).filter fun e => e.1.options.primaryKey).mapM
      fun e => e.1.keyOfCell? e.2 with
  | some parts => if parts.any Option.isSome then some parts else none
  | none => none

/-- The cells of a table in a view. -/
def Table.cells (t : Table) (v : View) : List (Option Value) :=
  t.scalarFields.map fun f => v.cell? f.name

theorem keyCell?_eq (f : Field) (v : View) : f.keyCell? v = f.keyOfCell? (v.cell? f.name) := by
  unfold Field.keyCell? Field.keyOfCell?
  cases v.cell? f.name <;> rfl

/-- The key of a view is that of its cells. -/
theorem groupKey?_eq (t : Table) (v : View) : t.groupKey? v = t.keyOfCells? (t.cells v) := by
  have hzip : ∀ l : List Field, (l.zip (l.map fun f => v.cell? f.name)) =
      l.map fun f => (f, v.cell? f.name) := by
    intro l
    induction l with
    | nil => rfl
    | cons f rest ih => rw [List.map_cons, List.zip_cons_cons, ih, List.map_cons]
  unfold Table.groupKey? Table.keyOfCells? Table.cells
  rw [hzip, List.filter_map, mapM_map]
  simp only [keyCell?_eq]
  rfl

/-! ## Stored values -/

/-- The text of a value in a key. -/
def Datum.keyText (d : Datum) : KeyPart := if d.toValue.isNull then none else some d.toValue.display

/-- The cells that store the values of an object. -/
def Object.cells (o : Object) : List (Option Value) := o.values.map fun d => some d.toValue

theorem Field.Holds.read_toValue {f : Field} {d : Datum} (h : f.Holds d) :
    f.read d.toValue = .ok d := by
  obtain ⟨t, ht, hd⟩ := h
  unfold Field.type? at ht
  unfold Field.read
  cases hk : f.kind with
  | scalar t' =>
    rw [hk, Option.some.injEq] at ht
    subst ht
    exact FieldType.read_toValue hd
  | association a =>
    rw [hk] at ht
    exact nomatch ht

theorem Field.Holds.isNull_iff {f : Field} {d : Datum} (h : f.Holds d) :
    d.toValue.isNull = true ↔ d = .absent := by
  obtain ⟨t, -, hd⟩ := h
  exact FieldType.isNull_toValue hd

theorem Field.Holds.keyOfCell? {f : Field} {d : Datum} (h : f.Holds d) :
    f.keyOfCell? (some d.toValue) = some d.keyText := by
  by_cases hnull : d.toValue.isNull = true
  · -- only a column that may be null holds nothing
    have hnullable : f.isNullable = true := by
      obtain ⟨t, ht, hd⟩ := h
      obtain rfl := (FieldType.isNull_toValue hd).mp hnull
      rw [Field.isNullable, ht]
      rcases hd with ⟨hn, -⟩ | hd
      · exact hn
      · exact absurd hd (ScalarType.not_holds_absent t.scalar)
    simp [Field.keyOfCell?, Datum.keyText, hnull, hnullable]
  · simp [Field.keyOfCell?, Datum.keyText, hnull]

theorem mapM_keyOfCell? {fs : List Field} {ds : List Datum} (h : List.Forall₂ Field.Holds fs ds) :
    ((fs.zip (ds.map fun d => some d.toValue)).filter fun e => e.1.options.primaryKey).mapM
      (fun e => e.1.keyOfCell? e.2) =
    some ((((fs.zip ds).filter fun e => e.1.options.primaryKey).map Prod.snd).map
      Datum.keyText) := by
  induction h with
  | nil => rfl
  | @cons f d fs ds hd _ ih =>
    rw [List.map_cons, List.zip_cons_cons, List.zip_cons_cons, List.filter_cons, List.filter_cons]
    simp only
    split
    · rw [List.mapM_cons, ih, hd.keyOfCell?]
      rfl
    · exact ih

theorem Catalog.Describes.holds (h : c.Describes t o) :
    List.Forall₂ Field.Holds t.scalarFields o.values := by
  cases h with
  | mk _ _ values => exact values

theorem forall₂_holds_keys {fs : List Field} {ds : List Datum}
    (h : List.Forall₂ Field.Holds fs ds) :
    List.Forall₂ Field.Holds (fs.filter fun f => f.options.primaryKey)
      (((fs.zip ds).filter fun e => e.1.options.primaryKey).map Prod.snd) := by
  induction h with
  | nil => exact .nil
  | @cons f d fs ds hd _ ih =>
    rw [List.zip_cons_cons, List.filter_cons, List.filter_cons]
    simp only
    split
    · exact .cons hd ih
    · exact ih

/-- The values of the key columns are of their types. -/
theorem Catalog.Describes.holds_keyValues (h : c.Describes t o) :
    List.Forall₂ Field.Holds t.primaryKey (t.keyValues o) :=
  forall₂_holds_keys h.holds

/-- The key of an object as texts. -/
def Table.keyTexts (t : Table) (o : Object) : List KeyPart := (t.keyValues o).map Datum.keyText

/-- **The key of the stored values of an object.** -/
theorem keyOfCells?_cells (h : c.Describes t o) : t.keyOfCells? o.cells = some (t.keyTexts o) := by
  have hsome : (t.keyTexts o).any Option.isSome = true := by
    have hkeys := h.holds_keyValues
    cases h with
    | mk _ _ _ key =>
      obtain ⟨d, hd, hne⟩ := key
      obtain ⟨f, -, hf⟩ := exists_of_forall₂_mem hkeys hd
      refine List.any_eq_true.mpr ⟨d.keyText, List.mem_map_of_mem hd, ?_⟩
      rw [Datum.keyText, if_neg fun hnull => hne (hf.isNull_iff.mp hnull)]
      rfl
  unfold Table.keyOfCells? Object.cells
  rw [mapM_keyOfCell? h.holds]
  show (if (t.keyTexts o).any Option.isSome = true then some (t.keyTexts o) else none) = _
  rw [if_pos hsome]

/-- Nulls are no key. -/
theorem keyOfCells?_null (t : Table) (n : Nat) :
    t.keyOfCells? (List.replicate n (some Value.null)) = none := by
  have hnone : ∀ (l : List (Field × Option Value)) (parts : List KeyPart),
      (∀ e ∈ l, e.2 = some .null) → (l.mapM fun e => e.1.keyOfCell? e.2) = some parts →
      parts.any Option.isSome = false := by
    intro l
    induction l with
    | nil =>
      intro parts _ h
      obtain rfl : [] = parts := Option.some.inj h
      rfl
    | cons e rest ih =>
      intro parts hnull h
      rw [List.mapM_cons] at h
      obtain ⟨p, hp, h⟩ := Option.bind_eq_some_iff.mp h
      obtain ⟨ps, hps, h⟩ := Option.bind_eq_some_iff.mp h
      obtain rfl : p :: ps = parts := Option.some.inj h
      have hpnone : p = none := by
        rw [hnull e List.mem_cons_self] at hp
        simp only [Field.keyOfCell?, Value.isNull, if_true] at hp
        split at hp
        · exact (Option.some.inj hp).symm
        · cases hp
      rw [List.any_cons, hpnone, ih ps (fun e he => hnull e (List.mem_cons_of_mem _ he)) hps]
      rfl
  unfold Table.keyOfCells?
  split
  · next parts hparts =>
    rw [hnone _ parts (fun e he => ?_) hparts]
    · rfl
    · exact List.eq_of_mem_replicate (List.of_mem_zip (List.mem_filter.mp he).1).2
  · rfl

/-! ## Seen objects -/

/-- A view shows the values of an object in the columns of a table. -/
def Table.Shown (t : Table) (v : View) (o : Object) : Prop := t.cells v = o.cells

theorem Table.Shown.forall₂ (h : t.Shown v o) :
    List.Forall₂ (fun f d => v.cell? f.name = some d.toValue) t.scalarFields o.values := by
  unfold Table.Shown Table.cells Object.cells at h
  rw [← List.forall₂_eq_eq_eq, List.forall₂_map_left_iff, List.forall₂_map_right_iff] at h
  exact h

theorem groupKey?_of_shown (ho : c.Describes t o) (h : t.Shown v o) :
    t.groupKey? v = some (t.keyTexts o) := by
  rw [groupKey?_eq, h, keyOfCells?_cells ho]

theorem keyReads_of_shown (ho : c.Describes t o) (h : t.Shown v o) : t.keyReads v = true := by
  refine List.all_eq_true.mpr fun f hf => ?_
  have hf := (List.mem_filter.mp hf).1
  have hread : ∀ {fs : List Field} {ds : List Datum}, List.Forall₂ Field.Holds fs ds →
      List.Forall₂ (fun f d => v.cell? f.name = some d.toValue) fs ds →
      ∀ f ∈ fs, (v.cell? f.name).all (fun x => (f.read x).isOk) = true := by
    intro fs ds hholds hcells
    induction hholds with
    | nil => simp
    | @cons f d fs ds hd _ ih =>
      cases hcells with
      | cons hcell hcells =>
        intro g hg
        rcases List.mem_cons.mp hg with rfl | hg
        · rw [hcell, Option.all_some, hd.read_toValue]
          rfl
        · exact ih hcells g hg
  exact hread ho.holds h.forall₂ f hf

theorem opens_of_shown (ho : c.Describes t o) (h : t.Shown v o) : t.opens v = true := by
  have hk := groupKey?_of_shown ho h
  have hkey : t.hasPrimaryKey = true := by
    cases ho with
    | mk _ _ _ key =>
      obtain ⟨d, hd, -⟩ := key
      unfold Table.hasPrimaryKey Table.primaryKey
      obtain ⟨e, he, -⟩ := List.mem_map.mp hd
      obtain ⟨hmem, hpk⟩ := List.mem_filter.mp he
      have hkeyField : e.1 ∈ t.scalarFields.filter fun f => f.options.primaryKey :=
        List.mem_filter.mpr ⟨(List.of_mem_zip hmem).1, hpk⟩
      cases hl : t.scalarFields.filter fun f => f.options.primaryKey with
      | nil =>
        rw [hl] at hkeyField
        exact absurd hkeyField List.not_mem_nil
      | cons f fs => rfl
  rw [Table.opens, if_pos hkey, hk, keyReads_of_shown ho h]
  rfl

/-- **The object that is seen in its stored values.** -/
theorem seen_of_shown (ho : c.Describes t o) (h : t.Shown v o) : (t.seen v).values = o.values := by
  show t.scalarFields.map (fun f => f.seenIn v) = o.values
  rw [← List.forall₂_eq_eq_eq, List.forall₂_map_left_iff]
  have hboth : ∀ {fs : List Field} {ds : List Datum}, List.Forall₂ Field.Holds fs ds →
      List.Forall₂ (fun f d => v.cell? f.name = some d.toValue) fs ds →
      List.Forall₂ (fun f d => f.seenIn v = d) fs ds := by
    intro fs ds hholds hcells
    induction hholds with
    | nil => exact .nil
    | @cons f d fs ds hd _ ih =>
      cases hcells with
      | cons hcell hcells =>
        refine .cons ?_ (ih hcells)
        rw [Field.seenIn, hcell]
        simp only [hd.read_toValue]
  exact hboth ho.holds h.forall₂

/-- The columns of a view that shows an object give an object. -/
theorem rowObject_of_shown (ho : c.Describes t o) (h : t.Shown v o) :
    ∃ r, t.rowObject v.row v.leading = .ok r := by
  have hvalues : ∀ {fs : List Field} {ds : List Datum}, List.Forall₂ Field.Holds fs ds →
      List.Forall₂ (fun f d => v.cell? f.name = some d.toValue) fs ds →
      t.columnValues v.row v.leading fs = .ok (some ds) := by
    intro fs ds hholds hcells
    induction hholds with
    | nil => rfl
    | @cons f d fs ds hd _ ih =>
      cases hcells with
      | cons hcell hcells =>
        have hvalue : t.columnValue v.row v.leading f = .ok (some d) := by
          unfold View.cell? at hcell
          simp only [Table.columnValue, hcell, hd.read_toValue]
        rw [Table.columnValues, hvalue, ih hcells]
        rfl
  refine ⟨some { t.blank with values := o.values }, ?_⟩
  rw [Table.rowObject, hvalues ho.holds h.forall₂]
  rfl

/-! ## Nulls -/

/-- In nulls nothing is seen. -/
theorem not_opens_of_null (h : t.cells v = List.replicate t.scalarFields.length (some .null)) :
    t.opens v = false ∧ Occurrence.nested? c v.row t v.leading = none := by
  have hkey : t.groupKey? v = none := by rw [groupKey?_eq, h, keyOfCells?_null]
  have hpresent : t.present v = false := by
    refine List.any_eq_false.mpr fun f hf => ?_
    have hmem : v.cell? f.name ∈ t.cells v := List.mem_map.mpr ⟨f, hf, rfl⟩
    rw [h] at hmem
    rw [List.eq_of_mem_replicate hmem]
    decide
  constructor
  · rw [Table.opens, hkey, hpresent]
    split <;> rfl
  · rw [← Option.isNone_iff_eq_none, ← Option.not_isSome, isSome_nested?, hkey, hpresent]
    split <;> rfl

/-! ## Different keys -/

/-- The key columns of a table are integers, truth values, texts or named states. -/
def Table.KeyDiscrete (t : Table) : Prop :=
  ∀ f ∈ t.primaryKey, f.type?.any (fun ty => ty.scalar.isDiscrete) = true

/-- The key columns are of these types in every table reached. -/
def Catalog.KeysDiscrete (c : Catalog) (t : Table) : Prop := ∀ u, c.Reaches t u → u.KeyDiscrete

/-- Keys are discrete where they are in each table of the catalog. -/
theorem Catalog.keysDiscrete_of_tables
    (h : ∀ u ∈ t :: c.tables, ∀ f ∈ u.primaryKey,
      f.type?.any (fun ty => ty.scalar.isDiscrete) = true) : c.KeysDiscrete t := fun u hu => by
  refine hu.of_tables h fun u hnone => ?_
  rw [Table.KeyDiscrete, Table.primaryKey, Table.scalarFields, hnone]
  simp

theorem keyText_injective {f : Field}
    (hf : f.type?.any (fun ty => ty.scalar.isDiscrete) = true) {d e : Datum} (hd : f.Holds d)
    (he : f.Holds e) (h : d.keyText = e.keyText) : d = e := by
  have hdnull := hd.isNull_iff
  have henull := he.isNull_iff
  obtain ⟨t, ht, hd⟩ := hd
  obtain ⟨t', ht', he⟩ := he
  obtain rfl : t = t' := Option.some.inj (ht.symm.trans ht')
  rw [ht, Option.any_some] at hf
  unfold Datum.keyText at h
  by_cases hdn : d.toValue.isNull = true
  · by_cases hen : e.toValue.isNull = true
    · rw [hdnull.mp hdn, henull.mp hen]
    · rw [if_pos hdn, if_neg hen] at h
      exact nomatch h
  · by_cases hen : e.toValue.isNull = true
    · rw [if_neg hdn, if_pos hen] at h
      exact nomatch h
    · rw [if_neg hdn, if_neg hen, Option.some.injEq] at h
      rcases hd with ⟨-, rfl⟩ | hd
      · exact absurd rfl hdn
      · rcases he with ⟨-, rfl⟩ | he
        · exact absurd rfl hen
        · exact ScalarType.display_injective hf hd he h

/-- **Discrete keys are told apart by their texts.** -/
theorem keyTexts_injective (ht : t.KeyDiscrete) {o' : Object} (ho : c.Describes t o)
    (ho' : c.Describes t o') (h : t.keyTexts o = t.keyTexts o') :
    t.keyValues o = t.keyValues o' := by
  have hinj : ∀ {fs : List Field} {ds es : List Datum},
      (∀ f ∈ fs, f.type?.any (fun ty => ty.scalar.isDiscrete) = true) →
      List.Forall₂ Field.Holds fs ds → List.Forall₂ Field.Holds fs es →
      ds.map Datum.keyText = es.map Datum.keyText → ds = es := by
    intro fs ds es hfs hds hes h
    induction hds generalizing es with
    | nil => cases hes; rfl
    | @cons f d fs ds hd _ ih =>
      cases hes with
      | @cons _ e _ es he hes =>
        rw [List.map_cons, List.map_cons, List.cons.injEq] at h
        rw [keyText_injective (hfs f List.mem_cons_self) hd he h.1,
          ih (fun g hg => hfs g (List.mem_cons_of_mem _ hg)) hes h.2]
  exact hinj ht ho.holds_keyValues ho'.holds_keyValues h

end EntityMapper
