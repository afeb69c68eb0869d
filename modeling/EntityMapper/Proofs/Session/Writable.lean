import EntityMapper.Proofs.Session.SaveTwice

/-!
# The columns that writes touch

An insert writes the columns that are saved and not computed, and the identity only where it is
asked to. An update sets the columns that are saved, belong to no key and are filled by nobody else.
In a table without such a column it sets the key instead, whatever that is made of, to the values
that the rows were found by.

* `Field.Inserted`, `Field.Settable` — the columns of an insert and of an update
* `Mapping.name_mem_insertColumns`, `Mapping.name_mem_updateColumns`,
  `Mapping.updateColumns_of_none` — which columns the statements have
* `Store.update_keys` — what an update makes of the rows and of their keys
* `Mapping.writes_writable` — the texts of the two statements and what an update does
-/

namespace EntityMapper

open Program

variable {m : Mapping} {f : Field} {ignoreAutomatic : Bool}

/-! ## Columns -/

/-- An insert writes the column. -/
def Field.Inserted (f : Field) (ignoreAutomatic : Bool) : Prop :=
  f.options.ignoreForSave = false ∧ f.options.automatic ≠ .computed ∧
    (f.options.automatic = .identity → ignoreAutomatic = false)

/-- A column is for an update to set. -/
def Field.Settable (f : Field) : Prop :=
  f.options.ignoreForSave = false ∧ f.options.automatic = .none ∧ f.options.primaryKey = false

namespace Mapping

/-- A column is among others just if its name is among theirs. -/
theorem name_mem_iff (hnames : m.columnNames.Nodup) {fields : List Field}
    (hfields : ∀ g ∈ fields, g ∈ m.table.scalarFields) (hf : f ∈ m.table.scalarFields) :
    f.name ∈ fields.map Field.name ↔ f ∈ fields := by
  refine ⟨fun hmem => ?_, List.mem_map_of_mem⟩
  obtain ⟨g, hg, hname⟩ := List.mem_map.mp hmem
  rwa [← List.inj_on_of_nodup_map hnames (hfields g hg) hf hname]

theorem name_mem_insertColumns (hnames : m.columnNames.Nodup) (hf : f ∈ m.table.scalarFields) :
    f.name ∈ (m.insertColumns ignoreAutomatic).map Field.name ↔ f.Inserted ignoreAutomatic := by
  have hfields : ∀ g ∈ m.insertColumns ignoreAutomatic, g ∈ m.table.scalarFields :=
    fun g hg => List.mem_of_mem_filter hg
  rw [name_mem_iff hnames hfields hf, insertColumns, List.mem_filter]
  unfold Field.Inserted Field.isAutomatic
  cases f.options.automatic <;> simp [hf]

/-- The columns that an update sets of its own accord. -/
def settable (m : Mapping) : List Field :=
  m.table.scalarFields.filter fun f =>
    !f.options.ignoreForSave && !f.options.primaryKey && !f.isAutomatic

theorem mem_settable : f ∈ m.settable ↔ f ∈ m.table.scalarFields ∧ f.Settable := by
  unfold settable Field.Settable Field.isAutomatic
  rw [List.mem_filter]
  cases f.options.automatic <;> simp [and_comm]

/-- Where there is a column to set, an update sets all of them and nothing else. -/
theorem name_mem_updateColumns (hnames : m.columnNames.Nodup)
    (hsome : ∃ g ∈ m.table.scalarFields, g.Settable) (hf : f ∈ m.table.scalarFields) :
    f.name ∈ m.updateColumns.map Field.name ↔ f.Settable := by
  obtain ⟨g, hg, hsettable⟩ := hsome
  have hcolumns : m.updateColumns = m.settable := by
    refine if_neg fun hempty => ?_
    have hmem : g ∈ m.settable := mem_settable.mpr ⟨hg, hsettable⟩
    rw [settable, List.isEmpty_iff.mp hempty] at hmem
    exact List.not_mem_nil hmem
  rw [hcolumns, name_mem_iff hnames (fun g hg => (mem_settable.mp hg).1) hf, mem_settable]
  exact and_iff_right hf

/-- Where there is none, it sets the key. -/
theorem updateColumns_of_none (hnone : ∀ g ∈ m.table.scalarFields, ¬ g.Settable) :
    m.updateColumns = m.table.primaryKey := by
  refine if_pos (List.isEmpty_iff.mpr ?_)
  refine List.eq_nil_iff_forall_not_mem.mpr fun g hg => ?_
  obtain ⟨hscalar, hsettable⟩ := mem_settable.mp hg
  exact hnone g hscalar hsettable

/-- Where there is a column to set, an update sets no key. -/
theorem key_not_mem_updateColumns (hnames : m.columnNames.Nodup)
    (hsome : ∃ g ∈ m.table.scalarFields, g.Settable) {k : String} (hk : k ∈ m.keyNames) :
    k ∉ m.updateColumns.map Field.name := by
  obtain ⟨f, hf, rfl⟩ := List.mem_map.mp hk
  obtain ⟨hscalar, hprimary⟩ := List.mem_filter.mp hf
  rw [name_mem_updateColumns hnames hsome hscalar]
  rintro ⟨-, -, hnokey⟩
  rw [hnokey] at hprimary
  cases hprimary

/-- An update of a table with a key sets something. -/
theorem updateColumns_ne_nil (hkey : m.table.hasPrimaryKey = true) : m.updateColumns ≠ [] := by
  have hprimary : m.table.primaryKey ≠ [] := by simpa [Table.hasPrimaryKey] using hkey
  unfold updateColumns
  dsimp only
  split
  · exact hprimary
  · next hsome => exact fun hnil => hsome (List.isEmpty_iff.mpr hnil)

end Mapping

/-! ## Updates over a store -/

/-- **What an update makes of the rows**: those without the key stay as they are, and the others keep
the columns of the key but for those that are set. They are set to what the row was found by. -/
theorem Store.update_keys {σ : Type} {h : Handler σ} (S : Store h m)
    (hkey : m.table.hasPrimaryKey = true) (st : σ) {c : Command} (hc : m.update = .ok c.text) :
    ∃ g : Row → Row, S.rows (h m.table.backend (.execute c) st).2 = (S.rows st).map g ∧
      ∀ x ∈ S.rows st, (hasValues S.same m.keyNames c.bound x = false → g x = x) ∧
        (hasValues S.same m.keyNames c.bound x = true → ∀ k ∈ m.keyNames,
          (k ∉ m.updateColumns.map Field.name → (g x).get? k = x.get? k) ∧
          (k ∈ m.updateColumns.map Field.name → (g x).get? k = some (c.bound k) ∧
            ∃ v, x.get? k = some v ∧ S.same v (c.bound k) = true)) := by
  have htext := Except.ok.inj (hc.symm.trans (Mapping.update_eq hkey))
  obtain ⟨g, -, hrows, hg⟩ := S.update st updateColumns_sublist keyNames_sublist htext
  refine ⟨g, hrows, fun x hx => ⟨fun hnot => ?_, fun hhas k hk => ?_⟩⟩
  · have hx := hg x hx
    rwa [if_neg (by rw [hnot]; exact Bool.false_ne_true)] at hx
  · have hx := hg x hx
    rw [if_pos hhas] at hx
    exact ⟨hx.kept k hk, fun hset => ⟨hx.set k hset, exists_of_hasValues hhas hk⟩⟩

/-- **Writes touch the writable columns.** In a table with a key an insert writes the columns that it
should, each with its own placeholder at its place. An update sets the columns that are for it to
set, and leaves every key as it was; if there are none it sets the columns of the key, each to the
value by which the row was found. -/
theorem Mapping.writes_writable (hnames : m.columnNames.Nodup)
    (hkey : m.table.hasPrimaryKey = true) :
    (∀ ignoreAutomatic, ∃ columns values : List String,
      m.insert ignoreAutomatic = "insert into " ++ m.table.name ++ " (" ++
        ", ".intercalate columns ++ ") values (" ++ ", ".intercalate values ++ ")" ∧
      columns.Sublist m.columnNames ∧
      (∀ i : Nat, values[i]? = columns[i]?.map m.dialect.placeholder) ∧
      ∀ f ∈ m.table.scalarFields, f.name ∈ columns ↔ f.Inserted ignoreAutomatic) ∧
    ∃ set : List String,
      m.update = .ok ("update " ++ m.table.name ++ " set " ++
        RowStatement.equations m.dialect ", " set ++ "\nwhere " ++
        RowStatement.equations m.dialect " and " m.keyNames) ∧
      set ≠ [] ∧ set.Sublist m.columnNames ∧
      ((∃ g ∈ m.table.scalarFields, g.Settable) →
        (∀ f ∈ m.table.scalarFields, f.name ∈ set ↔ f.Settable) ∧ ∀ k ∈ m.keyNames, k ∉ set) ∧
      ((∀ g ∈ m.table.scalarFields, ¬ g.Settable) → set = m.keyNames) ∧
      ∀ {σ : Type} {h : Handler σ} (S : Store h m) (st : σ) (c : Command), m.update = .ok c.text →
        ∃ g : Row → Row, S.rows (h m.table.backend (.execute c) st).2 = (S.rows st).map g ∧
          ∀ x ∈ S.rows st, (hasValues S.same m.keyNames c.bound x = false → g x = x) ∧
            (hasValues S.same m.keyNames c.bound x = true → ∀ k ∈ m.keyNames,
              (k ∉ set → (g x).get? k = x.get? k) ∧
              (k ∈ set → (g x).get? k = some (c.bound k) ∧
                ∃ v, x.get? k = some v ∧ S.same v (c.bound k) = true)) := by
  refine ⟨fun ignoreAutomatic => ?_, m.updateColumns.map Field.name, update_eq hkey, ?_,
    updateColumns_sublist, fun hsome => ?_, fun hnone => ?_, fun S st c hc => ?_⟩
  · refine ⟨(m.insertColumns ignoreAutomatic).map Field.name,
      ((m.insertColumns ignoreAutomatic).map Field.name).map m.dialect.placeholder,
      m.insert_eq ignoreAutomatic, List.filter_sublist.map _, fun i => List.getElem?_map, ?_⟩
    exact fun f hf => name_mem_insertColumns hnames hf
  · exact fun hnil => updateColumns_ne_nil hkey (List.map_eq_nil_iff.mp hnil)
  · exact ⟨fun f hf => name_mem_updateColumns hnames hsome hf,
      fun k hk => key_not_mem_updateColumns hnames hsome hk⟩
  · rw [updateColumns_of_none hnone, keyNames]
  · exact S.update_keys hkey st hc

/-- The update of a visitor sets the name and keeps the code. -/
theorem Mapping.writes_writable_visitors :
    ∃ (c : Command) (g : Row → Row),
      Visitors.mapping.update = .ok "update visitors set name = @name\nwhere code = @code" ∧
      c.text = "update visitors set name = @name\nwhere code = @code" ∧
      (listAnswer Visitors.mapping Visitors.nextCode Visitors.mapping.table.backend (.execute c)
        [⟨[("code", .text "x"), ("name", .text "Ann")]⟩]).2 =
          [g ⟨[("code", .text "x"), ("name", .text "Ann")]⟩] ∧
      (g ⟨[("code", .text "x"), ("name", .text "Ann")]⟩).get? "code" = some (.text "x") := by
  let store := listStore (m := Visitors.mapping) (by decide +kernel) Visitors.freshIdentity_nextCode
  let c : Command := ⟨"visitors", "update visitors set name = @name\nwhere code = @code",
    [("code", .text "x"), ("name", .text "Bea")], none⟩
  have htext : Visitors.mapping.update = .ok c.text := by decide +kernel
  obtain ⟨-, set, -, -, -, hsettable, -, hrows⟩ :=
    writes_writable (m := Visitors.mapping) (by decide) (by decide)
  obtain ⟨-, hkeys⟩ := hsettable
    ⟨.ofType "name" { scalar := .text }, by decide, rfl, rfl, rfl⟩
  obtain ⟨g, hg, hx⟩ := hrows store [⟨[("code", .text "x"), ("name", .text "Ann")]⟩] c htext
  refine ⟨c, g, htext, rfl, Multiset.coe_eq_singleton.mp hg, ?_⟩
  obtain ⟨-, hhas⟩ := hx _ (Multiset.mem_singleton_self _)
  exact (hhas (by decide +kernel) "code" (by decide)).1 (hkeys "code" (by decide))

/-! ## Keys alone -/

namespace Places

/-- Places with a number that the backend assigns and a code, both in the key. -/
def table : Table where
  entity := "Place"
  tableName := "places"
  fields := [.ofType "id" { scalar := .int .int64 } { primaryKey := true, automatic := .identity },
    .ofType "code" { scalar := .text } { primaryKey := true }]

def mapping : Mapping := ⟨⟨[table]⟩, table, .of .sqlite⟩

end Places

open Places in
/-- The update of a place sets its number, which the backend assigns. -/
theorem Mapping.update_sets_identity :
    mapping.columnNames.Nodup ∧ mapping.table.hasPrimaryKey = true ∧
      mapping.update = .ok "update places set id = @id, code = @code\nwhere id = @id and code = @code" ∧
      ∃ f ∈ mapping.updateColumns, f.name = "id" ∧ f.isAutomatic = true := by
  decide +kernel

end EntityMapper
