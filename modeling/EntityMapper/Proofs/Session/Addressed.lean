import EntityMapper.Proofs.Session.ListStore
import EntityMapper.Proofs.Session.Restore

/-!
# Objects found by their keys

An existence check, a reload, an update and a deletion find a row by a condition that compares each
key column with the value that the object stores in it. Nothing equals null, but an object is made
of a row where some of its key columns are null, as long as they allow it and not all of them are.
So the row that an object was made of is found by its key just if no part of that is null.

* `Mapping.keyStatements` — the statements with a condition on the key
* `exists_seen_of_materialize` — an object is seen in a row that has a key
* `materialize_addressed` — which objects are found by their keys
-/

namespace EntityMapper

open Session

variable {c : Catalog} {t : Table} {m : Mapping} {o : Object} {rows : List Row}
  {objects : List Object} {same : Value → Value → Bool} {keys : List String}
  {values : String → Value} {r : Row} {v : View}

/-! ## Conditions on keys -/

/-- A row does not have a value that is null, whatever it is. -/
theorem hasValues_of_null (hnull : ∀ v w, same v w = true → v ≠ .null ∧ w ≠ .null)
    (h : ∃ k ∈ keys, values k = .null) (r : Row) : hasValues same keys values r = false := by
  obtain ⟨k, hk, hvalue⟩ := h
  rw [Bool.eq_false_iff]
  intro hhas
  obtain ⟨x, -, hsame⟩ := exists_of_hasValues hhas hk
  exact (hnull _ _ hsame).2 hvalue

/-- The statements that find a row by its key. -/
def Mapping.keyStatements (m : Mapping) : List (Except SchemaError String) :=
  [m.existenceCheck, m.reload, m.update, m.delete]

/-- Each of them ends in a condition on the key. -/
theorem Mapping.keyStatements_ok {sql : String} (h : .ok sql ∈ m.keyStatements) :
    ∃ head qualifier, sql = head ++ "\nwhere " ++ m.keyCondition qualifier := by
  simp only [keyStatements, List.mem_cons, List.not_mem_nil, or_false] at h
  rcases h with h | h | h | h
  · obtain ⟨_, -, h⟩ := exists_of_bind_eq_ok h.symm
    exact ⟨_, none, (Except.ok.inj h).symm⟩
  · obtain ⟨_, -, h⟩ := exists_of_bind_eq_ok h.symm
    obtain ⟨select, -, h⟩ := exists_of_bind_eq_ok h
    exact ⟨select, some m.rootAlias, (Except.ok.inj h).symm⟩
  · obtain ⟨_, -, h⟩ := exists_of_bind_eq_ok h.symm
    exact ⟨_, none, (Except.ok.inj h).symm⟩
  · obtain ⟨_, -, h⟩ := exists_of_bind_eq_ok h.symm
    have htext : s!"delete from {m.table.name}\nwhere " =
        "delete from " ++ m.table.name ++ "\nwhere " := rfl
    rw [htext] at h
    exact ⟨_, none, (Except.ok.inj h).symm⟩

/-! ## Keys of objects -/

/-- The key columns of a view with a key are there, null only where they allow it, and not all of
them are null. -/
theorem Table.cells_of_groupKey? {parts : List KeyPart} (h : t.groupKey? v = some parts) :
    (∀ f ∈ t.primaryKey, ∃ x, v.cell? f.name = some x ∧ (x = .null → f.isNullable = true)) ∧
      ∃ f ∈ t.primaryKey, ∃ x, v.cell? f.name = some x ∧ x ≠ .null := by
  unfold groupKey? at h
  split at h
  · next parts' hparts =>
    obtain ⟨hany, rfl⟩ : parts'.any Option.isSome = true ∧ parts' = parts := by simpa using h
    have hcells := mapM_eq_some_iff.mp hparts
    refine ⟨fun f hf => ?_, ?_⟩
    · obtain ⟨part, -, hpart⟩ := exists_of_forall₂_mem hcells.flip hf
      unfold Field.keyCell? at hpart
      split at hpart
      · cases hpart
      · next x hx =>
        refine ⟨x, hx, ?_⟩
        rintro rfl
        by_contra hnullable
        simp [Value.isNull, hnullable] at hpart
    · obtain ⟨part, hmem, hsome⟩ := List.any_eq_true.mp hany
      obtain ⟨f, hf, hpart⟩ := exists_of_forall₂_mem hcells hmem
      unfold Field.keyCell? at hpart
      split at hpart
      · cases hpart
      · next x hx =>
        refine ⟨f, hf, x, hx, ?_⟩
        rintro rfl
        split at hpart
        · split at hpart
          · obtain rfl := Option.some.inj hpart
            cases hsome
          · cases hpart
        · next hnull => exact hnull rfl
  · cases h

/-- An object is seen in a row that has a key. -/
theorem exists_seen_of_materialize (hkey : t.hasPrimaryKey = true)
    (h : materialize c t rows = .ok objects) (ho : o ∈ objects) :
    ∃ r ∈ rows, (t.groupKey? (.ofRow r)).isSome = true ∧ o.Completes (t.seen (.ofRow r)) := by
  obtain ⟨g, hg, hcompletes⟩ := exists_of_forall₂_mem (materialize_roots h) ho
  rw [Table.rootGroups, if_pos hkey] at hg
  obtain ⟨v, more, rfl, hopens, -, hmem⟩ := exists_of_mem_firstSeen hg
  obtain ⟨r, hr, rfl⟩ := List.mem_map.mp (hmem v List.mem_cons_self)
  rw [Table.opens, if_pos hkey, Bool.and_eq_true] at hopens
  exact ⟨r, hr, hopens.1, hcompletes⟩

/-- **Which objects are found by their keys.** Let rows be read into the objects of a keyed table,
and let values be equal only if neither is null. Each object is seen in one of the rows, and if that
row has just the values that the object stores, then

* not all parts of the object's key are null, and only those that allow it are,
* each statement that finds a row by its key has a condition on the key, and its command binds the
  object's key; the condition is true of the row where all parts of the key can be compared, and it
  is true of no row at all where one of them is null. -/
theorem materialize_addressed (hkey : m.table.hasPrimaryKey = true)
    (h : materialize m.catalog m.table rows = .ok objects) (ho : o ∈ objects)
    (hnull : ∀ v w, same v w = true → v ≠ .null ∧ w ≠ .null)
    (hself : ∀ v : Value, v.isComparable = true → same v v = true) :
    ∃ r ∈ rows, o.Completes (m.table.seen (.ofRow r)) ∧
      (r.Holds m.columnNames (m.table.stored o) →
        (∃ k ∈ m.keyNames, m.table.stored o k ≠ .null) ∧
        (∀ f ∈ m.table.primaryKey, m.table.stored o f.name = .null → f.isNullable = true) ∧
        ∀ sql, .ok sql ∈ m.keyStatements → ∃ c, objectCommand m (.ok sql) o = .ok c ∧
          (∃ head qualifier, c.text = head ++ "\nwhere " ++ m.keyCondition qualifier) ∧
          (∀ k ∈ m.keyNames, c.bound k = m.table.stored o k) ∧
          ((∀ k ∈ m.keyNames, (m.table.stored o k).isComparable = true) →
            hasValues same m.keyNames c.bound r = true) ∧
          ((∃ k ∈ m.keyNames, m.table.stored o k = .null) →
            ∀ x, hasValues same m.keyNames c.bound x = false)) := by
  obtain ⟨r, hr, hgroup, hseen⟩ := exists_seen_of_materialize hkey h ho
  refine ⟨r, hr, hseen, fun hholds => ?_⟩
  obtain ⟨parts, hparts⟩ := Option.isSome_iff_exists.mp hgroup
  obtain ⟨hcells, f, hf, x, hx, hvalue⟩ := Table.cells_of_groupKey? hparts
  -- the key columns of the row are those that the object stores
  have hcell : ∀ f ∈ m.table.primaryKey,
      (View.ofRow r).cell? f.name = some (m.table.stored o f.name) := by
    intro f hf
    rw [cell?_ofRow]
    exact hholds f.name (List.mem_map_of_mem (mem_scalarFields hf))
  have hkeys : r.Holds m.keyNames (m.table.stored o) := by
    intro k hk
    obtain ⟨f, hf, rfl⟩ := List.mem_map.mp hk
    exact hholds f.name (List.mem_map_of_mem (mem_scalarFields hf))
  refine ⟨?_, ?_, ?_⟩
  · obtain rfl := Option.some.inj ((hcell f hf).symm.trans hx)
    exact ⟨f.name, List.mem_map_of_mem hf, hvalue⟩
  · intro f hf hnone
    obtain ⟨y, hy, hnullable⟩ := hcells f hf
    obtain rfl := Option.some.inj ((hcell f hf).symm.trans hy)
    exact hnullable hnone
  · intro sql hsql
    have howns : m.table.owns o = true := by
      rw [Table.owns, hseen]
      exact beq_self_eq_true _
    obtain ⟨c, hc⟩ : ∃ c, objectCommand m (.ok sql) o = .ok c := exists_objectCommand (if_pos howns)
    obtain ⟨htext, -, hbound⟩ := objectCommand_ok hc
    obtain rfl := Except.ok.inj htext
    refine ⟨c, hc, Mapping.keyStatements_ok hsql, ?_⟩
    rw [hbound]
    refine ⟨fun k hk => rfl, fun hcomparable => ?_, fun hnone => hasValues_of_null hnull hnone⟩
    exact hkeys.hasValues fun k hk => hself _ (hcomparable k hk)

/-! ## Bins -/

namespace Bins

/-- Bins of a store, some of them in no aisle. -/
def table : Table where
  entity := "Bin"
  tableName := "bins"
  fields := [.ofType "aisle" { scalar := .text, nullable := true } { primaryKey := true },
    .ofType "label" { scalar := .text } { primaryKey := true },
    .ofType "items" { scalar := .int .int64 }]

def mapping : Mapping := ⟨⟨[table]⟩, table, .of .sqlite⟩

/-- A bin in no aisle. -/
def row : Row := ⟨[("aisle", .null), ("label", .text "x"), ("items", .int 3)]⟩

/-- The bin of the row. -/
def bin : Object where
  typeId := "Bin"
  values := [.absent, .text "x", .int 3]
  children := []

end Bins

/-- A bin in no aisle is read, and the existence check for it finds no row, not even its own. -/
theorem materialize_addressed_bins :
    materialize Bins.mapping.catalog Bins.mapping.table [Bins.row] = .ok [Bins.bin] ∧
      Bins.row.Holds Bins.mapping.columnNames (Bins.mapping.table.stored Bins.bin) ∧
      ∃ c, objectCommand Bins.mapping Bins.mapping.existenceCheck Bins.bin = .ok c ∧
        c.bound "aisle" = .null ∧ c.bound "label" = .text "x" ∧
        ∀ r, hasValues sameStored ["aisle", "label"] c.bound r = false := by
  have hread : materialize Bins.mapping.catalog Bins.mapping.table [Bins.row] = .ok [Bins.bin] :=
    rfl
  have hholds : Bins.row.Holds Bins.mapping.columnNames (Bins.mapping.table.stored Bins.bin) := by
    unfold Row.Holds
    decide
  refine ⟨hread, hholds, ?_⟩
  obtain ⟨r, hr, -, hfound⟩ := materialize_addressed rfl hread List.mem_cons_self sameStored_ne_null
    sameStored_self
  obtain rfl := List.mem_singleton.mp hr
  obtain ⟨-, -, hstatements⟩ := hfound hholds
  obtain ⟨c, hc, -, hbound, -, hnone⟩ := hstatements _ List.mem_cons_self
  have hnothing := hnone ⟨"aisle", by decide, rfl⟩
  exact ⟨c, hc, hbound "aisle" (by decide), hbound "label" (by decide), hnothing⟩

end EntityMapper
