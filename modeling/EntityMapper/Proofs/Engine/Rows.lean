import Mathlib
import EntityMapper.Engine.Store
import EntityMapper.Proofs.Join.Rows

/-!
# Rows are stored by the affinities of their columns

A row that a table takes in holds every cell as its column stores it. The column that holds the row
number is an integer column, so a number that is given is stored as an integer column stores it.

* `StoredTable.numbersIntegers_of_define`, `StoredTable.NumbersIntegers.insert` — the column of the
  row number is an integer one, of a table that is defined and after every row
* `StoredTable.insert_stores` — the cells of a row that is taken in
-/

namespace EntityMapper.Engine

/-- A column that can hold the row number is an integer one. -/
theorem Affinity.ofType_of_canNumber {c : ColumnDefinition} (h : StoredTable.canNumber c = true) :
    Affinity.ofType c.type = .integer := by
  have hlower : c.type.toList.map Char.toLower = "integer".toList.map Char.toLower := by
    simpa [StoredTable.canNumber, sameName] using h
  have hupper : c.type.toList.map Char.toUpper = "INTEGER".toList := by
    have hmap : ∀ cs : List Char, cs.map Char.toUpper = (cs.map Char.toLower).map Char.toUpper := by
      intro cs
      rw [List.map_map]
      exact List.map_congr_left fun c _ => (Char.toUpper_toLower_eq_toUpper c).symm
    rw [hmap, hlower]
    decide
  unfold Affinity.ofType
  rw [hupper]
  decide

variable {table table' : StoredTable} {cells : List Cell} {number : Int} {i : Nat}
  {column : StoredColumn} {c : Cell}

/-! ## The column of the row number -/

/-- A table that numbers its rows in a column does so in an integer one. -/
def StoredTable.NumbersIntegers (t : StoredTable) : Prop :=
  ∀ i column, t.numbered = some i → t.columns[i]? = some column → column.affinity = .integer

theorem StoredTable.numbersIntegers_of_define {name : String} {columns : List ColumnDefinition}
    {key : Option (List String)} (h : StoredTable.define name columns key = .ok table) :
    table.NumbersIntegers := by
  intro i column hnumbered hcolumn
  unfold StoredTable.define at h
  dsimp only at h
  generalize List.filterMap _ _ = places at h
  split at h
  · exact nomatch h
  split at h
  · exact nomatch h
  split at h
  · next p =>
    split at h
    · exact nomatch h
    obtain rfl := Except.ok.inj h
    dsimp only at hnumbered hcolumn
    split at hnumbered
    · next hnumbers =>
      obtain rfl := Option.some.inj hnumbered
      rw [List.getElem?_map] at hcolumn
      obtain ⟨d, hd, rfl⟩ := Option.map_eq_some_iff.mp hcolumn
      rw [hd] at hnumbers
      exact Affinity.ofType_of_canNumber hnumbers
    · exact nomatch hnumbered
  · split at h
    · exact nomatch h
    obtain rfl := Except.ok.inj h
    exact nomatch hnumbered

/-- What a table that has taken a row in is made of. -/
theorem StoredTable.insert_eq_ok (h : table.insert cells = .ok (table', number)) :
    table.newNumber cells = .ok number ∧
      table' = { table with
        rows := placeRow (table.numberedRow number (table.storeCells cells)) table.rows
        lastUsed := max table.lastUsed number } := by
  unfold StoredTable.insert at h
  obtain ⟨k, hk, h⟩ := exists_of_bind_eq_ok h
  obtain ⟨_, -, h⟩ := exists_of_bind_eq_ok h
  obtain ⟨rfl, rfl⟩ := Prod.mk.inj (Except.ok.inj h)
  exact ⟨hk, rfl⟩

theorem StoredTable.NumbersIntegers.insert (ht : table.NumbersIntegers)
    (h : table.insert cells = .ok (table', number)) : table'.NumbersIntegers := by
  obtain ⟨-, rfl⟩ := StoredTable.insert_eq_ok h
  exact ht

/-! ## Rows that are taken in -/

theorem StoredTable.mem_placeRow (row : StoredRow) (rows : List StoredRow) :
    row ∈ placeRow row rows := by
  induction rows with
  | nil => exact List.mem_singleton_self row
  | cons r rest ih =>
    unfold placeRow
    split
    · exact List.mem_cons_self
    · exact List.mem_cons_of_mem r ih

/-- A cell that gives the number of its row is the number. -/
theorem StoredTable.newNumber_numbered (hplace : table.numbered = some i)
    (hcell : cells[i]? = some c) (hnull : c.isNull = false) (h : table.newNumber cells = .ok number) :
    Affinity.integer.store c = .int (Int64.ofInt number) := by
  unfold newNumber at h
  rw [hplace, Option.bind_some, hcell] at h
  dsimp only at h
  rw [hnull, if_neg Bool.false_ne_true] at h
  unfold numberOf at h
  split at h
  · next n hn =>
    obtain rfl := Except.ok.inj h
    rw [hn, Int64.ofInt_toInt]
  · exact nomatch h

/-- **A row that a table takes in holds each cell as its column stores it**, the number of the row
where it is given as well. -/
theorem StoredTable.insert_stores (ht : table.NumbersIntegers)
    (hinsert : table.insert cells = .ok (table', number))
    (hcolumn : table.columns[i]? = some column) (hcell : cells[i]? = some c)
    (hnull : table.numbered = some i → c.isNull = false) :
    ∃ row, (number, row) ∈ table'.rows ∧ row[i]? = some (column.affinity.store c) := by
  obtain ⟨hnumber, rfl⟩ := StoredTable.insert_eq_ok hinsert
  have hstored : (table.storeCells cells)[i]? = some (column.affinity.store c) := by
    simp [storeCells, List.getElem?_zipWith, hcolumn, hcell]
  refine ⟨(table.numberedRow number (table.storeCells cells)).2, mem_placeRow _ _, ?_⟩
  unfold numberedRow
  cases hplace : table.numbered with
  | none => exact hstored
  | some j =>
    show ((table.storeCells cells).set j (.int (Int64.ofInt number)))[i]? = _
    by_cases hij : j = i
    · subst hij
      have hlt : j < (table.storeCells cells).length := (List.getElem?_eq_some_iff.mp hstored).1
      rw [List.getElem?_set_self hlt, ht j column hplace hcolumn,
        newNumber_numbered hplace hcell (hnull hplace) hnumber]
    · rw [List.getElem?_set_ne hij, hstored]

end EntityMapper.Engine
