import Mathlib.Data.Multiset.Filter
import EntityMapper.Proofs.Join.Cells
import EntityMapper.Proofs.Session.Course

/-!
# Stores

A store keeps the rows of a table by column. It reads a statement by the columns that the statement
names and by the values that are bound to them: it counts the rows that have the bound values in
the key, takes a row unless it has one with its key, gives each row that is inserted without an
identity a fresh one, and updates the rows that have the bound values in the key.

* `RowStatement` — the statements over the columns of a table, with their SQL
* `Store` — a handler that keeps rows so
* `objectCommand_ok` — what the command of an object binds
* `countRows_of_takes`, `countRows_map` — how many rows have a key after an insert or an update
-/

namespace EntityMapper

open Program Session

variable {σ : Type} {m : Mapping} {o : Object} {c : Command} {t : Table}

/-! ## Bound values -/

/-- The value that a command binds to a name; a name that it does not bind is null. -/
def Command.bound (c : Command) (name : String) : Value := (c.bindings.lookup name).getD .null

/-- The value that an object stores in a column; a column that it does not have is null. -/
def Table.stored (t : Table) (o : Object) (name : String) : Value :=
  ((t.value? o name).map Datum.toValue).getD .null

/-- The first binding of each name is the one that counts. -/
theorem lookup_firstOfEach (bindings : List (String × Value)) (name : String) :
    (Command.firstOfEach bindings).lookup name = bindings.lookup name := by
  -- what is seen already is looked up before the rest
  have hfold : ∀ seen : List (String × Value), (bindings.foldl (fun seen b =>
      if seen.any (fun s => s.1 == b.1) then seen else seen ++ [b]) seen).lookup name =
        (seen.lookup name).or (bindings.lookup name) := by
    induction bindings with
    | nil => simp
    | cons b rest ih =>
      intro seen
      rw [List.foldl_cons, ih, Row.lookup_cons_eq]
      by_cases hname : name = b.1
      · rw [if_pos hname]
        split
        · next hany =>
          have hseen : (seen.lookup name).isSome = true := by
            rw [List.lookup_isSome_iff]
            obtain ⟨p, hp, heq⟩ := List.any_eq_true.mp hany
            exact ⟨p, hp, by rw [hname, eq_of_beq heq, beq_self_eq_true]⟩
          obtain ⟨v, hv⟩ := Option.isSome_iff_exists.mp hseen
          rw [hv, Option.some_or, Option.some_or]
        · rw [List.lookup_append, Row.lookup_cons_eq, if_pos hname, Option.or_assoc, Option.some_or]
      · rw [if_neg hname]
        split
        · rfl
        · rw [List.lookup_append, Row.lookup_cons_eq, if_neg hname, List.lookup_nil, Option.or_none]
  rw [Command.firstOfEach, hfold, List.lookup_nil, Option.none_or]

theorem toRow_eq_ok {row : Row} (h : t.toRow o = .ok row) :
    row = Row.ofColumns ((t.entries o).map fun e => (e.1.name, e.2.toValue)) := by
  unfold Table.toRow at h
  split at h
  · exact (Except.ok.inj h).symm
  · split at h
    · exact nomatch h
    · next hnone =>
      obtain rfl := (Except.ok.inj h).symm
      rw [Table.entries, List.head?_eq_none_iff.mp hnone]
      rfl

/-- A row can be made of an object or not by its entity type. -/
theorem toRow_isOk_congr {o' : Object} (htypeId : o'.typeId = o.typeId) {row : Row}
    (h : t.toRow o = .ok row) : ∃ row', t.toRow o' = .ok row' := by
  unfold Table.toRow at h ⊢
  rw [Table.owns, htypeId]
  rw [Table.owns] at h
  split at h
  · next howns =>
    rw [if_pos howns]
    exact ⟨_, rfl⟩
  · next howns =>
    rw [if_neg howns]
    exact ⟨_, h⟩

theorem get?_toRow {row : Row} (h : t.toRow o = .ok row) (name : String) :
    (row.get? name).getD .null = t.stored o name := by
  rw [toRow_eq_ok h, get?_ofColumns, Table.stored, Table.value?]
  congr 1
  induction t.entries o with
  | nil => rfl
  | cons e rest ih =>
    rw [List.map_cons, Row.lookup_cons_eq, List.find?_cons]
    by_cases hname : name = e.1.name
    · simp [hname]
    · have hbeq : (e.1.name == name) = false := by simpa using fun heq => hname heq.symm
      rw [if_neg hname, ih, hbeq]

/-- **What the command of an object binds**: to each column the value that the object stores. -/
theorem objectCommand_ok {sql : Except SchemaError String} (h : objectCommand m sql o = .ok c) :
    sql = .ok c.text ∧ (∃ row, m.table.toRow o = .ok row) ∧ c.bound = m.table.stored o := by
  unfold objectCommand at h
  cases sql with
  | error err => exact nomatch h
  | ok sql =>
    cases hrow : m.table.toRow o with
    | error err =>
      rw [hrow] at h
      exact nomatch h
    | ok row =>
      rw [hrow] at h
      obtain rfl := (Except.ok.inj h).symm
      refine ⟨rfl, ⟨row, rfl⟩, funext fun name => ?_⟩
      rw [← get?_toRow hrow, Command.bound, Command.bindings, lookup_firstOfEach]
      rfl

theorem exists_objectCommand {sql : String} {row : Row} (h : m.table.toRow o = .ok row) :
    ∃ c, objectCommand m (.ok sql) o = .ok c := by
  unfold objectCommand
  rw [h]
  exact ⟨_, rfl⟩

/-! ## Statements over columns -/

/-- A statement over the columns of a table, which takes its values from the parameters of their
names. -/
inductive RowStatement
  /-- how many rows have the values of the keys -/
  | count (keys : List String)
  /-- a row with the values of the columns -/
  | insert (columns : List String)
  /-- the values of the columns put into the rows that have the values of the keys -/
  | update (columns keys : List String)

/-- Columns that are set to or compared with their parameters. -/
def RowStatement.equations (d : Dialect) (separator : String) (columns : List String) : String :=
  separator.intercalate (columns.map fun k => k ++ " = " ++ d.placeholder k)

/-- The SQL of a statement for the table of a name. -/
def RowStatement.sql (d : Dialect) (table : String) : RowStatement → String
  | .count keys => "select count(0) as tt from " ++ table ++ "\nwhere " ++ equations d " and " keys
  | .insert columns =>
    "insert into " ++ table ++ " (" ++ ", ".intercalate columns ++ ") values (" ++
      ", ".intercalate (columns.map d.placeholder) ++ ")"
  | .update columns keys =>
    "update " ++ table ++ " set " ++ equations d ", " columns ++ "\nwhere " ++
      equations d " and " keys

/-- No update reads like an insert. -/
theorem RowStatement.update_sql_ne_insert (d : Dialect) (table : String)
    (set keys columns : List String) :
    (RowStatement.update set keys).sql d table ≠ (RowStatement.insert columns).sql d table := by
  unfold sql
  intro heq
  have hhead := congrArg (fun s : String => s.toList.head?) heq
  have hupdate : "update ".toList.head? = some 'u' := rfl
  have hinsert : "insert into ".toList.head? = some 'i' := rfl
  simp only [String.toList_append, List.head?_append, hupdate, hinsert, Option.some_or,
    Option.some.injEq] at hhead
  exact absurd hhead (by decide)

namespace Mapping

/-- The names of the columns of the table. -/
def columnNames (m : Mapping) : List String := m.table.scalarFields.map Field.name

/-- The names of the columns of the primary key. -/
def keyNames (m : Mapping) : List String := m.table.primaryKey.map Field.name

theorem keyCondition_none (m : Mapping) :
    m.keyCondition none = RowStatement.equations m.dialect " and " m.keyNames := by
  rw [keyCondition, RowStatement.equations, keyNames, List.map_map]
  rfl

theorem existenceCheck_eq (hkey : m.table.hasPrimaryKey = true) :
    m.existenceCheck = .ok ((RowStatement.count m.keyNames).sql m.dialect m.table.name) := by
  unfold existenceCheck Table.requirePrimaryKey
  rw [if_pos hkey, keyCondition_none]
  rfl

/-- A key is looked for only where there is one. -/
theorem hasPrimaryKey_of_existenceCheck {sql : String} (h : m.existenceCheck = .ok sql) :
    m.table.hasPrimaryKey = true := by
  unfold existenceCheck Table.requirePrimaryKey at h
  by_cases hkey : m.table.hasPrimaryKey = true
  · exact hkey
  · rw [if_neg hkey] at h
    cases h

theorem insert_eq (ignoreAutomatic : Bool) : m.insert ignoreAutomatic =
    (RowStatement.insert ((m.insertColumns ignoreAutomatic).map Field.name)).sql m.dialect
      m.table.name := by
  have htext : ∀ s : String, toString s = s := fun _ => rfl
  have hplaceholder : m.dialect.placeholder ∘ Field.name = m.placeholder := rfl
  dsimp only [insert, RowStatement.sql]
  rw [List.map_map, hplaceholder, htext, htext, htext]

theorem update_eq (hkey : m.table.hasPrimaryKey = true) :
    m.update = .ok ((RowStatement.update (m.updateColumns.map Field.name) m.keyNames).sql m.dialect
      m.table.name) := by
  have htext : ∀ s : String, toString s = s := fun _ => rfl
  have hset : (fun k => k ++ " = " ++ m.dialect.placeholder k) ∘ Field.name =
      fun f : Field => f.name ++ " = " ++ m.placeholder f := rfl
  unfold update Table.requirePrimaryKey
  rw [if_pos hkey, keyCondition_none]
  dsimp only [RowStatement.sql, RowStatement.equations]
  rw [List.map_map, hset, htext, htext, htext]
  rfl

end Mapping

/-! ## Rows with a key -/

/-- Whether a value can be compared: null and what is no number equal nothing. -/
def Value.isComparable : Value → Bool
  | .null => false
  | .float x => !x.isNaN
  | _ => true

/-- Whether a row has values in some columns, by an equality of values. -/
def hasValues (same : Value → Value → Bool) (names : List String) (values : String → Value)
    (r : Row) : Bool :=
  names.all fun name => (r.get? name).any fun v => same v (values name)

/-- How many rows have values in some columns. -/
def countRows (same : Value → Value → Bool) (names : List String) (values : String → Value)
    (rows : Multiset Row) : Nat := rows.countP fun r => hasValues same names values r = true

/-- A row has values in some columns as they are. -/
def Row.Holds (r : Row) (names : List String) (values : String → Value) : Prop :=
  ∀ name ∈ names, r.get? name = some (values name)

/-- What becomes of the rows of a table when a row is put into it: it is taken unless there is one
with its key. -/
inductive Takes (same : Value → Value → Bool) (keys : List String) (before : Multiset Row)
    (r : Row) : Multiset Row → Bool → Prop
  | taken (new : ∀ x ∈ before, hasValues same keys (fun k => (r.get? k).getD .null) x = false) :
      Takes same keys before r (r ::ₘ before) true
  | rejected {x : Row} (hx : x ∈ before)
      (old : hasValues same keys (fun k => (r.get? k).getD .null) x = true) :
      Takes same keys before r before false

/-- A row with other values in some columns. Those of the key that are not among them are kept. -/
structure Updated (columns keys : List String) (values : String → Value) (r r' : Row) : Prop where
  set : r'.Holds columns values
  kept : ∀ k ∈ keys, k ∉ columns → r'.get? k = r.get? k

variable {same : Value → Value → Bool} {keys columns : List String} {values values' : String → Value}
  {r : Row} {before after : Multiset Row}

theorem hasValues_congr (h : ∀ k ∈ keys, values k = values' k) (r : Row) :
    hasValues same keys values r = hasValues same keys values' r := by
  unfold hasValues
  rw [Bool.eq_iff_iff, List.all_eq_true, List.all_eq_true]
  refine forall₂_congr fun k hk => ?_
  rw [h k hk]

/-- A row that holds values has them, if each of them equals itself. -/
theorem Row.Holds.hasValues (h : r.Holds keys values)
    (hself : ∀ k ∈ keys, same (values k) (values k) = true) :
    hasValues same keys values r = true := by
  refine List.all_eq_true.mpr fun k hk => ?_
  rw [h k hk, Option.any_some]
  exact hself k hk

/-- A row that has values in columns has in each of them one that equals the value. -/
theorem exists_of_hasValues (h : hasValues same keys values r = true) {k : String} (hk : k ∈ keys) :
    ∃ v, r.get? k = some v ∧ same v (values k) = true := by
  have hany := List.all_eq_true.mp h k hk
  cases hget : r.get? k with
  | none =>
    rw [hget] at hany
    exact nomatch hany
  | some v =>
    rw [hget, Option.any_some] at hany
    exact ⟨v, rfl, hany⟩

theorem countRows_congr (h : ∀ k ∈ keys, values k = values' k) (rows : Multiset Row) :
    countRows same keys values rows = countRows same keys values' rows := by
  unfold countRows
  refine Multiset.countP_congr rfl fun r _ => ?_
  rw [hasValues_congr h]

/-- A row that is taken is put to the others, and none of them has its key. -/
theorem countRows_of_taken (h : Takes same keys before r after true) (hkey : r.Holds keys values)
    (hself : ∀ k ∈ keys, same (values k) (values k) = true) :
    after = r ::ₘ before ∧ countRows same keys values before = 0 ∧
      countRows same keys values after = 1 := by
  have hvalues : ∀ k ∈ keys, (r.get? k).getD .null = values k := by
    intro k hk
    rw [hkey k hk, Option.getD_some]
  cases h with
  | taken new =>
    have hnone : countRows same keys values before = 0 := by
      refine Multiset.countP_eq_zero.mpr fun x hx => ?_
      rw [← hasValues_congr hvalues, new x hx]
      exact Bool.false_ne_true
    refine ⟨rfl, hnone, ?_⟩
    unfold countRows at hnone ⊢
    rw [Multiset.countP_cons, if_pos (hkey.hasValues hself), hnone]

/-- A row that is rejected changes nothing, and there is a row with its key. -/
theorem countRows_of_rejected (h : Takes same keys before r after false)
    (hkey : r.Holds keys values) : after = before ∧ 0 < countRows same keys values before := by
  have hvalues : ∀ k ∈ keys, (r.get? k).getD .null = values k := by
    intro k hk
    rw [hkey k hk, Option.getD_some]
  cases h with
  | rejected hx old =>
    rw [hasValues_congr hvalues] at old
    exact ⟨rfl, Multiset.countP_pos_of_mem hx old⟩

/-- **One row has the key of a row that is put into a table**, whether that is taken or there is one
with its key. -/
theorem countRows_of_takes {accepted : Bool} (h : Takes same keys before r after accepted)
    (hkey : r.Holds keys values) (hself : ∀ k ∈ keys, same (values k) (values k) = true)
    (hunique : countRows same keys values before ≤ 1) :
    countRows same keys values after = 1 := by
  cases accepted with
  | true => exact (countRows_of_taken h hkey hself).2.2
  | false =>
    obtain ⟨rfl, hpositive⟩ := countRows_of_rejected h hkey
    exact Nat.le_antisymm hunique hpositive

/-- An update of the rows with a key leaves as many rows with it. -/
theorem countRows_map {g : Row → Row} (hself : ∀ k ∈ keys, same (values k) (values k) = true)
    (hupdated : ∀ x ∈ before, if hasValues same keys values x = true
      then Updated columns keys values x (g x) else g x = x) :
    countRows same keys values (before.map g) = countRows same keys values before := by
  unfold countRows
  rw [Multiset.countP_map, ← Multiset.countP_eq_card_filter]
  refine Multiset.countP_congr rfl fun x hx => ?_
  have hx := hupdated x hx
  split at hx
  · next hhas =>
    refine propext (iff_of_true (List.all_eq_true.mpr fun k hk => ?_) hhas)
    by_cases hcolumn : k ∈ columns
    · rw [hx.set k hcolumn, Option.any_some]
      exact hself k hk
    · rw [hx.kept k hk hcolumn]
      exact List.all_eq_true.mp hhas k hk
  · rw [hx]

/-! ## Stores -/

/-- A handler that keeps the rows of a mapping's table. -/
structure Store (h : Handler σ) (m : Mapping) where
  rows : σ → Multiset Row
  /-- which values are equal -/
  same : Value → Value → Bool
  /-- null equals nothing -/
  same_null (v w : Value) (hsame : same v w = true) : v ≠ .null ∧ w ≠ .null
  same_self (v : Value) (hv : v.isComparable = true) : same v v = true
  connect (st : σ) : (h m.table.backend .connect st).1 = .ok () ∧
    rows (h m.table.backend .connect st).2 = rows st
  opening (st : σ) : (h m.table.backend .open st).1 = .ok () ∧
    rows (h m.table.backend .open st).2 = rows st
  closing (st : σ) : rows (h m.table.backend .close st).2 = rows st
  /-- a count is the number of rows that have the bound values in the keys -/
  count (st : σ) {c : Command} {keys : List String} (hkeys : keys.Sublist m.columnNames)
    (htext : c.text = (RowStatement.count keys).sql m.dialect m.table.name) :
    ∃ v, (h m.table.backend (.scalar c) st).1 = .ok v ∧
      v.asCount = some (nearestInt64 (countRows same keys c.bound (rows st))) ∧
      rows (h m.table.backend (.scalar c) st).2 = rows st
  /-- an insert puts a row with the bound values into the table -/
  insert (st : σ) {c : Command} {columns : List String} (hcolumns : columns.Sublist m.columnNames)
    (htext : c.text = (RowStatement.insert columns).sql m.dialect m.table.name) :
    ∃ r : Row, r.Holds columns c.bound ∧
      Takes same m.keyNames (rows st) r (rows (h m.table.backend (.execute c) st).2)
        (h m.table.backend (.execute c) st).1.isOk
  /-- an insert without the identity puts a row with a fresh one into the table, a value of the
  field, and replies with it -/
  insertIdentity (st : σ) (last : String) {c : Command} {columns : List String} {f : Field}
    (hidentity : m.table.identityField? = some f) (hcolumns : columns.Sublist m.columnNames)
    (hwithout : f.name ∉ columns)
    (htext : c.text = (RowStatement.insert columns).sql m.dialect m.table.name) :
    ∃ (r : Row) (d : Datum), f.Holds d ∧ d.toValue ≠ .null ∧ r.Holds columns c.bound ∧
      r.get? f.name = some d.toValue ∧
      (∀ x ∈ rows st, ∀ v, x.get? f.name = some v → same v d.toValue = false) ∧
      Takes same m.keyNames (rows st) r
        (rows (h m.table.backend (.insertIdentity c last) st).2)
        (h m.table.backend (.insertIdentity c last) st).1.isOk ∧
      ∀ v, (h m.table.backend (.insertIdentity c last) st).1 = .ok v → v = d.toValue
  /-- an update puts the bound values into every row that has them in the keys -/
  update (st : σ) {c : Command} {columns keys : List String} (hcolumns : columns.Sublist m.columnNames)
    (hkeys : keys.Sublist m.columnNames)
    (htext : c.text = (RowStatement.update columns keys).sql m.dialect m.table.name) :
    ∃ g : Row → Row, (h m.table.backend (.execute c) st).1 =
        .ok (countRows same keys c.bound (rows st) : Int) ∧
      rows (h m.table.backend (.execute c) st).2 = (rows st).map g ∧
      ∀ x ∈ rows st, if hasValues same keys c.bound x = true
        then Updated columns m.keyNames c.bound x (g x) else g x = x

end EntityMapper
