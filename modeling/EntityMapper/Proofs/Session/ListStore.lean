import Mathlib.Data.List.Nodup
import Mathlib.Data.List.Sublists
import EntityMapper.Proofs.Session.Store

/-!
# A list of rows as a store

A list of rows is a store for a table whose statements are told apart by their texts: the text of a
command gives the statement back, and the statement says what to do with the rows.

* `Mapping.statement?` — the statement of a text
* `listStore` — a list of rows is a store
-/

namespace EntityMapper

open Program

variable {m : Mapping} {rows : List Row} {r : Row} {columns keys : List String}
  {values : String → Value}

/-! ## Reading statements -/

/-- The statements over some columns. -/
def RowStatement.over (columns : List String) : List RowStatement :=
  columns.sublists.map .count ++ columns.sublists.map .insert ++
    columns.sublists.flatMap fun set => columns.sublists.map (.update set)

namespace Mapping

/-- Whether the statements over the columns of the table have different texts. -/
def Readable (m : Mapping) : Prop :=
  ((RowStatement.over m.columnNames).map (RowStatement.sql m.dialect m.table.name)).Nodup

instance (m : Mapping) : Decidable m.Readable := inferInstanceAs (Decidable (List.Nodup _))

/-- The statement of a text. -/
def statement? (m : Mapping) (text : String) : Option RowStatement :=
  (RowStatement.over m.columnNames).find? fun s => s.sql m.dialect m.table.name == text

theorem statement?_sql (hm : m.Readable) {s : RowStatement}
    (hs : s ∈ RowStatement.over m.columnNames) {text : String}
    (htext : text = s.sql m.dialect m.table.name) : m.statement? text = some s := by
  subst htext
  unfold statement?
  cases hfind : (RowStatement.over m.columnNames).find? fun s' =>
      s'.sql m.dialect m.table.name == s.sql m.dialect m.table.name with
  | none =>
    have hnot := List.find?_eq_none.mp hfind s hs
    exact (hnot (beq_self_eq_true _)).elim
  | some s' =>
    have hsame := List.find?_some hfind
    have heq := eq_of_beq hsame
    rw [List.inj_on_of_nodup_map hm (List.mem_of_find?_eq_some hfind) hs heq]

theorem statement?_count (hm : m.Readable) (hkeys : keys.Sublist m.columnNames) {text : String}
    (htext : text = (RowStatement.count keys).sql m.dialect m.table.name) :
    m.statement? text = some (.count keys) := by
  refine statement?_sql hm ?_ htext
  simp [RowStatement.over, hkeys]

theorem statement?_insert (hm : m.Readable) (hcolumns : columns.Sublist m.columnNames)
    {text : String} (htext : text = (RowStatement.insert columns).sql m.dialect m.table.name) :
    m.statement? text = some (.insert columns) := by
  refine statement?_sql hm ?_ htext
  simp [RowStatement.over, hcolumns]

theorem statement?_update (hm : m.Readable) (hcolumns : columns.Sublist m.columnNames)
    (hkeys : keys.Sublist m.columnNames) {text : String}
    (htext : text = (RowStatement.update columns keys).sql m.dialect m.table.name) :
    m.statement? text = some (.update columns keys) := by
  refine statement?_sql hm ?_ htext
  simp [RowStatement.over, hcolumns, hkeys]

end Mapping

/-! ## Changing rows -/

/-- A row with values in some columns. -/
def Row.withValues (r : Row) (columns : List String) (values : String → Value) : Row :=
  columns.foldl (fun r k => r.set k (values k)) r

theorem get?_withValues (r : Row) (columns : List String) (values : String → Value) (name : String) :
    (r.withValues columns values).get? name =
      if name ∈ columns then some (values name) else r.get? name := by
  unfold Row.withValues
  induction columns generalizing r with
  | nil => simp
  | cons k rest ih =>
    rw [List.foldl_cons, ih, Row.get?_set]
    by_cases hrest : name ∈ rest
    · simp [hrest]
    · by_cases hname : name = k
      · simp [hname]
      · simp [hrest, hname]

theorem holds_withValues (r : Row) (columns : List String) (values : String → Value) :
    (r.withValues columns values).Holds columns values := by
  intro k hk
  rw [get?_withValues, if_pos hk]

/-- Equality of stored values: null equals nothing, and other values equal themselves. -/
def sameStored (v w : Value) : Bool := !v.isNull && v == w

theorem sameStored_ne_null (v w : Value) (h : sameStored v w = true) : v ≠ .null ∧ w ≠ .null := by
  simp only [sameStored, Bool.and_eq_true, Bool.not_eq_true', beq_iff_eq] at h
  obtain ⟨hnull, rfl⟩ := h
  have hv : v ≠ .null := by
    rintro rfl
    exact nomatch hnull
  exact ⟨hv, hv⟩

theorem sameStored_self (v : Value) (hv : v.isComparable = true) : sameStored v v = true := by
  cases v with
  | null => exact nomatch hv
  | _ => simp [sameStored, Value.isNull]

/-- Whether a row has the key of another. -/
def sameKey (keys : List String) (r : Row) : Row → Bool :=
  hasValues sameStored keys fun k => (r.get? k).getD .null

/-- The rows with another, unless one of them has its key. -/
def putRow (keys : List String) (rows : List Row) (r : Row) : List Row :=
  if rows.any (sameKey keys r) then rows else r :: rows

theorem takes_putRow (keys : List String) (rows : List Row) (r : Row) :
    Takes sameStored keys rows r (putRow keys rows r) (!rows.any (sameKey keys r)) := by
  unfold putRow
  cases hany : rows.any (sameKey keys r) with
  | true =>
    obtain ⟨x, hx, hkey⟩ := List.any_eq_true.mp hany
    exact .rejected (Multiset.mem_coe.mpr hx) hkey
  | false =>
    refine .taken fun x hx => ?_
    exact Bool.eq_false_iff.mpr (List.any_eq_false.mp hany x (Multiset.mem_coe.mp hx))

/-- The rows with other values in some columns where they have the values of the keys. -/
def updateRow (columns keys : List String) (values : String → Value) (r : Row) : Row :=
  if hasValues sameStored keys values r then r.withValues columns values else r

theorem isOk_ite {ε α : Type} {p : Bool} {err : ε} {a : α} :
    (if p then .error err else .ok a : Except ε α).isOk = !p := by cases p <;> rfl

/-- What is said of a row that is not taken. -/
def keyExists : BackendError := ⟨"execute", "there is a row with the key"⟩

/-- What is said of a statement that is not understood. -/
def notUnderstood : BackendError := ⟨"execute", "not understood"⟩

/-- A backend that keeps the rows of a table in a list. `fresh` gives the next identity. -/
def listAnswer (m : Mapping) (fresh : List Row → Datum) : Handler (List Row)
  | _, .connect, rows => (.ok (), rows)
  | _, .open, rows => (.ok (), rows)
  | _, .close, rows => (.ok (), rows)
  | _, .reader _, rows => (.ok rows, rows)
  | _, .tableExists _, rows => (.ok true, rows)
  | _, .scalar c, rows =>
    match m.statement? c.text with
    | some (.count keys) => (.ok (.int (nearestInt64 (countRows sameStored keys c.bound rows))), rows)
    | _ => (.error notUnderstood, rows)
  | _, .execute c, rows =>
    match m.statement? c.text with
    | some (.insert columns) =>
      let r := Row.empty.withValues columns c.bound
      (if rows.any (sameKey m.keyNames r) then .error keyExists else .ok 1,
        putRow m.keyNames rows r)
    | some (.update columns keys) =>
      (.ok (countRows sameStored keys c.bound rows), rows.map (updateRow columns keys c.bound))
    | _ => (.error notUnderstood, rows)
  | _, .insertIdentity c _, rows =>
    match m.statement? c.text, m.table.identityField? with
    | some (.insert columns), some f =>
      let r := (Row.empty.set f.name (fresh rows).toValue).withValues columns c.bound
      (if rows.any (sameKey m.keyNames r) then .error keyExists else .ok (fresh rows).toValue,
        putRow m.keyNames rows r)
    | _, _ => (.error notUnderstood, rows)

/-- The next identity is a value of its field that no row has. -/
def FreshIdentity (m : Mapping) (fresh : List Row → Datum) : Prop :=
  ∀ f, m.table.identityField? = some f → ∀ rows, f.Holds (fresh rows) ∧
    (fresh rows).toValue ≠ .null ∧ ∀ x ∈ rows, x.get? f.name ≠ some (fresh rows).toValue

/-- **A list of rows is a store.** -/
def listStore {fresh : List Row → Datum} (hm : m.Readable) (hfresh : FreshIdentity m fresh) :
    Store (listAnswer m fresh) m where
  rows rows := rows
  same := sameStored
  same_null := sameStored_ne_null
  same_self := sameStored_self
  connect rows := ⟨rfl, rfl⟩
  opening rows := ⟨rfl, rfl⟩
  closing rows := rfl
  count rows c keys hkeys htext := by
    have hanswer : listAnswer m fresh m.table.backend (.scalar c) rows =
        (.ok (.int (nearestInt64 (countRows sameStored keys c.bound rows))), rows) := by
      simp only [listAnswer, Mapping.statement?_count hm hkeys htext]
    rw [hanswer]
    exact ⟨_, rfl, rfl, rfl⟩
  insert rows c columns hcolumns htext := by
    let r := Row.empty.withValues columns c.bound
    have hanswer : listAnswer m fresh m.table.backend (.execute c) rows =
        (if rows.any (sameKey m.keyNames r) then .error keyExists else .ok 1,
          putRow m.keyNames rows r) := by
      simp only [listAnswer, Mapping.statement?_insert hm hcolumns htext]
      rfl
    rw [hanswer]
    refine ⟨r, holds_withValues _ columns c.bound, ?_⟩
    rw [isOk_ite]
    exact takes_putRow m.keyNames rows r
  insertIdentity rows last c columns f hidentity hcolumns hwithout htext := by
    obtain ⟨hholds, hpresent, hnew⟩ := hfresh f hidentity rows
    let r := (Row.empty.set f.name (fresh rows).toValue).withValues columns c.bound
    have hanswer : listAnswer m fresh m.table.backend (.insertIdentity c last) rows =
        (if rows.any (sameKey m.keyNames r) then .error keyExists else .ok (fresh rows).toValue,
          putRow m.keyNames rows r) := by
      simp only [listAnswer, Mapping.statement?_insert hm hcolumns htext, hidentity]
      rfl
    rw [hanswer]
    refine ⟨r, fresh rows, hholds, hpresent, holds_withValues _ columns c.bound, ?_, ?_, ?_, ?_⟩
    · rw [get?_withValues, if_neg hwithout, Row.get?_set, if_pos rfl]
    · intro x hx v hv
      rw [sameStored, Bool.and_eq_false_iff, beq_eq_false_iff_ne]
      right
      rintro rfl
      exact hnew x (Multiset.mem_coe.mp hx) hv
    · rw [isOk_ite]
      exact takes_putRow m.keyNames rows r
    · intro v hv
      split at hv
      · exact nomatch hv
      · exact (Except.ok.inj hv).symm
  update rows c columns keys hcolumns hkeys htext := by
    have hanswer : listAnswer m fresh m.table.backend (.execute c) rows =
        (.ok (countRows sameStored keys c.bound rows), rows.map (updateRow columns keys c.bound)) := by
      simp only [listAnswer, Mapping.statement?_update hm hcolumns hkeys htext]
    rw [hanswer]
    refine ⟨updateRow columns keys c.bound, rfl, (Multiset.map_coe _ rows).symm, ?_⟩
    intro x _
    unfold updateRow
    split
    · refine ⟨holds_withValues x columns c.bound, fun k _ hk => ?_⟩
      rw [get?_withValues, if_neg hk]
    · rfl

end EntityMapper
