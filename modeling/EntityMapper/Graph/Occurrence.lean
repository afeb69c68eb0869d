import EntityMapper.Schema.Object

/-!
# Objects seen in a row

A joined row holds one root object and, under longer and longer column prefixes, the objects that
it leads to. `Occurrence.ofRow` cuts a row into this tree, before anything is known of other rows.
An object counts only if a column of its own is there, so the tree is no deeper than the longest
column name is long, however the tables refer to each other.
-/

namespace EntityMapper

/-! ## Keys -/

/-- The text of a key column; `none` where it is null. -/
abbrev KeyPart := Option String

/-- Why the columns of a row name no object. -/
inductive KeyFault
  | missingColumn (column : String)
  | unusable
deriving DecidableEq, Repr

/-- What identifies an object in a row: its key, or nothing at all. -/
inductive Identity
  | keyed (parts : List KeyPart)
  | keyless
deriving DecidableEq, Repr

namespace Table

/-- The part of a key that one column gives; null is usable where the column allows it. -/
def keyPart (row : Row) (leading : String) (f : Field) : Except KeyFault KeyPart :=
  match row.get? (leading ++ f.name) with
  | none => .error (.missingColumn (leading ++ f.name))
  | some v =>
    if v.isNull then (if f.isNullable then .ok none else .error .unusable)
    else .ok (some v.display)

/-- The key of the object whose columns start with `leading`; the first column at fault decides,
and a key of nulls alone is unusable. -/
def keyParts (t : Table) (row : Row) (leading : String) : Except KeyFault (List KeyPart) := do
  let parts ← t.primaryKey.mapM (keyPart row leading)
  if parts.all Option.isNone then throw .unusable else return parts

/-- Whether some column of the object is there and not null. -/
def anyValue (t : Table) (row : Row) (leading : String) : Bool :=
  t.scalarFields.any fun f => (row.get? (leading ++ f.name)).any fun v => !v.isNull

/-- What identifies a nested object, if the row holds one. -/
def nestedIdentity? (t : Table) (row : Row) (leading : String) : Option Identity :=
  if t.hasPrimaryKey then
    match t.keyParts row leading with
    | .ok parts => some (.keyed parts)
    | .error _ => none
  else if t.anyValue row leading then some .keyless else none

/-- What identifies the root object of a row, which has to have the key columns. -/
def rootIdentity? (t : Table) (row : Row) : Except SchemaError (Option Identity) :=
  if t.hasPrimaryKey then
    match t.keyParts row "" with
    | .ok parts => .ok (some (.keyed parts))
    | .error (.missingColumn column) => .error (.missingKeyColumn t.entity column)
    | .error .unusable => .ok none
  else .ok (some .keyless)

/-! ## Values -/

/-- The value that a row gives to a column of an object. A column that is missing, or null where
null is not allowed, keeps what a fresh object holds. `none` where a key column cannot hold its value. -/
def columnValue (t : Table) (row : Row) (leading : String) (f : Field) :
    Except FieldCoercionError (Option Datum) :=
  match row.get? (leading ++ f.name) with
  | none => .ok (some f.initial)
  | some v =>
    match f.read v with
    | .ok d => .ok (some d)
    | .error e =>
      if f.options.primaryKey then .ok none
      else if e.isNull then .ok (some f.initial)
      else .error ⟨t.entity, f.name, f.valueType, v.type, e⟩

/-- The values of an object's columns in order, up to the first key column that cannot hold its
value. -/
def columnValues (t : Table) (row : Row) (leading : String) :
    List Field → Except FieldCoercionError (Option (List Datum))
  | [] => .ok (some [])
  | f :: rest => do
    match ← t.columnValue row leading f with
    | none => return none
    | some d => return (← t.columnValues row leading rest).map (d :: ·)

/-- The object that a row holds, without the objects it leads to. -/
def rowObject (t : Table) (row : Row) (leading : String) :
    Except FieldCoercionError (Option Object) := do
  return (← t.columnValues row leading t.scalarFields).map fun values =>
    { t.blank with values }

end Table

/-! ## The length of column names -/

/-- The length of the longest column name. -/
def Row.longestName (r : Row) : Nat := (r.columns.map fun c => c.1.length).foldr max 0

theorem le_foldr_max {n : Nat} {l : List Nat} (h : n ∈ l) : n ≤ l.foldr max 0 := by
  induction l with
  | nil => simp at h
  | cons m r ih =>
    rw [List.mem_cons] at h
    rw [List.foldr_cons]
    rcases h with rfl | h
    · exact Nat.le_max_left _ _
    · exact Nat.le_trans (ih h) (Nat.le_max_right _ _)

theorem mem_of_lookup_eq_some {name : String} {v : Value} {cs : List (String × Value)}
    (h : cs.lookup name = some v) : (name, v) ∈ cs := by
  induction cs with
  | nil => simp at h
  | cons c r ih =>
    obtain ⟨k, w⟩ := c
    rw [Row.lookup_cons_eq] at h
    split at h
    · next hk => simp_all
    · exact List.mem_cons_of_mem _ (ih h)

/-- A column that a row has is no longer than its longest. -/
theorem Row.length_le_longestName {r : Row} {name : String} {v : Value}
    (h : r.get? name = some v) : name.length ≤ r.longestName :=
  le_foldr_max (List.mem_map.mpr ⟨(name, v), mem_of_lookup_eq_some h, rfl⟩)

namespace Table

/-- A key that can be read needs its columns. -/
theorem length_le_of_keyParts {t : Table} {row : Row} {leading : String} {parts : List KeyPart}
    (hkey : t.hasPrimaryKey = true) (h : t.keyParts row leading = .ok parts) :
    leading.length ≤ row.longestName := by
  unfold hasPrimaryKey at hkey
  unfold keyParts at h
  cases hk : t.primaryKey with
  | nil => simp [hk] at hkey
  | cons f fs =>
    rw [hk, List.mapM_cons] at h
    cases hp : keyPart row leading f with
    | error e => rw [hp] at h; exact nomatch h
    | ok p =>
      unfold keyPart at hp
      cases hg : row.get? (leading ++ f.name) with
      | none => simp [hg] at hp
      | some v =>
        have := Row.length_le_longestName hg
        rw [String.length_append] at this
        omega

/-- A nested object that is there has a column under its prefix. -/
theorem length_le_of_nestedIdentity? {t : Table} {row : Row} {leading : String}
    (h : (t.nestedIdentity? row leading).isSome = true) : leading.length ≤ row.longestName := by
  unfold nestedIdentity? at h
  split at h
  · next hkey =>
    split at h
    · next parts hp => exact length_le_of_keyParts hkey hp
    · simp at h
  · split at h
    · next hany =>
      obtain ⟨f, _, hf⟩ := List.any_eq_true.mp hany
      obtain ⟨v, hv⟩ : ∃ v, row.get? (leading ++ f.name) = some v := by
        cases hg : row.get? (leading ++ f.name) with
        | none => simp [hg] at hf
        | some v => exact ⟨v, rfl⟩
      have := Row.length_le_longestName hv
      rw [String.length_append] at this
      omega
    · simp at h

end Table

/-! ## The tree -/

/-- An object seen in a row: what identifies it, the object itself unless its columns cannot hold
their values, and what is seen of each association, by its place. -/
inductive Occurrence
  | mk (table : Table) (identity : Identity)
      (object : Except FieldCoercionError (Option Object)) (below : List (Nat × Occurrence))

namespace Occurrence

/-- The prefix of the columns of the objects that an association leads to. -/
def nestedPrefix (leading field : String) : String := leading ++ field ++ "_"

/-- What a row holds of a nested object and of the objects below it. -/
def nested? (c : Catalog) (row : Row) (t : Table) (leading : String) : Option Occurrence :=
  match _h : t.nestedIdentity? row leading with
  | none => none
  | some identity =>
    some <| .mk t identity (t.rowObject row leading) <|
      t.associations.zipIdx.filterMap fun (a, place) =>
        (nested? c row (c.table a.2.target) (nestedPrefix leading a.1)).map fun o => (place, o)
termination_by row.longestName + 1 - leading.length
decreasing_by
  have : leading.length ≤ row.longestName :=
    Table.length_le_of_nestedIdentity? (show (t.nestedIdentity? row leading).isSome = true by simp [_h])
  simp only [nestedPrefix, String.length_append]
  have : "_".length = 1 := rfl
  omega

/-- What a row holds of the objects that an object leads to, each under the place of its
association. -/
def nestedIn (c : Catalog) (row : Row) (t : Table) (leading : String) : List (Nat × Occurrence) :=
  t.associations.zipIdx.filterMap fun (a, place) =>
    (nested? c row (c.table a.2.target) (nestedPrefix leading a.1)).map fun o => (place, o)

/-- The object that a row is about, and all that is seen below it. -/
def ofRow (c : Catalog) (t : Table) (row : Row) : Except SchemaError (Option Occurrence) := do
  return (← t.rootIdentity? row).map fun identity =>
    .mk t identity (t.rowObject row "") (nestedIn c row t "")

end Occurrence

end EntityMapper
