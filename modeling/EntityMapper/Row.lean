import EntityMapper.Value

/-!
# Rows

A row maps column names to values. It is kept sorted by name, each name once: adding a column
never overwrites, setting one does.
-/

namespace EntityMapper

/-- Puts a column at its place among columns sorted by name; a column of that name is replaced. -/
def insertColumn (name : String) (v : Value) : List (String × Value) → List (String × Value)
  | [] => [(name, v)]
  | c :: r =>
    if name < c.1 then (name, v) :: c :: r
    else if name = c.1 then (name, v) :: r
    else c :: insertColumn name v r

/-- A row: its columns, sorted by name. -/
structure Row where
  columns : List (String × Value)
deriving DecidableEq, Inhabited

namespace Row

/-- The row without columns. -/
def empty : Row := ⟨[]⟩

/-- The value of a column. -/
def get? (r : Row) (name : String) : Option Value := r.columns.lookup name

/-- Whether a row has a column. -/
def contains (r : Row) (name : String) : Bool := (r.get? name).isSome

/-- Sets or replaces a column. -/
def set (r : Row) (name : String) (v : Value) : Row := ⟨insertColumn name v r.columns⟩

/-- Adds a column unless there is one of that name already. -/
def push (r : Row) (name : String) (v : Value) : Row :=
  if r.contains name then r else r.set name v

/-- The row of a list of columns, the first of each name counting. -/
def ofColumns (columns : List (String × Value)) : Row :=
  columns.foldl (fun r c => r.push c.1 c.2) empty

/-! ## What a row holds -/

theorem lookup_cons_eq (other k : String) (w : Value) (r : List (String × Value)) :
    ((k, w) :: r).lookup other = if other = k then some w else r.lookup other := by
  by_cases h : other = k
  · simp [h]
  · simp [List.lookup_cons, h, beq_eq_false_iff_ne.mpr h]

theorem lookup_insertColumn (name other : String) (v : Value) (cs : List (String × Value)) :
    (insertColumn name v cs).lookup other = if other = name then some v else cs.lookup other := by
  induction cs with
  | nil => simp [insertColumn, lookup_cons_eq]
  | cons c r ih =>
    obtain ⟨k, w⟩ := c
    rw [insertColumn]
    split
    · rw [lookup_cons_eq]
    · split
      · next heq =>
        subst heq
        simp only [lookup_cons_eq]
        split <;> rfl
      · next hne =>
        simp only [lookup_cons_eq, ih]
        by_cases hk : other = k
        · subst hk
          simp [Ne.symm hne]
        · simp [hk]

@[simp] theorem get?_empty (name : String) : empty.get? name = none := rfl

@[simp] theorem get?_set (r : Row) (name other : String) (v : Value) :
    (r.set name v).get? other = if other = name then some v else r.get? other :=
  lookup_insertColumn name other v r.columns

/-- A column that is there already is kept. -/
theorem get?_push (r : Row) (name other : String) (v : Value) :
    (r.push name v).get? other =
      if other = name then (r.get? name).or (some v) else r.get? other := by
  unfold push contains
  cases h : r.get? name with
  | none => simp
  | some w =>
    by_cases ho : other = name
    · subst ho
      simp [h]
    · simp [ho]

end Row

end EntityMapper
