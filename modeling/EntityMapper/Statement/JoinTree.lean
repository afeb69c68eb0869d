import EntityMapper.Schema.Table

/-!
# The tables of a select

A select reaches every table that associations lead to from its root, each under an alias of its
own: the names of the fields on the way, joined with `_`. Where an association leads back to a
table on its own branch there is no such select. `JoinTree.build` therefore ends: a branch holds
no table of the catalog twice.
-/

namespace EntityMapper

/-- A table with its alias, the prefix of its columns in the result, and the tables below it. -/
inductive JoinTree
  | mk (table : Table) (tableAlias leading : String) (joined : List ((String × Association) × JoinTree))

namespace JoinTree

/-- The table at the top. -/
def table : JoinTree → Table
  | .mk t .. => t

/-- The alias of the table at the top. -/
def tableAlias : JoinTree → String
  | .mk _ a .. => a

/-! ## Building -/

/-- The tables of a catalog that are not on a branch yet. -/
def unvisited (c : Catalog) (path : List String) : List Table :=
  c.tables.filter fun t => !path.contains t.typeId

theorem filter_length_lt {α : Type} {p q : α → Bool} {l : List α} (h : ∀ x ∈ l, q x → p x) {a : α}
    (ha : a ∈ l) (hp : p a = true) (hq : q a = false) :
    (l.filter q).length < (l.filter p).length := by
  induction l with
  | nil => simp at ha
  | cons b r ih =>
    have hle : (r.filter q).length ≤ (r.filter p).length := by
      rw [← List.countP_eq_length_filter, ← List.countP_eq_length_filter]
      exact List.countP_mono_left fun x hx => h x (List.mem_cons_of_mem _ hx)
    rw [List.mem_cons] at ha
    rcases ha with rfl | ha
    · simp [hp, hq]
      omega
    · have := ih (fun x hx => h x (List.mem_cons_of_mem _ hx)) ha
      have hb := h b List.mem_cons_self
      by_cases hqb : q b = true
      · rw [List.filter_cons_of_pos hqb, List.filter_cons_of_pos (hb hqb), List.length_cons, List.length_cons]
        omega
      · rw [List.filter_cons_of_neg hqb, List.filter_cons]
        split
        · rw [List.length_cons]
          omega
        · exact this

/-- Going on to a table of the catalog leaves fewer of them. -/
theorem unvisited_lt {c : Catalog} {path : List String} {typeId : String} {t : Table}
    (hpath : path.contains typeId = false) (hfind : c.find? typeId = some t) :
    (unvisited c (typeId :: path)).length < (unvisited c path).length := by
  have hmem := List.mem_of_find?_eq_some hfind
  have hid : t.typeId = typeId := by simpa using List.find?_some hfind
  refine filter_length_lt ?_ hmem ?_ ?_
  · intro x _ hx
    simp_all
  · simp_all
  · simp_all

/-- The tables that associations lead to from a table; `path` has the entity types on the branch.
The first association, in depth-first order, that leads back to the branch is the one at fault. -/
def build (c : Catalog) (t : Table) (tableAlias leading : String) (path : List String) :
    Except SchemaError JoinTree := do
  let joined ← t.associations.mapM fun a =>
    if _hpath : path.contains a.2.target then
      throw (.associationCycle t.entity a.1)
    else
      match _hfind : c.find? a.2.target with
      | none => return (a, .mk (c.table a.2.target) (leading ++ a.1) (leading ++ a.1 ++ "_") [])
      | some next =>
        return (a, ← build c next (leading ++ a.1) (leading ++ a.1 ++ "_") (a.2.target :: path))
  return .mk t tableAlias leading joined
termination_by (unvisited c path).length
decreasing_by exact unvisited_lt (by simpa using _hpath) _hfind

/-! ## Columns and joins -/

/-- A column of the result: where it comes from and what it is called. -/
structure ResultColumn where
  tableAlias : String
  column : String
  label : String
deriving DecidableEq, Repr

/-- A joined table: `alias.childColumn = ownerAlias.parentColumn`. -/
structure Join where
  tableName : String
  tableAlias : String
  childColumn : String
  ownerAlias : String
  parentColumn : String
deriving DecidableEq, Repr

/-- The columns of one table in the result. -/
def ownColumns (t : Table) (tableAlias leading : String) : List ResultColumn :=
  t.scalarFields.map fun f => ⟨tableAlias, f.name, leading ++ f.name⟩

mutual

/-- The columns of the result: those of a table before those of the tables below it. -/
def columns : JoinTree → List ResultColumn
  | .mk t tableAlias leading joined => ownColumns t tableAlias leading ++ columnsAll joined

/-- The columns of several tables. -/
def columnsAll : List ((String × Association) × JoinTree) → List ResultColumn
  | [] => []
  | (_, j) :: rest => columns j ++ columnsAll rest

end

mutual

/-- The joins below a table, each before those that hang on it. -/
def joins : JoinTree → List Join
  | .mk _ tableAlias _ joined => joinsAll tableAlias joined

/-- The joins of several tables that hang on one. -/
def joinsAll (owner : String) : List ((String × Association) × JoinTree) → List Join
  | [] => []
  | (a, j) :: rest =>
    ⟨j.table.name, j.tableAlias, a.2.childColumn, owner, a.2.parentColumn⟩ :: joins j ++
      joinsAll owner rest

end

/-- A column of the result in SQL. -/
def ResultColumn.sql (c : ResultColumn) : String := s!"{c.tableAlias}.{c.column} as {c.label}"

/-- A joined table in SQL. -/
def Join.sql (j : Join) : String :=
  s!"left join {j.tableName} {j.tableAlias} on {j.tableAlias}.{j.childColumn} = {j.ownerAlias}.{j.parentColumn}"

end JoinTree

end EntityMapper
