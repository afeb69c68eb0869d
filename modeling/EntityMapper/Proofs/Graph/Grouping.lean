import EntityMapper.Graph
import EntityMapper.Proofs.Graph.FirstSeen

/-!
# Grouping rows into objects

What joined rows mean, said of the whole list of rows at once and without nodes. A `View` is a
place where an object is looked for: a row, and what the names of its columns start with there.
The views of a table fall into groups by the text of their key columns; each group is one object.

* `Catalog.grouped` — the object of a group, each association filled by grouping the same views
  under the prefix of the association
* `Catalog.object` — the same where associations of one table may lead to the same type: what is
  seen through any of them is grouped together, and an object belongs to the association through
  which it is seen first
-/

namespace EntityMapper

/-! ## Views -/

/-- Where an object is looked for: a row, and what the names of its columns start with there. -/
structure View where
  row : Row
  leading : String

namespace View

/-- The whole row. -/
def ofRow (row : Row) : View := ⟨row, ""⟩

/-- The value of a column. -/
def cell? (v : View) (name : String) : Option Value := v.row.get? (v.leading ++ name)

/-- Where the objects are looked for that an association leads to. -/
def through (v : View) (name : String) : View := ⟨v.row, v.leading ++ name ++ "_"⟩

/-- How much longer column names may get before the row has none of them. -/
def room (v : View) : Nat := v.row.longestName + 1 - v.leading.length

end View

/-- The most room of any of several views. -/
def roomOf (g : List View) : Nat := (g.map View.room).foldr max 0

/-! ## One table -/

/-- What a field holds of an object seen in a view: a column that is missing or holds no value of
the field's type leaves what a fresh object has. -/
def Field.seenIn (f : Field) (v : View) : Datum :=
  match v.cell? f.name with
  | none => f.initial
  | some x =>
    match f.read x with
    | .ok d => d
    | .error _ => f.initial

/-- The text of a key column; null has none, and is usable where the column allows it. -/
def Field.keyCell? (f : Field) (v : View) : Option KeyPart :=
  match v.cell? f.name with
  | none => none
  | some x => if x.isNull then (if f.isNullable then some none else none) else some (some x.display)

namespace Table

/-- The texts of the key columns. There are none where a column is missing or unusable, and where
all of them are null. -/
def groupKey? (t : Table) (v : View) : Option (List KeyPart) :=
  match t.primaryKey.mapM fun f => f.keyCell? v with
  | some parts => if parts.any Option.isSome then some parts else none
  | none => none

/-- Whether the key columns hold values of their fields' types. -/
def keyReads (t : Table) (v : View) : Bool :=
  t.primaryKey.all fun f => (v.cell? f.name).all fun x => (f.read x).isOk

/-- Whether some column of a table is there and not null. -/
def present (t : Table) (v : View) : Bool :=
  t.scalarFields.any fun f => (v.cell? f.name).any fun x => !x.isNull

/-- Whether an object can be made of a view. -/
def opens (t : Table) (v : View) : Bool :=
  if t.hasPrimaryKey then (t.groupKey? v).isSome && t.keyReads v else t.present v

/-- Whether two views show one object: they have the same key. Without a key there is no telling. -/
def sameObject (t : Table) (v w : View) : Bool :=
  match t.groupKey? v with
  | some k => t.groupKey? w == some k
  | none => false

/-- The views of a table by object, in the order in which the objects are first seen. -/
def groups (t : Table) (vs : List View) : List (List View) := firstSeen t.sameObject t.opens vs

/-- The rows of a result by object. Without a key every row is an object of its own, also where
all its columns are null. -/
def rootGroups (t : Table) (rows : List Row) : List (List View) :=
  if t.hasPrimaryKey then t.groups (rows.map .ofRow) else rows.map fun r => [.ofRow r]

/-- The object seen in a view, without the objects it leads to. -/
def seen (t : Table) (v : View) : Object :=
  { t.blank with values := t.scalarFields.map fun f => f.seenIn v }

/-- The object of a group: that of its first view. -/
def seenFirst (t : Table) (g : List View) : Object := g.head?.elim t.blank t.seen

end Table

/-- What an association holds that held some objects at first, when others were found for it: these
come after the first ones, and where it leads to one object the last of all stays. -/
def Cardinality.keep : Cardinality → List Object → List Object → List Object
  | .many, initial, objects => initial ++ objects
  | .one, initial, objects => objects.getLast?.elim initial fun o => [o]

/-! ## Room -/

theorem room_le_roomOf {g : List View} {v : View} (h : v ∈ g) : v.room ≤ roomOf g :=
  le_foldr_max (List.mem_map.mpr ⟨v, h, rfl⟩)

theorem roomOf_le {g : List View} {n : Nat} (h : ∀ v ∈ g, v.room ≤ n) : roomOf g ≤ n := by
  induction g with
  | nil => exact Nat.zero_le n
  | cons v g ih =>
    have hv := h v List.mem_cons_self
    have hg := ih fun w hw => h w (List.mem_cons_of_mem _ hw)
    simp only [roomOf, List.map_cons, List.foldr_cons]
    exact Nat.max_le.mpr ⟨hv, hg⟩

/-- A view that has a column has room. -/
theorem View.room_pos_of_cell? {v : View} {name : String} {x : Value} (h : v.cell? name = some x) :
    0 < v.room := by
  have := Row.length_le_longestName h
  rw [String.length_append] at this
  unfold View.room
  omega

namespace Table

theorem room_pos_of_groupKey? {t : Table} {v : View} {k : List KeyPart}
    (h : t.groupKey? v = some k) : 0 < v.room := by
  unfold groupKey? at h
  cases hp : t.primaryKey with
  | nil => simp [hp] at h
  | cons f fs =>
    cases hc : v.cell? f.name with
    | none => simp [hp, List.mapM_cons, Field.keyCell?, hc] at h
    | some x => exact View.room_pos_of_cell? hc

theorem room_pos_of_opens {t : Table} {v : View} (h : t.opens v = true) : 0 < v.room := by
  unfold opens at h
  split at h
  · obtain ⟨k, hk⟩ := Option.isSome_iff_exists.mp (Bool.and_eq_true_iff.mp h).1
    exact room_pos_of_groupKey? hk
  · obtain ⟨f, _, hf⟩ := List.any_eq_true.mp h
    cases hc : v.cell? f.name with
    | none => simp [hc] at hf
    | some x => exact View.room_pos_of_cell? hc

end Table

theorem View.room_through_lt {v : View} (name : String) (h : 0 < v.room) :
    (v.through name).room < v.room := by
  simp only [View.room, View.through, String.length_append] at *
  have : "_".length = 1 := rfl
  omega

/-- The views of an object have less room than those of its owner. -/
theorem roomOf_lt {g : List View} {vs : List View} {w : View} (hw : w ∈ vs) (hpos : 0 < w.room)
    (h : ∀ v ∈ vs, ∃ u ∈ g, ∃ name, v = u.through name) : roomOf vs < roomOf g := by
  have hlt : ∀ u ∈ g, ∀ name, (u.through name).room ≤ roomOf g - 1 := by
    intro u hu name
    have := room_le_roomOf hu
    by_cases hr : 0 < u.room
    · have := View.room_through_lt name hr
      omega
    · have : (u.through name).room ≤ u.room := by
        simp only [View.room, View.through, String.length_append]
        omega
      omega
  have hle : roomOf vs ≤ roomOf g - 1 := roomOf_le fun v hv => by
    obtain ⟨u, hu, name, rfl⟩ := h v hv
    exact hlt u hu name
  obtain ⟨u, hu, name, rfl⟩ := h w hw
  have := room_le_roomOf hu
  have : 0 < u.room := by
    simp only [View.room, View.through, String.length_append] at hpos ⊢
    omega
  omega

theorem Table.roomOf_lt_of_mem_groups {t : Table} {g g' : List View} {name : String}
    (h : g' ∈ t.groups (g.map fun v => v.through name)) : roomOf g' < roomOf g := by
  obtain ⟨w, more, rfl, hw, -, hmem⟩ := exists_of_mem_firstSeen h
  refine roomOf_lt List.mem_cons_self (Table.room_pos_of_opens hw) fun v hv => ?_
  obtain ⟨u, hu, rfl⟩ := List.mem_map.mp (hmem v hv)
  exact ⟨u, hu, name, rfl⟩

/-! ## Objects where the associations of a table lead to different types -/

/-- The object of a group of views with all that it leads to. -/
def Catalog.grouped (c : Catalog) (t : Table) (g : List View) : Object :=
  { t.seenFirst g with
    children := t.associations.zipIdx.map fun (a, place) =>
      a.2.cardinality.keep (t.initialChildren place) <|
        ((c.table a.2.target).groups (g.map fun v => v.through a.1)).attach.map fun g' =>
          c.grouped (c.table a.2.target) g'.1 }
termination_by roomOf g
decreasing_by exact Table.roomOf_lt_of_mem_groups g'.2

theorem Catalog.grouped_eq (c : Catalog) (t : Table) (g : List View) :
    c.grouped t g =
      { t.seenFirst g with
        children := t.associations.zipIdx.map fun (a, place) =>
          a.2.cardinality.keep (t.initialChildren place) <|
            ((c.table a.2.target).groups (g.map fun v => v.through a.1)).map
              (c.grouped (c.table a.2.target)) } := by
  rw [Catalog.grouped]
  simp only [List.map_attach_eq_pmap, List.pmap_eq_map]

/-! ## Objects in general -/

/-- A view of what an association leads to: the place of the association among those of its
table, the table it leads to, and the view. -/
structure Sight where
  place : Nat
  table : Table
  view : View

namespace Sight

/-- Whether an object can be made of what is seen. -/
def opens (s : Sight) : Bool := s.table.opens s.view

/-- Whether one object of one type is seen twice, through whatever association. -/
def same (s r : Sight) : Bool :=
  s.table.entity == r.table.entity &&
    match s.table.groupKey? s.view with
    | some k => r.table.groupKey? r.view == some k
    | none => false

end Sight

/-- What is looked for below an object: in each of its views, through each of its associations. -/
def Catalog.sights (c : Catalog) (t : Table) (g : List View) : List Sight :=
  g.flatMap fun v => t.associations.zipIdx.map fun (a, place) =>
    ⟨place, c.table a.2.target, v.through a.1⟩

theorem Catalog.sights_cons (c : Catalog) (t : Table) (v : View) (g : List View) :
    c.sights t (v :: g) = (t.associations.zipIdx.map fun a =>
      ⟨a.2, c.table a.1.2.target, v.through a.1.1⟩) ++ c.sights t g :=
  List.flatMap_cons

/-- The groups of what is seen below an object that belong to the association of a place: those
that are seen first through it. -/
def Catalog.seenThrough (c : Catalog) (t : Table) (g : List View) (place : Nat) :
    List (List View) :=
  ((firstSeen Sight.same Sight.opens (c.sights t g)).filter fun s =>
    s.head?.any fun x => x.place == place).map (List.map Sight.view)

theorem Catalog.roomOf_lt_of_mem_seenThrough {c : Catalog} {t : Table} {g g' : List View}
    {place : Nat} (h : g' ∈ c.seenThrough t g place) : roomOf g' < roomOf g := by
  obtain ⟨s, hs, rfl⟩ := List.mem_map.mp h
  obtain ⟨x, more, rfl, hx, -, hmem⟩ := exists_of_mem_firstSeen (List.mem_filter.mp hs).1
  refine roomOf_lt List.mem_cons_self (Table.room_pos_of_opens hx) fun v hv => ?_
  obtain ⟨y, hy, rfl⟩ := List.mem_map.mp hv
  obtain ⟨u, hu, hy⟩ := List.mem_flatMap.mp (hmem y hy)
  obtain ⟨⟨a, p⟩, -, rfl⟩ := List.mem_map.mp hy
  exact ⟨u, hu, a.1, rfl⟩

/-- The object of a group of views with all that it leads to, whatever types its associations
share. -/
def Catalog.object (c : Catalog) (t : Table) (g : List View) : Object :=
  { t.seenFirst g with
    children := t.associations.zipIdx.map fun (a, place) =>
      a.2.cardinality.keep (t.initialChildren place) <| (c.seenThrough t g place).attach.map fun g' =>
        c.object (c.table a.2.target) g'.1 }
termination_by roomOf g
decreasing_by exact Catalog.roomOf_lt_of_mem_seenThrough g'.2

theorem Catalog.object_eq (c : Catalog) (t : Table) (g : List View) :
    c.object t g =
      { t.seenFirst g with
        children := t.associations.zipIdx.map fun (a, place) =>
          a.2.cardinality.keep (t.initialChildren place) <|
            (c.seenThrough t g place).map (c.object (c.table a.2.target)) } := by
  rw [Catalog.object]
  simp only [List.map_attach_eq_pmap, List.pmap_eq_map]

end EntityMapper
