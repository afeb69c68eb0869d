import EntityMapper.Proofs.Graph.Materialize

/-!
# Associations that lead to different types

Where no two associations of a table lead to one type, what is seen through one association is
never the same as what is seen through another. Each association is then filled on its own, and the
objects of a result are the ones that `Catalog.grouped` describes.

* `object_eq_grouped` — each association can be filled on its own
* `materialize_grouped` — the result is the recursive grouping of the rows
-/

namespace EntityMapper

variable {c : Catalog} {t : Table}

/-- The associations of one table lead to different types, in any table reached. -/
def Catalog.TypesDistinct (c : Catalog) (t : Table) : Prop :=
  ∀ u, c.Reaches t u → ((c.targets u).map Table.typeId).Nodup

/-- These types even have different names. -/
def Catalog.TargetsDistinct (c : Catalog) (t : Table) : Prop :=
  ∀ u, c.Reaches t u → ((c.targets u).map Table.entity).Nodup

theorem Catalog.TargetsDistinct.of_mem {u : Table} (h : c.TargetsDistinct t)
    (hu : u ∈ c.targets t) : c.TargetsDistinct u := fun v hv => h v (.step hu hv)

/-- What targets are told apart by differs in any table reached where it does in each table of the
catalog. -/
theorem Catalog.nodup_of_tables {f : Table → String}
    (h : ∀ u ∈ t :: c.tables, ((c.targets u).map f).Nodup) :
    ∀ u, c.Reaches t u → ((c.targets u).map f).Nodup := fun u hu => by
  refine hu.of_tables (P := fun u => ((c.targets u).map f).Nodup) h fun u hnone => ?_
  rw [Catalog.targets, Table.associations, hnone]
  exact List.nodup_nil

theorem Catalog.targetsDistinct_of_tables
    (h : ∀ u ∈ t :: c.tables, ((c.targets u).map Table.entity).Nodup) : c.TargetsDistinct t :=
  c.nodup_of_tables h

theorem Catalog.typesDistinct_of_tables
    (h : ∀ u ∈ t :: c.tables, ((c.targets u).map Table.typeId).Nodup) : c.TypesDistinct t :=
  c.nodup_of_tables h

/-! ## One association -/

/-- The entry of a place among numbered entries. -/
theorem filter_zipIdx {α : Type} {l : List α} {a : α} {p : Nat} (n : Nat) (h : l[p]? = some a) :
    ((l.zipIdx n).filter fun x => x.2 == n + p) = [(a, n + p)] := by
  induction l generalizing n p with
  | nil => exact nomatch h
  | cons b l ih =>
    rw [List.zipIdx_cons, List.filter_cons]
    cases p with
    | zero =>
      have hlater : ((l.zipIdx (n + 1)).filter fun x => x.2 == n + 0) = [] := by
        refine List.filter_eq_nil_iff.mpr fun x hx => ?_
        have := List.le_snd_of_mem_zipIdx hx
        rw [beq_iff_eq]
        omega
      obtain rfl : b = a := Option.some.inj h
      rw [hlater, if_pos (by simp), Nat.add_zero]
    | succ p =>
      rw [if_neg (by simp), show n + (p + 1) = n + 1 + p by omega]
      exact ih (n + 1) h

/-- What is seen through the association of a place. -/
theorem filter_place_sights {a : String × Association} {p : Nat}
    (ha : t.associations[p]? = some a) (g : List View) :
    ((c.sights t g).filter fun s => s.place == p) =
      g.map fun v => ⟨p, c.table a.2.target, v.through a.1⟩ := by
  have hone : ∀ v : View, ((t.associations.zipIdx.map fun b =>
      (⟨b.2, c.table b.1.2.target, v.through b.1.1⟩ : Sight)).filter fun s => s.place == p) =
        [⟨p, c.table a.2.target, v.through a.1⟩] := by
    intro v
    have hzip := filter_zipIdx 0 ha
    rw [Nat.zero_add] at hzip
    rw [List.filter_map]
    exact congrArg (List.map _) hzip
  induction g with
  | nil => rfl
  | cons v g ih =>
    rw [Catalog.sights_cons, List.filter_append, hone, List.map_cons, ← ih]
    rfl

/-- Associations that lead to types of one name are one. -/
theorem place_eq_of_name (hdistinct : ((c.targets t).map Table.entity).Nodup)
    {a b : String × Association} {p q : Nat} (ha : t.associations[p]? = some a)
    (hb : t.associations[q]? = some b)
    (hname : (c.table a.2.target).entity = (c.table b.2.target).entity) : p = q := by
  rw [Catalog.targets, List.map_map] at hdistinct
  have hlt : p < (t.associations.map (Table.entity ∘ fun a => c.table a.2.target)).length := by
    rw [List.length_map]
    exact (List.getElem?_eq_some_iff.mp ha).1
  refine (List.getElem?_inj hlt hdistinct).mp ?_
  rw [List.getElem?_map, List.getElem?_map, ha, hb]
  exact congrArg some hname

/-- Sights of one type are of one association. -/
theorem place_eq_of_same (hdistinct : ((c.targets t).map Table.entity).Nodup)
    {g : List View} {s r : Sight} (hs : s ∈ c.sights t g) (hr : r ∈ c.sights t g)
    (h : s.same r = true) : s.place = r.place := by
  obtain ⟨a, ha, hsa⟩ := mem_sights hs
  obtain ⟨b, hb, hrb⟩ := mem_sights hr
  refine place_eq_of_name hdistinct ha hb ?_
  have := beq_iff_eq.mp (Bool.and_eq_true_iff.mp h).1
  rwa [hsa, hrb] at this

/-- Where the types differ, what is seen first through an association is all that is seen through
it. -/
theorem seenThrough_eq (hdistinct : ((c.targets t).map Table.entity).Nodup)
    {a : String × Association} {p : Nat} (ha : t.associations[p]? = some a) (g : List View) :
    c.seenThrough t g p = (c.table a.2.target).groups (g.map fun v => v.through a.1) := by
  have hfilter : firstSeen Sight.same Sight.opens
      ((c.sights t g).filter fun s => s.place == p) = _ :=
    firstSeen_filter (c.sights t g) fun s hs r hr hsame => by
      rw [place_eq_of_same hdistinct hs hr hsame]
  rw [Catalog.seenThrough, ← hfilter, filter_place_sights ha, Table.groups]
  have hsights : firstSeen Sight.same Sight.opens
      (g.map fun v => ⟨p, c.table a.2.target, v.through a.1⟩) =
        (firstSeen (fun v w => (c.table a.2.target).sameObject (v.through a.1) (w.through a.1))
          (fun v => (c.table a.2.target).opens (v.through a.1)) g).map
            (List.map fun v => ⟨p, c.table a.2.target, v.through a.1⟩) := by
    refine firstSeen_map (fun v w => ?_) (fun v => ?_) g
    · simp [Sight.same, Table.sameObject]
    · rfl
  have hviews : firstSeen (c.table a.2.target).sameObject (c.table a.2.target).opens
      (g.map fun v => v.through a.1) =
        (firstSeen (fun v w => (c.table a.2.target).sameObject (v.through a.1) (w.through a.1))
          (fun v => (c.table a.2.target).opens (v.through a.1)) g).map
            (List.map fun v => v.through a.1) := by
    refine firstSeen_map (fun v w => ?_) (fun v => ?_) g
    · rfl
    · rfl
  rw [hsights, hviews, List.map_map]
  refine List.map_congr_left fun r _ => ?_
  rw [Function.comp_apply, List.map_map]
  rfl

/-! ## All associations -/

/-- **Each association can be filled on its own** where no two lead to one type. -/
theorem object_eq_grouped (h : c.TargetsDistinct t) (g : List View) :
    c.object t g = c.grouped t g := by
  induction hn : roomOf g using Nat.strongRecOn generalizing t g with
  | _ n ih =>
    rw [c.object_eq, c.grouped_eq]
    refine congrArg (fun kids => { t.seenFirst g with children := kids }) ?_
    refine List.ext_getElem? fun p => ?_
    rw [List.getElem?_map, List.getElem?_map, List.getElem?_zipIdx, Option.map_map, Option.map_map]
    cases ha : t.associations[p]? with
    | none => rfl
    | some a =>
      have hmem : c.table a.2.target ∈ c.targets t :=
        List.mem_map_of_mem (List.mem_of_getElem? ha)
      simp only [Option.map_some, Function.comp_apply, Nat.zero_add]
      rw [seenThrough_eq (h t (.refl t)) ha]
      congr 2
      refine List.map_congr_left fun g' hg' => ?_
      exact ih _ (hn ▸ Table.roomOf_lt_of_mem_groups hg') (h.of_mem hmem) g' rfl

/-- **Materializing is recursive grouping.** Where the associations of each table lead to different
types, the objects of a result are those of the groups of its rows: the rows of a group give an
object its columns by the first of them that can be read, and its associations by grouping the
same rows under longer prefixes. -/
theorem materialize_grouped (hnames : c.NamesApart t) (hdistinct : c.TargetsDistinct t)
    {rows : List Row} {objects : List Object} (h : materialize c t rows = .ok objects) :
    objects = (t.rootGroups rows).map (c.grouped t) := by
  rw [materialize_eq hnames h]
  exact List.map_congr_left fun g _ => object_eq_grouped hdistinct g

/-! ## A library -/

namespace Library

/-- Books with a number and a title; a fresh one is untitled. -/
def book : Table where
  entity := "Book"
  tableName := "books"
  fields := [.ofType "id" { scalar := .int .int32 } { primaryKey := true },
    { Field.ofType "title" { scalar := .text } with initial := .text "untitled" }]

/-- Authors with their books. -/
def author : Table where
  entity := "Author"
  tableName := "authors"
  fields := [.ofType "id" { scalar := .int .int32 } { primaryKey := true },
    .ofAssociation "books" ⟨.many, "id", "author_id", "Book"⟩]

/-- Authors and books. -/
def catalog : Catalog := ⟨[author, book]⟩

/-- A row of an author and a book. -/
def row (author book : Int64) (title : String) : Row :=
  Row.ofColumns [("id", .int author), ("books_id", .int book), ("books_title", .text title)]

/-- Three books of one author; one of them is seen twice, the second time under another title, and
one has no title. -/
def rows : List Row :=
  [row 1 7 "A", row 1 8 "B", row 1 7 "C", Row.ofColumns [("id", .int 1), ("books_id", .int 9)]]

end Library

/-- One author comes out, with each book once and the title it was first seen with; the one without
a title is untitled. -/
theorem materialize_grouped_library :
    ∃ objects, materialize Library.catalog Library.author Library.rows = .ok objects ∧
      objects = (Library.author.rootGroups Library.rows).map
        (Library.catalog.grouped Library.author) ∧
      objects.map (fun o => o.children.map fun kids => kids.map Object.values) =
        [[[[.int 7, .text "A"], [.int 8, .text "B"], [.int 9, .text "untitled"]]]] := by
  have hok : (materialize Library.catalog Library.author Library.rows).isOk = true := by
    decide +kernel
  have hvalues : (materialize Library.catalog Library.author Library.rows).toOption.map
      (fun objects => objects.map fun o => o.children.map fun kids => kids.map Object.values) =
        some [[[[.int 7, .text "A"], [.int 8, .text "B"], [.int 9, .text "untitled"]]]] := by
    decide +kernel
  obtain ⟨objects, h⟩ := exists_of_isOk hok
  rw [h] at hvalues
  refine ⟨objects, h, ?_, Option.some.inj hvalues⟩
  exact materialize_grouped (Catalog.namesApart_of_tables (by decide +kernel))
    (Catalog.targetsDistinct_of_tables (by decide +kernel)) h

/-! ## Types of one name -/

namespace Parcels

/-- Where bills are sent to. -/
def billing : Table where
  entity := "Address"
  typeId := "billing::Address"
  tableName := "billing_addresses"
  fields := [.ofType "id" { scalar := .int .int32 } { primaryKey := true }]

/-- Where parcels are sent to, a type of the same name. -/
def shipping : Table where
  entity := "Address"
  typeId := "shipping::Address"
  tableName := "shipping_addresses"
  fields := [.ofType "id" { scalar := .int .int32 } { primaryKey := true }]

/-- Parcels with their addresses. -/
def parcel : Table where
  entity := "Parcel"
  tableName := "parcels"
  fields := [.ofType "id" { scalar := .int .int32 } { primaryKey := true },
    .ofAssociation "billing" ⟨.one, "billing_id", "id", "billing::Address"⟩,
    .ofAssociation "shipping" ⟨.one, "shipping_id", "id", "shipping::Address"⟩]

/-- Parcels and both types of addresses. -/
def catalog : Catalog := ⟨[parcel, billing, shipping]⟩

end Parcels

/-- Parcels lead to two types, which have one name. -/
example : Parcels.catalog.TypesDistinct Parcels.parcel ∧
    ¬ ((Parcels.catalog.targets Parcels.parcel).map Table.entity).Nodup :=
  ⟨Catalog.typesDistinct_of_tables (by decide +kernel), by decide +kernel⟩

end EntityMapper
