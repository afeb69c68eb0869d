import EntityMapper.Proofs.Fallible
import EntityMapper.Proofs.FieldRoundtrip
import EntityMapper.Schema.Object
import EntityMapper.Statement

/-!
# The rows of a joined select

What a left join gives for objects: each object, with the objects of each association, in every
combination; where an association leads to none there is one row of nulls in its place. The columns
are those of the select list, each under the alias that the list gives it.

* `Catalog.Describes` — the objects of a table, whole trees of them
* `Mapping.joinedRows` — their rows
* `build_induction` — what holds of a table with the lists below it holds of every select list
* `unfolds_of_build` — a select list follows the associations of the tables
* `map_get?_ofColumns` — a row with distinct columns gives each of them back
-/

namespace EntityMapper

/-! ## Objects of a table -/

/-- The values of the key columns. -/
def Table.keyValues (t : Table) (o : Object) : List Datum :=
  ((t.entries o).filter fun e => e.1.options.primaryKey).map Prod.snd

/-- A value belongs to the type of a field. -/
def Field.Holds (f : Field) (d : Datum) : Prop := ∃ t, f.type? = some t ∧ t.Holds d

/-- An object of a table with all that it leads to: its values are of the types of their fields, it
has a key, and the objects of an association have different keys. -/
inductive Catalog.Describes (c : Catalog) : Table → Object → Prop
  | mk {t : Table} {o : Object} (typeId : o.typeId = t.typeId) (unmapped : o.unmapped = t.unmapped)
      (values : List.Forall₂ Field.Holds t.scalarFields o.values)
      (key : ∃ d ∈ t.keyValues o, d ≠ .absent)
      (length : o.children.length = t.associations.length)
      (single : ∀ {p : Nat} {a kids}, t.associations[p]? = some a → o.children[p]? = some kids →
        a.2.cardinality = .one → kids.length ≤ 1)
      (distinct : ∀ {p : Nat} {a kids}, t.associations[p]? = some a → o.children[p]? = some kids →
        (kids.map (c.table a.2.target).keyValues).Nodup)
      (each : ∀ {p : Nat} {a kids}, t.associations[p]? = some a → o.children[p]? = some kids →
        ∀ kid ∈ kids, Describes c (c.table a.2.target) kid) :
      Describes c t o

/-- Lists that are related are so at each place. -/
theorem rel_of_getElem? {α β : Type} {R : α → β → Prop} {as : List α} {bs : List β}
    (h : List.Forall₂ R as bs) {p : Nat} {a : α} {b : β} (ha : as[p]? = some a)
    (hb : bs[p]? = some b) : R a b := by
  obtain ⟨hp, rfl⟩ := List.getElem?_eq_some_iff.mp ha
  obtain ⟨hq, rfl⟩ := List.getElem?_eq_some_iff.mp hb
  exact h.get hp hq

/-- An object is of a table if what it has for each association is. -/
theorem Catalog.Describes.of_children {c : Catalog} {t : Table} {o : Object}
    (typeId : o.typeId = t.typeId) (unmapped : o.unmapped = t.unmapped)
    (values : List.Forall₂ Field.Holds t.scalarFields o.values)
    (key : ∃ d ∈ t.keyValues o, d ≠ .absent)
    (children : List.Forall₂ (fun a kids => (a.2.cardinality = .one → kids.length ≤ 1) ∧
      (kids.map (c.table a.2.target).keyValues).Nodup ∧
      ∀ kid ∈ kids, c.Describes (c.table a.2.target) kid) t.associations o.children) :
    c.Describes t o :=
  .mk typeId unmapped values key children.length_eq.symm
    (fun ha hkids => (rel_of_getElem? children ha hkids).1)
    (fun ha hkids => (rel_of_getElem? children ha hkids).2.1)
    fun ha hkids => (rel_of_getElem? children ha hkids).2.2

/-! ## Rows -/

namespace JoinTree

/-- What the columns of a table start with. -/
def leading : JoinTree → String
  | .mk _ _ leading _ => leading

/-- The tables below a table, with the associations that lead to them. -/
def joined : JoinTree → List ((String × Association) × JoinTree)
  | .mk _ _ _ joined => joined

/-- The names of the columns. -/
def labels (j : JoinTree) : List String := j.columns.map ResultColumn.label

mutual

/-- The rows of an object: its values with every combination of what it leads to. -/
def rowsOf : JoinTree → Object → List (List Value)
  | .mk _ _ _ joined, o =>
    (rowsBelow joined o.children).map fun r => o.values.map Datum.toValue ++ r

/-- The combinations of the rows of several associations: of the first one, each with all of the
others. -/
def rowsBelow : List ((String × Association) × JoinTree) → List (List Object) → List (List Value)
  | [], _ => [[]]
  | (_, j) :: rest, children =>
    let first := match children.headD [] with
      | [] => [List.replicate (columns j).length Value.null]
      | kid :: kids => (kid :: kids).flatMap fun o => rowsOf j o
    first.flatMap fun r => (rowsBelow rest children.tail).map fun r' => r ++ r'

end

/-- The rows of the objects of an association. -/
def rowsUnder (j : JoinTree) (kids : List Object) : List (List Value) :=
  match kids with
  | [] => [List.replicate j.columns.length .null]
  | kid :: kids => (kid :: kids).flatMap j.rowsOf

theorem rowsOf_eq (j : JoinTree) (o : Object) :
    j.rowsOf o = (rowsBelow j.joined o.children).map fun r => o.values.map Datum.toValue ++ r := by
  obtain ⟨t, tableAlias, leading, joined⟩ := j
  rw [rowsOf]
  rfl

theorem rowsBelow_cons (a : String × Association) (j : JoinTree)
    (rest : List ((String × Association) × JoinTree)) (children : List (List Object)) :
    rowsBelow ((a, j) :: rest) children = (j.rowsUnder (children.headD [])).flatMap fun r =>
      (rowsBelow rest children.tail).map fun r' => r ++ r' := by
  rw [rowsBelow]
  rfl

end JoinTree

namespace Mapping

/-- The names of the columns of the select. -/
def labels (m : Mapping) : List String :=
  match m.joinTree with
  | .ok j => j.labels
  | .error _ => []

/-- The rows that the select gives for objects. -/
def joinedRows (m : Mapping) (objects : List Object) : List Row :=
  match m.joinTree with
  | .ok j => (objects.flatMap j.rowsOf).map fun values => Row.ofColumns (j.labels.zip values)
  | .error _ => []

end Mapping

/-! ## The select list -/

/-- A select list that follows the associations of its tables. -/
inductive JoinTree.Unfolds (c : Catalog) : JoinTree → Prop
  | mk {t : Table} {tableAlias leading : String}
      {joined : List ((String × Association) × JoinTree)}
      (associations : joined.map Prod.fst = t.associations)
      (tables : ∀ x ∈ joined, x.2.table = c.table x.1.2.target ∧
        x.2.leading = leading ++ x.1.1 ++ "_")
      (each : ∀ x ∈ joined, Unfolds c x.2) : Unfolds c (.mk t tableAlias leading joined)

/-- What holds of a table with the lists below it holds of every select list that is built. Each list
below is that of the target of an association, under the names on the way to it. -/
theorem build_induction {c : Catalog} {motive : Table → String → String → JoinTree → Prop}
    (step : ∀ {t : Table} {tableAlias leading : String}
      {joined : List ((String × Association) × JoinTree)}, joined.map Prod.fst = t.associations →
      (∀ x ∈ joined,
        motive (c.table x.1.2.target) (leading ++ x.1.1) (leading ++ x.1.1 ++ "_") x.2) →
      motive t tableAlias leading (.mk t tableAlias leading joined))
    {t : Table} {tableAlias leading : String} {path : List String} {j : JoinTree}
    (h : JoinTree.build c t tableAlias leading path = .ok j) : motive t tableAlias leading j := by
  -- every association that is entered leads to a type that is not on the path yet
  induction hn : (JoinTree.unvisited c path).length using Nat.strongRecOn
    generalizing t tableAlias leading path j with
  | _ n ih =>
    rw [JoinTree.build] at h
    obtain ⟨joined, hjoined, h⟩ := exists_of_bind_eq_ok h
    obtain rfl := Except.ok.inj h
    have hall : List.Forall₂ (fun (x : (String × Association) × JoinTree)
        (a : String × Association) =>
        motive (c.table x.1.2.target) (leading ++ x.1.1) (leading ++ x.1.1 ++ "_") x.2 ∧ x.1 = a)
        joined t.associations := by
      refine (mapM_eq_ok_iff.mp hjoined).flip.imp fun x a hx => ?_
      split at hx
      · cases hx
      · next hpath =>
        split at hx
        · next hfind =>
          obtain rfl := Except.ok.inj hx
          -- a type that the catalog does not know has no columns
          have htable : (c.table a.2.target).associations = [] := by
            rw [Catalog.table, hfind]
            rfl
          exact ⟨step htable.symm fun y hy => absurd hy List.not_mem_nil, rfl⟩
        · next next hfind =>
          obtain ⟨j', hj', hx⟩ := exists_of_bind_eq_ok hx
          obtain rfl := Except.ok.inj hx
          have hpath : path.contains a.2.target = false := by simpa using hpath
          have htable : c.table a.2.target = next := by
            rw [Catalog.table, hfind]
            rfl
          rw [htable]
          exact ⟨ih _ (hn ▸ JoinTree.unvisited_lt hpath hfind) hj' rfl, rfl⟩
    have hall := (List.forall₂_and_left _ _).mp hall
    refine step ?_ hall.1
    rw [← List.forall₂_eq_eq_eq, List.forall₂_map_left_iff]
    exact hall.2

/-- **A select list follows the associations of its tables.** -/
theorem unfolds_of_build {c : Catalog} {t : Table} {tableAlias leading : String}
    {path : List String} {j : JoinTree} (h : JoinTree.build c t tableAlias leading path = .ok j) :
    j.Unfolds c ∧ j.table = t ∧ j.leading = leading :=
  build_induction (motive := fun t _ leading j => j.Unfolds c ∧ j.table = t ∧ j.leading = leading)
    (fun hassociations each =>
      ⟨.mk hassociations (fun x hx => (each x hx).2) fun x hx => (each x hx).1, rfl, rfl⟩) h

/-! ## Columns of a row -/

theorem get?_foldl_push (cs : List (String × Value)) (r : Row) (name : String) :
    (cs.foldl (fun r c => r.push c.1 c.2) r).get? name = (r.get? name).or (cs.lookup name) := by
  induction cs generalizing r with
  | nil => simp
  | cons c rest ih =>
    obtain ⟨k, v⟩ := c
    rw [List.foldl_cons, ih, Row.get?_push, Row.lookup_cons_eq]
    by_cases h : name = k
    · subst h
      rw [if_pos rfl, if_pos rfl]
      cases r.get? name <;> simp
    · rw [if_neg h, if_neg h]

/-- The first of each name counts. -/
theorem get?_ofColumns (cs : List (String × Value)) (name : String) :
    (Row.ofColumns cs).get? name = cs.lookup name := by
  rw [Row.ofColumns, get?_foldl_push, Row.get?_empty, Option.none_or]

/-- **A row with distinct columns gives each of them back.** -/
theorem map_get?_ofColumns {names : List String} {values : List Value} (hnames : names.Nodup)
    (hlength : names.length = values.length) :
    (names.map fun name => (Row.ofColumns (names.zip values)).get? name) = values.map some := by
  simp only [get?_ofColumns]
  induction names generalizing values with
  | nil =>
    obtain rfl := List.eq_nil_of_length_eq_zero hlength.symm
    rfl
  | cons name rest ih =>
    cases values with
    | nil => exact nomatch hlength
    | cons v vs =>
      obtain ⟨hname, hrest⟩ := List.nodup_cons.mp hnames
      rw [List.zip_cons_cons, List.map_cons, List.map_cons, Row.lookup_cons_eq, if_pos rfl,
        ← ih hrest (by simpa using hlength)]
      congr 1
      refine List.map_congr_left fun other hother => ?_
      rw [Row.lookup_cons_eq, if_neg]
      rintro rfl
      exact hname hother

end EntityMapper
