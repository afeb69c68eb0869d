import EntityMapper.Proofs.Join.Alike
import EntityMapper.Proofs.Join.Cells

/-!
# What a combination of rows shows of each association

The columns of a select list are those of its table and then those of each association. A row that
combines rows of several associations shows each of them in its own columns; as every row of one
goes with every row of the others, the rows that are seen there first are all of them, in order.

* `labels_eq`, `valuesIn_eq` — the columns of a table before those of its associations
* `rowsOf_ne_nil`, `length_of_mem_rowsOf` — an object has rows, as long as the select list
* `alike_rowsUnder` — each association shows its rows in their order
-/

namespace EntityMapper

open JoinTree (rowsBelow)

variable {c : Catalog} {j : JoinTree} {joined : List ((String × Association) × JoinTree)}

/-! ## Columns -/

namespace JoinTree

/-- The values of the columns in a row. -/
def valuesIn (j : JoinTree) (row : Row) : List (Option Value) := j.labels.map row.get?

/-- The values of the columns of several associations in a row. -/
def belowIn (joined : List ((String × Association) × JoinTree)) (row : Row) : List (Option Value) :=
  joined.flatMap fun x => x.2.valuesIn row

theorem columnsAll_eq (joined : List ((String × Association) × JoinTree)) :
    columnsAll joined = joined.flatMap fun x => x.2.columns := by
  induction joined with
  | nil => rw [columnsAll, List.flatMap_nil]
  | cons x rest ih => rw [columnsAll, List.flatMap_cons, ih]

/-- The join that an association is written as, on the alias of its owner. -/
def joinOf (owner : String) (x : (String × Association) × JoinTree) : Join :=
  ⟨x.2.table.name, x.2.tableAlias, x.1.2.childColumn, owner, x.1.2.parentColumn⟩

theorem joinsAll_eq (owner : String) (joined : List ((String × Association) × JoinTree)) :
    joinsAll owner joined = joined.flatMap fun x => joinOf owner x :: x.2.joins := by
  induction joined with
  | nil => rw [joinsAll, List.flatMap_nil]
  | cons x rest ih =>
    rw [joinsAll, List.flatMap_cons, ih]
    rfl

/-- The names of the columns of a table come before those of its associations. -/
theorem labels_eq (j : JoinTree) :
    j.labels = (j.table.scalarFields.map fun f => j.leading ++ f.name) ++
      j.joined.flatMap fun x => x.2.labels := by
  obtain ⟨t, tableAlias, leading, joined⟩ := j
  rw [labels, columns, columnsAll_eq, List.map_append, List.map_flatMap, ownColumns, List.map_map]
  rfl

/-- Where the objects of a table of the select are looked for. -/
def view (j : JoinTree) (row : Row) : View := ⟨row, j.leading⟩

theorem valuesIn_eq (j : JoinTree) (row : Row) :
    j.valuesIn row = j.table.cells (j.view row) ++ belowIn j.joined row := by
  rw [valuesIn, labels_eq, List.map_append, List.map_map, List.map_flatMap]
  rfl

/-- What a row shows of a table, and what of its associations. -/
theorem take_valuesIn (j : JoinTree) (row : Row) :
    (j.valuesIn row).take j.table.scalarFields.length = j.table.cells (j.view row) := by
  rw [valuesIn_eq]
  exact List.take_left' (List.length_map ..)

theorem drop_valuesIn (j : JoinTree) (row : Row) :
    (j.valuesIn row).drop j.table.scalarFields.length = belowIn j.joined row := by
  rw [valuesIn_eq]
  exact List.drop_left' (List.length_map ..)

theorem length_valuesIn (j : JoinTree) (row : Row) : (j.valuesIn row).length = j.labels.length :=
  List.length_map ..

/-! ## Rows -/

theorem rowsUnder_nil (j : JoinTree) : j.rowsUnder [] = [List.replicate j.labels.length .null] := by
  rw [rowsUnder, labels, List.length_map]

theorem rowsUnder_of_ne_nil (j : JoinTree) {kids : List Object} (h : kids ≠ []) :
    j.rowsUnder kids = kids.flatMap j.rowsOf := by
  cases kids with
  | nil => exact absurd rfl h
  | cons kid rest => rfl

theorem rowsUnder_ne_nil {j : JoinTree} (h : ∀ o, j.rowsOf o ≠ []) (kids : List Object) :
    j.rowsUnder kids ≠ [] := by
  cases kids with
  | nil => simp [rowsUnder]
  | cons kid rest =>
    rw [rowsUnder, List.flatMap_cons]
    exact List.append_ne_nil_of_left_ne_nil (h kid) _

theorem rowsBelow_ne_nil (h : ∀ x ∈ joined, ∀ o, x.2.rowsOf o ≠ [])
    (children : List (List Object)) : rowsBelow joined children ≠ [] := by
  induction joined generalizing children with
  | nil => simp [rowsBelow]
  | cons x rest ih =>
    have hrest := ih (fun y hy => h y (List.mem_cons_of_mem _ hy)) children.tail
    have hfirst := rowsUnder_ne_nil (h x List.mem_cons_self) (children.headD [])
    obtain ⟨r, rs, hr⟩ := List.exists_cons_of_ne_nil hfirst
    rw [rowsBelow_cons, hr, List.flatMap_cons]
    exact List.append_ne_nil_of_left_ne_nil (by simpa using hrest) _

/-- Every object has a row. -/
theorem rowsOf_ne_nil (h : j.Unfolds c) (o : Object) : j.rowsOf o ≠ [] := by
  induction h generalizing o with
  | mk _ _ _ ih =>
    rw [rowsOf]
    simpa using rowsBelow_ne_nil ih o.children

end JoinTree

/-! ## Objects under associations -/

/-- The objects of each association are such as its table describes. -/
structure Fits (c : Catalog) (x : (String × Association) × JoinTree) (kids : List Object) :
    Prop where
  each : ∀ kid ∈ kids, c.Describes x.2.table kid
  distinct : (kids.map x.2.table.keyValues).Nodup
  single : x.1.2.cardinality = .one → kids.length ≤ 1

theorem Catalog.Describes.fits {t : Table} {o : Object} (h : c.Describes t o)
    (hjoined : joined.map Prod.fst = t.associations)
    (htables : ∀ x ∈ joined, x.2.table = c.table x.1.2.target) :
    List.Forall₂ (Fits c) joined o.children := by
  cases h with
  | mk _ _ _ _ length single distinct each =>
    have hlength : joined.length = o.children.length := by
      rw [length, ← hjoined, List.length_map]
    refine List.forall₂_iff_get.mpr ⟨hlength, fun p hp hq => ?_⟩
    have ha : t.associations[p]? = some (joined.get ⟨p, hp⟩).1 := by
      rw [← hjoined, List.getElem?_map, List.getElem?_eq_getElem hp]
      rfl
    have hkids : o.children[p]? = some (o.children.get ⟨p, hq⟩) := List.getElem?_eq_getElem hq
    have htable := htables _ (List.get_mem joined ⟨p, hp⟩)
    refine ⟨?_, ?_, single ha hkids⟩
    · rw [htable]
      exact each ha hkids
    · rw [htable]
      exact distinct ha hkids

/-- The rows of objects under an association are as long as its part of the select list. -/
theorem length_of_mem_rowsUnder
    (h : ∀ o, c.Describes j.table o → ∀ r ∈ j.rowsOf o, r.length = j.labels.length)
    {kids : List Object} (hkids : ∀ kid ∈ kids, c.Describes j.table kid) :
    ∀ r ∈ j.rowsUnder kids, r.length = j.labels.length := by
  intro r hr
  cases kids with
  | nil =>
    rw [j.rowsUnder_nil, List.mem_singleton] at hr
    rw [hr, List.length_replicate]
  | cons kid rest =>
    obtain ⟨o, ho, hr⟩ := List.mem_flatMap.mp hr
    exact h o (hkids o ho) r hr

theorem length_of_mem_rowsBelow {children : List (List Object)}
    (h : List.Forall₂ (fun x kids => ∀ r ∈ x.2.rowsUnder kids, r.length = x.2.labels.length)
      joined children) :
    ∀ r ∈ rowsBelow joined children, r.length = (joined.flatMap fun x => x.2.labels).length := by
  induction h with
  | nil => simp [rowsBelow]
  | @cons x kids rest children hx _ ih =>
    intro r hr
    rw [JoinTree.rowsBelow_cons] at hr
    obtain ⟨r₁, h₁, hr⟩ := List.mem_flatMap.mp hr
    obtain ⟨r₂, h₂, rfl⟩ := List.mem_map.mp hr
    rw [List.flatMap_cons, List.length_append, List.length_append, hx r₁ h₁, ih r₂ h₂]

/-- **The rows of an object are as long as the select list.** -/
theorem length_of_mem_rowsOf (h : j.Unfolds c) {o : Object} (ho : c.Describes j.table o) :
    ∀ r ∈ j.rowsOf o, r.length = j.labels.length := by
  induction h generalizing o with
  | @mk t tableAlias leading joined associations tables _ ih =>
    intro r hr
    rw [JoinTree.rowsOf] at hr
    obtain ⟨r', hr', rfl⟩ := List.mem_map.mp hr
    have hfits := ho.fits associations fun x hx => (tables x hx).1
    have hall := (List.forall₂_and_left _ _).mpr ⟨fun x hx => hx, hfits⟩
    have hbelow := length_of_mem_rowsBelow
      (hall.imp fun x kids hx => length_of_mem_rowsUnder (fun o ho => ih x hx.1 ho) hx.2.each)
      r' hr'
    have hvalues : o.values.length = t.scalarFields.length := ho.holds.length_eq.symm
    rw [JoinTree.labels_eq, List.length_append, List.length_append, List.length_map,
      List.length_map, hvalues, hbelow]
    rfl

/-! ## What a product shows of its factors -/

/-- What a row of several associations shows of the first, and what of the others. -/
theorem map_take_product {first rest : List (List Value)} {n : Nat}
    (h : ∀ r ∈ first, r.length = n) :
    ((first.flatMap fun r => rest.map fun r' => r ++ r').map (List.map some)).map (List.take n) =
        (first.flatMap fun r => rest.map fun _ => r.map some) ∧
      ((first.flatMap fun r => rest.map fun r' => r ++ r').map (List.map some)).map (List.drop n) =
        first.flatMap fun _ => rest.map (List.map some) := by
  have hlength : ∀ r ∈ first, (r.map some).length = n := fun r hr => by rw [List.length_map, h r hr]
  constructor
  · rw [List.map_map, List.map_flatMap]
    refine List.flatMap_congr fun r hr => ?_
    rw [List.map_map]
    refine List.map_congr_left fun r' _ => ?_
    simp [List.take_left' (hlength r hr)]
  · rw [List.map_map, List.map_flatMap]
    refine List.flatMap_congr fun r hr => ?_
    rw [List.map_map]
    refine List.map_congr_left fun r' _ => ?_
    simp [List.drop_left' (hlength r hr)]

/-- **Each association shows its rows in their order**, whatever rows of others they go with. -/
theorem alike_rowsUnder {rows : List Row} {children : List (List Object)}
    (h : List.Forall₂ (fun x kids => (∀ r ∈ x.2.rowsUnder kids, r.length = x.2.labels.length) ∧
      x.2.rowsUnder kids ≠ []) joined children)
    (hbelow : rowsBelow joined children ≠ [])
    (hrows : Alike (rows.map (JoinTree.belowIn joined))
      ((rowsBelow joined children).map (List.map some))) :
    List.Forall₂ (fun x kids => Alike (rows.map x.2.valuesIn)
      ((x.2.rowsUnder kids).map (List.map some))) joined children := by
  induction h with
  | nil => exact .nil
  | @cons x kids rest children hx _ ih =>
    rw [JoinTree.rowsBelow_cons] at hrows hbelow
    simp only [List.headD_cons, List.tail_cons] at hrows hbelow
    have hrest : rowsBelow rest children ≠ [] := by
      intro hnil
      rw [hnil] at hbelow
      simp at hbelow
    -- the values of the first association stand in front, those of all others behind
    have htake := hrows.map (List.take x.2.labels.length)
    have hdrop := hrows.map (List.drop x.2.labels.length)
    rw [(map_take_product hx.1).1, List.map_map] at htake
    rw [(map_take_product hx.1).2, List.map_map] at hdrop
    have hfirst : (List.take x.2.labels.length) ∘ JoinTree.belowIn (x :: rest) = x.2.valuesIn := by
      funext row
      rw [Function.comp_apply, JoinTree.belowIn, List.flatMap_cons,
        List.take_left' (x.2.length_valuesIn row)]
    have hothers : (List.drop x.2.labels.length) ∘ JoinTree.belowIn (x :: rest) =
        JoinTree.belowIn rest := by
      funext row
      rw [Function.comp_apply, JoinTree.belowIn, List.flatMap_cons,
        List.drop_left' (x.2.length_valuesIn row)]
      rfl
    rw [hfirst] at htake
    rw [hothers] at hdrop
    exact .cons (htake.trans (alike_flatMap_left _ _ fun _ _ => hrest))
      (ih hrest (hdrop.trans (alike_flatMap_right hx.2 _)))

end EntityMapper
