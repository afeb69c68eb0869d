import EntityMapper.Proofs.Graph.Materialize

/-!
# Rows that always give objects

Reading rows fails only where a column holds what its field cannot. Where no occurrence of the rows
has such a column, there is a result.

* `Occurrence.Sound.add_ok` — sound occurrences can be added to every graph
* `exists_materialize` — sound rows give objects
-/

namespace EntityMapper

open EntityMapper.Graph (add addBelow)

variable {c : Catalog} {t : Table}

/-- No column of an occurrence holds what its field cannot. -/
inductive Occurrence.Sound : Occurrence → Prop
  | mk {t : Table} {identity : Identity} {object : Except FieldCoercionError (Option Object)}
      {nested : List (Nat × Occurrence)} (object_ok : ∃ o, object = .ok o)
      (each : ∀ x ∈ nested, Sound x.2) : Sound (.mk t identity object nested)

/-- Finding or adding a node fails only with its object. -/
theorem place_ok (g : Graph) (key : Option String) (t : Table) (o : Option Object) :
    ∃ s, g.place key t (.ok o) = .ok s := by
  unfold Graph.place
  cases key.bind fun k => g.keys.lookup k with
  | some node => exact ⟨_, rfl⟩
  | none =>
    cases o with
    | none => exact ⟨_, rfl⟩
    | some o => exact ⟨_, rfl⟩

theorem addBelow_ok {below : List (Nat × Occurrence)}
    (h : ∀ x ∈ below, ∀ owner g, ∃ r, add owner x.2 g = .ok r) (owner : String) (node : Nat)
    (g : Graph) : ∃ g', addBelow owner node below g = .ok g' := by
  induction below generalizing g with
  | nil => exact ⟨g, by rw [addBelow]⟩
  | cons x rest ih =>
    have ih := ih fun y hy => h y (List.mem_cons_of_mem _ hy)
    obtain ⟨place, o⟩ := x
    obtain ⟨⟨s, g₁⟩, hadd⟩ := h _ List.mem_cons_self owner g
    rw [addBelow, hadd]
    cases s with
    | new child => exact ih _
    | existing child => exact ih _
    | absent => exact ih _

/-- **Sound occurrences can be added to every graph.** -/
theorem Occurrence.Sound.add_ok {o : Occurrence} (h : o.Sound) (owner : String) (g : Graph) :
    ∃ r, add owner o g = .ok r := by
  induction h generalizing owner g with
  | @mk t identity object nested object_ok _ ih =>
    obtain ⟨o, rfl⟩ := object_ok
    obtain ⟨⟨s, g₁⟩, hplace⟩ := place_ok g (Graph.keyOf owner t identity) t o
    rw [add, hplace]
    cases s with
    | absent => exact ⟨_, rfl⟩
    | new node =>
      obtain ⟨g₂, hbelow⟩ := addBelow_ok ih
        ((Graph.keyOf owner t identity).getD (nodeText owner t.entity node)) node g₁
      exact ⟨_, by simp only [hbelow]; rfl⟩
    | existing node =>
      obtain ⟨g₂, hbelow⟩ := addBelow_ok ih
        ((Graph.keyOf owner t identity).getD (nodeText owner t.entity node)) node g₁
      exact ⟨_, by simp only [hbelow]; rfl⟩

theorem addRow_ok {row : Row} {o : Option Occurrence} (h : Occurrence.ofRow c t row = .ok o)
    (ho : ∀ x, o = some x → x.Sound) (g : Graph) : ∃ g', Graph.addRow c t g row = .ok g' := by
  unfold Graph.addRow
  rw [h]
  cases o with
  | none => exact ⟨g, rfl⟩
  | some o =>
    obtain ⟨⟨s, g₁⟩, hadd⟩ := (ho o rfl).add_ok "" g
    simp only [hadd]
    cases s with
    | new node => exact ⟨_, rfl⟩
    | existing node => exact ⟨_, rfl⟩
    | absent => exact ⟨_, rfl⟩

theorem foldlM_addRow_ok {rows : List Row}
    (h : ∀ row ∈ rows, ∃ o, Occurrence.ofRow c t row = .ok o ∧ ∀ x, o = some x → x.Sound)
    (g : Graph) : ∃ g', rows.foldlM (Graph.addRow c t) g = .ok g' := by
  induction rows generalizing g with
  | nil => exact ⟨g, rfl⟩
  | cons row rest ih =>
    obtain ⟨o, ho, hsound⟩ := h row List.mem_cons_self
    obtain ⟨g₁, hg₁⟩ := addRow_ok ho hsound g
    rw [List.foldlM_cons, hg₁]
    exact ih (fun r hr => h r (List.mem_cons_of_mem _ hr)) g₁

/-- **Sound rows give objects.** -/
theorem exists_materialize (hnames : c.NamesApart t) {rows : List Row}
    (h : ∀ row ∈ rows, ∃ o, Occurrence.ofRow c t row = .ok o ∧ ∀ x, o = some x → x.Sound) :
    ∃ objects, materialize c t rows = .ok objects := by
  obtain ⟨g, hg⟩ := foldlM_addRow_ok h {}
  exact exists_materialize_of_ofRows hnames hg

end EntityMapper
