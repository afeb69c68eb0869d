import EntityMapper.Proofs.Graph.Numbering
import EntityMapper.Proofs.Graph.Sharing

/-!
# Moving objects into their owners

The nodes that rows give are a forest: each of them is a root or the child of one node before it, under
an association that leads to its type. So the objects can be put together by moving them: from the
last node to the first, each takes the objects of its children out of their slots, which hold them
still and hold them whole, and at the end the roots are taken.

* `Graph.Forest` — how the nodes of a graph hang together
* `Graph.sweep` — objects are moved, none is ever copied; what is left in the slots is told as well
* `ofRows_forest` — rows give a forest, and its objects are moved without fail, each to one place
-/

namespace EntityMapper

open EntityMapper.Graph (attach misplaced)

/-! ## Slots -/

namespace Graph

/-- The objects that wait to be moved, by their nodes; `none` where one has been taken. -/
abbrev Slots := List (Option Object)

/-- Takes an object out of its slot, if it is still there. -/
def take? (slots : Slots) (n : Nat) : Option (Object × Slots) :=
  slots[n]?.join.map fun o => (o, slots.set n none)

/-- Puts an object under an association of another. Both have to be of the types that it joins. -/
def attachAt (t : Table) (p : Nat) (parent child : Object) : Except SchemaError Object :=
  match t.associations[p]? with
  | none => .error (misplaced t)
  | some a =>
    if t.owns parent && child.typeId == a.2.target then
      .ok { parent with children := parent.children.modify p (attach a.2.cardinality child) }
    else .error (.accessorMismatch t.entity a.1)

/-- Moves the object of a child into that of its owner. -/
def adopt (t : Table) (owner : Nat) (slots : Slots) (x : Nat × Nat) : Except SchemaError Slots :=
  match take? slots x.2 with
  | none => .error (misplaced t)
  | some (child, slots) =>
    match slots[owner]?.join with
    | none => .error (misplaced t)
    | some parent => (attachAt t x.1 parent child).map fun o => slots.set owner (some o)

/-- Moves all children into their owners, from the last owner to the first. -/
def adoptAll (nodes : List (Node × Nat)) (slots : Slots) : Except SchemaError Slots :=
  nodes.foldrM (fun n slots => n.1.children.foldlM (adopt n.1.table n.2) slots) slots

/-- Takes the objects of the roots, and tells what is left. -/
def takeRoots (g : Graph) (slots : Slots) : List Nat → Except SchemaError (List Object × Slots)
  | [] => .ok ([], slots)
  | n :: rest =>
    match take? slots n with
    | none => .error (g.nodes[n]?.elim (.accessorMismatch "" "") fun m => misplaced m.table)
    | some (o, slots) => (takeRoots g slots rest).map fun r => (o :: r.1, r.2)

/-- The root objects, all others having been moved into their owners, and what is left in the
slots. -/
def sweep (g : Graph) : Except SchemaError (List Object × Slots) := do
  let slots ← adoptAll g.nodes.zipIdx (g.nodes.map fun n => some n.object)
  takeRoots g slots g.roots

end Graph

open EntityMapper.Graph (Slots take? attachAt adopt adoptAll takeRoots)

/-- The slots of so many objects from which some have been taken. -/
def slotsOf (size : Nat) (object : Nat → Object) (taken : List Nat) : Slots :=
  (List.range size).map fun n => if n ∈ taken then none else some (object n)

section Slots

variable {size n : Nat} {object object' : Nat → Object} {taken taken' : List Nat}

theorem getElem?_slotsOf (hn : n < size) (hfree : n ∉ taken) :
    (slotsOf size object taken)[n]?.join = some (object n) := by
  simp [slotsOf, hn, hfree]

theorem slotsOf_congr (hobject : ∀ n < size, n ∉ taken → object n = object' n)
    (htaken : ∀ n, n ∈ taken ↔ n ∈ taken') :
    slotsOf size object taken = slotsOf size object' taken' := by
  refine List.map_congr_left fun n hn => ?_
  rw [List.mem_range] at hn
  by_cases h : n ∈ taken
  · rw [if_pos h, if_pos ((htaken n).mp h)]
  · rw [if_neg h, if_neg (mt (htaken n).mpr h), hobject n hn h]

theorem set_map_range {α : Type} (f : Nat → α) (size n : Nat) (v : α) :
    ((List.range size).map f).set n v = (List.range size).map (Function.update f n v) := by
  refine List.ext_getElem (by simp) fun i _ _ => ?_
  simp only [List.getElem_set, List.getElem_map, List.getElem_range]
  by_cases hi : n = i
  · simp [hi]
  · simp [hi, Function.update_of_ne (Ne.symm hi)]

theorem take?_slotsOf (hn : n < size) (hfree : n ∉ taken) :
    take? (slotsOf size object taken) n = some (object n, slotsOf size object (n :: taken)) := by
  rw [take?, getElem?_slotsOf hn hfree, Option.map_some, slotsOf, set_map_range]
  refine congrArg (fun slots => some (object n, slots)) (List.map_congr_left fun i _ => ?_)
  by_cases hi : i = n
  · simp [hi]
  · simp [hi]

theorem set_slotsOf (hfree : n ∉ taken) (o : Object) :
    (slotsOf size object taken).set n (some o) =
      slotsOf size (Function.update object n o) taken := by
  rw [slotsOf, set_map_range]
  refine List.map_congr_left fun i _ => ?_
  by_cases hi : i = n
  · simp [hi, hfree]
  · simp [hi]

/-- All objects taken leave empty slots. -/
theorem slotsOf_eq_replicate (h : ∀ n < size, n ∈ taken) :
    slotsOf size object taken = List.replicate size none := by
  refine List.eq_replicate_iff.mpr ⟨by simp [slotsOf], fun o ho => ?_⟩
  obtain ⟨n, hn, rfl⟩ := List.mem_map.mp ho
  exact if_pos (h n (List.mem_range.mp hn))

end Slots

/-! ## One owner -/

section Owner

variable {t : Table} {size owner : Nat} {object : Nat → Object} {taken : List Nat}

/-- An object with one child more. -/
def Table.withChild (t : Table) (p : Nat) (child parent : Object) : Object :=
  { parent with children := parent.children.modify p (attach (t.cardinalityAt p) child) }

theorem Node.filled_cons (t : Table) (o : Object) (k : Nat × Object) (kids : List (Nat × Object)) :
    Node.filled { table := t, object := o } (k :: kids) =
      Node.filled { table := t, object := t.withChild k.1 k.2 o } kids := rfl

theorem attachAt_eq_ok {p : Nat} {parent child : Object} {a : String × Association}
    (ha : t.associations[p]? = some a) (hparent : parent.typeId = t.typeId)
    (hchild : child.typeId = a.2.target) :
    attachAt t p parent child = .ok (t.withChild p child parent) := by
  have hcardinality : t.cardinalityAt p = a.2.cardinality := by rw [Table.cardinalityAt, ha]; rfl
  simp only [attachAt, ha]
  rw [if_pos (by simp [Table.owns, hparent, hchild]), Table.withChild, hcardinality]

/-- A child that waits in its slot goes under the association of its owner. -/
theorem adopt_slotsOf {x : Nat × Nat} {a : String × Association} (howner : owner < size)
    (hfree : owner ∉ taken) (hx : x.2 < size) (hxfree : x.2 ∉ taken) (hne : owner ≠ x.2)
    (ha : t.associations[x.1]? = some a) (hparent : (object owner).typeId = t.typeId)
    (hchild : (object x.2).typeId = a.2.target) :
    adopt t owner (slotsOf size object taken) x = .ok (slotsOf size
      (Function.update object owner (t.withChild x.1 (object x.2) (object owner)))
      (x.2 :: taken)) := by
  have hfree' : owner ∉ x.2 :: taken := List.not_mem_cons_of_ne_of_not_mem hne hfree
  rw [adopt, take?_slotsOf hx hxfree]
  simp only [getElem?_slotsOf howner hfree', attachAt_eq_ok ha hparent hchild]
  rw [← set_slotsOf hfree']
  rfl

/-- The children of a node go into its object one by one. -/
theorem foldlM_adopt {links : List (Nat × Nat)} (howner : owner < size) (hfree : owner ∉ taken)
    (hnodup : (links.map Prod.snd).Nodup)
    (hlinks : ∀ x ∈ links, owner < x.2 ∧ x.2 < size ∧ x.2 ∉ taken ∧
      ∃ a, t.associations[x.1]? = some a ∧ (object x.2).typeId = a.2.target)
    (hparent : (object owner).typeId = t.typeId) :
    links.foldlM (adopt t owner) (slotsOf size object taken) = .ok (slotsOf size
      (Function.update object owner (Node.filled { table := t, object := object owner }
        (links.map fun x => (x.1, object x.2))))
      ((links.map Prod.snd).reverse ++ taken)) := by
  induction links generalizing object taken with
  | nil =>
    have hsame : Function.update object owner
        (Node.filled { table := t, object := object owner } []) = object :=
      Function.update_eq_self owner object
    rw [List.map_nil, hsame]
    rfl
  | cons x rest ih =>
    obtain ⟨⟨hlt, hx, hxfree, a, ha, hchild⟩, hrest⟩ := List.forall_mem_cons.mp hlinks
    rw [List.map_cons, List.nodup_cons] at hnodup
    rw [List.foldlM_cons, adopt_slotsOf howner hfree hx hxfree (Nat.ne_of_lt hlt) ha hparent hchild]
    generalize ho : t.withChild x.1 (object x.2) (object owner) = o
    have hothers : ∀ y ∈ rest, Function.update object owner o y.2 = object y.2 := fun y hy =>
      Function.update_of_ne (Nat.ne_of_gt (hrest y hy).1) o object
    have hfree' : owner ∉ x.2 :: taken :=
      List.not_mem_cons_of_ne_of_not_mem (Nat.ne_of_lt hlt) hfree
    refine (ih hfree' hnodup.2 (fun y hy => ?_) ?_).trans ?_
    · obtain ⟨hlt, hy', hyfree, hfits⟩ := hrest y hy
      refine ⟨hlt, hy', List.not_mem_cons_of_ne_of_not_mem ?_ hyfree, by rwa [hothers y hy]⟩
      rintro he
      exact hnodup.1 (he ▸ List.mem_map_of_mem hy)
    · rw [Function.update_self, ← ho]
      exact hparent
    · rw [Function.update_idem, Function.update_self,
        List.map_congr_left fun y hy => by rw [hothers y hy], List.map_cons, Node.filled_cons, ho]
      simp

end Owner

/-! ## All owners -/

/-- Links that fit: the roots are of one type, and a child is of the type that its association leads
to. -/
structure Graph.Fits (c : Catalog) (t : Table) (g : Graph) : Prop where
  roots : ∀ n ∈ g.roots, ∃ node, g.nodes[n]? = some node ∧ node.table = t
  children : ∀ {n : Nat} {node}, g.nodes[n]? = some node → ∀ x ∈ node.children,
    ∃ a child, node.table.associations[x.1]? = some a ∧ g.nodes[x.2]? = some child ∧
      child.table = c.table a.2.target

section Owners

variable {c : Catalog} {t : Table} {g : Graph} {object : Nat → Object}

/-- The object of a node, as it was read. -/
def Graph.objectAt (g : Graph) (n : Nat) : Object := g.nodes[n]?.elim default Node.object

theorem slotsOf_objectAt (g : Graph) :
    (g.nodes.map fun n => some n.object) = slotsOf g.nodes.length g.objectAt [] := by
  refine List.ext_getElem? fun i => ?_
  by_cases hi : i < g.nodes.length
  · simp [slotsOf, Graph.objectAt, hi]
  · simp [slotsOf, hi]

/-- What the objects of nodes are when they hold their children. -/
def Graph.Completes (g : Graph) (object : Nat → Object) : Prop :=
  ∀ {n : Nat} {node}, g.nodes[n]? = some node →
    object n = node.filled (node.children.map fun x => (x.1, object x.2))

theorem Graph.Numbered.typeId_objectAt (h : g.Numbered []) {n : Nat} {node : Node}
    (hn : g.nodes[n]? = some node) : node.object.typeId = node.table.typeId := by
  obtain ⟨v, hv⟩ := h.seen node (List.mem_of_getElem? hn)
  rw [hv]
  rfl

theorem Graph.Completes.typeId_eq (ho : g.Completes object) (h : g.Numbered []) {n : Nat}
    {node : Node} (hn : g.nodes[n]? = some node) : (object n).typeId = node.table.typeId := by
  rw [ho hn, Node.filled_eq]
  exact h.typeId_objectAt hn

/-- A completed object has what was read, and under each association what it keeps of the objects
that are linked there, besides those of a fresh object. -/
theorem Graph.Completes.object_eq (ho : g.Completes object) (h : g.Numbered []) {n : Nat}
    {node : Node} (hn : g.nodes[n]? = some node) : object n = { node.object with
      children := node.table.associations.zipIdx.map fun a =>
        a.1.2.cardinality.keep (node.table.initialChildren a.2)
          ((node.children.filter fun x => x.1 == a.2).map fun x => object x.2) } := by
  obtain ⟨v, hv⟩ := h.seen node (List.mem_of_getElem? hn)
  have hblank : node.object.children = node.table.blank.children := by
    rw [hv]
    rfl
  rw [ho hn, Node.filled_eq, Node.children_filled hblank]
  simp only [List.filter_map, List.map_map]
  rfl

/-- Children come after the nodes that they are linked to. -/
theorem Graph.Numbered.lt_of_mem (h : g.Numbered []) {front rest : List Node}
    (hnodes : g.nodes = front ++ rest) {n : Nat}
    (hn : n ∈ rest.flatMap fun n => n.children.map Prod.snd) : front.length < n := by
  obtain ⟨m, hm, hmem⟩ := List.mem_flatMap.mp hn
  obtain ⟨x, hx, rfl⟩ := List.mem_map.mp hmem
  obtain ⟨i, hi⟩ := List.mem_iff_getElem?.mp hm
  have hm' : g.nodes[front.length + i]? = some m := by
    rw [hnodes, List.getElem?_append_right (Nat.le_add_right _ _), Nat.add_sub_cancel_left, hi]
  exact Nat.lt_of_le_of_lt (Nat.le_add_right _ _) (h.later hm' x hx)

theorem Graph.Numbered.perm_range (h : g.Numbered []) :
    (g.roots ++ g.linked).Perm (List.range g.nodes.length) := h.once

theorem Graph.Numbered.nodup (h : g.Numbered []) : (g.roots ++ g.linked).Nodup :=
  h.perm_range.nodup_iff.mpr List.nodup_range

/-- **The sweep over the last nodes completes them.** Links lead to later nodes, so whatever the
sweep takes it has completed; each node is linked once, so it is still there. -/
theorem adoptAll_eq_ok (h : g.Numbered []) (hfits : g.Fits c t) (ho : g.Completes object)
    {front rest : List Node} (hnodes : g.nodes = front ++ rest) :
    adoptAll (rest.zipIdx front.length) (g.nodes.map fun n => some n.object) =
      .ok (slotsOf g.nodes.length
        (fun n => if front.length ≤ n then object n else g.objectAt n)
        (rest.flatMap fun n => n.children.map Prod.snd)) := by
  induction rest generalizing front with
  | nil =>
    rw [slotsOf_objectAt]
    refine congrArg Except.ok (slotsOf_congr (fun n hn _ => ?_) fun _ => Iff.rfl)
    rw [List.append_nil] at hnodes
    rw [if_neg (by rw [← hnodes]; omega)]
  | cons node rest ih =>
    have hnodes' : g.nodes = (front ++ [node]) ++ rest := by simp [hnodes]
    have hnode : g.nodes[front.length]? = some node := by simp [hnodes]
    have hsize : front.length < g.nodes.length := (List.getElem?_eq_some_iff.mp hnode).1
    have hnodup : ((node :: rest).flatMap fun n => n.children.map Prod.snd).Nodup := by
      have hlinked := (List.nodup_append.mp h.nodup).2.1
      rw [Graph.linked, hnodes, List.flatMap_append] at hlinked
      exact (List.nodup_append.mp hlinked).2.1
    rw [List.flatMap_cons, List.nodup_append] at hnodup
    obtain ⟨hnodup, -, hdisjoint⟩ := hnodup
    have hrest := ih hnodes'
    rw [List.length_append, List.length_singleton] at hrest
    rw [List.zipIdx_cons, adoptAll, List.foldrM_cons, ← adoptAll, hrest]
    -- the owner is still as it was read, its children are completed and in their slots
    have howner : ∀ o : Nat → Object,
        (if front.length + 1 ≤ front.length then o front.length else g.objectAt front.length) =
          node.object := fun o => by
      rw [if_neg (Nat.not_succ_le_self _), Graph.objectAt, hnode, Option.elim_some]
    have hfree : front.length ∉ rest.flatMap fun n => n.children.map Prod.snd := fun hmem =>
      absurd (h.lt_of_mem hnodes' hmem) (by simp)
    have hlt : ∀ x ∈ node.children, front.length + 1 ≤ x.2 := fun x hx => h.later hnode x hx
    refine (foldlM_adopt hsize hfree hnodup (fun x hx => ?_) ?_).trans ?_
    · obtain ⟨a, child, ha, hchild, htable⟩ := hfits.children hnode x hx
      refine ⟨hlt x hx, (List.getElem?_eq_some_iff.mp hchild).1, fun hmem =>
        hdisjoint _ (List.mem_map_of_mem hx) _ hmem rfl, a, ha, ?_⟩
      rw [if_pos (hlt x hx), ho.typeId_eq h hchild, htable, Catalog.typeId_table]
    · rw [howner]
      exact h.typeId_objectAt hnode
    · refine congrArg Except.ok (slotsOf_congr (fun n _ _ => ?_) fun n => by simp)
      rw [howner]
      by_cases hn : n = front.length
      · subst hn
        rw [Function.update_self, if_pos (Nat.le_refl _), ho hnode,
          List.map_congr_left fun x hx => by rw [if_pos (hlt x hx)]]
        rfl
      · rw [Function.update_of_ne hn]
        by_cases hle : front.length ≤ n
        · rw [if_pos hle, if_pos (by omega)]
        · rw [if_neg hle, if_neg (by omega)]

/-- The roots are taken in order. -/
theorem takeRoots_slotsOf {size : Nat} {taken roots : List Nat} (hnodup : roots.Nodup)
    (hroots : ∀ n ∈ roots, n < size ∧ n ∉ taken) :
    takeRoots g (slotsOf size object taken) roots =
      .ok (roots.map object, slotsOf size object (roots.reverse ++ taken)) := by
  induction roots generalizing taken with
  | nil => rfl
  | cons n rest ih =>
    obtain ⟨⟨hn, hfree⟩, hrest⟩ := List.forall_mem_cons.mp hroots
    rw [List.nodup_cons] at hnodup
    have hrest' : ∀ m ∈ rest, m < size ∧ m ∉ n :: taken := fun m hm => by
      refine ⟨(hrest m hm).1, List.not_mem_cons_of_ne_of_not_mem ?_ (hrest m hm).2⟩
      rintro rfl
      exact hnodup.1 hm
    simp only [takeRoots, take?_slotsOf hn hfree, ih hnodup.2 hrest', List.map_cons,
      List.reverse_cons, List.append_assoc, List.cons_append, List.nil_append]
    rfl

/-- **The sweep takes every object once**: the roots come out, and the slots are left empty. -/
theorem sweep_eq_ok (h : g.Numbered []) (hfits : g.Fits c t) (ho : g.Completes object) :
    g.sweep = .ok (g.roots.map object, List.replicate g.nodes.length none) := by
  have hall := adoptAll_eq_ok h hfits ho (List.nil_append g.nodes).symm
  have hcompleted : slotsOf g.nodes.length
      (fun n => if ([] : List Node).length ≤ n then object n else g.objectAt n)
      (g.nodes.flatMap fun n => n.children.map Prod.snd) =
        slotsOf g.nodes.length object g.linked :=
    slotsOf_congr (fun n _ _ => if_pos (Nat.zero_le n)) fun _ => Iff.rfl
  rw [hcompleted] at hall
  obtain ⟨hnodup, -, hdisjoint⟩ := List.nodup_append.mp h.nodup
  have hroots : ∀ n ∈ g.roots, n < g.nodes.length ∧ n ∉ g.linked := fun n hn =>
    ⟨List.mem_range.mp (h.perm_range.mem_iff.mp (List.mem_append_left _ hn)),
      fun hmem => hdisjoint n hn n hmem rfl⟩
  have hempty : slotsOf g.nodes.length object (g.roots.reverse ++ g.linked) =
      List.replicate g.nodes.length none :=
    slotsOf_eq_replicate fun n hn => by
      have := h.perm_range.mem_iff.mpr (List.mem_range.mpr hn)
      simpa [List.mem_append] using this
  rw [Graph.sweep]
  show (adoptAll (g.nodes.zipIdx ([] : List Node).length) _ >>= _) = _
  rw [hall]
  exact (takeRoots_slotsOf hnodup hroots).trans (by rw [hempty])

end Owners

/-! ## Rows -/

section Rows

variable {c : Catalog} {t : Table} {g : Graph} {labels : List String} {owner : String}

/-- The node of a tree is of the type of what was seen of it. -/
theorem Grown.exists_node {tr : Tree} (h : Grown c g labels owner tr) :
    ∃ node, g.nodes[tr.node]? = some node ∧ node.table = tr.first.2.table := by
  cases h with
  | mk _ _ _ node => exact ⟨_, node, rfl⟩

/-- What the node of a tree links to is a tree under an association that leads to its type. -/
theorem Grown.exists_child {tr : Tree} (h : Grown c g labels owner tr) {node : Node}
    (hnode : g.nodes[tr.node]? = some node) {x : Nat × Nat} (hx : x ∈ node.children) :
    ∃ (owner' : String) (child : Tree) (a : String × Association),
      Grown c g labels owner' child ∧ child.node = x.2 ∧
        node.table.associations[x.1]? = some a ∧
          child.first.2.table = c.table a.2.target := by
  cases h with
  | @mk _ _ first again _ _ _ _ _ hnode' family gathered _ _ grown =>
    obtain rfl := Option.some.inj (hnode'.symm.trans hnode)
    obtain ⟨child, hchild, rfl⟩ := List.mem_map.mp hx
    obtain ⟨y, hy, hnested⟩ := List.mem_flatMap.mp (gathered.first_mem hchild)
    obtain ⟨htable, hof⟩ := family y hy
    obtain ⟨a, ha, htarget⟩ := hof.place hnested
    exact ⟨_, child, a, grown child hchild, rfl, htable ▸ ha, htarget⟩

/-- Each node is that of a tree: of a root, or of a child of one before it. -/
theorem exists_grown (h : g.Numbered []) {ts : List Table} {S : List Appearance} {F : List Tree}
    (hs : Siblings c g labels "" ts S F) (hroots : g.roots = F.map Tree.node) {n : Nat}
    (hn : n < g.nodes.length) :
    ∃ (owner : String) (tr : Tree), Grown c g labels owner tr ∧ tr.node = n := by
  induction n using Nat.strongRecOn with
  | _ n ih =>
    rcases List.mem_append.mp (h.perm_range.mem_iff.mpr (List.mem_range.mpr hn)) with hmem | hmem
    · rw [hroots] at hmem
      obtain ⟨tr, htr, rfl⟩ := List.mem_map.mp hmem
      exact ⟨"", tr, hs.grown tr htr, rfl⟩
    · obtain ⟨m, hm, hchild⟩ := List.mem_flatMap.mp hmem
      obtain ⟨x, hx, rfl⟩ := List.mem_map.mp hchild
      obtain ⟨i, hi⟩ := List.mem_iff_getElem?.mp hm
      obtain ⟨owner, tr, hgrown, rfl⟩ :=
        ih i (h.later hi x hx) (List.getElem?_eq_some_iff.mp hi).1
      obtain ⟨owner', child, -, hgrown', hnode, -⟩ := hgrown.exists_child hi hx
      exact ⟨owner', child, hgrown', hnode⟩

/-- Links fit where the names of types are apart: what a key finds is then of the type that is
looked for. -/
theorem fits_of_siblings (h : g.Numbered []) {S : List Appearance} {F : List Tree}
    (hs : Siblings c g labels "" [t] S F) (hroots : g.roots = F.map Tree.node) : g.Fits c t where
  roots := by
    intro n hn
    rw [hroots] at hn
    obtain ⟨tr, htr, rfl⟩ := List.mem_map.mp hn
    obtain ⟨node, hnode, htable⟩ := (hs.grown tr htr).exists_node
    have hroot := (hs.known _ (hs.gathered.first_mem htr)).1
    exact ⟨node, hnode, htable.trans (List.mem_singleton.mp hroot)⟩
  children := by
    intro n node hn x hx
    obtain ⟨owner, tr, hgrown, rfl⟩ :=
      exists_grown h hs hroots (List.getElem?_eq_some_iff.mp hn).1
    obtain ⟨owner', child, a, hgrown', hnode, ha, htarget⟩ := hgrown.exists_child hn hx
    obtain ⟨m, hm, htable⟩ := hgrown'.exists_node
    exact ⟨a, m, ha, hnode ▸ hm, htable.trans htarget⟩

/-- **Rows give a forest, and its objects find their places.** After any rows each node is listed
once, as a root or as a child, and a child after its owner; what keys find is a node. Where the names
of types are apart (`Catalog.namesApart_of_unmarked`), links fit, and the objects can be moved: the
sweep finds each of them in its slot and leaves no slot full, and it gives the roots that
`Graph.assemble` gives. The object of each node has in its place what was read and under each
association the objects of its links behind those of a fresh object, of which an association to one object keeps
the last. -/
theorem ofRows_forest {rows : List Row} (h : Graph.ofRows c t rows = .ok g) :
    (g.roots ++ g.linked).Perm (List.range g.nodes.length) ∧
    (∀ (n : Nat) (node : Node), g.nodes[n]? = some node → ∀ x ∈ node.children, n < x.2) ∧
    (∀ e ∈ g.keys, e.2 < g.nodes.length) ∧
    (c.NamesApart t → g.Fits c t ∧ ∃ object : Nat → Object,
      g.assemble = .ok (g.roots.map object) ∧
      g.sweep = .ok (g.roots.map object, List.replicate g.nodes.length none) ∧
      ∀ (n : Nat) (node : Node), g.nodes[n]? = some node → object n = { node.object with
        children := node.table.associations.zipIdx.map fun a =>
          a.1.2.cardinality.keep (node.table.initialChildren a.2)
            ((node.children.filter fun x => x.1 == a.2).map fun x => object x.2) }) := by
  have hnumbered := ofRows_numbered h
  refine ⟨hnumbered.perm_range, fun n node => hnumbered.later, hnumbered.found, fun hnames => ?_⟩
  obtain ⟨labels, F, hl, hs, hroots⟩ := foldlM_addRow_siblings hnames
    (show Labeled {} [] from ⟨rfl, by simp, by simp⟩) (siblings_nil (by simp)) rfl h
  have hfits := fits_of_siblings hnumbered hs hroots
  obtain ⟨objects, hassemble, hobjects⟩ := hl.assemble fun n hn => by
    obtain ⟨node, hnode, -⟩ := hfits.roots n hn
    exact (List.getElem?_eq_some_iff.mp hnode).1
  exact ⟨hfits, fun n => objects.getD n default, hassemble, sweep_eq_ok hnumbered hfits hobjects,
    fun n node hn => Graph.Completes.object_eq hobjects hnumbered hn⟩

end Rows

namespace Stall

/-- Goods with two labels. -/
def goods : Table where
  entity := "Goods"
  tableName := "goods"
  fields := [.ofType "a" { scalar := .text } { primaryKey := true },
    .ofType "b" { scalar := .text } { primaryKey := true }]

/-- Goods of one label, with their parts. The name of the type reads like goods and a label. -/
def marked : Table where
  entity := "Goods|1:x"
  tableName := "marked"
  fields := [.ofType "b" { scalar := .text } { primaryKey := true },
    .ofAssociation "part" ⟨.one, "b", "a", "Goods"⟩]

/-- Stalls with goods of both types. -/
def stall : Table where
  entity := "Stall"
  tableName := "stalls"
  fields := [.ofType "id" { scalar := .int .int64 } { primaryKey := true },
    .ofAssociation "goods" ⟨.one, "id", "a", "Goods"⟩,
    .ofAssociation "marked" ⟨.one, "id", "b", "Goods|1:x"⟩]

/-- A row in which goods and marked goods have one text. -/
def row : Row :=
  ⟨[("id", .int 1), ("goods_a", .text "x"), ("goods_b", .text "y"), ("marked_b", .text "y"),
    ("marked_part_a", .text "p"), ("marked_part_b", .text "q")]⟩

end Stall

/-- Names that run into each other, as no names of types do: marked goods are taken for goods here,
which have no parts. -/
example :
    (Graph.ofRows ⟨[Stall.stall, Stall.goods, Stall.marked]⟩ Stall.stall [Stall.row]).toOption.map
      (fun g => g.assemble.isOk) = some false := by
  decide +kernel

/-- Two games; of the first another home team is seen later, and the second has one team twice. -/
def League.season : List Row := [League.row 1 7 8, League.row 2 7 7, League.row 1 9 8]

/-- Six objects are moved to where they belong: each game keeps the home team seen last, and team 7 is
an object of its own in each of them. -/
theorem ofRows_forest_league :
    ∃ g, Graph.ofRows League.catalog League.game League.season = .ok g ∧ g.roots = [0, 3] ∧
      g.nodes.map Node.children = [[(0, 1), (1, 2), (0, 5)], [], [], [(0, 4)], [], []] ∧
      (g.roots ++ g.linked).Perm (List.range 6) ∧ ∃ objects,
        g.sweep = .ok (objects, List.replicate 6 none) ∧ g.assemble = .ok objects ∧
        objects.map (fun o => o.children.map fun kids => kids.map Object.values) =
          [[[[.int 9]], [[.int 8]]], [[[.int 7]], []]] := by
  have hread : (Graph.ofRows League.catalog League.game League.season).toOption.map
      (fun g => (g.roots, g.nodes.map Node.children)) =
        some ([0, 3], [[(0, 1), (1, 2), (0, 5)], [], [], [(0, 4)], [], []]) := by
    decide +kernel
  have hvalues : (materialize League.catalog League.game League.season).toOption.map
      (fun objects => objects.map fun o => o.children.map fun kids => kids.map Object.values) =
        some [[[[.int 9]], [[.int 8]]], [[[.int 7]], []]] := by
    decide +kernel
  cases hg : Graph.ofRows League.catalog League.game League.season with
  | error e => rw [hg] at hread; exact nomatch hread
  | ok g =>
    rw [hg] at hread
    obtain ⟨hroots, hchildren⟩ := Prod.mk.inj (Option.some.inj hread)
    have hlength : g.nodes.length = 6 := by
      rw [← List.length_map Node.children, hchildren]
      rfl
    obtain ⟨honce, -, -, hapart⟩ := ofRows_forest hg
    obtain ⟨-, object, hassemble, hsweep, -⟩ :=
      hapart (Catalog.namesApart_of_unmarked (by decide +kernel) (by decide +kernel))
    rw [hlength] at honce hsweep
    refine ⟨g, rfl, hroots, hchildren, honce, _, hsweep, hassemble, ?_⟩
    rw [materialize, hg] at hvalues
    simp only [hassemble] at hvalues
    exact Option.some.inj hvalues

end EntityMapper
