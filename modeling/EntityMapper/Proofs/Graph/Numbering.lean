import EntityMapper.Proofs.Graph.Roots

/-!
# The numbers of nodes

A node gets the next number, and then it is put in one place: among the roots, or among the children
of the node of its owner, which was there before it. While what lies below an object is read its node
is in no place yet; so the places hold all nodes but those that are pending.

* `Graph.Numbered` — each node that is not pending has one place, after that of its owner; what keys
  find is a node; the object of a node is one that some row shows
* `ofRows_numbered` — in a graph that rows give no node is pending
-/

namespace EntityMapper

open EntityMapper.Graph (add addBelow)

variable {c : Catalog} {t : Table} {g g' : Graph} {pending : List Nat}

/-- The nodes that are children, owner by owner. -/
def Graph.linked (g : Graph) : List Nat := g.nodes.flatMap fun n => n.children.map Prod.snd

/-- A graph in which some nodes are pending and each of the others has one place. -/
structure Graph.Numbered (pending : List Nat) (g : Graph) : Prop where
  once : (pending ++ (g.roots ++ g.linked)).Perm (List.range g.nodes.length)
  later : ∀ {n : Nat} {node}, g.nodes[n]? = some node → ∀ x ∈ node.children, n < x.2
  found : ∀ e ∈ g.keys, e.2 < g.nodes.length
  seen : ∀ node ∈ g.nodes, ∃ v, node.object = node.table.seen v

theorem linked_push {node : Node} (hnode : node.children = []) (key : Option String) :
    (g.push node key).linked = g.linked := by
  simp [Graph.linked, Graph.push, hnode]

/-- One link more is one child more. -/
theorem linked_link {owner : Nat} (h : owner < g.nodes.length) (p child : Nat) :
    (g.link owner p child).linked.Perm (child :: g.linked) := by
  obtain ⟨A, m, B, hnodes, -, hlinked⟩ :=
    List.exists_of_modify (fun n : Node => { n with children := n.children ++ [(p, child)] }) h
  show (List.flatMap _ (g.nodes.modify owner _)).Perm (child :: List.flatMap _ g.nodes)
  rw [hlinked, hnodes]
  simp only [List.flatMap_append, List.flatMap_cons, List.map_append, List.map_cons, List.map_nil,
    List.append_assoc, List.cons_append, List.nil_append]
  rw [← List.append_assoc, ← List.append_assoc]
  exact List.perm_middle

namespace Graph.Numbered

/-- A new node is pending. -/
theorem push (h : g.Numbered pending) {node : Node} (hnode : node.children = [])
    (hseen : ∃ v, node.object = node.table.seen v) (key : Option String) :
    (g.push node key).Numbered (g.nodes.length :: pending) where
  once := by
    have hlength : (g.push node key).nodes.length = g.nodes.length + 1 := by simp [Graph.push]
    rw [linked_push hnode, hlength, List.range_succ]
    exact (h.once.cons _).trans (List.perm_append_singleton _ _).symm
  later := by
    intro n m hm x hx
    exact h.later (getElem?_of_mem_push hnode hm hx) x hx
  found := by
    intro e he
    simp only [Graph.push, List.length_append, List.length_singleton] at he ⊢
    cases key with
    | none => exact Nat.lt_succ_of_lt (h.found e he)
    | some k =>
      rcases List.mem_cons.mp he with rfl | he
      · exact Nat.lt_succ_self _
      · exact Nat.lt_succ_of_lt (h.found e he)
  seen := by
    intro m hm
    rcases List.mem_append.mp hm with hm | hm
    · exact h.seen m hm
    · rw [List.mem_singleton.mp hm]
      exact hseen

/-- A pending node becomes a child of one that was there before it. -/
theorem link {owner child : Nat} (h : g.Numbered (child :: pending)) (hlt : owner < child) (p : Nat) :
    (g.link owner p child).Numbered pending where
  once := by
    have hchild : child < g.nodes.length :=
      List.mem_range.mp (h.once.mem_iff.mp (List.mem_append_left _ List.mem_cons_self))
    have hlength : (g.link owner p child).nodes.length = g.nodes.length := by simp [Graph.link]
    rw [hlength]
    refine List.Perm.trans ?_ h.once
    refine (((linked_link (Nat.lt_trans hlt hchild) p child).append_left g.roots).append_left
      pending).trans ?_
    rw [← List.append_assoc, List.cons_append]
    refine List.perm_middle.trans ?_
    rw [List.append_assoc]
  later := by
    intro n m hm x hx
    obtain ⟨m₀, hm₀, -, -, hchildren⟩ := exists_of_getElem?_link hm
    rcases hchildren x hx with hx | ⟨rfl, rfl⟩
    · exact h.later hm₀ x hx
    · exact hlt
  found := by
    simp only [Graph.link, List.length_modify]
    exact h.found
  seen := by
    intro m hm
    obtain ⟨n, hn⟩ := List.mem_iff_getElem?.mp hm
    obtain ⟨m₀, hm₀, htable, hobject, -⟩ := exists_of_getElem?_link hn
    rw [htable, hobject]
    exact h.seen m₀ (List.mem_of_getElem? hm₀)

theorem linkNew {owner p : Nat} {s : Sighting}
    (h : g.Numbered ((s.links p).map Prod.snd ++ pending)) (hlt : ∀ n, s = .new n → owner < n) :
    (g.linkNew owner p s).Numbered pending := by
  cases s with
  | new n => exact h.link (hlt n rfl) p
  | existing n => exact h
  | absent => exact h

/-- What a key finds is a node. -/
theorem getElem?_of_lookup (h : g.Numbered pending) {k : String} {n : Nat}
    (hn : g.keys.lookup k = some n) : ∃ node, g.nodes[n]? = some node := by
  obtain ⟨A, B, hkeys, -⟩ := List.lookup_eq_some_iff.mp hn
  have hlt : n < g.nodes.length := h.found (k, n) (by simp [hkeys])
  exact ⟨g.nodes[n], List.getElem?_eq_getElem hlt⟩

/-- Pending nodes become roots. -/
theorem withRoots (h : g.Numbered pending) :
    Graph.Numbered [] { g with roots := g.roots ++ pending } where
  once := by
    refine List.Perm.trans ?_ h.once
    rw [List.nil_append, ← List.append_assoc]
    exact List.perm_append_comm.append_right _
  later := h.later
  found := h.found
  seen := h.seen

end Graph.Numbered

/-! ## Reading -/

/-- What reading an occurrence does: the node of an object that is new is pending. -/
def Occurrence.Numbers (o : Occurrence) : Prop :=
  ∀ {owner : String} {g g' : Graph} {s : Sighting} {pending : List Nat} (p : Nat),
    g.Numbered pending → add owner o g = .ok (s, g') →
    g'.Numbered ((s.links p).map Prod.snd ++ pending)

theorem addBelow_numbered {below : List (Nat × Occurrence)}
    (hbelow : ∀ x ∈ below, x.2.Keeping ∧ x.2.Numbers) (h : g.Numbered pending) {owner : String}
    {node : Nat} {m : Node} (hm : g.nodes[node]? = some m)
    (hadd : addBelow owner node below g = .ok g') : g'.Numbered pending := by
  induction below generalizing g m with
  | nil =>
    rw [addBelow] at hadd
    obtain rfl := Except.ok.inj hadd
    exact h
  | cons x rest ih =>
    obtain ⟨p, o⟩ := x
    obtain ⟨⟨hkeeps, ho⟩, hrest⟩ := List.forall_mem_cons.mp hbelow
    obtain ⟨s, g₁, hfirst, hadd⟩ := addBelow_cons hadd
    have hlt : ∀ n, s = .new n → node < n := by
      rintro n rfl
      rw [add_new hfirst]
      exact (List.getElem?_eq_some_iff.mp hm).1
    obtain ⟨links, hm'⟩ := ((hkeeps owner g s g₁ hfirst).trans (keeps_linkNew node p s)).nodes hm
    exact ih hrest ((ho p h hfirst).linkNew hlt) hm' hadd

/-- **Reading one occurrence.** -/
theorem Occurrence.Of.numbers {o : Occurrence} (ho : o.Of c) {v : View} (hv : o.SeenIn c v) :
    o.Numbers := by
  induction ho generalizing v with
  | @mk t identity object nested suits places each ih =>
    intro owner g g' s pending p h hadd
    generalize hoeq : Occurrence.mk t identity object nested = o at hv hadd
    have hnested : ∀ x ∈ o.nested, x.2.Keeping ∧ x.2.Numbers := by
      subst hoeq
      intro x hx
      obtain ⟨a, -, -, hw⟩ := hv.nested_seenIn hx
      exact ⟨(each x hx).keeping, ih x hx hw⟩
    rcases add_cases hadd with ⟨n, k, rfl, -, hn, hbelow⟩ | ⟨-, ⟨ob, rfl, hob, hbelow⟩ |
      ⟨rfl, -, rfl⟩⟩
    · obtain ⟨m, hm⟩ := h.getElem?_of_lookup hn
      exact addBelow_numbered hnested h hm hbelow
    · rw [hv.object] at hob
      exact addBelow_numbered hnested (h.push rfl ⟨v, (seen_of_rowObject hob).1⟩ _)
        (getElem?_push g _ _) hbelow
    · exact h

/-- **Reading one row.** -/
theorem addRow_numbered (h : g.Numbered []) {row : Row} (hrow : Graph.addRow c t g row = .ok g') :
    g'.Numbered [] := by
  rcases addRow_cases hrow with ⟨-, rfl⟩ | ⟨o, s, g₁, ho, hadd, rfl⟩
  · exact h
  · obtain ⟨-, hseen, hof⟩ := ofRow_seenIn ho
    have h₁ := hof.numbers hseen 0 h hadd
    rw [List.append_nil] at h₁
    exact h₁.withRoots

/-- **Reading rows.** Each node has one place. -/
theorem ofRows_numbered {rows : List Row} (h : Graph.ofRows c t rows = .ok g) : g.Numbered [] :=
  foldlM_preserves (fun _ _ _ hg hrow => addRow_numbered hg hrow)
    ⟨.refl _, by simp, by simp, by simp⟩ h

end EntityMapper
