import Mathlib.Data.List.Induction
import EntityMapper.Proofs.Graph.Growth
import EntityMapper.Proofs.Graph.Grouping

/-!
# From nodes to objects

Links lead to later nodes, so the objects can be completed from the last node to the first. Every
node then has its object with the objects of its links, each put under the place of its
association, and where an association leads to one object the last one stays.

* `Labeled.assemble` — a graph whose links are sound always gives its objects
* `Node.children_filled` — what a completed object has under each association
-/

namespace EntityMapper

open EntityMapper.Graph (attach completeNode complete)

variable {g : Graph} {labels : List String}

/-! ## One node -/

/-- How many objects the association of a place leads to. -/
def Table.cardinalityAt (t : Table) (p : Nat) : Cardinality :=
  t.associations[p]?.elim .many fun a => a.2.cardinality

/-- The object of a node with objects put under the places of its associations. -/
def Node.filled (n : Node) (kids : List (Nat × Object)) : Object :=
  kids.foldl (fun o k =>
    { o with children := o.children.modify k.1 (attach (n.table.cardinalityAt k.1) k.2) }) n.object

theorem Node.filled_append (n : Node) (kids : List (Nat × Object)) (k : Nat × Object) :
    n.filled (kids ++ [k]) =
      { n.filled kids with
        children :=
          (n.filled kids).children.modify k.1 (attach (n.table.cardinalityAt k.1) k.2) } := by
  simp [Node.filled, List.foldl_append]

theorem completeNode_ok {n : Node} {first : Nat} {later : List Object}
    (h : ∀ x ∈ n.children,
      first ≤ x.2 ∧ x.2 - first < later.length ∧ x.1 < n.table.associations.length) :
    completeNode n first later =
      .ok (n.filled (n.children.map fun x => (x.1, later.getD (x.2 - first) default))) := by
  unfold completeNode Node.filled
  generalize n.object = o
  generalize n.children = links at h
  induction links generalizing o with
  | nil => rfl
  | cons x rest ih =>
    obtain ⟨p, child⟩ := x
    obtain ⟨hle, hlt, hp⟩ := h _ List.mem_cons_self
    have hsome : n.table.associations[p]? = some n.table.associations[p] :=
      List.getElem?_eq_getElem hp
    have hlater : later[child - first]? = some (later.getD (child - first) default) := by
      rw [List.getD_eq_getElem?_getD, List.getElem?_eq_getElem hlt, Option.getD_some]
    rw [List.foldlM_cons, List.map_cons, List.foldl_cons]
    simp only [hsome, if_pos hle, hlater]
    rw [Table.cardinalityAt, hsome, Option.elim_some]
    exact ih _ fun y hy => h y (List.mem_cons_of_mem _ hy)

theorem Cardinality.keep_nil (cardinality : Cardinality) (initial : List Object) :
    cardinality.keep initial [] = initial := by
  cases cardinality with
  | many => exact List.append_nil initial
  | one => rfl

theorem Cardinality.keep_append (cardinality : Cardinality) (initial objects : List Object)
    (o : Object) : cardinality.keep initial (objects ++ [o]) =
      attach cardinality o (cardinality.keep initial objects) := by
  cases cardinality with
  | many => exact (List.append_assoc initial objects [o]).symm
  | one => simp [Cardinality.keep, attach]

/-- What an association keeps of as many objects as it may lead to, if it held none at first. -/
theorem Cardinality.keep_eq {cardinality : Cardinality} {kids : List Object}
    (h : cardinality = .one → kids.length ≤ 1) : cardinality.keep [] kids = kids := by
  cases cardinality with
  | many => rfl
  | one =>
    match kids, h rfl with
    | [], _ => rfl
    | [kid], _ => rfl

/-- **What a completed object has under each association**: what a fresh object has there, and the
objects that were put there. -/
theorem Node.children_filled {n : Node} (h : n.object.children = n.table.blank.children)
    (kids : List (Nat × Object)) :
    (n.filled kids).children = n.table.associations.zipIdx.map fun (a, p) =>
      a.2.cardinality.keep (n.table.initialChildren p)
        ((kids.filter fun k => k.1 == p).map Prod.snd) := by
  induction kids using List.reverseRecOn with
  | nil => simp [Node.filled, h, Table.blank, Cardinality.keep_nil]
  | append_singleton kids k ih =>
    obtain ⟨p, o⟩ := k
    rw [Node.filled_append]
    refine List.ext_getElem? fun i => ?_
    simp only [ih, List.getElem?_modify, List.getElem?_map, List.getElem?_zipIdx, Option.map_map,
      Nat.zero_add]
    cases ha : n.table.associations[i]? with
    | none => rfl
    | some a =>
      simp only [Option.map_some, Function.comp_apply, Option.map_eq_map, List.filter_append,
        List.filter_singleton, List.map_append]
      by_cases hp : p = i
      · subst hp
        simp [Cardinality.keep_append, Table.cardinalityAt, ha]
      · rw [if_neg hp, beq_false_of_ne hp, cond_false, List.map_nil, List.append_nil]

/-! ## All nodes -/

/-- The nodes from number `first` on are completed where links lead to later ones. -/
theorem complete_ok (nodes : List Node) (first : Nat)
    (h : ∀ {i : Nat} {n}, nodes[i]? = some n → ∀ x ∈ n.children,
      first + i < x.2 ∧ x.2 < first + nodes.length ∧ x.1 < n.table.associations.length) :
    ∃ objects, complete first nodes = .ok objects ∧ objects.length = nodes.length ∧
      ∀ {i : Nat} {n}, nodes[i]? = some n → objects[i]? =
        some (n.filled (n.children.map fun x => (x.1, objects.getD (x.2 - first) default))) := by
  induction nodes generalizing first with
  | nil => exact ⟨[], rfl, rfl, by simp⟩
  | cons n rest ih =>
    obtain ⟨later, hlater, hlength, hobjects⟩ := ih (first + 1) fun {i m} hm x hx => by
      obtain ⟨hlt, hbound, hp⟩ := h (i := i + 1) (by simpa using hm) x hx
      rw [List.length_cons] at hbound
      exact ⟨by omega, by omega, hp⟩
    have hn : ∀ x ∈ n.children, first + 1 ≤ x.2 ∧ x.2 - (first + 1) < later.length ∧
        x.1 < n.table.associations.length := fun x hx => by
      obtain ⟨hlt, hbound, hp⟩ := h (i := 0) rfl x hx
      rw [List.length_cons] at hbound
      exact ⟨by omega, by omega, hp⟩
    -- numbers of later nodes count from the next node on
    have hshift : ∀ (o : Object) (k : Nat), first < k →
        (o :: later).getD (k - first) default = later.getD (k - (first + 1)) default := by
      intro o k hk
      obtain ⟨j, rfl⟩ := Nat.exists_eq_add_of_lt hk
      rw [show first + j + 1 - first = j + 1 by omega,
        show first + j + 1 - (first + 1) = j by omega]
      rfl
    refine ⟨n.filled (n.children.map fun x => (x.1, later.getD (x.2 - (first + 1)) default)) ::
      later, ?_, by rw [List.length_cons, List.length_cons, hlength], ?_⟩
    · rw [complete, hlater]
      show (completeNode n (first + 1) later >>= fun o => pure (o :: later)) = _
      rw [completeNode_ok hn]
      rfl
    · intro i m hm
      cases i with
      | zero =>
        obtain rfl : n = m := by simpa using hm
        simp only [List.getElem?_cons_zero, Option.some.injEq]
        congr 1
        exact List.map_congr_left fun x hx => by rw [hshift _ _ (hn x hx).1]
      | succ i =>
        rw [List.getElem?_cons_succ] at hm ⊢
        rw [hobjects hm]
        congr 2
        refine List.map_congr_left fun x hx => ?_
        have := (h (i := i + 1) (by simpa using hm) x hx).1
        rw [hshift _ _ (by omega)]

/-- **A graph whose links lead to later nodes gives its objects.** -/
theorem Labeled.assemble (hl : Labeled g labels) (hroots : ∀ n ∈ g.roots, n < g.nodes.length) :
    ∃ objects : List Object, g.assemble = .ok (g.roots.map fun n => objects.getD n default) ∧
      ∀ {n : Nat} {node}, g.nodes[n]? = some node → objects.getD n default =
        node.filled (node.children.map fun x => (x.1, objects.getD x.2 default)) := by
  obtain ⟨objects, hcomplete, hlength, hobjects⟩ := complete_ok g.nodes 0 fun hn x hx => by
    simpa using hl.links hn x hx
  refine ⟨objects, ?_, fun {n node} hn => ?_⟩
  · rw [Graph.assemble, hcomplete]
    show List.mapM _ g.roots = _
    have hlt : ∀ n ∈ g.roots, n < objects.length := hlength ▸ hroots
    generalize g.roots = roots at hlt
    induction roots with
    | nil => rfl
    | cons n rest ih =>
      have hsome : objects[n]? = some (objects.getD n default) := by
        rw [List.getD_eq_getElem?_getD, List.getElem?_eq_getElem (hlt n List.mem_cons_self),
          Option.getD_some]
      rw [List.mapM_cons, ih fun m hm => hlt m (List.mem_cons_of_mem _ hm)]
      simp only [hsome]
      rfl
  · rw [List.getD_eq_getElem?_getD, hobjects hn]
    simp

end EntityMapper
