import EntityMapper.Proofs.Graph.Materialize

/-!
# The roots of a result

What a result has at its roots does not depend on the objects that the rows lead to, nor on the
names of their types. The columns of a root are those of the first row of its group, and there is a
root for each group.

* `Graph.Keeps` — what reading leaves alone: the nodes that are there, but for their links, and the
  texts that are not below the owner
* `Rooted` — the roots of a graph are the first rows of the groups of rows that it has read
* `materialize_roots` — the objects of a result are those of its groups of rows, but for their
  children
* `length_rootGroups_eq_iff` — when there are as many roots as rows
-/

namespace EntityMapper

open EntityMapper.Graph (add addBelow keyOf completeNode complete)

variable {c : Catalog} {t : Table} {g g' : Graph} {P : String → Prop}

/-! ## What reading leaves alone -/

/-- Nodes keep their objects, and only texts of a class are found anew. -/
structure Graph.Keeps (P : String → Prop) (g g' : Graph) : Prop where
  nodes : ∀ {n : Nat} {node}, g.nodes[n]? = some node →
    ∃ links, g'.nodes[n]? = some { node with children := links }
  keys : ∀ {k}, ¬ P k → g'.keys.lookup k = g.keys.lookup k
  roots : g'.roots = g.roots

namespace Graph.Keeps

theorem refl (P : String → Prop) (g : Graph) : Keeps P g g where
  nodes := fun {_ node} hn => ⟨node.children, hn⟩
  keys := fun _ => rfl
  roots := rfl

theorem trans {g'' : Graph} (h : Keeps P g g') (h' : Keeps P g' g'') : Keeps P g g'' where
  nodes := fun hn => by
    obtain ⟨links, hn⟩ := h.nodes hn
    obtain ⟨links', hn⟩ := h'.nodes hn
    exact ⟨links', hn⟩
  keys := fun hk => (h'.keys hk).trans (h.keys hk)
  roots := h'.roots.trans h.roots

theorem mono {Q : String → Prop} (h : Keeps P g g') (hPQ : ∀ k, P k → Q k) : Keeps Q g g' :=
  ⟨h.nodes, fun hk => h.keys fun hP => hk (hPQ _ hP), h.roots⟩

theorem withRoots (h : Keeps P g g') (more : List Nat) :
    Keeps P { g with roots := g.roots ++ more } { g' with roots := g'.roots ++ more } :=
  ⟨h.nodes, h.keys, congrArg (· ++ more) h.roots⟩

end Graph.Keeps

open EntityMapper.Graph (Keeps)

theorem keeps_push (node : Node) {key : Option String} (hkey : ∀ k, key = some k → P k) :
    Keeps P g (g.push node key) where
  nodes := fun {n m} hn => by
    refine ⟨m.children, ?_⟩
    exact getElem?_append_of_eq_some hn [node]
  keys := fun {k} hk => by
    rw [lookup_push, if_neg fun h => hk (hkey k h)]
  roots := rfl

theorem keeps_linkNew (owner place : Nat) (s : Sighting) : Keeps P g (g.linkNew owner place s) := by
  cases s with
  | existing n => exact .refl P g
  | absent => exact .refl P g
  | new child =>
    refine ⟨fun {n node} hn => ?_, fun _ => rfl, rfl⟩
    simp only [Graph.linkNew, Graph.link, List.getElem?_modify, hn, Option.map_eq_map,
      Option.map_some]
    split
    · exact ⟨_, rfl⟩
    · exact ⟨node.children, rfl⟩

theorem under_text (owner : String) (o : Occurrence) (node : Nat) :
    Under owner (o.text owner node) := under_of_within_text (within_self _)

theorem text_of_keyOf {owner k : String} {o : Occurrence}
    (h : keyOf owner o.table o.identity = some k) (node : Nat) : o.text owner node = k := by
  rw [Occurrence.text, h, Option.getD_some]

/-- What is below a text below an owner is below the owner. -/
theorem Under.trans {owner text k : String} (h : Under owner text) (hk : Under text k) :
    Under owner k := by
  obtain ⟨r, hr⟩ := h
  obtain ⟨u, hu⟩ := hk
  exact ⟨r ++ '/' :: u, by rw [hu, hr, List.append_assoc, List.cons_append]⟩

/-- Reading an occurrence finds only texts below its owner anew. -/
def Occurrence.Keeping (o : Occurrence) : Prop :=
  ∀ (owner : String) (g : Graph) (s : Sighting) (g' : Graph),
    add owner o g = .ok (s, g') → Keeps (Under owner) g g'

theorem keeps_addBelow {below : List (Nat × Occurrence)} (hbelow : ∀ x ∈ below, x.2.Keeping)
    {owner : String} {node : Nat} (h : addBelow owner node below g = .ok g') :
    Keeps (Under owner) g g' := by
  induction below generalizing g with
  | nil =>
    rw [addBelow] at h
    obtain rfl := Except.ok.inj h
    exact .refl _ _
  | cons x rest ih =>
    obtain ⟨place, o⟩ := x
    obtain ⟨s, g₁, hadd, hrest⟩ := addBelow_cons h
    exact ((hbelow _ List.mem_cons_self owner g s g₁ hadd).trans (keeps_linkNew node place s)).trans
      (ih (fun y hy => hbelow y (List.mem_cons_of_mem _ hy)) hrest)

/-- **Reading an occurrence leaves alone what is not below its owner.** -/
theorem Occurrence.Of.keeping {o : Occurrence} (ho : o.Of c) : o.Keeping := by
  induction ho with
  | @mk t identity object nested suits places each ih =>
    intro owner g s g' h
    generalize ho : Occurrence.mk t identity object nested = o at h
    have hnested : ∀ x ∈ o.nested, x.2.Keeping := by
      subst ho
      exact ih
    rcases add_cases h with ⟨n, k, -, hk, -, hbelow⟩ | ⟨-, ⟨ob, -, -, hbelow⟩ | ⟨-, -, rfl⟩⟩
    · exact (keeps_addBelow hnested hbelow).mono fun k => (under_text owner o n).trans
    · refine (keeps_push _ fun k hk => ?_).trans
        ((keeps_addBelow hnested hbelow).mono fun k => (under_text owner o _).trans)
      exact text_of_keyOf hk g.nodes.length ▸ under_text owner o _
    · exact .refl _ _

/-! ## Groups that take what is read -/

theorem head?_enter {α : Type} {same : α → α → Bool} {opens : α → Bool} {x : α} {G : List (List α)}
    (h : ∃ r ∈ G, takes same x r = true) :
    (enter same opens x G).map List.head? = G.map List.head? := by
  induction G with
  | nil =>
    obtain ⟨r, hr, -⟩ := h
    exact absurd hr List.not_mem_nil
  | cons s G ih =>
    rw [enter]
    split
    · next hs =>
      cases s with
      | nil => exact absurd hs Bool.false_ne_true
      | cons y s => rfl
    · next hs =>
      rw [List.map_cons, List.map_cons, ih]
      obtain ⟨r, hr, htakes⟩ := h
      rcases List.mem_cons.mp hr with rfl | hr
      · exact absurd htakes hs
      · exact ⟨r, hr, htakes⟩

/-- Whether two rows show one root. -/
def Table.sameRoot (t : Table) (r s : Row) : Bool := (Sight.ofRow t r).same (Sight.ofRow t s)

theorem sameRoot_iff {r s : Row} {parts : List KeyPart} (h : t.groupKey? (.ofRow s) = some parts) :
    t.sameRoot r s = true ↔ t.groupKey? (.ofRow r) = some parts := by
  unfold Table.sameRoot Sight.same Sight.ofRow
  cases t.groupKey? (.ofRow r) with
  | none => simp
  | some k =>
    rw [h]
    simp only [beq_self_eq_true, Bool.true_and, beq_iff_eq]
    exact eq_comm

theorem sameRoot_of_none {r s : Row} (h : t.groupKey? (.ofRow s) = none) :
    t.sameRoot r s = false := by
  unfold Table.sameRoot Sight.same Sight.ofRow
  cases t.groupKey? (.ofRow r) with
  | none => simp
  | some k => simp [h]

/-- The key of the first row of a group. -/
def Table.headKey? (t : Table) (head : Option Row) : Option (List KeyPart) :=
  head.bind fun row => t.groupKey? (.ofRow row)

theorem takes_sameRoot_iff {row : Row} {r : List Row} {parts : List KeyPart}
    (h : t.groupKey? (.ofRow row) = some parts) :
    takes t.sameRoot row r = true ↔ t.headKey? r.head? = some parts := by
  unfold takes Table.headKey?
  cases r.head? with
  | none => simp
  | some s => simpa using sameRoot_iff h

theorem not_takes_sameRoot {row : Row} (h : t.groupKey? (.ofRow row) = none) (r : List Row) :
    takes t.sameRoot row r = false := by
  unfold takes
  cases r.head? with
  | none => rfl
  | some s => simpa using sameRoot_of_none h

/-! ## Roots -/

/-- A node that has the object of a group of rows, but for its links. -/
def Graph.HasRoot (t : Table) (g : Graph) (head : Option Row) (n : Nat) : Prop :=
  ∃ row links, head = some row ∧ g.nodes[n]? = some ⟨t, t.seen (.ofRow row), links⟩

/-- The roots of a graph are the first rows of groups, and a key is found where a group has it. -/
structure Rooted (t : Table) (heads : List (Option Row)) (g : Graph) : Prop where
  roots : List.Forall₂ (g.HasRoot t) heads g.roots
  found : ∀ {parts}, parts.length = t.primaryKey.length →
    ((g.keys.lookup (keyText "" t.entity parts)).isSome = true ↔
      some parts ∈ heads.map t.headKey?)

/-- The text of a root tells its key. -/
theorem keyText_inj {parts k : List KeyPart} (hlen : parts.length = k.length)
    (h : keyText "" t.entity parts = keyText "" t.entity k) : parts = k := by
  have htext : (String.join (parts.map keyPartText)).toList ++ [] =
      (String.join (k.map keyPartText)).toList ++ [] := by
    simpa [keyText] using congrArg String.toList h
  exact (keyPartsText_inj hlen htext).1

/-- The text of a root is not below another. -/
theorem not_under_keyText {parts k : List KeyPart} (hlen : parts.length = k.length) :
    ¬ Under (keyText "" t.entity k) (keyText "" t.entity parts) := by
  rintro ⟨r, hr⟩
  have htext : (String.join (parts.map keyPartText)).toList ++ [] =
      (String.join (k.map keyPartText)).toList ++ '/' :: r := by
    simpa [keyText] using hr
  exact List.cons_ne_nil _ _ (keyPartsText_inj hlen htext).2.symm

theorem not_under_nodeText {parts : List KeyPart} (hkeyless : parts = []) (n : Nat) :
    ¬ Under (nodeText "" t.entity n) (keyText "" t.entity parts) := by
  rintro ⟨r, hr⟩
  simp [keyText, nodeText, hkeyless, String.join] at hr

/-- The text of a root is not below one that is read. -/
theorem not_under_text {o : Occurrence} (hsuits : o.identity.Suits o.table) {parts : List KeyPart}
    (hlen : parts.length = o.table.primaryKey.length) (n : Nat) :
    ¬ Under (o.text "" n) (keyText "" o.table.entity parts) := by
  unfold Occurrence.text
  cases hi : o.identity with
  | keyed k =>
    rw [hi] at hsuits
    exact not_under_keyText (hlen.trans hsuits.1.symm)
  | keyless =>
    rw [hi] at hsuits
    refine not_under_nodeText (List.eq_nil_of_length_eq_zero ?_) n
    rw [hlen, hsuits.2.mp rfl, List.length_nil]

namespace Rooted

variable {heads : List (Option Row)}

theorem keeps (h : Rooted t heads g) {o : Occurrence} (ho : o.Of c) (htable : o.table = t) {n : Nat}
    (hkeeps : Keeps (Under (o.text "" n)) g g') : Rooted t heads g' where
  roots := by
    rw [hkeeps.roots]
    refine h.roots.imp fun head n hroot => ?_
    obtain ⟨row, links, rfl, hn⟩ := hroot
    obtain ⟨links', hn'⟩ := hkeeps.nodes hn
    exact ⟨row, links', rfl, hn'⟩
  found := fun {parts} hlen => by
    subst htable
    rw [hkeeps.keys (not_under_text ho.suits hlen n)]
    exact h.found hlen

/-- A new root. -/
theorem push (h : Rooted t heads g) {o : Occurrence} (htable : o.table = t) {row : Row}
    (hseen : o.SeenIn c (.ofRow row)) :
    Rooted t (heads ++ [some row])
      { g.push { table := t, object := t.seen (.ofRow row) } (keyOf "" t o.identity) with
        roots := g.roots ++ [g.nodes.length] } where
  roots := by
    refine List.rel_append (h.roots.imp fun head n hroot => ?_) (.cons ?_ .nil)
    · obtain ⟨row', links, rfl, hn⟩ := hroot
      refine ⟨row', links, rfl, ?_⟩
      exact getElem?_append_of_eq_some hn _
    · exact ⟨row, [], rfl, getElem?_push g _ (keyOf "" t o.identity)⟩
  found := fun {parts} hlen => by
    subst htable
    have hhead : o.table.headKey? (some row) = o.table.groupKey? (.ofRow row) := rfl
    rw [List.map_append, List.mem_append, List.map_singleton, List.mem_singleton, hhead,
      ← h.found hlen]
    rcases hseen.identity with ⟨k, hk, hi⟩ | ⟨hkey, hi⟩
    · rw [hi, hk]
      simp only [Graph.push, keyOf, Option.elim_some, List.lookup_cons, Option.some.injEq]
      cases heq : keyText "" o.table.entity parts == keyText "" o.table.entity k with
      | true =>
        have hparts := keyText_inj (hlen.trans (groupKey?_length hk).symm) (beq_iff_eq.mp heq)
        simp [hparts]
      | false =>
        have hne : parts ≠ k := fun hparts => beq_eq_false_iff_ne.mp heq (by rw [hparts])
        simp only [hne, or_false]
    · rw [hi, groupKey?_of_not_hasPrimaryKey hkey]
      simp [Graph.push, keyOf]

variable {G : List (List Row)} {row : Row}

/-- A group takes a row just if the graph finds the row's root. -/
theorem takes_iff (h : Rooted t (G.map List.head?) g) {o : Occurrence} (htable : o.table = t)
    (hseen : o.SeenIn c (.ofRow row)) :
    (∃ r ∈ G, takes t.sameRoot row r = true) ↔
      ((keyOf "" o.table o.identity).bind fun k => g.keys.lookup k).isSome = true := by
  subst htable
  rcases hseen.identity with ⟨k, hk, hi⟩ | ⟨hkey, hi⟩
  · rw [hi]
    simp only [takes_sameRoot_iff hk]
    refine Iff.trans ?_ (h.found (groupKey?_length hk)).symm
    simp [List.mem_map]
  · have hnone := groupKey?_of_not_hasPrimaryKey hkey (.ofRow row)
    simp [hi, keyOf, not_takes_sameRoot hnone]

/-- **Reading a row is one step of grouping.** -/
theorem addRow (h : Rooted t (G.map List.head?) g) (hrow : Graph.addRow c t g row = .ok g') :
    Rooted t ((enter t.sameRoot t.rootOpens row G).map List.head?) g' := by
  rcases addRow_cases hrow with ⟨hread, rfl⟩ | ⟨o, s, g₁, ho, hadd, rfl⟩
  · obtain ⟨hopens, hkey⟩ : t.rootOpens row = false ∧ t.groupKey? (.ofRow row) = none :=
      (Sight.readsRow c t).missing hread
    rw [enter_of_not_takes fun r _ => not_takes_sameRoot hkey r, if_neg (by simp [hopens]),
      List.append_nil]
    exact h
  · obtain ⟨htable, hseen, hof⟩ := ofRow_seenIn ho
    have hread : Sight.readRow c t row = some (0, o) := by rw [Sight.readRow, ho]
    have htakes := h.takes_iff htable hseen
    have hnested : ∀ x ∈ o.nested, x.2.Keeping := fun x hx => (hof.nested hx).2.keeping
    rcases add_cases hadd with ⟨n, k, rfl, hk, hn, hbelow⟩ | ⟨hnone, hnew⟩
    · rw [head?_enter (htakes.mpr (by simp [hk, hn]))]
      have hkept := h.keeps hof htable (keeps_addBelow hnested hbelow)
      simpa [Sighting.links] using hkept
    · have hnot : ∀ r ∈ G, takes t.sameRoot row r = false := fun r hr => by
        by_contra hr'
        have := htakes.mp ⟨r, hr, (Bool.not_eq_false _).mp hr'⟩
        rw [hnone] at this
        exact absurd this Bool.false_ne_true
      rw [enter_of_not_takes hnot]
      rcases hnew with ⟨ob, rfl, hob, hbelow⟩ | ⟨rfl, hob, rfl⟩
      · rw [if_pos ((Sight.readsRow c t).opened hread hob), List.map_append]
        rw [hseen.object] at hob
        obtain ⟨rfl, -⟩ := seen_of_rowObject hob
        have hkept := (keeps_addBelow hnested hbelow).withRoots [g.nodes.length]
        rw [htable] at hkept
        exact (h.push htable hseen).keeps hof htable hkept
      · rw [if_neg (by simp [(Sight.readsRow c t).passed hread hob]), List.append_nil]
        simpa [Sighting.links] using h

/-- **Reading rows is grouping them.** -/
theorem foldlM_addRow {rows before : List Row}
    (h : Rooted t ((firstSeen t.sameRoot t.rootOpens before).map List.head?) g)
    (hrows : rows.foldlM (Graph.addRow c t) g = .ok g') :
    Rooted t ((firstSeen t.sameRoot t.rootOpens (before ++ rows)).map List.head?) g' := by
  induction rows generalizing g before with
  | nil =>
    obtain rfl : g = g' := Except.ok.inj hrows
    rwa [List.append_nil]
  | cons row rest ih =>
    rw [List.foldlM_cons] at hrows
    cases hrow : Graph.addRow c t g row with
    | error e =>
      rw [hrow] at hrows
      exact nomatch hrows
    | ok g₁ =>
      rw [hrow] at hrows
      rw [List.append_cons]
      refine ih ?_ hrows
      rw [firstSeen_append_singleton]
      exact h.addRow hrow

end Rooted

/-! ## Objects of nodes -/

/-- An object is another one but for its children. -/
def Object.Completes (o p : Object) : Prop := o = { p with children := o.children }

theorem Object.completes_self (o : Object) : o.Completes o := by
  cases o
  rfl

theorem completeNode_completes {n : Node} {first : Nat} {later : List Object} {o : Object}
    (h : completeNode n first later = .ok o) : o.Completes n.object := by
  refine foldlM_preserves (I := fun o => o.Completes n.object) (fun o link o' ho hlink => ?_)
    n.object.completes_self h
  dsimp only at hlink
  split at hlink
  · obtain rfl := Except.ok.inj hlink
    rw [Object.Completes, ho]
  · exact nomatch hlink

theorem complete_completes {nodes : List Node} {first : Nat} {objects : List Object}
    (h : complete first nodes = .ok objects) :
    List.Forall₂ (fun n o => o.Completes n.object) nodes objects := by
  induction nodes generalizing first objects with
  | nil =>
    obtain rfl : [] = objects := Except.ok.inj h
    exact .nil
  | cons n rest ih =>
    rw [complete] at h
    cases hlater : complete (first + 1) rest with
    | error e =>
      rw [hlater] at h
      cases h
    | ok later =>
      rw [hlater] at h
      cases ho : completeNode n (first + 1) later with
      | error e =>
        simp only [Bind.bind, Except.bind, ho] at h
        cases h
      | ok o =>
        simp only [Bind.bind, Except.bind, ho] at h
        obtain rfl : o :: later = objects := Except.ok.inj h
        exact .cons (completeNode_completes ho) (ih hlater)

/-- The roots come out with the objects of their nodes. -/
theorem Rooted.assemble {heads : List (Option Row)} (h : Rooted t heads g) {objects : List Object}
    (hassemble : g.assemble = .ok objects) :
    List.Forall₂ (fun head o => ∃ row, head = some row ∧ o.Completes (t.seen (.ofRow row))) heads
      objects := by
  unfold Graph.assemble at hassemble
  cases hcomplete : complete 0 g.nodes with
  | error e =>
    rw [hcomplete] at hassemble
    exact nomatch hassemble
  | ok nodes =>
    rw [hcomplete] at hassemble
    simp only [Bind.bind, Except.bind] at hassemble
    have hnodes := complete_completes hcomplete
    have hroots := h.roots
    clear h
    generalize g.roots = roots at hroots hassemble
    induction hroots generalizing objects with
    | nil =>
      obtain rfl : [] = objects := Except.ok.inj hassemble
      exact .nil
    | @cons head n heads roots hroot _ ih =>
      obtain ⟨row, links, hhead, hn⟩ := hroot
      obtain ⟨hlt, hnode⟩ := List.getElem?_eq_some_iff.mp hn
      have hlt' : n < nodes.length := hnodes.length_eq ▸ hlt
      have hcompletes : nodes[n].Completes (t.seen (.ofRow row)) := by
        have := hnodes.get hlt hlt'
        rw [List.get_eq_getElem, List.get_eq_getElem, hnode] at this
        exact this
      rw [List.mapM_cons, List.getElem?_eq_getElem hlt'] at hassemble
      simp only [Bind.bind, Except.bind] at hassemble
      split at hassemble
      · exact nomatch hassemble
      · next rest hrest =>
        obtain rfl : nodes[n] :: rest = objects := Except.ok.inj hassemble
        exact .cons ⟨row, hhead, hcompletes⟩ (ih hrest)

/-- **The roots of a result.** There is an object for each group of rows, in the order in which the
groups are first seen, and it is the one seen in the first row of its group, but for its children.
-/
theorem materialize_roots {rows : List Row} {objects : List Object}
    (h : materialize c t rows = .ok objects) :
    List.Forall₂ (fun r o => o.Completes (t.seenFirst r)) (t.rootGroups rows) objects := by
  unfold materialize at h
  cases hg : Graph.ofRows c t rows with
  | error e =>
    rw [hg] at h
    exact nomatch h
  | ok g =>
    rw [hg] at h
    cases hassemble : g.assemble with
    | error e =>
      simp only [hassemble] at h
      exact nomatch h
    | ok objects' =>
      simp only [hassemble] at h
      obtain rfl := Except.ok.inj h
      have hempty : Rooted t ((firstSeen t.sameRoot t.rootOpens []).map List.head?) {} := by
        rw [firstSeen_nil]
        exact ⟨.nil, by simp⟩
      have hroots := (hempty.foldlM_addRow hg).assemble hassemble
      rw [List.nil_append, List.forall₂_map_left_iff] at hroots
      rw [← map_ofRow_firstSeen, List.forall₂_map_left_iff]
      refine hroots.imp fun r o hroot => ?_
      obtain ⟨row, hhead, hcompletes⟩ := hroot
      unfold Table.seenFirst
      rw [List.head?_map, hhead]
      exact hcompletes

/-! ## How many roots there are -/

/-- Every row has a root of its own. With a key that has to be usable in each row, and that of no
row before it. -/
def Table.RootsApart (t : Table) (rows : List Row) : Prop :=
  t.hasPrimaryKey = true → (∀ row ∈ rows, t.opens (.ofRow row) = true) ∧
    rows.Pairwise fun r s => t.sameObject (.ofRow r) (.ofRow s) = false

variable {rows : List Row}

theorem length_rootGroups_le (t : Table) (rows : List Row) :
    (t.rootGroups rows).length ≤ rows.length := by
  unfold Table.rootGroups
  split
  · have hle : (t.groups (rows.map View.ofRow)).length ≤ (rows.map View.ofRow).length :=
      length_firstSeen_le _
    rwa [List.length_map] at hle
  · simp

/-- Rows that have roots of their own are groups of their own. -/
theorem rootGroups_of_apart (h : t.RootsApart rows) :
    t.rootGroups rows = rows.map fun r => [.ofRow r] := by
  unfold Table.rootGroups
  split
  · next hkey =>
    obtain ⟨hopens, hapart⟩ := h hkey
    rw [Table.groups, firstSeen_of_apart (by simpa using hopens) (List.pairwise_map.mpr hapart),
      List.map_map]
    rfl
  · rfl

/-- **There are as many roots as rows just if every row has a root of its own.** -/
theorem length_rootGroups_eq_iff : (t.rootGroups rows).length = rows.length ↔ t.RootsApart rows := by
  constructor
  · intro h hkey
    have hlength : (rows.map View.ofRow).length = rows.length := List.length_map _
    rw [Table.rootGroups, if_pos hkey, Table.groups, ← hlength, length_firstSeen_eq_iff] at h
    obtain ⟨hopens, hapart⟩ := h
    exact ⟨by simpa using hopens, List.pairwise_map.mp hapart⟩
  · intro h
    rw [rootGroups_of_apart h, List.length_map]

end EntityMapper
