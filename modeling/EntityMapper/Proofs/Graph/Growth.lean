import EntityMapper.Proofs.Fallible
import EntityMapper.Proofs.Graph.Forest

/-!
# Reading an occurrence lets the forest grow

Every occurrence that a row shows below an owner either joins the tree of its object, or starts a
tree, or is passed over; what is seen below it is read in the same way with the object as the owner.
All other trees stay as they are.

* `Occurrence.Of.grows` — reading one occurrence below any owner
* `addBelow_siblings` — reading all that is seen below an object
* `ofRows_siblings` — the roots of a graph are the groups of what the rows show
-/

namespace EntityMapper

open EntityMapper.Graph (add addBelow keyOf place push link)

variable {c : Catalog} {g g' : Graph} {labels labels' : List String}

/-! ## Steps -/

/-- What an owner gets as a child. -/
def Sighting.links (place : Nat) : Sighting → List (Nat × Nat)
  | .new n => [(place, n)]
  | _ => []

/-- Links what is new to its owner. -/
def Graph.linkNew (g : Graph) (owner place : Nat) : Sighting → Graph
  | .new n => g.link owner place n
  | _ => g

/-- Reading an occurrence: the node of its object is found, or its columns decide. -/
theorem add_eq (owner : String) (o : Occurrence) (g : Graph) :
    add owner o g =
      match (keyOf owner o.table o.identity).bind fun k => g.keys.lookup k with
      | some n => (addBelow (o.text owner n) n o.nested g).map fun g => (.existing n, g)
      | none =>
        match o.object with
        | .error e => .error (.coercion e)
        | .ok none => .ok (.absent, g)
        | .ok (some ob) =>
          (addBelow (o.text owner g.nodes.length) g.nodes.length o.nested
            (g.push { table := o.table, object := ob } (keyOf owner o.table o.identity))).map
              fun g' => (.new g.nodes.length, g') := by
  obtain ⟨t, identity, object, nested⟩ := o
  rw [add]
  simp only [Occurrence.table, Occurrence.identity, Occurrence.object, Occurrence.nested,
    Occurrence.text, place]
  cases (keyOf owner t identity).bind fun k => g.keys.lookup k with
  | some n => rfl
  | none =>
    cases object with
    | error e => rfl
    | ok object => cases object <;> rfl

/-- What reading an occurrence can do. -/
theorem add_cases {owner : String} {o : Occurrence} {s : Sighting}
    (h : add owner o g = .ok (s, g')) :
    (∃ n k, s = .existing n ∧ keyOf owner o.table o.identity = some k ∧ g.keys.lookup k = some n ∧
      addBelow (o.text owner n) n o.nested g = .ok g') ∨
    (((keyOf owner o.table o.identity).bind fun k => g.keys.lookup k) = none ∧
      ((∃ ob, s = .new g.nodes.length ∧ o.object = .ok (some ob) ∧
          addBelow (o.text owner g.nodes.length) g.nodes.length o.nested
            (g.push { table := o.table, object := ob } (keyOf owner o.table o.identity)) = .ok g') ∨
        (s = .absent ∧ o.object = .ok none ∧ g' = g))) := by
  rw [add_eq] at h
  cases hb : (keyOf owner o.table o.identity).bind fun k => g.keys.lookup k with
  | some n =>
    obtain ⟨k, hk, hn⟩ := Option.bind_eq_some_iff.mp hb
    rw [hb] at h
    obtain ⟨g₁, hg₁, heq⟩ := map_eq_ok.mp h
    rw [Prod.mk.injEq] at heq
    obtain ⟨rfl, rfl⟩ := heq
    exact .inl ⟨n, k, rfl, hk, hn, hg₁⟩
  | none =>
    rw [hb] at h
    cases hob : o.object with
    | error e => simp only [hob] at h; exact nomatch h
    | ok object =>
      cases object with
      | none =>
        simp only [hob, Except.ok.injEq, Prod.mk.injEq] at h
        exact .inr ⟨rfl, .inr ⟨h.1.symm, rfl, h.2.symm⟩⟩
      | some ob =>
        simp only [hob] at h
        obtain ⟨g₁, hg₁, heq⟩ := map_eq_ok.mp h
        rw [Prod.mk.injEq] at heq
        obtain ⟨rfl, rfl⟩ := heq
        exact .inr ⟨rfl, .inl ⟨ob, rfl, rfl, hg₁⟩⟩

/-- A new object gets the next node. -/
theorem add_new {owner : String} {o : Occurrence} {n : Nat} (h : add owner o g = .ok (.new n, g')) :
    n = g.nodes.length := by
  rcases add_cases h with ⟨_, _, hs, -⟩ | ⟨-, ⟨_, hs, -⟩ | ⟨hs, -⟩⟩
  · exact nomatch hs
  · exact Sighting.new.inj hs
  · exact nomatch hs

/-- What has been read of the first of several occurrences, the rest is read on from. -/
theorem addBelow_cons_of_add {owner : String} {node p : Nat} {o : Occurrence} {s : Sighting}
    (h : add owner o g = .ok (s, g')) (rest : List (Nat × Occurrence)) :
    addBelow owner node ((p, o) :: rest) g = addBelow owner node rest (g'.linkNew node p s) := by
  rw [addBelow, h]
  cases s <;> rfl

theorem addBelow_cons {owner : String} {node p : Nat} {o : Occurrence}
    {rest : List (Nat × Occurrence)} (h : addBelow owner node ((p, o) :: rest) g = .ok g') :
    ∃ s g₁, add owner o g = .ok (s, g₁) ∧
      addBelow owner node rest (g₁.linkNew node p s) = .ok g' := by
  cases ha : add owner o g with
  | error e =>
    rw [addBelow, ha] at h
    exact nomatch h
  | ok r =>
    obtain ⟨s, g₁⟩ := r
    rw [addBelow_cons_of_add ha] at h
    exact ⟨s, g₁, rfl, h⟩

/-! ## New nodes and links -/

theorem getElem?_push (g : Graph) (node : Node) (key : Option String) :
    (g.push node key).nodes[g.nodes.length]? = some node := by
  simp [Graph.push]

theorem getElem?_push_iff {node m : Node} {key : Option String} {n : Nat} :
    (g.push node key).nodes[n]? = some m ↔
      g.nodes[n]? = some m ∨ n = g.nodes.length ∧ m = node := by
  rw [Graph.push, List.getElem?_append]
  split
  · next h => simp [Nat.ne_of_lt h]
  · next h =>
    rw [List.getElem?_eq_none (Nat.le_of_not_lt h), List.getElem?_singleton]
    by_cases hn : n = g.nodes.length
    · simp [hn, eq_comm]
    · simp [hn, show ¬ n - g.nodes.length = 0 by omega]

/-- A new node has no children yet. -/
theorem getElem?_of_mem_push {node m : Node} (hnode : node.children = []) {key : Option String}
    {n : Nat} (hm : (g.push node key).nodes[n]? = some m) {x : Nat × Nat} (hx : x ∈ m.children) :
    g.nodes[n]? = some m := by
  rcases getElem?_push_iff.mp hm with hm | ⟨-, rfl⟩
  · exact hm
  · rw [hnode] at hx
    exact absurd hx List.not_mem_nil

/-- The key of a new node finds it, and all others find what they found. -/
theorem lookup_push (g : Graph) (node : Node) (key : Option String) (k : String) :
    (g.push node key).keys.lookup k =
      if key = some k then some g.nodes.length else g.keys.lookup k := by
  cases key with
  | none => rfl
  | some k' =>
    simp only [Graph.push, Option.elim_some, List.lookup_cons, Option.some.injEq]
    by_cases hk : k = k'
    · simp [hk]
    · rw [beq_eq_false_iff_ne.mpr hk, if_neg (Ne.symm hk)]

/-- A new key was not there before. -/
theorem lookup_push_of_eq_some {key : Option String}
    (hkey : (key.bind fun k => g.keys.lookup k) = none) (node : Node) {k : String} {n : Nat}
    (hn : g.keys.lookup k = some n) : (g.push node key).keys.lookup k = some n := by
  rw [lookup_push, if_neg, hn]
  rintro rfl
  rw [Option.bind_some, hn] at hkey
  cases hkey

/-- A node that is linked is a child of its owner, and nothing else changes. -/
theorem exists_of_getElem?_link {owner p child n : Nat} {m : Node}
    (hm : (g.link owner p child).nodes[n]? = some m) :
    ∃ m₀, g.nodes[n]? = some m₀ ∧ m.table = m₀.table ∧ m.object = m₀.object ∧
      ∀ x ∈ m.children, x ∈ m₀.children ∨ owner = n ∧ x = (p, child) := by
  simp only [Graph.link, List.getElem?_modify] at hm
  obtain ⟨m₀, hm₀, rfl⟩ := Option.map_eq_some_iff.mp hm
  refine ⟨m₀, hm₀, ?_⟩
  by_cases hn : owner = n
  · simp [hn]
  · simp [hn]

theorem Labeled.push (hl : Labeled g labels) {node : Node} (hnode : node.children = [])
    {key : Option String} {k : String} (hkey : ∀ k', key = some k' → k' = k) :
    Labeled (g.push node key) (labels ++ [k]) where
  length := by simp [Graph.push, hl.length]
  links := by
    intro n m hm x hx
    simp only [Graph.push, List.length_append, List.length_singleton]
    obtain ⟨hlt, hbound, hp⟩ := hl.links (getElem?_of_mem_push hnode hm hx) x hx
    exact ⟨hlt, Nat.lt_succ_of_lt hbound, hp⟩
  keys := by
    intro k' n hn
    rw [lookup_push] at hn
    split at hn
    · next hk =>
      -- the new key is the text of the new node
      obtain rfl := Option.some.inj hn
      rw [hkey k' hk, ← hl.length, List.getElem?_concat_length]
    · exact getElem?_append_of_eq_some (hl.keys hn) [k]

theorem extends_push (hl : Labeled g labels) (node : Node) {key : Option String} {k : String}
    (hkey : (key.bind fun k => g.keys.lookup k) = none) {P : String → Prop} (hP : P k) :
    Extends P g labels (g.push node key) (labels ++ [k]) where
  grows := ⟨[k], rfl, by simpa using hP⟩
  nodes := by
    intro n k' hk' _
    have hlt : n < g.nodes.length := hl.length ▸ (List.getElem?_eq_some_iff.mp hk').1
    exact List.getElem?_append_left hlt
  keys := by
    intro k' n hn
    rw [lookup_push_of_eq_some hkey node hn]
  roots := rfl

theorem Labeled.link (hl : Labeled g labels) {owner p child : Nat} {m : Node}
    (hm : g.nodes[owner]? = some m) (hlt : owner < child) (hbound : child < g.nodes.length)
    (hp : p < m.table.associations.length) : Labeled (g.link owner p child) labels where
  length := by simp [Graph.link, hl.length]
  keys := hl.keys
  links := by
    intro n m' hm' x hx
    simp only [Graph.link, List.length_modify]
    obtain ⟨m₀, hm₀, htable, -, hchildren⟩ := exists_of_getElem?_link hm'
    rw [htable]
    rcases hchildren x hx with hx | ⟨rfl, rfl⟩
    · exact hl.links hm₀ x hx
    · obtain rfl := Option.some.inj (hm.symm.trans hm₀)
      exact ⟨hlt, hbound, hp⟩

theorem extends_link {owner : String} {node : Nat} (hlabel : labels[node]? = some owner)
    (p child : Nat) : Extends (· = owner) g labels (g.link node p child) labels where
  grows := ⟨[], by simp, by simp⟩
  nodes := by
    intro n k hk hne
    have : node ≠ n := by
      rintro rfl
      exact hne (Option.some.inj (hk.symm.trans hlabel))
    simp [Graph.link, this]
  keys := fun h => h
  roots := rfl

theorem Labeled.linkNew (hl : Labeled g labels) {owner p : Nat} {m : Node} {s : Sighting}
    (hm : g.nodes[owner]? = some m) (hnew : ∀ n, s = .new n → owner < n ∧ n < g.nodes.length)
    (hp : p < m.table.associations.length) : Labeled (g.linkNew owner p s) labels := by
  cases s with
  | new n =>
    obtain ⟨hlt, hbound⟩ := hnew n rfl
    exact hl.link hm hlt hbound hp
  | existing n => exact hl
  | absent => exact hl

theorem extends_linkNew {owner : String} {node : Nat} (hlabel : labels[node]? = some owner)
    (p : Nat) (s : Sighting) : Extends (· = owner) g labels (g.linkNew node p s) labels := by
  cases s with
  | new n => exact extends_link hlabel p n
  | existing n => exact .refl _ g labels
  | absent => exact .refl _ g labels

theorem getElem?_linkNew {node : Nat} {n : Node} (hn : g.nodes[node]? = some n) (p : Nat)
    (s : Sighting) :
    (g.linkNew node p s).nodes[node]? = some { n with children := n.children ++ s.links p } := by
  cases s with
  | new m => simp [Graph.linkNew, Graph.link, Sighting.links, hn]
  | existing m => simpa [Graph.linkNew, Sighting.links] using hn
  | absent => simpa [Graph.linkNew, Sighting.links] using hn

/-! ## Growing -/

/-- What reading an occurrence does to the trees below any owner. -/
def Occurrence.Grows (c : Catalog) (o : Occurrence) : Prop :=
  ∀ {owner : String} {g g' : Graph} {labels : List String} {ts : List Table} {S : List Appearance}
    {F : List Tree} {s : Sighting} (p : Nat), Labeled g labels →
    Siblings c g labels owner ts S F → TablesApart ts → (∀ t ∈ ts, c.NamesApart t) →
    o.table ∈ ts → add owner o g = .ok (s, g') →
    ∃ labels' F', Labeled g' labels' ∧ Siblings c g' labels' owner ts (S ++ [(p, o)]) F' ∧
      Extends (Under owner) g labels g' labels' ∧
      F'.map Tree.link = F.map Tree.link ++ s.links p

/-- **Reading what is seen below an object.** Its node links to the trees. -/
theorem addBelow_siblings {owner : String} {ts : List Table} {below : List (Nat × Occurrence)}
    (hgrows : ∀ x ∈ below, x.2.table ∈ ts ∧ x.2.Grows c) (hts : TablesApart ts)
    (hapart : ∀ t ∈ ts, c.NamesApart t) {t : Table}
    (hplaces : ∀ x ∈ below, x.1 < t.associations.length) {node : Nat} {ob : Object}
    {S : List Appearance} {F : List Tree} (hl : Labeled g labels)
    (hs : Siblings c g labels owner ts S F) (hlabel : labels[node]? = some owner)
    (hnode : g.nodes[node]? = some ⟨t, ob, F.map Tree.link⟩)
    (h : addBelow owner node below g = .ok g') :
    ∃ labels' F', Labeled g' labels' ∧ Siblings c g' labels' owner ts (S ++ below) F' ∧
      Extends (Within owner) g labels g' labels' ∧
      g'.nodes[node]? = some ⟨t, ob, F'.map Tree.link⟩ := by
  induction below generalizing g labels S F with
  | nil =>
    rw [addBelow, Except.ok.injEq] at h
    subst h
    exact ⟨labels, F, hl, by rwa [List.append_nil], .refl _ g labels, hnode⟩
  | cons x rest ih =>
    obtain ⟨p, o⟩ := x
    obtain ⟨s, g₁, hadd, hrest⟩ := addBelow_cons h
    obtain ⟨htable, ho⟩ := hgrows _ List.mem_cons_self
    obtain ⟨labels₁, F₁, hl₁, hs₁, hext₁, hlinks⟩ := ho p hl hs hts hapart htable hadd
    -- the owner itself is not below the owner, so its node is as it was
    have hlabel₁ := hext₁.label hlabel
    have hnode₁ : g₁.nodes[node]? = some ⟨t, ob, F.map Tree.link⟩ :=
      (hext₁.nodes hlabel (not_under_self owner)).trans hnode
    have hnew : ∀ n, s = .new n → node < n ∧ n < g₁.nodes.length := by
      rintro n rfl
      have hn : (p, n) ∈ F₁.map Tree.link := by
        rw [hlinks]
        exact List.mem_append_right _ List.mem_cons_self
      obtain ⟨tr, htr, he⟩ := List.mem_map.mp hn
      obtain rfl : tr.node = n := congrArg Prod.snd he
      have hbound := (List.getElem?_eq_some_iff.mp (hs₁.grown tr htr).label).1
      rw [hl₁.length] at hbound
      refine ⟨?_, hbound⟩
      rw [add_new hadd, ← hl.length]
      exact (List.getElem?_eq_some_iff.mp hlabel).1
    have hext₂ := extends_linkNew hlabel₁ p s (g := g₁)
    have hs₂ := hs₁.frame hext₂ fun k hk he => not_under_self owner (he ▸ hk)
    have hnode₂ := getElem?_linkNew hnode₁ p s
    rw [← hlinks] at hnode₂
    obtain ⟨labels', F', hl', hs', hext', hnode'⟩ :=
      ih (fun x hx => hgrows x (List.mem_cons_of_mem _ hx))
        (fun x hx => hplaces x (List.mem_cons_of_mem _ hx))
        (hl₁.linkNew hnode₁ hnew (hplaces _ List.mem_cons_self)) hs₂ hlabel₁ hnode₂ hrest
    refine ⟨labels', F', hl', by rwa [List.append_assoc] at hs', ?_, hnode'⟩
    refine (hext₁.mono fun k hk => hk.within).trans (.trans (hext₂.mono ?_) hext')
    rintro k rfl
    exact within_self k

theorem Occurrence.Of.place_lt {o : Occurrence} (h : o.Of c) {x : Nat × Occurrence}
    (hx : x ∈ o.nested) : x.1 < o.table.associations.length := by
  obtain ⟨a, ha, -⟩ := h.place hx
  exact (List.getElem?_eq_some_iff.mp ha).1

/-- An owner below which no node lies has no trees. -/
theorem siblings_nil {owner : String} {ts : List Table} (h : ∀ k ∈ labels, ¬ Under owner k) :
    Siblings c g labels owner ts [] [] where
  known := by simp
  gathered := .nil
  separate := .nil
  covered := fun k hk hunder => absurd hunder (h k hk)
  grown := by simp

/-- An occurrence of an object that is known joins its tree. -/
theorem Siblings.join {owner : String} {ts : List Table} {S : List Appearance} {F : List Tree}
    (hs : Siblings c g labels owner ts S F) (hl : Labeled g labels) (hts : TablesApart ts)
    (hapart : ∀ t ∈ ts, c.NamesApart t) {o : Occurrence} (ho : o.Of c) (htable : o.table ∈ ts)
    (hnested : ∀ x ∈ o.nested, x.2.table ∈ c.targets o.table ∧ x.2.Grows c) {n : Nat} {k : String}
    (hk : keyOf owner o.table o.identity = some k) (hn : g.keys.lookup k = some n)
    (h : addBelow (o.text owner n) n o.nested g = .ok g') (p : Nat) :
    ∃ labels' F', Labeled g' labels' ∧ Siblings c g' labels' owner ts (S ++ [(p, o)]) F' ∧
      Extends (Under owner) g labels g' labels' ∧ F'.map Tree.link = F.map Tree.link := by
  -- the tree whose node is found is of the same object
  obtain ⟨tr, htr, hsame, rfl, htext⟩ := hs.found hl hts ho htable hk hn
  have hgrown := hs.grown tr htr
  have hoTable := hs.table_of_same hts htr htable hsame
  obtain ⟨A, B, rfl⟩ := List.append_of_mem htr
  obtain ⟨m, first, again, children⟩ := tr
  simp only [Tree.first, Tree.node] at hsame hn h hoTable
  obtain rfl : first.2.text owner m = k := htext
  have hotext : o.text owner m = first.2.text owner m := by
    rw [Occurrence.text, hk, Option.getD_some]
  have hkids := hgrown.siblings
  cases hgrown with
  | @mk _ _ _ _ _ ob label key object node family _ _ _ _ =>
    rw [hotext] at h
    rw [hoTable] at hnested
    have hnames := hapart _ (hoTable ▸ htable)
    obtain ⟨labels', children', hl', hkids', hext', hnode'⟩ :=
      addBelow_siblings hnested hnames.tablesApart (fun u hu => hnames.of_mem hu)
        (fun x hx => hoTable ▸ ho.place_lt hx) hl hkids label node h
    -- it grows by the occurrence, and its children by what is nested in it
    have hgrown' : Grown c g' labels' owner (.mk m first (again ++ [(p, o)]) children') := by
      refine .mk (hext'.label label) (fun k hk => hext'.keys (key k hk)) object hnode' ?_ ?_
        hkids'.separate hkids'.covered hkids'.grown
      · intro x hx
        rw [← List.cons_append] at hx
        rcases List.mem_append.mp hx with hx | hx
        · exact family x hx
        · rw [List.mem_singleton.mp hx]
          exact ⟨hoTable, ho⟩
      · rw [← List.cons_append, List.flatMap_append, List.flatMap_singleton]
        exact hkids'.gathered
    -- no tree before this one is of the object: its node would be the same
    have hothers : ∀ r ∈ A.map Tree.appearances, takes Appearance.same (p, o) r = false := by
      intro r hr
      obtain ⟨q, hq, rfl⟩ := List.mem_map.mp hr
      rw [takes, Tree.head?_appearances]
      by_contra hrsame
      obtain ⟨k', hk', hok'⟩ := Occurrence.keyOf_of_same owner ((Bool.not_eq_false _).mp hrsame)
      rw [hk, Option.some.injEq] at hok'
      subst hok'
      have hnode := (hs.grown q (List.mem_append_left _ hq)).key hk'
      rw [hn, Option.some.injEq] at hnode
      exact ((List.pairwise_append.mp hs.separate).2.2 q hq _ List.mem_cons_self).2 hnode.symm
    have hgathered : Gathered (S ++ [(p, o)])
        ((A ++ .mk m first (again ++ [(p, o)]) children' :: B).map Tree.appearances) := by
      have := hs.gathered.append (p, o) true fun hnone => by
        have := hnone (first :: again) (by simp [Tree.appearances])
        rw [takes] at this
        exact absurd (hsame.symm.trans this) (by decide)
      rw [List.map_append, List.map_cons, Tree.appearances,
        enter_of_takes hothers
          (show takes Appearance.same (p, o) (first :: again) = true from hsame)] at this
      rw [List.map_append, List.map_cons]
      exact this
    refine ⟨labels', A ++ .mk m first (again ++ [(p, o)]) children' :: B, hl', ?_,
      hext'.mono fun k hk => under_of_within_text hk, by simp [Tree.link, Tree.first, Tree.node]⟩
    refine hs.settle hts ⟨htable, ho⟩ hext' (fun r hr => ?_) (fun r hr => ?_) hgrown' hgathered
      (Tree.pairwise_separate_replace hs.separate rfl rfl)
    · rcases List.mem_append.mp hr with hr | hr
      · exact List.mem_append_left _ hr
      · exact List.mem_append_right _ (List.mem_cons_of_mem _ hr)
    · rcases List.mem_append.mp hr with hr | hr
      · exact .inl (List.mem_append_left _ hr)
      · rcases List.mem_cons.mp hr with rfl | hr
        · exact .inr rfl
        · exact .inl (List.mem_append_right _ hr)

theorem Siblings.node_lt {owner : String} {ts : List Table} {S : List Appearance} {F : List Tree}
    (hs : Siblings c g labels owner ts S F) (hl : Labeled g labels) {tr : Tree} (htr : tr ∈ F) :
    tr.node < g.nodes.length := by
  rw [← hl.length]
  exact (List.getElem?_eq_some_iff.mp (hs.grown tr htr).label).1

/-- The node of an object that is seen for the first time: nothing lies below its text. -/
theorem Siblings.pushed {owner : String} {ts : List Table} {S : List Appearance} {F : List Tree}
    (hs : Siblings c g labels owner ts S F) (hl : Labeled g labels) (hts : TablesApart ts)
    {o : Occurrence} (ho : o.Of c) (htable : o.table ∈ ts)
    (hnone : ((keyOf owner o.table o.identity).bind fun k => g.keys.lookup k) = none) (node : Node)
    (hnode : node.children = []) {T : String} (hT : o.text owner g.nodes.length = T) :
    Labeled (g.push node (keyOf owner o.table o.identity)) (labels ++ [T]) ∧
      (labels ++ [T])[g.nodes.length]? = some T ∧ ∀ k ∈ labels ++ [T], ¬ Under T k := by
  refine ⟨hl.push hnode fun k hk => ?_, ?_, fun k hk hunder => ?_⟩
  · rw [← hT, Occurrence.text, hk, Option.getD_some]
  · rw [← hl.length]
    simp
  · rcases List.mem_append.mp hk with hk | hk
    · have hw : Within (o.text owner g.nodes.length) k := hT ▸ hunder.within
      obtain ⟨tr, htr, hw'⟩ := hs.covered k hk (under_of_within_text hw)
      rcases hs.eq_of_within hts htr ho htable hw' hw with hsame | ⟨-, -, hnode⟩
      · exact absurd ((hs.not_found hnone htr).symm.trans hsame) (by decide)
      · exact absurd (hs.node_lt hl htr) (by omega)
    · rw [List.mem_singleton.mp hk] at hunder
      exact not_under_self T hunder

/-- An object that is seen for the first time starts a tree. -/
theorem Siblings.sprout {owner : String} {ts : List Table} {S : List Appearance} {F : List Tree}
    (hs : Siblings c g labels owner ts S F) (hl : Labeled g labels) (hts : TablesApart ts)
    (hapart : ∀ t ∈ ts, c.NamesApart t) {o : Occurrence} (ho : o.Of c) (htable : o.table ∈ ts)
    (hnested : ∀ x ∈ o.nested, x.2.table ∈ c.targets o.table ∧ x.2.Grows c)
    (hnone : ((keyOf owner o.table o.identity).bind fun k => g.keys.lookup k) = none) {ob : Object}
    (hob : o.object = .ok (some ob))
    (h : addBelow (o.text owner g.nodes.length) g.nodes.length o.nested
      (g.push { table := o.table, object := ob } (keyOf owner o.table o.identity)) = .ok g')
    (p : Nat) :
    ∃ labels' F', Labeled g' labels' ∧ Siblings c g' labels' owner ts (S ++ [(p, o)]) F' ∧
      Extends (Under owner) g labels g' labels' ∧
      F'.map Tree.link = F.map Tree.link ++ [(p, g.nodes.length)] := by
  -- the new node is none of those that are there
  have hbound : ∀ tr ∈ F, tr.node ≠ g.nodes.length := fun tr htr =>
    Nat.ne_of_lt (hs.node_lt hl htr)
  generalize hT : o.text owner g.nodes.length = T at h
  obtain ⟨hl₁, hlabel, hfresh⟩ :=
    hs.pushed hl hts ho htable hnone { table := o.table, object := ob } rfl hT
  have hext₁ := extends_push hl { table := o.table, object := ob } hnone (P := Within T)
    (within_self T)
  generalize hn : g.nodes.length = n at h hT hlabel hbound
  obtain ⟨labels', children, hl', hkids, hext', hnode⟩ :=
    addBelow_siblings hnested (hapart _ htable).tablesApart
      (fun u hu => (hapart _ htable).of_mem hu) (fun x hx => ho.place_lt hx) hl₁
      (siblings_nil hfresh) hlabel (hn ▸ getElem?_push g _ _) h
  have hgrown : Grown c g' labels' owner (.mk n (p, o) [] children) := by
    refine .mk (by rw [hT]; exact hext'.label hlabel) (fun k hk => hext'.keys ?_) hob hnode ?_ ?_
      hkids.separate (by rw [hT]; exact hkids.covered) (by rw [hT]; exact hkids.grown)
    · rw [hk, Graph.push, Option.elim_some, hn]
      simp
    · intro x hx
      rw [List.mem_singleton.mp hx]
      exact ⟨rfl, ho⟩
    · rw [List.flatMap_singleton]
      exact hkids.gathered
  -- no group takes the occurrence, so it starts one
  have hgathered : Gathered (S ++ [(p, o)])
      ((F ++ [Tree.mk n (p, o) [] children]).map Tree.appearances) := by
    have := hs.gathered.append (p, o) true fun _ => .inl ⟨rfl, ob, hob⟩
    rw [enter_of_not_takes fun r hr => ?_] at this
    · simpa [Tree.appearances] using this
    · obtain ⟨tr, htr, rfl⟩ := List.mem_map.mp hr
      rw [takes, Tree.head?_appearances]
      exact hs.not_found hnone htr
  have hext : Extends (Within T) g labels g' labels' := hext₁.trans hext'
  refine ⟨labels', F ++ [Tree.mk n (p, o) [] children], hl', ?_,
    hext.mono fun k hk => under_of_within_text (hT ▸ hk),
    by simp [Tree.link, Tree.first, Tree.node]⟩
  refine hs.settle hts ⟨htable, ho⟩ (by rwa [Tree.text, Tree.first, Tree.node, hT]) (by simp)
    (fun r hr => .inl (by simpa using hr)) hgrown hgathered ?_
  rw [List.pairwise_append]
  refine ⟨hs.separate, List.pairwise_singleton _ _, fun r hr b hb => ?_⟩
  rw [List.mem_singleton.mp hb]
  exact ⟨hs.not_found hnone hr, hbound r hr⟩

/-- **Reading one occurrence.** -/
theorem Occurrence.Of.grows {o : Occurrence} (ho : o.Of c) : o.Grows c := by
  induction ho with
  | @mk t identity object nested suits places each ih =>
  intro owner g g' labels ts S F s p hl hs hts hapart htable hadd
  have ho : Occurrence.Of c (.mk t identity object nested) := .mk suits places each
  generalize hoeq : Occurrence.mk t identity object nested = o at ho htable hadd
  have hnested : ∀ x ∈ o.nested, x.2.table ∈ c.targets o.table ∧ x.2.Grows c := by
    subst hoeq
    exact fun x hx => ⟨(ho.nested hx).1, ih x hx⟩
  rcases add_cases hadd with ⟨n, k, rfl, hk, hn, hbelow⟩ | ⟨hnone, ⟨ob, rfl, hob, hbelow⟩ |
    ⟨rfl, hob, rfl⟩⟩
  · obtain ⟨labels', F', hl', hs', hext', hlinks⟩ :=
      hs.join hl hts hapart ho htable hnested hk hn hbelow p
    exact ⟨labels', F', hl', hs', hext', by simpa [Sighting.links] using hlinks⟩
  · exact hs.sprout hl hts hapart ho htable hnested hnone hob hbelow p
  · refine ⟨labels, F, hl, { hs with known := ?_, gathered := ?_ }, .refl _ _ _, ?_⟩
    · intro x hx
      rcases List.mem_append.mp hx with hx | hx
      · exact hs.known x hx
      · rw [List.mem_singleton.mp hx]
        exact ⟨htable, ho⟩
    · have := hs.gathered.append (p, o) false fun _ => .inr ⟨rfl, hob⟩
      rw [enter_of_not_takes fun r hr => ?_] at this
      · simpa using this
      · obtain ⟨tr, htr, rfl⟩ := List.mem_map.mp hr
        rw [takes, Tree.head?_appearances]
        exact hs.not_found hnone htr
    · simp [Sighting.links]

end EntityMapper
