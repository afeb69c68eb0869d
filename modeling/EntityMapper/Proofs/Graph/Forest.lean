import EntityMapper.Proofs.Graph.FirstSeen
import EntityMapper.Proofs.Graph.NodeText

/-!
# The forest that the nodes hold

While rows are read, the nodes and keys of a graph hold a forest: the children of a node are the
groups of what was seen below its object, in the order in which they were first seen. A `Tree` is
one object of the forest with its node and all that was seen of it; `Siblings` says that a list of
trees is what the graph holds below one owner.

* `Grown.frame`, `Siblings.frame` — a tree stays as it is when nodes change whose texts do not lie
  within its own
* `Siblings.found`, `Siblings.not_found` — the keys of the graph find the tree of an object
* `Siblings.settle` — one tree that takes one more appearance leaves the others as they are
-/

namespace EntityMapper

open EntityMapper.Graph (add addBelow keyOf place push link)

variable {c : Catalog} {g g' : Graph} {labels labels' : List String}

/-! ## What belongs together -/

/-- The tables that the associations of a table lead to. -/
def Catalog.targets (c : Catalog) (t : Table) : List Table :=
  t.associations.map fun a => c.table a.2.target

/-- Names of tables that do not run into each other, each name belonging to one table. -/
def TablesApart (ts : List Table) : Prop :=
  ∀ a ∈ ts, ∀ b ∈ ts, Apart a.entity b.entity ∧ (a.entity = b.entity → a = b)

/-- The roots have one type, and it is apart from itself. -/
theorem tablesApart_singleton (t : Table) : TablesApart [t] := by
  intro a ha b hb
  rw [List.mem_singleton.mp ha, List.mem_singleton.mp hb]
  exact ⟨apart_self _, fun _ => rfl⟩

/-- A table that associations lead to. -/
inductive Catalog.Reaches (c : Catalog) : Table → Table → Prop
  | refl (t : Table) : Reaches c t t
  | step {t u v : Table} (h : u ∈ c.targets t) (hr : Reaches c u v) : Reaches c t v

/-- The names of the entity types that one table leads to do not run into each other, and no two of
these types share one, in any table reached. -/
def Catalog.NamesApart (c : Catalog) (t : Table) : Prop :=
  ∀ u, c.Reaches t u → TablesApart (c.targets u)

theorem Catalog.typeId_table (c : Catalog) (typeId : String) :
    (c.table typeId).typeId = typeId := by
  unfold table find?
  cases h : c.tables.find? fun t => t.typeId == typeId with
  | none => rfl
  | some t => simpa using List.find?_some h

theorem Catalog.NamesApart.of_mem {t u : Table} (h : c.NamesApart t) (hu : u ∈ c.targets t) :
    c.NamesApart u := fun v hv => h v (.step hu hv)

theorem Catalog.NamesApart.tablesApart {t : Table} (h : c.NamesApart t) :
    TablesApart (c.targets t) := h t (.refl t)

/-- A table that is reached is the first one or in the catalog; one that the catalog does not know
has no fields. -/
theorem Catalog.Reaches.known {t u : Table} (h : c.Reaches t u) :
    u = t ∨ u ∈ c.tables ∨ u.fields = [] := by
  induction h with
  | refl t => exact .inl rfl
  | @step t u v hu _ ih =>
    rcases ih with rfl | hv
    · obtain ⟨a, -, rfl⟩ := List.mem_map.mp hu
      unfold Catalog.table Catalog.find?
      cases hfind : c.tables.find? fun t => t.typeId == a.2.target with
      | none => exact .inr (.inr rfl)
      | some w => exact .inr (.inl (List.mem_of_find?_eq_some hfind))
    · exact .inr hv

/-- What holds of each table of the catalog and of tables without fields holds of every table that
is reached. -/
theorem Catalog.Reaches.of_tables {P : Table → Prop} {t u : Table} (h : c.Reaches t u)
    (htables : ∀ u ∈ t :: c.tables, P u) (hnone : ∀ u : Table, u.fields = [] → P u) : P u := by
  rcases h.known with rfl | hmem | hfields
  · exact htables u List.mem_cons_self
  · exact htables u (List.mem_cons_of_mem _ hmem)
  · exact hnone u hfields

/-- Names are apart where they are in each table of the catalog. -/
theorem Catalog.namesApart_of_tables {t : Table}
    (h : ∀ u ∈ t :: c.tables, ∀ a ∈ u.associations, ∀ b ∈ u.associations,
      Apart (c.table a.2.target).entity (c.table b.2.target).entity ∧
        ((c.table a.2.target).entity = (c.table b.2.target).entity → a.2.target = b.2.target)) :
    c.NamesApart t := by
  intro u hu
  refine hu.of_tables (P := fun u => TablesApart (c.targets u)) (fun u hmem v hv w hw => ?_)
    fun u hnone v hv => ?_
  · obtain ⟨a, ha, rfl⟩ := List.mem_map.mp hv
    obtain ⟨b, hb, rfl⟩ := List.mem_map.mp hw
    obtain ⟨hapart, hname⟩ := h u hmem a ha b hb
    exact ⟨hapart, fun heq => by rw [hname heq]⟩
  · rw [Catalog.targets, Table.associations, hnone] at hv
    exact absurd hv List.not_mem_nil

/-- Names are apart where none has a mark, and each is that of one type. -/
theorem Catalog.namesApart_of_unmarked {t : Table}
    (hmarks : ∀ u ∈ t :: c.tables, ∀ a ∈ u.associations, IsUnmarked (c.table a.2.target).entity)
    (hnames : ∀ u ∈ t :: c.tables, ∀ a ∈ u.associations, ∀ b ∈ u.associations,
      (c.table a.2.target).entity = (c.table b.2.target).entity → a.2.target = b.2.target) :
    c.NamesApart t :=
  Catalog.namesApart_of_tables fun u hu a ha b hb =>
    ⟨(hmarks u hu a ha).apart (hmarks u hu b hb), hnames u hu a ha b hb⟩

/-- An occurrence of the tables of a catalog. -/
inductive Occurrence.Of (c : Catalog) : Occurrence → Prop
  | mk {t : Table} {identity : Identity} {object : Except FieldCoercionError (Option Object)}
      {nested : List (Nat × Occurrence)} (suits : identity.Suits t)
      (places : ∀ x ∈ nested, ∃ a, t.associations[x.1]? = some a ∧ x.2.table = c.table a.2.target)
      (each : ∀ x ∈ nested, Of c x.2) :
      Of c (.mk t identity object nested)

theorem Occurrence.Of.suits {o : Occurrence} (h : o.Of c) : o.identity.Suits o.table := by
  cases h with
  | mk suits _ _ => exact suits

theorem Occurrence.Of.nested {o : Occurrence} (h : o.Of c) {x : Nat × Occurrence}
    (hx : x ∈ o.nested) : x.2.table ∈ c.targets o.table ∧ x.2.Of c := by
  cases h with
  | mk _ places each =>
    obtain ⟨a, ha, htable⟩ := places x hx
    exact ⟨htable ▸ List.mem_map_of_mem (List.mem_of_getElem? ha), each x hx⟩

theorem Occurrence.Of.place {o : Occurrence} (h : o.Of c) {x : Nat × Occurrence}
    (hx : x ∈ o.nested) :
    ∃ a, o.table.associations[x.1]? = some a ∧ x.2.table = c.table a.2.target := by
  cases h with
  | mk _ places _ => exact places x hx

theorem Occurrence.same_comm (o p : Occurrence) : o.same p = p.same o := by
  unfold Occurrence.same
  cases o.identity with
  | keyless => cases p.identity <;> rfl
  | keyed k =>
    cases p.identity with
    | keyless => rfl
    | keyed l =>
      show (_ == _ && k == l) = (_ == _ && l == k)
      rw [BEq.comm, @BEq.comm _ _ _ k]

theorem Occurrence.keyOf_of_same {o p : Occurrence} (owner : String) (h : o.same p = true) :
    ∃ k, keyOf owner o.table o.identity = some k ∧ keyOf owner p.table p.identity = some k := by
  unfold Occurrence.same at h
  cases ho : o.identity with
  | keyless => simp [ho] at h
  | keyed k =>
    cases hp : p.identity with
    | keyless => simp [ho, hp] at h
    | keyed l =>
      simp only [ho, hp, Bool.and_eq_true, beq_iff_eq] at h
      obtain ⟨he, rfl⟩ := h
      exact ⟨keyText owner o.table.entity k, rfl, by rw [he]; rfl⟩

theorem Occurrence.entity_of_same {o p : Occurrence} (h : o.same p = true) :
    o.table.entity = p.table.entity := by
  unfold Occurrence.same at h
  split at h
  · exact beq_iff_eq.mp (Bool.and_eq_true_iff.mp h).1
  · exact nomatch h

/-! ## Gathering -/

/-- What is seen below an owner: the place of the association, and what is seen through it. -/
abbrev Appearance := Nat × Occurrence

/-- Whether two appearances show one object. -/
def Appearance.same (x y : Appearance) : Bool := x.2.same y.2

/-- Groups of appearances that came one by one. Where no group takes an appearance, its object
decides whether it starts one: it has to be there, and then it does unless it has no key. -/
inductive Gathered : List Appearance → List (List Appearance) → Prop
  | nil : Gathered [] []
  | append {S : List Appearance} {G : List (List Appearance)} (h : Gathered S G) (x : Appearance)
      (opens : Bool)
      (hopens : (∀ s ∈ G, takes Appearance.same x s = false) →
        (opens = true ∧ ∃ o, x.2.object = .ok (some o)) ∨ (opens = false ∧ x.2.object = .ok none)) :
      Gathered (S ++ [x]) (enter Appearance.same (fun _ => opens) x G)

theorem mem_enter {α : Type} {same : α → α → Bool} {opens : α → Bool} {x y : α}
    {G : List (List α)} {s : List α} (hs : s ∈ enter same opens x G) (hy : y ∈ s) :
    y = x ∨ ∃ r ∈ G, y ∈ r := by
  induction G with
  | nil =>
    rw [enter] at hs
    split at hs
    · rw [List.mem_singleton.mp hs] at hy
      exact .inl (List.mem_singleton.mp hy)
    · exact absurd hs List.not_mem_nil
  | cons r G ih =>
    rw [enter] at hs
    split at hs
    · rcases List.mem_cons.mp hs with rfl | hs
      · rcases List.mem_append.mp hy with hy | hy
        · exact .inr ⟨r, List.mem_cons_self, hy⟩
        · exact .inl (List.mem_singleton.mp hy)
      · exact .inr ⟨s, List.mem_cons_of_mem _ hs, hy⟩
    · rcases List.mem_cons.mp hs with rfl | hs
      · exact .inr ⟨s, List.mem_cons_self, hy⟩
      · rcases ih hs with rfl | ⟨q, hq, hy⟩
        · exact .inl rfl
        · exact .inr ⟨q, List.mem_cons_of_mem _ hq, hy⟩

/-- Groups hold nothing but what was seen. -/
theorem Gathered.mem {S : List Appearance} {G : List (List Appearance)} (h : Gathered S G)
    {s : List Appearance} (hs : s ∈ G) {y : Appearance} (hy : y ∈ s) : y ∈ S := by
  induction h generalizing s with
  | nil => exact absurd hs List.not_mem_nil
  | @append S G _ x opens _ ih =>
    rcases mem_enter hs hy with rfl | ⟨r, hr, hy⟩
    · exact List.mem_append_right _ List.mem_cons_self
    · exact List.mem_append_left _ (ih hr hy)

theorem enter_of_not_takes {α : Type} {same : α → α → Bool} {opens : α → Bool} {x : α}
    {G : List (List α)} (h : ∀ s ∈ G, takes same x s = false) :
    enter same opens x G = G ++ if opens x then [[x]] else [] := by
  induction G with
  | nil => rfl
  | cons s G ih =>
    rw [enter, if_neg (by simp [h s List.mem_cons_self]),
      ih fun s hs => h s (List.mem_cons_of_mem _ hs)]
    rfl

theorem enter_of_takes {α : Type} {same : α → α → Bool} {opens : α → Bool} {x : α}
    {A B : List (List α)} {s : List α} (hA : ∀ r ∈ A, takes same x r = false)
    (hs : takes same x s = true) :
    enter same opens x (A ++ s :: B) = A ++ (s ++ [x]) :: B := by
  induction A with
  | nil => rw [List.nil_append, enter, if_pos hs, List.nil_append]
  | cons r A ih =>
    rw [List.cons_append, enter, if_neg (by simp [hA r List.mem_cons_self]),
      ih fun r hr => hA r (List.mem_cons_of_mem _ hr), List.cons_append]

/-! ## Trees -/

/-- An object of the forest: its node, the first appearance of it, the later ones, and the trees
below it. -/
inductive Tree
  | mk (node : Nat) (first : Appearance) (again : List Appearance) (children : List Tree)

namespace Tree

/-- The node of the object. -/
def node : Tree → Nat
  | .mk n .. => n

/-- The first appearance of the object. -/
def first : Tree → Appearance
  | .mk _ f .. => f

/-- All that was seen of the object. -/
def appearances : Tree → List Appearance
  | .mk _ f a _ => f :: a

/-- The text of the object below its owner. -/
def text (owner : String) (tr : Tree) : String := tr.first.2.text owner tr.node

/-- What a node says of a tree among its children. -/
def link (tr : Tree) : Nat × Nat := (tr.first.1, tr.node)

theorem head?_appearances (tr : Tree) : tr.appearances.head? = some tr.first := by cases tr; rfl

/-- Two trees of different objects. -/
def Separate (a b : Tree) : Prop := a.first.same b.first = false ∧ a.node ≠ b.node

/-- What stands in the place of a tree has its node and its first appearance. -/
theorem pairwise_separate_replace {A B : List Tree} {tr tr' : Tree}
    (h : (A ++ tr :: B).Pairwise Separate) (hfirst : tr'.first = tr.first)
    (hnode : tr'.node = tr.node) : (A ++ tr' :: B).Pairwise Separate := by
  rw [List.pairwise_append, List.pairwise_cons] at h ⊢
  obtain ⟨hA, ⟨htr, hB⟩, hAB⟩ := h
  refine ⟨hA, ⟨fun b hb => ?_, hB⟩, fun a ha b hb => ?_⟩
  · rw [Separate, hfirst, hnode]
    exact htr b hb
  · rcases List.mem_cons.mp hb with rfl | hb
    · rw [Separate, hfirst, hnode]
      exact hAB a ha tr List.mem_cons_self
    · exact hAB a ha b (List.mem_cons_of_mem _ hb)

theorem Separate.symm {a b : Tree} (h : Separate a b) : Separate b a := by
  refine ⟨?_, fun he => h.2 he.symm⟩
  have := h.1
  rw [Appearance.same, Occurrence.same_comm] at this
  exact this

end Tree

theorem Gathered.first_mem {S : List Appearance} {F : List Tree}
    (h : Gathered S (F.map Tree.appearances)) {tr : Tree} (htr : tr ∈ F) : tr.first ∈ S :=
  h.mem (List.mem_map_of_mem htr) (List.mem_of_mem_head? tr.head?_appearances)

/-- A graph with a text for each of its nodes: what a key finds is the node of that text, and links
lead to later nodes. -/
structure Labeled (g : Graph) (labels : List String) : Prop where
  length : labels.length = g.nodes.length
  keys : ∀ {k n}, g.keys.lookup k = some n → labels[n]? = some k
  links : ∀ {n : Nat} {node}, g.nodes[n]? = some node → ∀ x ∈ node.children,
    n < x.2 ∧ x.2 < g.nodes.length ∧ x.1 < node.table.associations.length

/-- A tree that the graph holds below an owner. -/
inductive Grown (c : Catalog) (g : Graph) (labels : List String) : String → Tree → Prop
  | mk {owner : String} {n : Nat} {first : Appearance} {again : List Appearance}
      {children : List Tree} {o : Object} (label : labels[n]? = some (first.2.text owner n))
      (key : ∀ k, keyOf owner first.2.table first.2.identity = some k → g.keys.lookup k = some n)
      (object : first.2.object = .ok (some o))
      (node : g.nodes[n]? = some ⟨first.2.table, o, children.map Tree.link⟩)
      (family : ∀ x ∈ first :: again, x.2.table = first.2.table ∧ x.2.Of c)
      (gathered : Gathered ((first :: again).flatMap fun x => x.2.nested)
        (children.map Tree.appearances))
      (separate : children.Pairwise Tree.Separate)
      (covered : ∀ k ∈ labels, Under (first.2.text owner n) k →
        ∃ tr ∈ children, Within (tr.text (first.2.text owner n)) k)
      (grown : ∀ tr ∈ children, Grown c g labels (first.2.text owner n) tr) :
      Grown c g labels owner (.mk n first again children)

/-- The trees that the graph holds below an owner are the groups of what was seen there. -/
structure Siblings (c : Catalog) (g : Graph) (labels : List String) (owner : String)
    (ts : List Table) (S : List Appearance) (F : List Tree) : Prop where
  known : ∀ x ∈ S, x.2.table ∈ ts ∧ x.2.Of c
  gathered : Gathered S (F.map Tree.appearances)
  separate : F.Pairwise Tree.Separate
  covered : ∀ k ∈ labels, Under owner k → ∃ tr ∈ F, Within (tr.text owner) k
  grown : ∀ tr ∈ F, Grown c g labels owner tr

/-- What the graph holds below the object of a tree. -/
theorem Grown.siblings {owner : String} {n : Nat} {first : Appearance} {again : List Appearance}
    {children : List Tree} (h : Grown c g labels owner (.mk n first again children)) :
    Siblings c g labels (first.2.text owner n) (c.targets first.2.table)
      ((first :: again).flatMap fun x => x.2.nested) children := by
  cases h with
  | mk label key object node family gathered separate covered grown =>
    refine ⟨fun y hy => ?_, gathered, separate, covered, grown⟩
    obtain ⟨x, hx, hy⟩ := List.mem_flatMap.mp hy
    obtain ⟨htable, hof⟩ := family x hx
    rw [← htable]
    exact hof.nested hy

theorem getElem?_append_of_eq_some {α : Type} {l : List α} {x : α} {n : Nat} (h : l[n]? = some x)
    (new : List α) : (l ++ new)[n]? = some x := by
  rw [List.getElem?_append_left (List.getElem?_eq_some_iff.mp h).1, h]

/-- A graph grows: nodes whose texts are not of a class stay, and so do the keys. -/
structure Extends (P : String → Prop) (g : Graph) (labels : List String) (g' : Graph)
    (labels' : List String) : Prop where
  grows : ∃ new, labels' = labels ++ new ∧ ∀ k ∈ new, P k
  nodes : ∀ {n : Nat} {k}, labels[n]? = some k → ¬ P k → g'.nodes[n]? = g.nodes[n]?
  keys : ∀ {k n}, g.keys.lookup k = some n → g'.keys.lookup k = some n
  roots : g'.roots = g.roots

namespace Extends

variable {P Q : String → Prop}

theorem refl (P : String → Prop) (g : Graph) (labels : List String) :
    Extends P g labels g labels where
  grows := ⟨[], by simp, by simp⟩
  nodes := fun _ _ => rfl
  keys := fun h => h
  roots := rfl

theorem label (h : Extends P g labels g' labels') {n : Nat} {k : String}
    (hk : labels[n]? = some k) : labels'[n]? = some k := by
  obtain ⟨new, rfl, -⟩ := h.grows
  exact getElem?_append_of_eq_some hk new

theorem trans {g'' : Graph} {labels'' : List String} (h : Extends P g labels g' labels')
    (h' : Extends P g' labels' g'' labels'') : Extends P g labels g'' labels'' where
  grows := by
    obtain ⟨new, rfl, hnew⟩ := h.grows
    obtain ⟨new', rfl, hnew'⟩ := h'.grows
    refine ⟨new ++ new', by rw [List.append_assoc], fun k hk => ?_⟩
    rcases List.mem_append.mp hk with hk | hk
    · exact hnew k hk
    · exact hnew' k hk
  nodes := fun hk hP => (h'.nodes (h.label hk) hP).trans (h.nodes hk hP)
  keys := fun hk => h'.keys (h.keys hk)
  roots := h'.roots.trans h.roots

theorem mono (h : Extends P g labels g' labels') (hPQ : ∀ k, P k → Q k) :
    Extends Q g labels g' labels' where
  grows := by
    obtain ⟨new, hnew, hP⟩ := h.grows
    exact ⟨new, hnew, fun k hk => hPQ k (hP k hk)⟩
  nodes := fun hk hQ => h.nodes hk fun hP => hQ (hPQ _ hP)
  keys := h.keys
  roots := h.roots

end Extends

/-- **A tree stays as it is when nodes change whose texts do not lie within its own.** -/
theorem Grown.frame {P : String → Prop} {owner : String} {tr : Tree}
    (h : Grown c g labels owner tr) (hext : Extends P g labels g' labels')
    (hP : ∀ k, Within (tr.text owner) k → ¬ P k) : Grown c g' labels' owner tr := by
  induction h with
  | @mk owner n first again children o label key object node family gathered separate covered
      grown ih =>
    have hself : ¬ P (first.2.text owner n) := hP _ (within_self _)
    refine .mk (hext.label label) (fun k hk => hext.keys (key k hk)) object ?_ family gathered
      separate ?_ ?_
    · rw [hext.nodes label hself]
      exact node
    · intro k hk hunder
      obtain ⟨new, rfl, hnew⟩ := hext.grows
      rcases List.mem_append.mp hk with hk | hk
      · exact covered k hk hunder
      · exact absurd (hnew k hk) (hP k hunder.within)
    · exact fun tr htr => ih tr htr fun k hk => hP k (under_of_within_text hk).within

theorem Siblings.frame {P : String → Prop} {owner : String} {ts : List Table} {S : List Appearance}
    {F : List Tree} (h : Siblings c g labels owner ts S F) (hext : Extends P g labels g' labels')
    (hP : ∀ k, Under owner k → ¬ P k) : Siblings c g' labels' owner ts S F where
  known := h.known
  gathered := h.gathered
  separate := h.separate
  covered := by
    intro k hk hunder
    obtain ⟨new, rfl, hnew⟩ := hext.grows
    rcases List.mem_append.mp hk with hk | hk
    · exact h.covered k hk hunder
    · exact absurd (hnew k hk) (hP k hunder)
  grown := fun tr htr => (h.grown tr htr).frame hext fun k hk => hP k (under_of_within_text hk)

/-! ## Finding trees -/

theorem Grown.label {owner : String} {tr : Tree} (h : Grown c g labels owner tr) :
    labels[tr.node]? = some (tr.text owner) := by
  cases h with
  | mk label => exact label

theorem Grown.key {owner : String} {tr : Tree} (h : Grown c g labels owner tr) {k : String}
    (hk : keyOf owner tr.first.2.table tr.first.2.identity = some k) :
    g.keys.lookup k = some tr.node := by
  cases h with
  | mk _ key => exact key k hk

namespace Siblings

variable {owner : String} {ts : List Table} {S : List Appearance} {F : List Tree}

/-- A text within that of a tree and that of an occurrence: the tree is of the same object. -/
theorem eq_of_within (h : Siblings c g labels owner ts S F) (hts : TablesApart ts) {tr : Tree}
    (htr : tr ∈ F) {o : Occurrence} (ho : o.Of c) (hot : o.table ∈ ts) {n : Nat} {text : String}
    (hw : Within (tr.text owner) text) (hw' : Within (o.text owner n) text) :
    tr.first.2.same o = true ∨
      (tr.first.2.identity = .keyless ∧ o.identity = .keyless ∧ tr.node = n) := by
  obtain ⟨htable, hof⟩ := h.known _ (h.gathered.first_mem htr)
  obtain ⟨hapart, heq⟩ := hts _ htable _ hot
  exact EntityMapper.eq_of_within hof.suits ho.suits hapart heq hw hw'

/-- A key that is there finds the tree of the object. -/
theorem found (h : Siblings c g labels owner ts S F) (hl : Labeled g labels) (hts : TablesApart ts)
    {o : Occurrence} (ho : o.Of c) (hot : o.table ∈ ts) {k : String} {n : Nat}
    (hk : keyOf owner o.table o.identity = some k) (hn : g.keys.lookup k = some n) :
    ∃ tr ∈ F, tr.first.2.same o = true ∧ tr.node = n ∧ tr.text owner = k := by
  have htext : o.text owner n = k := by rw [Occurrence.text, hk, Option.getD_some]
  have hself : Within (o.text owner n) k := by
    rw [htext]
    exact within_self k
  obtain ⟨tr, htr, hw⟩ :=
    h.covered k (List.mem_of_getElem? (hl.keys hn)) (under_of_within_text hself)
  rcases h.eq_of_within hts htr ho hot hw hself with hsame | ⟨-, hkeyless, -⟩
  · obtain ⟨k', hk', hok⟩ := Occurrence.keyOf_of_same owner hsame
    rw [hk, Option.some.injEq] at hok
    subst hok
    have hnode := (h.grown tr htr).key hk'
    rw [hn, Option.some.injEq] at hnode
    refine ⟨tr, htr, hsame, hnode.symm, ?_⟩
    rw [Tree.text, Occurrence.text, hk', Option.getD_some]
  · rw [hkeyless] at hk
    exact nomatch hk

/-- A tree of an object has its table. -/
theorem table_of_same (h : Siblings c g labels owner ts S F) (hts : TablesApart ts) {tr : Tree}
    (htr : tr ∈ F) {o : Occurrence} (hot : o.table ∈ ts) (hsame : tr.first.2.same o = true) :
    o.table = tr.first.2.table :=
  (hts _ hot _ (h.known _ (h.gathered.first_mem htr)).1).2 (Occurrence.entity_of_same hsame).symm

/-- Where no key is found, no tree is of the object. -/
theorem not_found (h : Siblings c g labels owner ts S F) {o : Occurrence}
    (hn : ((keyOf owner o.table o.identity).bind fun k => g.keys.lookup k) = none) {tr : Tree}
    (htr : tr ∈ F) : tr.first.2.same o = false := by
  by_contra hsame
  rw [Bool.not_eq_false] at hsame
  obtain ⟨k, hk, hok⟩ := Occurrence.keyOf_of_same owner hsame
  rw [hok, Option.bind_some, (h.grown tr htr).key hk] at hn
  exact nomatch hn

/-- Trees before and after one that changes: the others are not of its object. -/
theorem settle {A B : List Tree} {tr : Tree} {x : Appearance}
    (h : Siblings c g labels owner ts S F) (hts : TablesApart ts) (hx : x.2.table ∈ ts ∧ x.2.Of c)
    (hext : Extends (Within (tr.text owner)) g labels g' labels')
    (hold : ∀ r ∈ A ++ B, r ∈ F) (hF : ∀ r ∈ F, r ∈ A ++ B ∨ r.text owner = tr.text owner)
    (hgrown : Grown c g' labels' owner tr)
    (hgathered : Gathered (S ++ [x]) ((A ++ tr :: B).map Tree.appearances))
    (hsep : (A ++ tr :: B).Pairwise Tree.Separate) :
    Siblings c g' labels' owner ts (S ++ [x]) (A ++ tr :: B) := by
  have hknown : ∀ y ∈ S ++ [x], y.2.table ∈ ts ∧ y.2.Of c := by
    intro y hy
    rcases List.mem_append.mp hy with hy | hy
    · exact h.known y hy
    · rw [List.mem_singleton.mp hy]
      exact hx
  have hmem : ∀ r, r ∈ A ++ tr :: B ↔ r ∈ A ++ B ∨ r = tr := by
    intro r
    simp only [List.mem_append, List.mem_cons]
    tauto
  have hothers : ∀ r ∈ A ++ B, r.Separate tr := by
    rw [List.pairwise_append, List.pairwise_cons] at hsep
    obtain ⟨-, ⟨hB, -⟩, hA⟩ := hsep
    intro r hr
    rcases List.mem_append.mp hr with hr | hr
    · exact hA r hr tr List.mem_cons_self
    · exact (hB r hr).symm
  -- what has changed lies within the one tree, and the others lie apart from it
  have hframe : ∀ r ∈ A ++ B, Grown c g' labels' owner r := by
    intro r hr
    refine (h.grown r (hold r hr)).frame hext fun k hk hk' => ?_
    obtain ⟨htable, hof⟩ := hknown _ (hgathered.first_mem ((hmem tr).mpr (.inr rfl)))
    rcases h.eq_of_within hts (hold r hr) hof htable hk hk' with hsame | ⟨-, -, hnode⟩
    · exact absurd ((hothers r hr).1.symm.trans hsame) (by decide)
    · exact (hothers r hr).2 hnode
  refine ⟨hknown, hgathered, hsep, ?_, ?_⟩
  · intro k hk hunder
    obtain ⟨new, rfl, hnew⟩ := hext.grows
    -- an old text stays with its tree, and a new one belongs to the tree that has grown
    rcases List.mem_append.mp hk with hk | hk
    · obtain ⟨r, hr, hw⟩ := h.covered k hk hunder
      rcases hF r hr with hr | htext
      · exact ⟨r, (hmem r).mpr (.inl hr), hw⟩
      · exact ⟨tr, (hmem tr).mpr (.inr rfl), htext ▸ hw⟩
    · exact ⟨tr, (hmem tr).mpr (.inr rfl), hnew k hk⟩
  · intro r hr
    rcases (hmem r).mp hr with hr | rfl
    · exact hframe r hr
    · exact hgrown

end Siblings

end EntityMapper
