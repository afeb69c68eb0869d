import EntityMapper.Proofs.Graph.Materialize

/-!
# When rows can be read

Reading fails where an object that is not known yet has a column that holds what its field cannot;
the columns of one that is known are not looked at. So what was read before decides which columns
count. Where all that is seen of one object agrees, they count everywhere or nowhere, and whether
rows can be read is a matter of each row.

* `Occurrence.Concord` — what is seen of one object agrees
* `Occurrence.Readable` — what can be read as if it were new
* `Occurrence.Of.readable_iff` — reading one occurrence beside others that it agrees with
* `exists_materialize_iff` — which rows give objects
-/

namespace EntityMapper

open EntityMapper.Graph (add addBelow keyOf)

variable {c : Catalog} {g g' : Graph} {labels : List String} {t : Table}

/-! ## Tables with keys -/

/-- Every table reached has a key. -/
def Catalog.AllKeyed (c : Catalog) (t : Table) : Prop :=
  ∀ u, c.Reaches t u → u.hasPrimaryKey = true

theorem Catalog.AllKeyed.of_mem {u : Table} (h : c.AllKeyed t) (hu : u ∈ c.targets t) :
    c.AllKeyed u := fun v hv => h v (.step hu hv)

/-- Every table reached has a key where each table of the catalog has one and leads only to tables
that have one. -/
theorem Catalog.allKeyed_of_tables
    (h : ∀ u ∈ t :: c.tables, u.hasPrimaryKey = true ∧ ∀ v ∈ c.targets u, v.hasPrimaryKey = true) :
    c.AllKeyed t := by
  have hall : ∀ {u v}, c.Reaches u v → u ∈ t :: c.tables → v.hasPrimaryKey = true := by
    intro u v hr
    induction hr with
    | refl u => exact fun hu => (h u hu).1
    | @step u v w hv _ ih =>
      intro hu
      refine ih (List.mem_cons_of_mem _ ?_)
      have hkey := (h u hu).2 v hv
      obtain ⟨a, -, rfl⟩ := List.mem_map.mp hv
      unfold Catalog.table Catalog.find? at hkey ⊢
      cases hfind : c.tables.find? fun t => t.typeId == a.2.target with
      | none =>
        rw [hfind] at hkey
        exact nomatch hkey
      | some w => exact List.mem_of_find?_eq_some hfind
  exact fun u hu => hall hu List.mem_cons_self

/-- What has a key is the same as itself. -/
theorem Occurrence.Of.same_self {o : Occurrence} (h : o.Of c)
    (hkey : o.table.hasPrimaryKey = true) : o.same o = true := by
  unfold Occurrence.same
  cases hi : o.identity with
  | keyed k => simp
  | keyless =>
    have hnil := h.suits.2.mp hi
    rw [Table.hasPrimaryKey, hnil] at hkey
    exact absurd hkey Bool.false_ne_true

/-- What is the same as one occurrence is the same. -/
theorem Occurrence.same_of_same {o p q : Occurrence} (hp : o.same p = true)
    (hq : o.same q = true) : p.same q = true := by
  unfold Occurrence.same at hp hq ⊢
  cases ho : o.identity with
  | keyless => simp [ho] at hp
  | keyed k =>
    cases hpi : p.identity with
    | keyless => simp [ho, hpi] at hp
    | keyed l =>
      cases hqi : q.identity with
      | keyless => simp [ho, hqi] at hq
      | keyed m =>
        simp only [ho, hpi, hqi, Bool.and_eq_true, beq_iff_eq] at hp hq ⊢
        exact ⟨hp.1.symm.trans hq.1, hp.2.symm.trans hq.2⟩

theorem same_of_mem_enter {α : Type} {same : α → α → Bool} {opens : α → Bool} {x : α}
    {G : List (List α)} (h : ∀ f more, f :: more ∈ G → ∀ y ∈ more, same f y = true) :
    ∀ f more, f :: more ∈ enter same opens x G → ∀ y ∈ more, same f y = true := by
  induction G with
  | nil =>
    intro f more hr y hy
    rw [enter] at hr
    split at hr
    · obtain ⟨rfl, rfl⟩ := List.cons.inj (List.mem_singleton.mp hr)
      exact absurd hy List.not_mem_nil
    · exact absurd hr List.not_mem_nil
  | cons s G ih =>
    intro f more hr y hy
    have ih := ih fun f more hr => h f more (List.mem_cons_of_mem _ hr)
    rw [enter] at hr
    split at hr
    · next htakes =>
      rcases List.mem_cons.mp hr with hr | hr
      · cases s with
        | nil => exact absurd htakes Bool.false_ne_true
        | cons f' more' =>
          obtain ⟨rfl, rfl⟩ := List.cons.inj hr
          rcases List.mem_append.mp hy with hy | hy
          · exact h f more' List.mem_cons_self y hy
          · rw [List.mem_singleton.mp hy]
            exact htakes
      · exact h f more (List.mem_cons_of_mem _ hr) y hy
    · rcases List.mem_cons.mp hr with rfl | hr
      · exact h f more List.mem_cons_self y hy
      · exact ih f more hr y hy

/-- A group takes only what is the same as its first. -/
theorem Gathered.same_first {S : List Appearance} {G : List (List Appearance)} (h : Gathered S G) :
    ∀ f more, f :: more ∈ G → ∀ y ∈ more, f.same y = true := by
  induction h with
  | nil => exact fun _ _ hr => absurd hr List.not_mem_nil
  | append _ x opens _ ih => exact same_of_mem_enter ih

/-! ## Occurrences that agree -/

/-- Occurrences that, where they show one object, show the same of it and of all below it. -/
inductive Occurrence.Concord : Occurrence → Occurrence → Prop
  | mk {o p : Occurrence}
      (object : o.same p = true → ∀ ob, o.object = .ok (some ob) → p.object = .ok (some ob))
      (nested : o.same p = true → ∀ ob, o.object = .ok (some ob) →
        ∀ x ∈ o.nested, ∀ y ∈ p.nested, Concord x.2 y.2) :
      Concord o p

/-- Appearances any two of which agree. -/
def Concordant (S : List Appearance) : Prop := ∀ x ∈ S, ∀ y ∈ S, x.2.Concord y.2

theorem Concordant.mono {S S' : List Appearance} (h : Concordant S') (hS : S ⊆ S') :
    Concordant S := fun x hx y hy => h x (hS hx) y (hS hy)

/-- What is nested in the occurrences of one object that is made agrees. -/
theorem Concordant.nested {L : List Appearance} (h : Concordant L) {o : Occurrence} {ob : Object}
    (hob : o.object = .ok (some ob)) (hmade : ∀ x ∈ L, o.same x.2 = true ∧ o.Concord x.2) :
    Concordant (L.flatMap fun x => x.2.nested) := by
  intro x hx y hy
  obtain ⟨p, hp, hx⟩ := List.mem_flatMap.mp hx
  obtain ⟨q, hq, hy⟩ := List.mem_flatMap.mp hy
  obtain ⟨hpsame, ⟨hpobject, -⟩⟩ := hmade p hp
  obtain ⟨-, hnested⟩ := h p hp q hq
  exact hnested (Occurrence.same_of_same hpsame (hmade q hq).1) ob (hpobject hpsame ob hob) x hx y
    hy

/-! ## Occurrences that can be read -/

/-- An occurrence whose columns hold what their fields can, with all that is nested in it; if a key
column does not, there is no object, and what is nested is not looked at. -/
inductive Occurrence.Readable : Occurrence → Prop
  | absent {t : Table} {identity : Identity} {nested : List (Nat × Occurrence)} :
      Readable (.mk t identity (.ok none) nested)
  | made {t : Table} {identity : Identity} {ob : Object} {nested : List (Nat × Occurrence)}
      (each : ∀ x ∈ nested, Readable x.2) : Readable (.mk t identity (.ok (some ob)) nested)

theorem Occurrence.readable_of_absent {o : Occurrence} (h : o.object = .ok none) : o.Readable := by
  obtain ⟨t, identity, object, nested⟩ := o
  obtain rfl : object = .ok none := h
  exact .absent

theorem Occurrence.readable_of_made {o : Occurrence} {ob : Object} (h : o.object = .ok (some ob)) :
    o.Readable ↔ ∀ x ∈ o.nested, x.2.Readable := by
  obtain ⟨t, identity, object, nested⟩ := o
  obtain rfl : object = .ok (some ob) := h
  refine ⟨fun hr => ?_, .made⟩
  cases hr with
  | made each => exact each

theorem Occurrence.not_readable {o : Occurrence} {e : FieldCoercionError}
    (h : o.object = .error e) : ¬ o.Readable := by
  rintro (_ | _) <;> exact nomatch h

/-! ## Reading -/

/-- Reading an occurrence beside others that it agrees with succeeds just if it is readable. -/
def Occurrence.ReadableIff (c : Catalog) (o : Occurrence) : Prop :=
  ∀ {owner : String} {g : Graph} {labels : List String} {ts : List Table} {S : List Appearance}
    {F : List Tree} (p : Nat), Labeled g labels → Siblings c g labels owner ts S F →
    TablesApart ts → (∀ t ∈ ts, c.NamesApart t ∧ c.AllKeyed t) → o.table ∈ ts →
    Concordant (S ++ [(p, o)]) → ((∃ r, add owner o g = .ok r) ↔ o.Readable)

/-- **Reading what is seen below an object** beside others. -/
theorem addBelow_ok_iff {owner : String} {ts : List Table} {below : List (Nat × Occurrence)}
    (hbelow : ∀ x ∈ below, x.2.table ∈ ts ∧ x.2.Of c ∧ x.2.ReadableIff c) (hts : TablesApart ts)
    (hplain : ∀ t ∈ ts, c.NamesApart t ∧ c.AllKeyed t)
    (hplaces : ∀ x ∈ below, x.1 < t.associations.length) {node : Nat} {ob : Object}
    {S : List Appearance} {F : List Tree} (hl : Labeled g labels)
    (hs : Siblings c g labels owner ts S F) (hlabel : labels[node]? = some owner)
    (hnode : g.nodes[node]? = some ⟨t, ob, F.map Tree.link⟩) (hconcord : Concordant (S ++ below)) :
    (∃ g', addBelow owner node below g = .ok g') ↔ ∀ x ∈ below, x.2.Readable := by
  induction below generalizing g labels S F with
  | nil =>
    rw [addBelow]
    exact ⟨fun _ => by simp, fun _ => ⟨g, rfl⟩⟩
  | cons x rest ih =>
    obtain ⟨p, o⟩ := x
    obtain ⟨htable, ho, hiff⟩ := hbelow _ List.mem_cons_self
    have hfirst := hiff p hl hs hts hplain htable
      (hconcord.mono (by simp))
    rw [List.forall_mem_cons, ← hfirst]
    cases hadd : add owner o g with
    | error e =>
      constructor
      · rintro ⟨g', h⟩
        obtain ⟨s, g₁, hok, -⟩ := addBelow_cons h
        rw [hadd] at hok
        cases hok
      · rintro ⟨⟨r, hr⟩, -⟩
        cases hr
    | ok r =>
      obtain ⟨s, g₁⟩ := r
      -- what the graph holds after this one occurrence
      have hone : addBelow owner node [(p, o)] g = .ok (g₁.linkNew node p s) := by
        rw [addBelow_cons_of_add hadd, addBelow]
      have hmem : ∀ x ∈ [(p, o)], x ∈ (p, o) :: rest := by simp
      obtain ⟨labels', F', hl', hs', hext, hnode'⟩ :=
        addBelow_siblings (fun x hx => ⟨(hbelow x (hmem x hx)).1, (hbelow x (hmem x hx)).2.1.grows⟩)
          hts (fun t ht => (hplain t ht).1) (fun x hx => hplaces x (hmem x hx)) hl hs hlabel hnode
          hone
      rw [addBelow_cons_of_add hadd, ih (fun x hx => hbelow x (List.mem_cons_of_mem _ hx))
        (fun x hx => hplaces x (List.mem_cons_of_mem _ hx)) hl' hs' (hext.label hlabel) hnode'
        (by rwa [List.append_assoc])]
      exact ⟨fun h => ⟨⟨_, rfl⟩, h⟩, And.right⟩

/-- An occurrence of an object that is known: what is nested in it joins what was seen before. -/
theorem Siblings.join_ok_iff {owner : String} {ts : List Table} {S : List Appearance}
    {F : List Tree} (hs : Siblings c g labels owner ts S F) (hl : Labeled g labels)
    (hts : TablesApart ts) (hplain : ∀ t ∈ ts, c.NamesApart t ∧ c.AllKeyed t) {o : Occurrence}
    (ho : o.Of c) (htable : o.table ∈ ts)
    (hnested : ∀ x ∈ o.nested,
      x.2.table ∈ c.targets o.table ∧ x.2.Of c ∧ x.2.ReadableIff c) {n : Nat} {k : String}
    (hk : keyOf owner o.table o.identity = some k) (hn : g.keys.lookup k = some n) {p : Nat}
    (hconcord : Concordant (S ++ [(p, o)])) :
    (∃ g', addBelow (o.text owner n) n o.nested g = .ok g') ↔ o.Readable := by
  obtain ⟨tr, htr, hsame, rfl, htext⟩ := hs.found hl hts ho htable hk hn
  have hgrown := hs.grown tr htr
  have hoTable := hs.table_of_same hts htr htable hsame
  obtain ⟨m, first, again, children⟩ := tr
  simp only [Tree.first, Tree.node] at hsame hn hoTable ⊢
  obtain rfl : first.2.text owner m = k := htext
  have hmem : ∀ x ∈ first :: again ++ [(p, o)], x ∈ S ++ [(p, o)] := by
    intro x hx
    rcases List.mem_append.mp hx with hx | hx
    · exact List.mem_append_left _ (hs.gathered.mem (List.mem_map_of_mem htr) hx)
    · exact List.mem_append_right _ hx
  have hotext : o.text owner m = first.2.text owner m := by
    rw [Occurrence.text, hk, Option.getD_some]
  have hkids := hgrown.siblings
  cases hgrown with
  | @mk _ _ _ _ _ ob label key object node family _ _ _ _ =>
    rw [hoTable] at hnested htable
    obtain ⟨hnames, hkeyed⟩ := hplain _ htable
    -- the occurrence is of the object of the tree, as all that the tree has taken is
    have hself : first.2.same first.2 = true :=
      (family first List.mem_cons_self).2.same_self (hkeyed _ (.refl _))
    have hall : ∀ x ∈ first :: again ++ [(p, o)],
        first.2.same x.2 = true ∧ first.2.Concord x.2 := by
      intro x hx
      refine ⟨?_, hconcord _ (hmem _ List.mem_cons_self) _ (hmem x hx)⟩
      rcases List.mem_append.mp hx with hx | hx
      · rcases List.mem_cons.mp hx with rfl | hx
        · exact hself
        · exact hs.gathered.same_first _ _ (List.mem_map_of_mem htr) x hx
      · rw [List.mem_singleton.mp hx]
        exact hsame
    obtain ⟨-, ⟨hobject, -⟩⟩ := hall (p, o) (by simp)
    have hbelow := (hconcord.mono hmem).nested object hall
    rw [List.flatMap_append, List.flatMap_singleton] at hbelow
    rw [hotext, Occurrence.readable_of_made (hobject hsame ob object)]
    exact addBelow_ok_iff hnested hnames.tablesApart
      (fun u hu => ⟨hnames.of_mem hu, hkeyed.of_mem hu⟩)
      (fun x hx => hoTable ▸ ho.place_lt hx) hl hkids label node hbelow

/-- **Reading one occurrence** beside others. -/
theorem Occurrence.Of.readable_iff {o : Occurrence} (ho : o.Of c) : o.ReadableIff c := by
  induction ho with
  | @mk t identity object nested suits places each ih =>
  intro owner g labels ts S F p hl hs hts hplain htable hconcord
  have ho : Occurrence.Of c (.mk t identity object nested) := .mk suits places each
  generalize hoeq : Occurrence.mk t identity object nested = o at ho htable hconcord
  have hnested : ∀ x ∈ o.nested,
      x.2.table ∈ c.targets o.table ∧ x.2.Of c ∧ x.2.ReadableIff c := by
    subst hoeq
    exact fun x hx => ⟨(ho.nested hx).1, (ho.nested hx).2, ih x hx⟩
  rw [add_eq]
  cases hkey : (keyOf owner o.table o.identity).bind fun k => g.keys.lookup k with
  | some n =>
    obtain ⟨k, hk, hn⟩ := Option.bind_eq_some_iff.mp hkey
    exact exists_map_eq_ok.trans (hs.join_ok_iff hl hts hplain ho htable hnested hk hn hconcord)
  | none =>
    cases hob : o.object with
    | error e =>
      constructor
      · rintro ⟨r, h⟩
        cases h
      · exact fun h => absurd h (Occurrence.not_readable hob)
    | ok object =>
      cases object with
      | none => exact ⟨fun _ => Occurrence.readable_of_absent hob, fun _ => ⟨_, rfl⟩⟩
      | some ob =>
        obtain ⟨hnames, hkeyed⟩ := hplain _ htable
        have hself : o.same o = true := ho.same_self (hkeyed _ (.refl _))
        have hone : Concordant [(p, o)] := hconcord.mono (by simp)
        have hbelow := hone.nested hob fun x hx => by
          rw [List.mem_singleton.mp hx]
          exact ⟨hself, hone _ List.mem_cons_self _ List.mem_cons_self⟩
        rw [List.flatMap_singleton] at hbelow
        obtain ⟨hl₁, hlabel, hfresh⟩ :=
          hs.pushed hl hts ho htable hkey { table := o.table, object := ob } rfl rfl
        refine exists_map_eq_ok.trans ?_
        rw [Occurrence.readable_of_made hob]
        exact addBelow_ok_iff hnested hnames.tablesApart
          (fun u hu => ⟨hnames.of_mem hu, hkeyed.of_mem hu⟩) (fun x hx => ho.place_lt hx) hl₁
          (siblings_nil hfresh) hlabel (getElem?_push g _ _) hbelow

/-! ## Rows -/

/-- A row that can be read as if it were the first. -/
def Row.Readable (c : Catalog) (t : Table) (row : Row) : Prop :=
  ∃ o, Occurrence.ofRow c t row = .ok o ∧ ∀ x, o = some x → x.Readable

theorem addRow_ok_iff (hnames : c.NamesApart t) (hkeyed : c.AllKeyed t) {row : Row}
    {S : List Appearance} {F : List Tree} (hl : Labeled g labels)
    (hs : Siblings c g labels "" [t] S F)
    (hconcord : Concordant (S ++ (Sight.readRow c t row).toList)) :
    (∃ g', Graph.addRow c t g row = .ok g') ↔ row.Readable c t := by
  unfold Graph.addRow Row.Readable
  cases ho : Occurrence.ofRow c t row with
  | error e =>
    constructor
    · rintro ⟨g', h⟩
      cases h
    · rintro ⟨o, h, -⟩
      cases h
  | ok o =>
    cases o with
    | none => exact ⟨fun _ => ⟨none, rfl, by simp⟩, fun _ => ⟨g, rfl⟩⟩
    | some o =>
      obtain ⟨htable, -, hof⟩ := ofRow_seenIn ho
      rw [Sight.readRow, ho] at hconcord
      have hiff := hof.readable_iff 0 hl hs (tablesApart_singleton t)
        (fun u hu => by rw [List.mem_singleton.mp hu]; exact ⟨hnames, hkeyed⟩)
        (List.mem_singleton.mpr htable) hconcord
      constructor
      · rintro ⟨g', h⟩
        refine ⟨some o, rfl, fun x hx => ?_⟩
        obtain rfl := Option.some.inj hx
        refine hiff.mp ?_
        cases hadd : add "" o g with
        | error e =>
          simp only [hadd] at h
          cases h
        | ok r => exact ⟨r, rfl⟩
      · rintro ⟨x, hx, hreadable⟩
        obtain rfl := Except.ok.inj hx
        obtain ⟨⟨s, g₁⟩, hadd⟩ := hiff.mpr (hreadable o rfl)
        simp only [hadd]
        cases s <;> exact ⟨_, rfl⟩

/-- **Reading rows** that agree with each other and with what was read before. -/
theorem foldlM_addRow_ok_iff (hnames : c.NamesApart t) (hkeyed : c.AllKeyed t) {rows : List Row}
    {S : List Appearance} {F : List Tree} (hl : Labeled g labels)
    (hs : Siblings c g labels "" [t] S F) (hroots : g.roots = F.map Tree.node)
    (hconcord : Concordant (S ++ rows.filterMap (Sight.readRow c t))) :
    (∃ g', rows.foldlM (Graph.addRow c t) g = .ok g') ↔ ∀ row ∈ rows, row.Readable c t := by
  induction rows generalizing g labels S F with
  | nil => exact ⟨fun _ => by simp, fun _ => ⟨g, rfl⟩⟩
  | cons row rest ih =>
    have hsplit : (row :: rest).filterMap (Sight.readRow c t) =
        (Sight.readRow c t row).toList ++ rest.filterMap (Sight.readRow c t) := by
      cases h : Sight.readRow c t row <;> simp [h]
    rw [hsplit, ← List.append_assoc] at hconcord
    have hfirst := addRow_ok_iff hnames hkeyed hl hs
      (hconcord.mono fun x hx => List.mem_append_left _ hx)
    rw [List.foldlM_cons, List.forall_mem_cons, ← hfirst]
    cases hadd : Graph.addRow c t g row with
    | error e =>
      constructor
      · rintro ⟨g', h⟩
        cases h
      · rintro ⟨⟨g', h⟩, -⟩
        cases h
    | ok g₁ =>
      have hone : [row].foldlM (Graph.addRow c t) g = .ok g₁ := by
        rw [List.foldlM_cons, hadd]
        rfl
      obtain ⟨labels', F', hl', hs', hroots'⟩ := foldlM_addRow_siblings hnames hl hs hroots hone
      have hread : [row].filterMap (Sight.readRow c t) = (Sight.readRow c t row).toList := by
        cases h : Sight.readRow c t row <;> simp [h]
      rw [hread] at hs'
      have hrest := ih hl' hs' hroots' hconcord
      exact ⟨fun h => ⟨⟨g₁, rfl⟩, hrest.mp h⟩, fun h => hrest.mpr h.2⟩

/-- **Rows that agree give objects just if each of them can be read.** -/
theorem exists_materialize_iff (hnames : c.NamesApart t) (hkeyed : c.AllKeyed t)
    {rows : List Row} (hconcord : Concordant (rows.filterMap (Sight.readRow c t))) :
    (∃ objects, materialize c t rows = .ok objects) ↔ ∀ row ∈ rows, row.Readable c t := by
  have hempty : Labeled {} [] := ⟨rfl, by simp, by simp⟩
  rw [← foldlM_addRow_ok_iff hnames hkeyed hempty (siblings_nil (by simp)) rfl hconcord]
  constructor
  · rintro ⟨objects, h⟩
    cases hg : Graph.ofRows c t rows with
    | error e =>
      rw [materialize, hg] at h
      cases h
    | ok g => exact ⟨g, hg⟩
  · rintro ⟨g, hg⟩
    exact exists_materialize_of_ofRows hnames hg

end EntityMapper
