import EntityMapper.Proofs.Filter.Resolved
import EntityMapper.Proofs.Join.Labels

/-!
# The aliases of a select and those of its conditions

A select names each table by the associations on the way to it, as it goes down; a condition names
it by the chain that is written in it. Both come to the same alias: where fields have distinct names
there is one join for each chain that can be followed and none for any other, and whatever column a
condition compiles to is one that the select introduces for its path.

* `JoinTree.chainJoins` — the joins of a select with the chains that they are written for
* `exists_join_of_follow`, `follow_of_mem_chainJoins` — they are those that can be followed
* `Mapping.Introduces` — what a select introduces for a path
* `select_introduces` — the paths that compile are those, and every condition names nothing else
-/

namespace EntityMapper

open JoinTree (ResultColumn Join)

variable {c : Catalog} {j : JoinTree} {t u : Table} {chain : List String}

/-! ## Joins with their chains -/

namespace JoinTree

mutual

/-- The joins below a table, each with the names of the associations on the way to it. -/
def chainJoins : JoinTree → List (List String × Join)
  | .mk _ tableAlias _ joined => chainJoinsAll tableAlias joined

/-- The joins of several tables that hang on one, with their chains. -/
def chainJoinsAll (owner : String) :
    List ((String × Association) × JoinTree) → List (List String × Join)
  | [] => []
  | (a, j) :: rest =>
    ([a.1], joinOf owner (a, j)) :: (chainJoins j).map (fun e => (a.1 :: e.1, e.2)) ++
      chainJoinsAll owner rest

end

/-- The joins through an association: its own, and those that hang on it. -/
def joinsThrough (owner : String) (x : (String × Association) × JoinTree) :
    List (List String × Join) :=
  ([x.1.1], joinOf owner x) :: x.2.chainJoins.map fun e => (x.1.1 :: e.1, e.2)

theorem chainJoins_eq (j : JoinTree) :
    j.chainJoins = j.joined.flatMap (joinsThrough j.tableAlias) := by
  obtain ⟨t, tableAlias, leading, joined⟩ := j
  rw [chainJoins]
  show _ = joined.flatMap (joinsThrough tableAlias)
  induction joined with
  | nil => rw [chainJoinsAll, List.flatMap_nil]
  | cons x rest ih =>
    rw [chainJoinsAll, List.flatMap_cons, ih]
    rfl

/-- Without their chains they are the joins, in the same order. -/
theorem Unfolds.map_snd_chainJoins (h : j.Unfolds c) : j.chainJoins.map Prod.snd = j.joins := by
  induction h with
  | @mk t tableAlias leading joined _ _ _ ih =>
    rw [chainJoins_eq, joins, joinsAll_eq, List.map_flatMap]
    refine List.flatMap_congr fun x hx => ?_
    rw [joinsThrough, List.map_cons, List.map_map, ← ih x hx]
    rfl

theorem ne_nil_of_mem_chainJoins {join : Join} (h : (chain, join) ∈ j.chainJoins) : chain ≠ [] := by
  rw [chainJoins_eq] at h
  obtain ⟨x, -, h⟩ := List.mem_flatMap.mp h
  rcases List.mem_cons.mp h with h | h
  · obtain ⟨rfl, -⟩ := Prod.mk.inj h
    exact List.cons_ne_nil _ _
  · obtain ⟨e, -, he⟩ := List.mem_map.mp h
    obtain ⟨rfl, -⟩ := Prod.mk.inj he
    exact List.cons_ne_nil _ _

end JoinTree

/-- Each chain has one join. -/
theorem nodup_chainJoins (h : j.Unfolds c) (hfields : c.FieldsDistinct j.table) :
    (j.chainJoins.map Prod.fst).Nodup := by
  induction h with
  | @mk t tableAlias leading joined associations tables each ih =>
    have hj : (JoinTree.mk t tableAlias leading joined).Unfolds c := .mk associations tables each
    have hjoined : (joined.map fun x => x.1.1).Nodup := hj.nodup_joined (hfields t (.refl t))
    -- all chains through an association start with its name
    have hhead : ∀ x, ∀ chain ∈ (JoinTree.joinsThrough tableAlias x).map Prod.fst,
        chain.head? = some x.1.1 := by
      intro x chain hchain
      rw [JoinTree.joinsThrough, List.map_cons, List.map_map] at hchain
      rcases List.mem_cons.mp hchain with rfl | hchain
      · rfl
      · obtain ⟨e, -, rfl⟩ := List.mem_map.mp hchain
        rfl
    rw [JoinTree.chainJoins_eq, List.map_flatMap, List.nodup_flatMap]
    constructor
    · intro x hx
      rw [JoinTree.joinsThrough, List.map_cons, List.map_map, List.nodup_cons]
      constructor
      · intro hmem
        obtain ⟨e, he, heq⟩ := List.mem_map.mp hmem
        exact JoinTree.ne_nil_of_mem_chainJoins he (List.cons.inj heq).2
      · have hbelow := ih x hx (hfields.of_mem (hj.of_mem hx).2)
        have hcons : Function.Injective (List.cons x.1.1) := fun _ _ h => (List.cons.inj h).2
        have hnames : (Prod.fst ∘ fun e : List String × Join => (x.1.1 :: e.1, e.2)) =
            List.cons x.1.1 ∘ Prod.fst := rfl
        rw [hnames, ← List.map_map]
        exact hbelow.map hcons
    · refine List.Pairwise.imp ?_ (List.pairwise_map.mp hjoined)
      intro x y hne chain hx hy
      have hsome := (hhead x chain hx).symm.trans (hhead y chain hy)
      exact hne (Option.some.inj hsome)

/-! ## Chains that can be followed -/

/-- Following a chain enters an association of the table and goes on from its target. -/
theorem follow_cons {name : String} {rest : List String} (h : c.follow t (name :: rest) = .ok u) :
    ∃ a, t.requireAssociation name = .ok a ∧ c.follow (c.table a.target) rest = .ok u := by
  rw [Catalog.follow] at h
  cases ha : t.requireAssociation name with
  | error e =>
    rw [ha] at h
    cases h
  | ok a =>
    rw [ha] at h
    exact ⟨a, rfl, h⟩

/-- What a select has for a chain that leads to a table: a join of that table, under the names of the
chain, with the columns of the table under the same names. -/
structure JoinTree.HasJoin (j : JoinTree) (leading : String) (chain : List String) (u : Table)
    (join : Join) : Prop where
  mem : (chain, join) ∈ j.chainJoins
  table : join.tableName = u.name
  tableAlias : join.tableAlias = leading ++ "_".intercalate chain
  columns : JoinTree.ownColumns u join.tableAlias (join.tableAlias ++ "_") ⊆ j.columns

/-- What a table below has for a chain, the tables above have for the longer one. -/
theorem JoinTree.HasJoin.through {leading : String} {x : (String × Association) × JoinTree}
    {join : Join} (h : x.2.HasJoin (leading ++ x.1.1 ++ "_") chain u join) (hx : x ∈ j.joined) :
    j.HasJoin leading (x.1.1 :: chain) u join := by
  obtain ⟨first, rest, rfl⟩ := List.exists_cons_of_ne_nil (ne_nil_of_mem_chainJoins h.mem)
  refine ⟨?_, h.table, ?_, ?_⟩
  · rw [chainJoins_eq]
    refine List.mem_flatMap.mpr ⟨x, hx, List.mem_cons_of_mem _ ?_⟩
    exact List.mem_map.mpr ⟨_, h.mem, rfl⟩
  · rw [h.tableAlias, String.intercalate_cons_cons]
    simp only [String.append_assoc]
  · exact List.Subset.trans h.columns (columns_subset hx)

/-- What a list that is built starts with, and the joins that it has. -/
theorem hasJoin_of_build {tableAlias leading : String} {path : List String}
    (h : JoinTree.build c t tableAlias leading path = .ok j) :
    (j.table = t ∧ j.tableAlias = tableAlias ∧
      JoinTree.ownColumns t tableAlias leading ⊆ j.columns) ∧
    ∀ {chain u}, chain ≠ [] → c.follow t chain = .ok u → ∃ join, j.HasJoin leading chain u join := by
  refine build_induction (motive := fun t tableAlias leading j =>
    (j.table = t ∧ j.tableAlias = tableAlias ∧
      JoinTree.ownColumns t tableAlias leading ⊆ j.columns) ∧
    ∀ {chain u}, chain ≠ [] → c.follow t chain = .ok u → ∃ join, j.HasJoin leading chain u join) ?_ h
  intro t tableAlias leading joined associations each
  have hown := (JoinTree.Within.refl (.mk t tableAlias leading joined)).ownColumns_subset
  refine ⟨⟨rfl, rfl, hown⟩, fun {chain u} hchain hfollow => ?_⟩
  cases chain with
  | nil => exact absurd rfl hchain
  | cons name rest =>
    obtain ⟨a, ha, hrest⟩ := follow_cons hfollow
    obtain ⟨-, hmem⟩ := requireAssociation_ok ha
    obtain ⟨x, hx, hxa⟩ := List.mem_map.mp (associations ▸ hmem)
    obtain ⟨rfl, rfl⟩ : x.1.1 = name ∧ x.1.2 = a := Prod.mk.inj hxa
    obtain ⟨⟨htable, halias, hown⟩, hbelow⟩ := each x hx
    by_cases hnil : rest = []
    · subst hnil
      obtain rfl : c.table x.1.2.target = u := Except.ok.inj hrest
      refine ⟨JoinTree.joinOf tableAlias x, ?_, ?_, ?_, ?_⟩
      · rw [JoinTree.chainJoins_eq]
        exact List.mem_flatMap.mpr ⟨x, hx, List.mem_cons_self⟩
      · rw [JoinTree.joinOf, htable]
      · rw [JoinTree.joinOf, halias, String.intercalate_singleton]
      · rw [JoinTree.joinOf, halias]
        exact List.Subset.trans hown (JoinTree.columns_subset hx)
    · obtain ⟨join, hjoin⟩ := hbelow hnil hrest
      exact ⟨join, hjoin.through hx⟩

/-! ## Names that are found -/

theorem field?_eq_of_mem (hfields : (t.fields.map Field.name).Nodup) {f : Field}
    (hf : f ∈ t.fields) : t.field? f.name = some f := by
  cases hfind : t.field? f.name with
  | none => exact absurd (beq_self_eq_true f.name) (List.find?_eq_none.mp hfind f hf)
  | some g =>
    obtain ⟨hg, hname⟩ := field?_eq_some hfind
    rw [List.inj_on_of_nodup_map hfields hg hf hname]

/-- Where fields have distinct names, a column is found by its name. -/
theorem requireColumn_of_mem (hfields : (t.fields.map Field.name).Nodup) {f : Field}
    (hf : f ∈ t.scalarFields) : t.requireColumn f.name = .ok () := by
  obtain ⟨hmem, hscalar⟩ := List.mem_filter.mp hf
  rw [Table.requireColumn, field?_eq_of_mem hfields hmem]
  exact if_pos hscalar

/-- Where fields have distinct names, an association is found by its name. -/
theorem requireAssociation_of_mem (hfields : (t.fields.map Field.name).Nodup)
    {a : String × Association} (ha : a ∈ t.associations) :
    t.requireAssociation a.1 = .ok a.2 := by
  obtain ⟨f, hf, hmap⟩ := List.mem_filterMap.mp ha
  obtain ⟨b, hb, rfl⟩ := Option.map_eq_some_iff.mp hmap
  rw [Table.requireAssociation, field?_eq_of_mem hfields hf]
  simp only [hb]

theorem Scope.column_of_root (s : Scope) {name : String}
    (hcolumn : s.table.requireColumn name = .ok ()) :
    s.column [name] = .ok (.column s.rootAlias name) := by
  show (s.table.requireColumn name >>= fun _ =>
    (.ok (.column s.rootAlias name) : Except MapperError Condition)) = _
  rw [hcolumn]
  rfl

theorem Scope.column_of_follow (s : Scope) {name : String} (halias : s.rootAlias.isSome = true)
    (hchain : chain ≠ []) (hfollow : s.catalog.follow s.table chain = .ok u)
    (hcolumn : u.requireColumn name = .ok ()) :
    s.column (chain ++ [name]) = .ok (.column (some ("_".intercalate chain)) name) := by
  obtain ⟨first, rest, rfl⟩ := List.exists_cons_of_ne_nil hchain
  have hnone : ¬ s.rootAlias.isNone = true := by
    rw [Option.isNone_iff_eq_none]
    exact Option.isSome_iff_ne_none.mp halias
  rw [Scope.column, List.getLast?_concat, List.dropLast_concat]
  simp only [if_neg hnone, hfollow]
  show (u.requireColumn name >>= fun _ =>
    (.ok (.column _ name) : Except MapperError Condition)) = _
  rw [hcolumn]
  rfl

/-- What the expression of a path compiles to. -/
theorem compile_member {s : Scope} {d : Dialect} {leading : String} {path : List String}
    {p : CompiledPredicate} : s.compile d leading (.member path) = .ok p ↔
      ∃ qualifier name, s.column path = .ok (.column qualifier name) ∧
        p = ⟨Condition.columnText qualifier name, []⟩ := by
  constructor
  · intro h
    obtain ⟨c, values, hc, htext, hparameters⟩ := compile_cases h
    have hc : (s.column path >>= fun c => .ok (c, [])) = .ok (c, values) := hc
    obtain ⟨c', hcolumn, hc⟩ := exists_of_bind_eq_ok hc
    obtain ⟨rfl, rfl⟩ := Prod.mk.inj (Except.ok.inj hc)
    obtain ⟨text, parameters⟩ := p
    obtain rfl : text = _ := htext
    obtain rfl : parameters = _ := hparameters
    obtain ⟨qualifier, name, rfl⟩ := eq_column_of_column hcolumn
    exact ⟨qualifier, name, hcolumn, rfl⟩
  · rintro ⟨qualifier, name, hcolumn, rfl⟩
    have hc : s.condition (.member path) [] = (s.column path >>= fun c => .ok (c, [])) := rfl
    rw [Scope.compile, hc, hcolumn]
    rfl

/-- **The chain of a join can be followed**, where fields have distinct names. -/
theorem follow_of_mem_chainJoins (h : j.Unfolds c) (hfields : c.FieldsDistinct j.table)
    (hchain : chain ∈ j.chainJoins.map Prod.fst) : ∃ u, c.follow j.table chain = .ok u := by
  induction h generalizing chain with
  | @mk t tableAlias leading joined associations tables each ih =>
    have hj : (JoinTree.mk t tableAlias leading joined).Unfolds c := .mk associations tables each
    obtain ⟨⟨chain, join⟩, hmem, rfl⟩ := List.mem_map.mp hchain
    rw [JoinTree.chainJoins_eq] at hmem
    obtain ⟨x, hx, hmem⟩ := List.mem_flatMap.mp hmem
    have ha : t.requireAssociation x.1.1 = .ok x.1.2 :=
      requireAssociation_of_mem (hfields t (.refl t)) (associations ▸ List.mem_map_of_mem hx)
    rcases List.mem_cons.mp hmem with heq | hmem
    · obtain ⟨rfl, -⟩ := Prod.mk.inj heq
      refine ⟨c.table x.1.2.target, ?_⟩
      rw [JoinTree.table, Catalog.follow, ha]
      rfl
    · obtain ⟨⟨rest, join'⟩, he, heq⟩ := List.mem_map.mp hmem
      obtain ⟨rfl, -⟩ := Prod.mk.inj heq
      obtain ⟨u, hu⟩ := ih x hx (hfields.of_mem (hj.of_mem hx).2) (List.mem_map_of_mem he)
      refine ⟨u, ?_⟩
      rw [JoinTree.table, Catalog.follow, ha, ← hu]
      exact congrArg (fun v => c.follow v rest) (tables x hx).1.symm

/-! ## What a select introduces -/

namespace Mapping

/-- The names of a select with joins: those of its catalog, under the alias of the root. -/
def scope (m : Mapping) : Scope := ⟨m.catalog, m.table, some m.rootAlias⟩

/-- The from clause gives the root table an alias: behind its name, or the name itself. -/
def FromAlias (m : Mapping) (a : String) : Prop :=
  m.fromClause = m.table.name ∧ a = m.table.name ∨ m.fromClause = m.table.name ++ " " ++ a

/-- What a select introduces for a path: a qualifier and a column. -/
inductive Introduces (m : Mapping) (j : JoinTree) : List String → Option String × String → Prop
  /-- a column of the root, under the alias that the from clause gives it -/
  | root {a : String} {f : Field} (named : m.FromAlias a) (hf : f ∈ m.table.scalarFields) :
      Introduces m j [f.name] (some a, f.name)
  /-- a column of the table at the end of a chain, under the alias of the one join that is written
  for the chain; the select list has it under the names of the path -/
  | joined {chain : List String} {u : Table} {join : Join} {f : Field}
      (follows : m.catalog.follow m.table chain = .ok u) (written : (chain, join) ∈ j.chainJoins)
      (only : ∀ join', (chain, join') ∈ j.chainJoins → join' = join)
      (table : join.tableName = u.name) (hf : f ∈ u.scalarFields)
      (listed : ⟨join.tableAlias, f.name, "_".intercalate (chain ++ [f.name])⟩ ∈ j.columns) :
      Introduces m j (chain ++ [f.name]) (some join.tableAlias, f.name)

variable {m : Mapping} {path : List String} {col : Option String × String}

theorem fromAlias_rootAlias (m : Mapping) : m.FromAlias m.rootAlias := by
  unfold FromAlias fromClause
  split
  · next hname => exact .inl ⟨rfl, hname.symm⟩
  · exact .inr rfl

/-- It gives it no other one. -/
theorem FromAlias.eq {a : String} (h : m.FromAlias a) : a = m.rootAlias := by
  have hbehind : ∀ b, m.table.name ++ " " ++ b ≠ m.table.name := by
    intro b heq
    rw [String.append_assoc] at heq
    have hnone : " " ++ b = "" :=
      (String.append_right_inj m.table.name).mp (heq.trans String.append_empty.symm)
    have hlength := congrArg String.length hnone
    simp at hlength
  unfold FromAlias fromClause at h
  split at h
  · next hname =>
    rcases h with ⟨-, rfl⟩ | h
    · exact hname
    · exact absurd h.symm (hbehind a)
  · rcases h with ⟨h, -⟩ | h
    · exact absurd h (hbehind _)
    · exact ((String.append_right_inj _).mp h).symm

/-- The names of a path are those of its chain and its last one. -/
theorem intercalate_concat (hchain : chain ≠ []) (name : String) :
    "_".intercalate (chain ++ [name]) = "_".intercalate chain ++ "_" ++ name := by
  induction chain with
  | nil => exact absurd rfl hchain
  | cons first rest ih =>
    cases rest with
    | nil => rfl
    | cons second rest =>
      have ih := ih (List.cons_ne_nil second rest)
      rw [List.cons_append] at ih
      rw [List.cons_append, List.cons_append, String.intercalate_cons_cons, ih,
        String.intercalate_cons_cons]
      simp only [String.append_assoc]

/-- **A path has a column if the select introduces it.** -/
theorem column_iff_introduces (hj : m.joinTree = .ok j) (hfields : m.catalog.FieldsDistinct m.table) :
    m.scope.column path = .ok (.column col.1 col.2) ↔ m.Introduces j path col := by
  obtain ⟨hunfolds, htable, -⟩ := unfolds_of_build hj
  constructor
  · intro h
    obtain ⟨qualifier, column⟩ := col
    rcases column_cases h with ⟨name, rfl, hcolumn, heq⟩ |
      ⟨chain, name, u, hchain, rfl, -, hfollow, hcolumn, heq⟩
    · obtain ⟨f, hf, rfl⟩ := requireColumn_ok hcolumn
      obtain ⟨rfl, rfl⟩ := Condition.column.inj heq
      exact .root m.fromAlias_rootAlias hf
    · obtain ⟨f, hf, rfl⟩ := requireColumn_ok hcolumn
      obtain ⟨rfl, rfl⟩ := Condition.column.inj heq
      obtain ⟨join, hmem, hname, halias, hcolumns⟩ :=
        (hasJoin_of_build hj).2 hchain hfollow
      rw [String.empty_append] at halias
      have hchains := nodup_chainJoins hunfolds (htable ▸ hfields)
      rw [← halias]
      refine .joined hfollow hmem (fun join' hjoin' => ?_) hname hf ?_
      · exact (Prod.mk.inj (List.inj_on_of_nodup_map hchains hjoin' hmem rfl)).2
      · refine hcolumns (List.mem_map.mpr ⟨f, hf, ?_⟩)
        rw [intercalate_concat hchain, halias]
  · intro h
    cases h with
    | @root a f named hf =>
      obtain rfl := named.eq
      exact m.scope.column_of_root (requireColumn_of_mem (hfields _ (.refl _)) hf)
    | @joined chain u join f follows written only table hf listed =>
      have hchain := JoinTree.ne_nil_of_mem_chainJoins written
      obtain ⟨join', hmem, -, halias, -⟩ := (hasJoin_of_build hj).2 hchain follows
      obtain rfl := only join' hmem
      rw [String.empty_append] at halias
      rw [halias]
      exact m.scope.column_of_follow rfl hchain follows
        (requireColumn_of_mem (hfields u (follow_ok follows).1) hf)

end Mapping

/-- **A select and the conditions on it have the same aliases.** In tables with distinct field names
there is one join for each chain that can be followed, and no other. A path compiles if the select
introduces a column for it, and then to that column. Whatever else compiles, its columns are
introduced for its paths. -/
theorem select_introduces {m : Mapping} {sql : String} (hselect : m.select = .ok sql)
    (hfields : m.catalog.FieldsDistinct m.table) :
    ∃ j, m.joinTree = .ok j ∧
      sql = "select " ++ ", ".intercalate (j.columns.map ResultColumn.sql) ++ "\nfrom " ++
        m.fromClause ++ String.join (j.chainJoins.map fun e => "\n" ++ e.2.sql) ∧
      (∀ chain, chain ∈ j.chainJoins.map Prod.fst ↔
        chain ≠ [] ∧ ∃ u, m.catalog.follow m.table chain = .ok u) ∧
      ∀ (d : Dialect) (leading : String),
        (∀ path p, m.scope.compile d leading (.member path) = .ok p ↔
          ∃ col, m.Introduces j path col ∧ p = ⟨Condition.columnText col.1 col.2, []⟩) ∧
        ∀ e p, m.scope.compile d leading e = .ok p → ∃ c values,
          m.scope.condition e [] = .ok (c, values) ∧
          p.text = c.text (fun i => d.placeholder (parameterName leading i)) ∧
          ∀ col ∈ c.columns, ∃ path ∈ e.paths, m.Introduces j path col := by
  obtain ⟨j, hj, hsql⟩ := exists_of_bind_eq_ok hselect
  obtain ⟨hunfolds, htable, -⟩ := unfolds_of_build hj
  refine ⟨j, hj, ?_, fun chain => ⟨fun hchain => ⟨?_, ?_⟩, ?_⟩, fun d leading => ⟨?_, ?_⟩⟩
  · obtain rfl := Except.ok.inj hsql
    rw [Mapping.source, ← hunfolds.map_snd_chainJoins, List.map_map]
    simp only [String.append_assoc]
    rfl
  · obtain ⟨e, he, rfl⟩ := List.mem_map.mp hchain
    exact JoinTree.ne_nil_of_mem_chainJoins he
  · exact htable ▸ follow_of_mem_chainJoins hunfolds (htable ▸ hfields) hchain
  · rintro ⟨hne, u, hu⟩
    obtain ⟨join, hjoin⟩ := (hasJoin_of_build hj).2 hne hu
    exact List.mem_map_of_mem hjoin.mem
  · intro path p
    rw [compile_member]
    constructor
    · rintro ⟨qualifier, name, hcolumn, rfl⟩
      exact ⟨(qualifier, name), (Mapping.column_iff_introduces hj hfields).mp hcolumn, rfl⟩
    · rintro ⟨col, hcol, rfl⟩
      exact ⟨col.1, col.2, (Mapping.column_iff_introduces hj hfields).mpr hcol, rfl⟩
  · intro e p hp
    obtain ⟨c, values, hc, htext, -⟩ := compile_cases hp
    refine ⟨c, values, hc, htext, fun col hcol => ?_⟩
    obtain ⟨path, hpath, hcolumn⟩ := (draws_condition e hc).columns col hcol
    exact ⟨path, hpath, (Mapping.column_iff_introduces hj hfields).mp hcolumn⟩

namespace Roster

/-- Games with the player who won; the table is named with its database. -/
def game : Table where
  entity := "Game"
  tableName := "games"
  database := some ⟨"league", true⟩
  fields := [.ofType "round" { scalar := .int .int64 } { primaryKey := true },
    .ofAssociation "winner" ⟨.one, "round", "id", "Player"⟩]

/-- Games, their winners and the teams of those. -/
def games : Mapping := ⟨⟨[game, player "no", team "no"]⟩, game, .of .sqlite⟩

end Roster

/-- Games are named by the alias that the from clause gives them, and the teams of their winners by
that of the join for both associations. -/
theorem select_introduces_roster :
    ∃ j, Roster.games.joinTree = .ok j ∧
      Roster.games.fromClause = "league.games games" ∧
      Roster.games.Introduces j ["round"] (some "games", "round") ∧
      Roster.games.Introduces j ["winner", "team", "name"] (some "winner_team", "name") := by
  obtain ⟨sql, hsql⟩ := exists_of_isOk (x := Roster.games.select) (by decide +kernel)
  obtain ⟨j, hj, -, -, hcompile⟩ := select_introduces hsql
    (Catalog.fieldsDistinct_of_tables (by decide +kernel))
  have hintroduces : ∀ {path : List String} {a name : String},
      Roster.games.scope.condition (.member path) [] = .ok (.column (some a) name, []) →
        Roster.games.Introduces j path (some a, name) := by
    intro path a name hcolumn
    have hmember : Roster.games.scope.compile (.of .sqlite) "" (.member path) =
        .ok ⟨Condition.columnText (some a) name, []⟩ := by
      rw [Scope.compile, hcolumn]
      rfl
    obtain ⟨c, values, hc, -, hcolumns⟩ := (hcompile (.of .sqlite) "").2 _ _ hmember
    obtain ⟨rfl, rfl⟩ := Prod.mk.inj (Except.ok.inj (hcolumn.symm.trans hc))
    obtain ⟨p, hp, h⟩ := hcolumns (some a, name) (List.mem_singleton_self _)
    obtain rfl := List.mem_singleton.mp hp
    exact h
  exact ⟨j, hj, by decide +kernel, hintroduces rfl, hintroduces rfl⟩

end EntityMapper
