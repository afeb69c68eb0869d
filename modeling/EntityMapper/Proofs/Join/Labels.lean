import Mathlib.Data.List.Nodup
import Mathlib.Data.List.Pairwise
import EntityMapper.Proofs.Graph.Distinct
import EntityMapper.Proofs.Join.Product

/-!
# The column names of a select

A column of the result is named by the associations on the way to its table and by its field, with
`_` between them. Field names may have `_` in them too, so two places may give one name, and of
columns of one name a row keeps the first. That happens where a field of a table goes on after the
name of an association of the same table with `_` and then like a column below that association,
and nowhere else.

* `names_nodup_iff` — the names under a table are distinct if no table below has such fields
* `labels_nodup_iff_keeps` — they are distinct if a row keeps every column
* `select_labels` — when the columns of a select have distinct names, and what is read then
* `select_labels_roster` — a reference `team_id` beside an association `team` gives one name twice,
  and a player without a team gets one
-/

namespace EntityMapper

variable {c : Catalog} {j k : JoinTree}

/-! ## Names -/

/-- Names joined with `_` agree where the first parts do, or where one first part goes on after the
other with `_`. -/
theorem underscore_cases {a b n m : String} (h : a ++ "_" ++ n = b ++ "_" ++ m) :
    (a = b ∧ n = m) ∨ (∃ rest, b = a ++ "_" ++ rest ∧ n = rest ++ "_" ++ m) ∨
      ∃ rest, a = b ++ "_" ++ rest ∧ m = rest ++ "_" ++ n := by
  have hmark : "_".toList = ['_'] := by decide
  have hchars := congrArg String.toList h
  simp only [String.toList_append, hmark, List.append_assoc, List.singleton_append] at hchars
  -- the rest of the longer first part starts with the underscore of the shorter one
  have hsplit : ∀ {x y : String} {as rs ss : List Char}, y.toList = x.toList ++ as →
      '_' :: rs = as ++ '_' :: ss → (x = y ∧ rs = ss) ∨
        ∃ rest : String, y = x ++ "_" ++ rest ∧ rs = rest.toList ++ '_' :: ss := by
    intro x y as rs ss hy hrs
    cases as with
    | nil =>
      rw [List.append_nil] at hy
      rw [List.nil_append, List.cons.injEq] at hrs
      exact .inl ⟨String.toList_inj.mp hy.symm, hrs.2⟩
    | cons ch as =>
      rw [List.cons_append, List.cons.injEq] at hrs
      obtain ⟨rfl, hrs⟩ := hrs
      refine .inr ⟨String.ofList as, String.toList_inj.mp ?_, by simpa using hrs⟩
      simp [hy, hmark]
  have hstring : ∀ {x y rest : String}, x.toList = rest.toList ++ '_' :: y.toList →
      x = rest ++ "_" ++ y := by
    intro x y rest hx
    apply String.toList_inj.mp
    simp [hx, hmark]
  rcases List.append_eq_append_iff.mp hchars with ⟨as, hb, hn⟩ | ⟨as, ha, hm⟩
  · rcases hsplit hb hn with ⟨hab, hnm⟩ | ⟨rest, hb, hn⟩
    · exact .inl ⟨hab, String.toList_inj.mp hnm⟩
    · exact .inr (.inl ⟨rest, hb, hstring hn⟩)
  · rcases hsplit ha hm with ⟨hba, hmn⟩ | ⟨rest, ha, hm⟩
    · exact .inl ⟨hba.symm, (String.toList_inj.mp hmn).symm⟩
    · exact .inr (.inr ⟨rest, ha, hstring hm⟩)

theorem append_right_injective (s : String) : Function.Injective fun n => s ++ n :=
  fun _ _ h => (String.append_right_inj s).mp h

/-- A name does not go on after itself. -/
theorem ne_underscore (a rest : String) : a ≠ a ++ "_" ++ rest := by
  intro h
  have hlength := congrArg String.length h
  have hone : "_".length = 1 := by decide
  rw [String.length_append, String.length_append, hone] at hlength
  omega

namespace JoinTree

mutual

/-- The names of the columns under a table, without what all of them start with. -/
def names : JoinTree → List String
  | .mk t _ _ joined => t.scalarFields.map Field.name ++ namesAll joined

/-- The names of the columns that several associations lead to. -/
def namesAll : List ((String × Association) × JoinTree) → List String
  | [] => []
  | (a, j) :: rest => (names j).map (fun n => a.1 ++ "_" ++ n) ++ namesAll rest

end

/-- The names that an association gives to the columns below it. -/
def namesThrough (x : (String × Association) × JoinTree) : List String :=
  x.2.names.map fun n => x.1.1 ++ "_" ++ n

theorem namesAll_eq (joined : List ((String × Association) × JoinTree)) :
    namesAll joined = joined.flatMap namesThrough := by
  induction joined with
  | nil => rw [namesAll, List.flatMap_nil]
  | cons x rest ih =>
    rw [namesAll, List.flatMap_cons, ih]
    rfl

theorem names_eq (j : JoinTree) :
    j.names = j.table.scalarFields.map Field.name ++ j.joined.flatMap namesThrough := by
  obtain ⟨t, tableAlias, leading, joined⟩ := j
  rw [names, namesAll_eq]
  rfl

/-- The names in the result have in front what the table's columns start with. -/
theorem labels_eq_names (h : j.Unfolds c) : j.labels = j.names.map fun n => j.leading ++ n := by
  induction h with
  | @mk t tableAlias leading joined _ tables _ ih =>
    rw [labels_eq, names_eq, List.map_append, List.map_map, List.map_flatMap]
    congr 1
    refine List.flatMap_congr fun x hx => ?_
    rw [ih x hx, (tables x hx).2, namesThrough, List.map_map]
    refine List.map_congr_left fun n _ => ?_
    show leading ++ x.1.1 ++ "_" ++ n = leading ++ (x.1.1 ++ "_" ++ n)
    simp [String.append_assoc]

theorem labels_nodup_iff_names (h : j.Unfolds c) : j.labels.Nodup ↔ j.names.Nodup := by
  rw [labels_eq_names h]
  exact List.nodup_map_iff (append_right_injective j.leading)

/-! ## Tables of a select -/

/-- The tables of a select with their places: the one at the top, and those below it. -/
inductive Within : JoinTree → JoinTree → Prop
  | refl (j : JoinTree) : Within j j
  | step {k j : JoinTree} {x : (String × Association) × JoinTree} (hx : x ∈ j.joined)
      (h : Within k x.2) : Within k j

/-- Two fields of a table give one name: `x` is an association, and another field goes on after its
name with `_` and then like a column below it. -/
inductive Clash (k : JoinTree) : Prop
  /-- the other field is a column -/
  | column {x : (String × Association) × JoinTree} {f : Field} {rest : String} (hx : x ∈ k.joined)
      (hf : f ∈ k.table.scalarFields) (goesOn : f.name = x.1.1 ++ "_" ++ rest)
      (below : rest ∈ x.2.names)
  /-- the other field is an association with a column `n` below it -/
  | association {x y : (String × Association) × JoinTree} {rest n : String} (hx : x ∈ k.joined)
      (hy : y ∈ k.joined) (goesOn : y.1.1 = x.1.1 ++ "_" ++ rest) (hn : n ∈ y.2.names)
      (below : rest ++ "_" ++ n ∈ x.2.names)

/-- No name is given twice by the fields of one table. -/
theorem Clash.not_nodup (h : k.Clash) : ¬ k.names.Nodup := by
  rw [names_eq, List.nodup_append, List.nodup_flatMap]
  rintro ⟨-, ⟨-, hapart⟩, hcolumns⟩
  cases h with
  | @column x f rest hx hf goesOn below =>
    refine hcolumns f.name (List.mem_map_of_mem hf) f.name (List.mem_flatMap.mpr ⟨x, hx, ?_⟩) rfl
    exact List.mem_map.mpr ⟨rest, below, goesOn.symm⟩
  | @association x y rest n hx hy goesOn hn below =>
    have hne : x ≠ y := by
      rintro rfl
      exact ne_underscore _ _ goesOn
    have hsymm : Std.Symm (Function.onFun List.Disjoint namesThrough) :=
      ⟨fun a b h name hb ha => h ha hb⟩
    have hdisjoint := hapart.forall hx hy hne
    refine hdisjoint (List.mem_map.mpr ⟨_, below, rfl⟩) (List.mem_map.mpr ⟨n, hn, ?_⟩)
    simp [goesOn, String.append_assoc]

/-- Associations of different names give no name in common, unless they clash. -/
theorem disjoint_of_not_clash (h : ¬ k.Clash) {x y : (String × Association) × JoinTree}
    (hx : x ∈ k.joined) (hy : y ∈ k.joined) (hne : x.1.1 ≠ y.1.1) :
    List.Disjoint (namesThrough x) (namesThrough y) := by
  intro name hnx hny
  obtain ⟨n, hn, rfl⟩ := List.mem_map.mp hnx
  obtain ⟨m, hm, heq⟩ := List.mem_map.mp hny
  rcases underscore_cases heq with ⟨hname, -⟩ | ⟨rest, hname, rfl⟩ | ⟨rest, hname, rfl⟩
  · exact hne hname.symm
  · exact h (.association hy hx hname hn hm)
  · exact h (.association hx hy hname hm hn)

end JoinTree

/-- Field names are distinct in a table and in each that its associations lead to. -/
def Catalog.FieldsDistinct (c : Catalog) (t : Table) : Prop :=
  ∀ u, c.Reaches t u → (u.fields.map Field.name).Nodup

theorem Catalog.FieldsDistinct.of_mem {t u : Table} (h : c.FieldsDistinct t)
    (hu : u ∈ c.targets t) : c.FieldsDistinct u := fun v hv => h v (.step hu hv)

/-- Field names are distinct where they are in each table of the catalog. -/
theorem Catalog.fieldsDistinct_of_tables {t : Table}
    (h : ∀ u ∈ t :: c.tables, (u.fields.map Field.name).Nodup) : c.FieldsDistinct t := by
  intro u hu
  rcases hu.known with rfl | hmem | hnone
  · exact h u List.mem_cons_self
  · exact h u (List.mem_cons_of_mem _ hmem)
  · simp [hnone]

theorem Table.associations_fst (t : Table) :
    t.associations.map Prod.fst = (t.fields.filter fun f => !f.isScalar).map Field.name := by
  unfold associations
  induction t.fields with
  | nil => rfl
  | cons f rest ih =>
    cases hk : f.kind with
    | scalar type =>
      have hassociation : f.association? = none := by rw [Field.association?, hk]
      have hscalar : f.isScalar = true := by rw [Field.isScalar, hk]
      simpa [hassociation, hscalar] using ih
    | association a =>
      have hassociation : f.association? = some a := by rw [Field.association?, hk]
      have hscalar : f.isScalar = false := by rw [Field.isScalar, hk]
      simpa [hassociation, hscalar] using ih

/-- The names of the tables joined to one are those of its associations. -/
theorem JoinTree.Unfolds.map_joined (h : j.Unfolds c) :
    j.joined.map (fun x => x.1.1) = j.table.associations.map Prod.fst := by
  cases h with
  | @mk t _ _ joined associations _ _ =>
    show joined.map (fun x => x.1.1) = t.associations.map Prod.fst
    rw [← associations, List.map_map]
    rfl

/-- Where the fields of a table have distinct names, so have the tables joined to it. -/
theorem JoinTree.Unfolds.nodup_joined (h : j.Unfolds c)
    (hfields : (j.table.fields.map Field.name).Nodup) : (j.joined.map fun x => x.1.1).Nodup := by
  rw [h.map_joined, Table.associations_fst]
  exact hfields.sublist (List.filter_sublist.map Field.name)

theorem JoinTree.Unfolds.of_mem (h : j.Unfolds c) {x : (String × Association) × JoinTree}
    (hx : x ∈ j.joined) : x.2.Unfolds c ∧ x.2.table ∈ c.targets j.table := by
  cases h with
  | mk associations tables each =>
    refine ⟨each x hx, ?_⟩
    rw [(tables x hx).1]
    exact List.mem_map_of_mem (associations ▸ List.mem_map_of_mem hx)

theorem JoinTree.Within.unfolds (hk : k.Within j) (h : j.Unfolds c) :
    k.Unfolds c ∧ c.Reaches j.table k.table := by
  induction hk with
  | refl => exact ⟨h, .refl _⟩
  | step hx _ ih =>
    obtain ⟨hunfolds, htarget⟩ := h.of_mem hx
    obtain ⟨hk, hreach⟩ := ih hunfolds
    exact ⟨hk, .step htarget hreach⟩

/-- **The names under a table are distinct if no two fields of a table below give one name.** -/
theorem names_nodup_iff (h : j.Unfolds c) (hfields : c.FieldsDistinct j.table) :
    j.names.Nodup ↔ ∀ k : JoinTree, k.Within j → ¬ k.Clash := by
  induction h with
  | @mk t tableAlias leading joined associations tables each ih =>
    have hj : (JoinTree.mk t tableAlias leading joined).Unfolds c := .mk associations tables each
    have ih := fun x hx => ih x hx (hfields.of_mem (hj.of_mem hx).2)
    constructor
    · intro hnames k hk hclash
      cases hk with
      | refl => exact hclash.not_nodup hnames
      | @step _ x hx hk =>
        rw [JoinTree.names_eq, List.nodup_append, List.nodup_flatMap] at hnames
        have hthrough := hnames.2.1.1 x hx
        exact (ih x hx).mp hthrough.of_map k hk hclash
    · intro hclash
      have htop := hclash _ (.refl _)
      have hdistinct : (t.fields.map Field.name).Nodup := hfields t (.refl t)
      have hjoined : (joined.map fun x => x.1.1).Nodup := hj.nodup_joined hdistinct
      rw [JoinTree.names_eq, List.nodup_append, List.nodup_flatMap]
      refine ⟨hdistinct.sublist (List.filter_sublist.map Field.name), ⟨?_, ?_⟩, ?_⟩
      · intro x hx
        refine (List.nodup_map_iff (append_right_injective _)).mpr ?_
        exact (ih x hx).mpr fun k hk => hclash k (.step hx hk)
      · refine List.Pairwise.imp_of_mem ?_ (List.pairwise_map.mp hjoined)
        intro x y hx hy hne
        exact JoinTree.disjoint_of_not_clash htop hx hy hne
      · rintro name hname other hother rfl
        obtain ⟨f, hf, rfl⟩ := List.mem_map.mp hname
        obtain ⟨x, hx, hthrough⟩ := List.mem_flatMap.mp hother
        obtain ⟨n, hn, heq⟩ := List.mem_map.mp hthrough
        exact htop (.column hx hf heq.symm hn)

/-! ## What a row keeps -/

/-- The row of a result: the values of the columns under their names. -/
def JoinTree.resultRow (j : JoinTree) (values : List Value) : Row :=
  Row.ofColumns (j.labels.zip values)

/-- A row keeps the value of each column under its name. -/
def JoinTree.Keeps (j : JoinTree) (values : List Value) : Prop :=
  ∀ e ∈ j.columns.zip values, (j.resultRow values).get? e.1.label = some e.2

theorem map_eq_map_some_iff {α β : Type} {f : α → Option β} {l : List α} {values : List β}
    (hlength : values.length = l.length) :
    l.map f = values.map some ↔ ∀ e ∈ l.zip values, f e.1 = some e.2 := by
  induction l generalizing values with
  | nil =>
    obtain rfl := List.eq_nil_of_length_eq_zero hlength
    simp
  | cons x rest ih =>
    cases values with
    | nil => exact nomatch hlength
    | cons v values =>
      have hrest : values.length = rest.length := by simpa using hlength
      have ih := ih hrest
      simp only [List.map_cons, List.cons.injEq, List.zip_cons_cons, List.forall_mem_cons, ih]

theorem keeps_iff {values : List Value} (hlength : values.length = j.columns.length) :
    j.Keeps values ↔ j.labels.map (j.resultRow values).get? = values.map some := by
  rw [JoinTree.labels, List.map_map, map_eq_map_some_iff hlength]
  exact Iff.rfl

/-- **The names are distinct if a row keeps every column**, whatever the values are. -/
theorem labels_nodup_iff_keeps (j : JoinTree) :
    j.labels.Nodup ↔ ∀ values : List Value, values.length = j.columns.length → j.Keeps values := by
  have hlabels : j.labels.length = j.columns.length := by simp [JoinTree.labels]
  constructor
  · intro h values hlength
    exact (keeps_iff hlength).mpr (map_get?_ofColumns h (hlabels.trans hlength.symm))
  · intro hkept
    rw [List.Nodup, List.pairwise_iff_getElem]
    intro p q hp hq hlt heq
    -- a value at the later of two places is not found under the name
    let values := (List.range j.columns.length).map fun r =>
      if r = q then Value.bool true else .null
    have hlength : values.length = j.columns.length := by simp [values]
    have hvalues := (keeps_iff hlength).mp (hkept values hlength)
    have hcell : ∀ r (hr : r < j.labels.length), (j.resultRow values).get? j.labels[r] =
        some (if r = q then Value.bool true else .null) := by
      intro r hr
      have hr' := congrArg (fun l => l[r]?) hvalues
      simpa [values, hr, ← hlabels] using hr'
    have hp' := hcell p hp
    rw [heq, hcell q hq, if_pos rfl, if_neg (by omega)] at hp'
    exact absurd hp' (by decide)

/-- The columns of a joined table are among those of the select. -/
theorem JoinTree.columns_subset {x : (String × Association) × JoinTree} (hx : x ∈ j.joined) :
    x.2.columns ⊆ j.columns := by
  obtain ⟨t, tableAlias, leading, joined⟩ := j
  rw [columns, columnsAll_eq]
  exact fun col hcol => List.mem_append_right _ (List.mem_flatMap.mpr ⟨x, hx, hcol⟩)

/-- The columns of a table below are among those of the select. -/
theorem JoinTree.Within.ownColumns_subset (hk : k.Within j) :
    JoinTree.ownColumns k.table k.tableAlias k.leading ⊆ j.columns := by
  induction hk with
  | refl =>
    obtain ⟨t, tableAlias, leading, joined⟩ := k
    rw [JoinTree.columns]
    exact List.subset_append_left _ _
  | step hx _ ih => exact List.Subset.trans ih (columns_subset hx)

/-- Each table below is read from the values of its own columns. -/
def JoinTree.ReadsOwn (j : JoinTree) (values : List Value) : Prop :=
  ∀ k : JoinTree, k.Within j → ∀ f ∈ k.table.scalarFields, ∃ v,
    (⟨k.tableAlias, f.name, k.leading ++ f.name⟩, v) ∈ j.columns.zip values ∧
      (k.view (j.resultRow values)).cell? f.name = some v

theorem JoinTree.Keeps.readsOwn {values : List Value} (h : j.Keeps values)
    (hlength : values.length = j.columns.length) : j.ReadsOwn values := by
  intro k hk f hf
  have hcol := hk.ownColumns_subset (List.mem_map.mpr ⟨f, hf, rfl⟩)
  obtain ⟨p, hp, hcol⟩ := List.getElem_of_mem hcol
  have hvalue : p < values.length := hlength ▸ hp
  have hzip : p < (j.columns.zip values).length := by
    rw [List.length_zip]
    exact Nat.lt_min.mpr ⟨hp, hvalue⟩
  have hmem := List.getElem_mem hzip
  rw [List.getElem_zip, hcol] at hmem
  exact ⟨values[p], hmem, h _ hmem⟩

/-! ## The names of a select -/

/-- No field of a table goes on with `_` after the name of an association of the same table. -/
def Table.FieldsApart (t : Table) : Prop :=
  ∀ a ∈ t.associations, ∀ f ∈ t.fields, ∀ rest, f.name ≠ a.1 ++ "_" ++ rest

/-- Tables whose fields are apart do not clash. -/
theorem not_clash_of_fieldsApart (hk : k.Unfolds c) (h : k.table.FieldsApart) : ¬ k.Clash := by
  have hassociations := hk.map_joined
  have hname : ∀ x ∈ k.joined, ∃ a ∈ k.table.associations, a.1 = x.1.1 := by
    intro x hx
    have hmem : x.1.1 ∈ k.joined.map fun x => x.1.1 := List.mem_map.mpr ⟨x, hx, rfl⟩
    rw [hassociations] at hmem
    exact List.mem_map.mp hmem
  intro hclash
  cases hclash with
  | @column x f rest hx hf goesOn below =>
    obtain ⟨a, ha, hax⟩ := hname x hx
    exact h a ha f (List.mem_of_mem_filter hf) rest (hax ▸ goesOn)
  | @association x y rest n hx hy goesOn hn below =>
    obtain ⟨a, ha, hax⟩ := hname x hx
    obtain ⟨b, hb, hby⟩ := hname y hy
    have hfield : b.1 ∈ (k.table.fields.filter fun f => !f.isScalar).map Field.name :=
      k.table.associations_fst ▸ List.mem_map_of_mem hb
    obtain ⟨f, hf, hfb⟩ := List.mem_map.mp hfield
    refine h a ha f (List.mem_of_mem_filter hf) rest ?_
    rw [hfb, hby, goesOn, hax]

/-- **When the columns of a select have distinct names.** In tables with distinct field names they
have, if no two fields of a table reached give one name; that takes a field that goes on with `_`
after the name of an association beside it. A row then keeps every column, and each table is read
from its own; where two names are the same, some row does not keep a column. -/
theorem select_labels {m : Mapping} {sql : String} (hselect : m.select = .ok sql)
    (hfields : m.catalog.FieldsDistinct m.table) :
    ∃ j, m.joinTree = .ok j ∧
      sql = "select " ++ ", ".intercalate (j.columns.map JoinTree.ResultColumn.sql) ++ "\n" ++
        m.source j ∧
      (j.labels.Nodup ↔ ∀ k : JoinTree, k.Within j → ¬ k.Clash) ∧
      ((∀ u, m.catalog.Reaches m.table u → u.FieldsApart) → j.labels.Nodup) ∧
      (j.labels.Nodup ↔ ∀ values : List Value, values.length = j.columns.length →
        j.Keeps values ∧ j.ReadsOwn values) := by
  obtain ⟨j, hj, hsql⟩ := exists_of_bind_eq_ok hselect
  obtain ⟨hunfolds, htable, -⟩ := unfolds_of_build hj
  have hnames : j.labels.Nodup ↔ ∀ k : JoinTree, k.Within j → ¬ k.Clash :=
    (JoinTree.labels_nodup_iff_names hunfolds).trans (names_nodup_iff hunfolds (htable ▸ hfields))
  refine ⟨j, hj, (Except.ok.inj hsql).symm, hnames, ?_, ?_⟩
  · intro hapart
    refine hnames.mpr fun k hk => ?_
    obtain ⟨hk, hreach⟩ := hk.unfolds hunfolds
    exact not_clash_of_fieldsApart hk (hapart k.table (htable ▸ hreach))
  · rw [labels_nodup_iff_keeps]
    constructor
    · intro h values hlength
      exact ⟨h values hlength, (h values hlength).readsOwn hlength⟩
    · intro h values hlength
      exact (h values hlength).1

/-! ## A roster -/

namespace Roster

/-- Teams with a key and a name. -/
def team (key : String) : Table where
  entity := "Team"
  tableName := "teams"
  fields := [.ofType key { scalar := .int .int64 } { primaryKey := true },
    .ofType "name" { scalar := .text }]

/-- Players with the number of their team. -/
def player (key : String) : Table where
  entity := "Player"
  tableName := "players"
  fields := [.ofType "id" { scalar := .int .int64 } { primaryKey := true },
    .ofType "team_id" { scalar := .int .int64, nullable := true },
    .ofAssociation "team" ⟨.one, "team_id", key, "Team"⟩]

/-- Players and teams, with the name of the column that identifies a team. -/
def players (key : String) : Mapping :=
  ⟨⟨[player key, team key]⟩, player key, .of .sqlite⟩

end Roster

/-- Where teams are identified by `no`, each column of a player has a name of its own, though the
player has a field `team_id` beside the association `team`. -/
theorem select_labels_roster :
    ∃ j, (Roster.players "no").joinTree = .ok j ∧
      j.labels = ["id", "team_id", "team_no", "team_name"] ∧
      (∀ k : JoinTree, k.Within j → ¬ k.Clash) ∧
      ∀ values : List Value, values.length = j.columns.length → j.Keeps values ∧ j.ReadsOwn values := by
  obtain ⟨sql, hsql⟩ := exists_of_isOk (x := (Roster.players "no").select) (by decide +kernel)
  obtain ⟨j, hj, -, hclash, -, hkeeps⟩ := select_labels hsql
    (Catalog.fieldsDistinct_of_tables (by decide +kernel))
  have hlabels : (Roster.players "no").labels = ["id", "team_id", "team_no", "team_name"] := by
    decide +kernel
  simp only [Mapping.labels, hj] at hlabels
  have hnodup : j.labels.Nodup := by
    rw [hlabels]
    decide
  exact ⟨j, hj, hlabels, hclash.mp hnodup, hkeeps.mp hnodup⟩

/-- Where teams are identified by `id`, the reference `team_id` of a player and the key of the
team have one name. A player that refers to no stored team gets one nevertheless, though the join
gives nulls for it. -/
theorem labels_not_nodup_roster :
    (∃ sql, (Roster.players "id").select = .ok sql) ∧
      (Roster.players "id").catalog.FieldsDistinct (Roster.player "id") ∧
      ¬ (Roster.players "id").labels.Nodup ∧
      ∃ j, (Roster.players "id").joinTree = .ok j ∧
        (materialize (Roster.players "id").catalog (Roster.player "id")
          [j.resultRow [.int 1, .int 7, .null, .null]]).toOption.map
            (List.map fun o => o.children.map (List.map Object.values)) =
          some [[[[.int 7, .text ""]]]] := by
  refine ⟨exists_of_isOk (by decide +kernel), Catalog.fieldsDistinct_of_tables (by decide +kernel),
    by decide +kernel, ?_⟩
  obtain ⟨sql, hsql⟩ := exists_of_isOk (x := (Roster.players "id").select) (by decide +kernel)
  obtain ⟨j, hj, -⟩ := exists_of_bind_eq_ok hsql
  refine ⟨j, hj, ?_⟩
  have hlabels : (Roster.players "id").labels = ["id", "team_id", "team_id", "team_name"] := by
    decide +kernel
  simp only [Mapping.labels, hj] at hlabels
  rw [JoinTree.resultRow, hlabels]
  decide +kernel

end EntityMapper
