import EntityMapper.Proofs.Join.Product
import EntityMapper.Proofs.Session.Commands
import EntityMapper.Proofs.Statement.Placeholders
import EntityMapper.Statement

/-!
# The placeholders of statements

Where the names of tables and fields are identifiers, the placeholders of a statement are those that
are written for its columns, and whatever is made of names alone has none.

* `Table.Spelled`, `Mapping.Spelled` — the names of tables and fields are identifiers
* `Mapping.Spelled.select`, `countAll` — what reads joined tables has no placeholders
* `Mapping.Spelled.createTable`, `dropTable`, `truncate` — nor have definitions
* `Mapping.Spelled.insert`, `update`, `delete`, `reload`, `existenceCheck` — the statements of one
  object have those of its columns
* `Mapping.Spelled.predicate` — the placeholders of a predicate are its parameters
-/

namespace EntityMapper

open JoinTree (ResultColumn Join)

/-! ## Names of tables -/

/-- The names of a table and its database, of its fields and of the columns that its associations
join are identifiers. -/
structure Table.Spelled (t : Table) : Prop where
  tableName : IsIdentifier t.tableName
  database : ∀ b, t.database = some b → IsIdentifier b.name
  fields : ∀ f ∈ t.fields, IsIdentifier f.name
  associations : ∀ a ∈ t.associations,
    IsIdentifier a.2.parentColumn ∧ IsIdentifier a.2.childColumn ∧ IsIdentifier a.2.target

variable {c : Catalog} {t : Table} {m : Mapping} {j : JoinTree} {sql : String}

namespace Table.Spelled

theorem field (h : t.Spelled) {f : Field} (hf : f ∈ t.scalarFields) : IsIdentifier f.name :=
  h.fields f (List.mem_of_mem_filter hf)

theorem association (h : t.Spelled) {a : String × Association} (ha : a ∈ t.associations) :
    IsIdentifier a.1 := by
  obtain ⟨f, hf, hmap⟩ := List.mem_filterMap.mp ha
  obtain ⟨b, -, rfl⟩ := Option.map_eq_some_iff.mp hmap
  exact h.fields f hf

/-- The name in SQL has no marker, be it behind that of a database. -/
theorem name (h : t.Spelled) : IsPlain t.name := by
  unfold Table.name
  split
  · next database hdatabase =>
    have htext : s!"{database}.{t.tableName}" = database ++ "." ++ t.tableName := rfl
    rw [htext]
    simp +decide only [isPlain_append, (h.database _ hdatabase).plain, h.tableName.plain]
  · exact h.tableName.plain

end Table.Spelled

/-- A catalog whose tables have identifiers for names, and so has one that it does not know. -/
theorem Catalog.spelled_table (h : ∀ t ∈ c.tables, t.Spelled) {typeId : String}
    (htypeId : IsIdentifier typeId) : (c.table typeId).Spelled := by
  unfold Catalog.table
  cases hfind : c.find? typeId with
  | some t => exact h t (List.mem_of_find?_eq_some hfind)
  | none =>
    exact ⟨htypeId, fun _ h => (nomatch h), fun _ h => absurd h List.not_mem_nil,
      fun _ h => absurd h List.not_mem_nil⟩

/-! ## Joined tables -/

/-- The names, aliases and joined columns of a select are identifiers. -/
inductive JoinTree.Spelled : JoinTree → Prop
  | mk {t : Table} {tableAlias leading : String} {joined : List ((String × Association) × JoinTree)}
      (table : t.Spelled) (named : IsIdentifier tableAlias) (started : IsIdentifier leading)
      (joins : ∀ x ∈ joined, IsIdentifier x.1.2.parentColumn ∧ IsIdentifier x.1.2.childColumn)
      (each : ∀ x ∈ joined, Spelled x.2) : Spelled (.mk t tableAlias leading joined)

/-- A select of tables with identifiers for names has identifiers for names. -/
theorem spelled_of_build (hc : ∀ t ∈ c.tables, t.Spelled) (ht : t.Spelled)
    {tableAlias leading : String} (halias : IsIdentifier tableAlias)
    (hleading : IsIdentifier leading)
    {path : List String} (h : JoinTree.build c t tableAlias leading path = .ok j) : j.Spelled := by
  refine build_induction (motive := fun t tableAlias leading j =>
    t.Spelled → IsIdentifier tableAlias → IsIdentifier leading → j.Spelled) ?_ h ht halias hleading
  intro t tableAlias leading joined hassociations each ht halias hleading
  have hmem : ∀ x ∈ joined, x.1 ∈ t.associations :=
    fun x hx => hassociations ▸ List.mem_map_of_mem hx
  refine .mk ht halias hleading (fun x hx => ?_) fun x hx => ?_
  · obtain ⟨hparent, hchild, -⟩ := ht.associations x.1 (hmem x hx)
    exact ⟨hparent, hchild⟩
  · obtain ⟨-, -, htarget⟩ := ht.associations x.1 (hmem x hx)
    have halias : IsIdentifier (leading ++ x.1.1) := hleading.append (ht.association (hmem x hx))
    exact each x hx (Catalog.spelled_table hc htarget) halias (halias.append (by decide))

theorem JoinTree.Spelled.top (h : j.Spelled) : j.table.Spelled ∧ IsIdentifier j.tableAlias := by
  cases h with
  | mk table halias => exact ⟨table, halias⟩

theorem JoinTree.Spelled.columns (h : j.Spelled) : ∀ col ∈ j.columns, IsPlain col.sql := by
  induction h with
  | @mk t tableAlias leading joined table halias hleading joins each ih =>
    intro col hcol
    rw [JoinTree.columns, JoinTree.columnsAll_eq, List.mem_append] at hcol
    rcases hcol with hcol | hcol
    · obtain ⟨f, hf, rfl⟩ := List.mem_map.mp hcol
      have hname := table.field hf
      have htext : (⟨tableAlias, f.name, leading ++ f.name⟩ : ResultColumn).sql =
        tableAlias ++ "." ++ f.name ++ " as " ++ (leading ++ f.name) := rfl
      rw [htext]
      simp +decide only [isPlain_append, halias.plain, hleading.plain, hname.plain]
    · obtain ⟨x, hx, hcol⟩ := List.mem_flatMap.mp hcol
      exact ih x hx col hcol

theorem JoinTree.Spelled.joins (h : j.Spelled) : ∀ join ∈ j.joins, IsPlain join.sql := by
  induction h with
  | @mk t tableAlias leading joined table halias hleading joins each ih =>
    intro join hjoin
    rw [JoinTree.joins, JoinTree.joinsAll_eq] at hjoin
    obtain ⟨x, hx, hjoin⟩ := List.mem_flatMap.mp hjoin
    rcases List.mem_cons.mp hjoin with rfl | hjoin
    · obtain ⟨hparent, hchild⟩ := joins x hx
      obtain ⟨htop, halias'⟩ := (each x hx).top
      have htext : (JoinTree.joinOf tableAlias x).sql =
        "left join " ++ x.2.table.name ++ " " ++ x.2.tableAlias ++ " on " ++ x.2.tableAlias ++ "." ++
          x.1.2.childColumn ++ " = " ++ tableAlias ++ "." ++ x.1.2.parentColumn := rfl
      rw [htext]
      simp +decide only [isPlain_append, htop.name, halias'.plain, hchild.plain, hparent.plain,
        halias.plain]
    · exact ih x hx join hjoin

/-! ## Statements of names -/

/-- The names of the table and of all tables of the catalog are identifiers. -/
structure Mapping.Spelled (m : Mapping) : Prop where
  table : m.table.Spelled
  catalog : ∀ t ∈ m.catalog.tables, t.Spelled

namespace Mapping.Spelled

theorem rootAlias (h : m.Spelled) : ∀ a, some m.rootAlias = some a → IsIdentifier a :=
  fun _ ha => Option.some.inj ha ▸ h.table.tableName

theorem joinTree (h : m.Spelled) (hj : m.joinTree = .ok j) : j.Spelled :=
  spelled_of_build h.catalog h.table h.table.tableName (show IsIdentifier "" from rfl) hj

theorem source (h : m.Spelled) (hj : m.joinTree = .ok j) : IsPlain (m.source j) := by
  have hfrom : IsPlain m.fromClause := by
    unfold fromClause
    split
    · exact h.table.name
    · simp +decide only [isPlain_append, h.table.name, Mapping.rootAlias, h.table.tableName.plain]
  have hjoins : ∀ joins : List Join, (∀ join ∈ joins, IsPlain join.sql) →
      IsPlain (String.join (joins.map fun join => "\n" ++ join.sql)) := by
    intro joins hplain
    induction joins with
    | nil => exact rfl
    | cons join rest ih =>
      rw [List.map_cons, String.join_cons, isPlain_append, isPlain_append]
      exact ⟨⟨by decide, hplain join List.mem_cons_self⟩,
        ih fun join hjoin => hplain join (List.mem_cons_of_mem _ hjoin)⟩
  rw [Mapping.source, isPlain_append, isPlain_append]
  exact ⟨⟨by decide, hfrom⟩, hjoins _ (h.joinTree hj).joins⟩

/-- The select of all joined columns has no placeholders. -/
theorem select (h : m.Spelled) (hsql : m.select = .ok sql) : IsPlain sql := by
  unfold Mapping.select at hsql
  obtain ⟨j, hj, hsql⟩ := exists_of_bind_eq_ok hsql
  obtain rfl := Except.ok.inj hsql
  have hcolumns : IsPlain (", ".intercalate (j.columns.map ResultColumn.sql)) :=
    .intercalate (by decide) (List.forall_mem_map.mpr (h.joinTree hj).columns)
  simp +decide only [isPlain_append, hcolumns, h.source hj]

/-- The count of all joined rows has no placeholders. -/
theorem countAll (h : m.Spelled) (hj : m.joinTree = .ok j) : IsPlain (m.countAll j) := by
  unfold Mapping.countAll
  rw [isPlain_append, isPlain_append, isPlain_append]
  exact ⟨⟨⟨by decide, by decide⟩, by decide⟩, h.source hj⟩

/-- The definition of the table has no placeholders. -/
theorem createTable (h : m.Spelled) {database : Database} (hd : m.dialect = .of database) :
    IsPlain m.createTable := by
  have hcolumn : ∀ f ∈ m.table.scalarFields, IsPlain (m.columnDefinition f) := by
    intro f hf
    have hname := (h.table.field hf).plain
    have hidentity : IsPlain m.dialect.identityColumn := by
      rw [hd]
      cases database <;> decide
    have htype : IsPlain (m.dialect.columnType f.valueType) := by
      rw [hd]
      cases database <;> cases f.valueType <;> decide
    unfold columnDefinition
    split
    · have htext : s!"{f.name} {m.dialect.identityColumn}" =
        f.name ++ " " ++ m.dialect.identityColumn := rfl
      rw [htext]
      simp +decide only [isPlain_append, hname, hidentity]
    · have htext : s!"{f.name} {m.dialect.columnType f.valueType} " =
        f.name ++ " " ++ m.dialect.columnType f.valueType ++ " " := rfl
      rw [htext, isPlain_append]
      refine ⟨by simp +decide only [isPlain_append, hname, htype], ?_⟩
      split <;> decide
  have hkey : IsPlain (", ".intercalate (m.table.primaryKey.map Field.name)) :=
    .intercalate (by decide) <| List.forall_mem_map.mpr fun f hf =>
      (h.table.field (List.mem_of_mem_filter hf)).plain
  have hlines : IsPlain (",\n    ".intercalate m.definitionLines) := by
    refine .intercalate (by decide) fun line hline => ?_
    rw [definitionLines, List.mem_append] at hline
    rcases hline with hline | hline
    · obtain ⟨f, hf, rfl⟩ := List.mem_map.mp hline
      exact hcolumn f hf
    · split at hline
      · obtain rfl := List.mem_singleton.mp hline
        simp +decide only [isPlain_append, hkey]
      · cases hline
  have htext : m.createTable = "create table " ++ m.table.name ++ " (\n    " ++
    ",\n    ".intercalate m.definitionLines ++ "\n)" := rfl
  rw [htext]
  simp +decide only [isPlain_append, h.table.name, hlines]

theorem dropTable (h : m.Spelled) : IsPlain m.dropTable := by
  have htext : m.dropTable = "drop table " ++ m.table.name := rfl
  rw [htext]
  simp +decide only [isPlain_append, h.table.name]

theorem truncate (h : m.Spelled) : IsPlain m.truncate := by
  have hdelete : s!"delete from {m.table.name}" = "delete from " ++ m.table.name := rfl
  have htruncate : s!"truncate table {m.table.name}" = "truncate table " ++ m.table.name := rfl
  unfold Mapping.truncate
  rw [hdelete, htruncate]
  split <;> simp +decide only [isPlain_append, h.table.name]

/-! ## Statements of one object -/

/-- Columns that are set to or compared with their parameters, each behind a text without markers,
have the placeholders of the columns. -/
theorem equations (hd : m.dialect.Marks) {separator : String} (hseparator : IsSeparator separator)
    {fields : List Field} {text : Field → String} (htext : ∀ f ∈ fields, IsPlain (text f))
    (hfields : ∀ f ∈ fields, IsIdentifier f.name) :
    m.dialect.placeholders (separator.intercalate
      (fields.map fun f => text f ++ " = " ++ m.placeholder f)) = fields.map Field.name := by
  rw [Dialect.placeholders_intercalate hd hseparator, List.flatMap_map]
  induction fields with
  | nil => rfl
  | cons f rest ih =>
    have hplaceholder : m.dialect.placeholders (m.placeholder f) = [f.name] :=
      Dialect.placeholders_placeholder hd (hfields f List.mem_cons_self)
    rw [List.flatMap_cons, Dialect.placeholders_between hd (by decide),
      Dialect.placeholders_plain hd (htext f List.mem_cons_self), hplaceholder,
      ih (fun g hg => htext g (List.mem_cons_of_mem _ hg))
        fun g hg => hfields g (List.mem_cons_of_mem _ hg)]
    rfl

/-- The placeholders of a condition on the key are the key columns. -/
theorem keyCondition (h : m.Spelled) (hd : m.dialect.Marks) {qualifier : Option String}
    (hqualifier : ∀ q, qualifier = some q → IsIdentifier q) :
    m.dialect.placeholders (m.keyCondition qualifier) = m.table.primaryKey.map Field.name := by
  have hkey : ∀ f ∈ m.table.primaryKey, IsIdentifier f.name :=
    fun f hf => h.table.field (List.mem_of_mem_filter hf)
  exact equations hd (by decide) (fun f hf => isPlain_columnText hqualifier (hkey f hf)) hkey

/-- The same for a condition without a qualifier. -/
theorem bareKeyCondition (h : m.Spelled) (hd : m.dialect.Marks) :
    m.dialect.placeholders (m.keyCondition none) = m.table.primaryKey.map Field.name :=
  h.keyCondition hd nofun

/-- The placeholders of a reload are the key columns. -/
theorem reload (h : m.Spelled) (hd : m.dialect.Marks) (hsql : m.reload = .ok sql) :
    m.dialect.placeholders sql = m.table.primaryKey.map Field.name := by
  unfold Mapping.reload at hsql
  obtain ⟨_, -, hsql⟩ := exists_of_bind_eq_ok hsql
  obtain ⟨select, hselect, hsql⟩ := exists_of_bind_eq_ok hsql
  obtain rfl := Except.ok.inj hsql
  have hkey : m.dialect.placeholders (m.keyCondition (some m.rootAlias)) =
      m.table.primaryKey.map Field.name :=
    h.keyCondition hd h.rootAlias
  rw [Dialect.placeholders_between hd (by decide), Dialect.placeholders_plain hd (h.select hselect),
    hkey, List.nil_append]

/-- The placeholders of an existence check are the key columns. -/
theorem existenceCheck (h : m.Spelled) (hd : m.dialect.Marks) (hsql : m.existenceCheck = .ok sql) :
    m.dialect.placeholders sql = m.table.primaryKey.map Field.name := by
  unfold Mapping.existenceCheck at hsql
  obtain ⟨_, -, hsql⟩ := exists_of_bind_eq_ok hsql
  obtain rfl := Except.ok.inj hsql
  have hhead : IsPlain ("select count(0) as " ++ countAlias ++ " from " ++ m.table.name) := by
    simp +decide only [isPlain_append, h.table.name]
  rw [Dialect.placeholders_between hd (by decide), Dialect.placeholders_plain hd hhead,
    h.bareKeyCondition hd, List.nil_append]

/-- The placeholders of a deletion are the key columns. -/
theorem delete (h : m.Spelled) (hd : m.dialect.Marks) (hsql : m.delete = .ok sql) :
    m.dialect.placeholders sql = m.table.primaryKey.map Field.name := by
  unfold Mapping.delete at hsql
  obtain ⟨_, -, hsql⟩ := exists_of_bind_eq_ok hsql
  obtain rfl := Except.ok.inj hsql
  have htext : s!"delete from {m.table.name}\nwhere " =
      "delete from " ++ m.table.name ++ "\nwhere " := rfl
  have hhead : IsPlain ("delete from " ++ m.table.name ++ "\nwhere ") := by
    simp +decide only [isPlain_append, h.table.name]
  rw [htext, Dialect.placeholders_append_plain hd hhead, h.bareKeyCondition hd]

theorem updateColumns_sublist_scalarFields (m : Mapping) :
    m.updateColumns.Sublist m.table.scalarFields := by
  unfold updateColumns
  dsimp only
  split
  · exact List.filter_sublist
  · exact List.filter_sublist

/-- The placeholders of an update are the columns that it sets and the key columns. -/
theorem update (h : m.Spelled) (hd : m.dialect.Marks) (hsql : m.update = .ok sql) :
    m.dialect.placeholders sql =
      m.updateColumns.map Field.name ++ m.table.primaryKey.map Field.name := by
  unfold Mapping.update at hsql
  obtain ⟨_, -, hsql⟩ := exists_of_bind_eq_ok hsql
  obtain rfl := Except.ok.inj hsql
  have htext : s!"update {m.table.name} set " = "update " ++ m.table.name ++ " set " := rfl
  have hhead : IsPlain ("update " ++ m.table.name ++ " set ") := by
    simp +decide only [isPlain_append, h.table.name]
  have hset : ∀ f ∈ m.updateColumns, IsIdentifier f.name :=
    fun f hf => h.table.field ((updateColumns_sublist_scalarFields m).subset hf)
  rw [htext, Dialect.placeholders_between hd (by decide),
    Dialect.placeholders_append_plain hd hhead,
    equations hd (by decide) (fun f hf => (hset f hf).plain) hset, h.bareKeyCondition hd]

/-- The placeholders of an insert are the columns that it writes. -/
theorem insert (h : m.Spelled) (hd : m.dialect.Marks) (ignoreAutomatic : Bool) :
    m.dialect.placeholders (m.insert ignoreAutomatic) =
      (m.insertColumns ignoreAutomatic).map Field.name := by
  have hcolumns : ∀ f ∈ m.insertColumns ignoreAutomatic, IsIdentifier f.name :=
    fun f hf => h.table.field (List.mem_of_mem_filter hf)
  have hnames : ∀ name ∈ (m.insertColumns ignoreAutomatic).map Field.name, IsIdentifier name :=
    List.forall_mem_map.mpr hcolumns
  have htext : m.insert ignoreAutomatic = "insert into " ++ m.table.name ++ " (" ++
      ", ".intercalate ((m.insertColumns ignoreAutomatic).map Field.name) ++ ") values (" ++
      ", ".intercalate (((m.insertColumns ignoreAutomatic).map Field.name).map
        m.dialect.placeholder) ++ ")" := by
    rw [List.map_map]
    rfl
  have hhead : IsPlain ("insert into " ++ m.table.name ++ " (" ++
      ", ".intercalate ((m.insertColumns ignoreAutomatic).map Field.name) ++ ") values (") := by
    have hlist : IsPlain (", ".intercalate ((m.insertColumns ignoreAutomatic).map Field.name)) :=
      .intercalate (by decide) fun name hname => (hnames name hname).plain
    simp +decide only [isPlain_append, h.table.name, hlist]
  rw [htext, Dialect.placeholders_append_separator hd (by decide),
    Dialect.placeholders_append_plain hd hhead, Dialect.placeholders_list hd (by decide) hnames]

/-! ## Predicates -/

variable {rootAlias : Option String} {e : Expr} {p : CompiledPredicate}

/-- The names that predicates are resolved against are identifiers. -/
theorem allNames (h : m.Spelled) (halias : ∀ a, rootAlias = some a → IsIdentifier a) :
    Scope.AllNames IsIdentifier ⟨m.catalog, m.table, rootAlias⟩ :=
  Scope.allNames_of_tables
    (List.forall_mem_cons.mpr ⟨h.table.fields, fun t ht => (h.catalog t ht).fields⟩) halias

/-- **The placeholders of a predicate are its parameters.** -/
theorem predicate (h : m.Spelled) (hd : m.dialect.Marks)
    (halias : ∀ a, rootAlias = some a → IsIdentifier a) (hp : m.compile rootAlias e = .ok p) :
    ∀ name ∈ m.dialect.placeholders p.text, ∃ v, p.parameters.lookup name = some v := by
  obtain ⟨c, values, hc, htext, hparameters⟩ := compile_cases hp
  have hdraws := draws_condition e hc
  intro name hname
  rw [htext, Dialect.placeholders_condition hd (by decide) fun col hcol => ?_] at hname
  · obtain ⟨i, hi, rfl⟩ := List.mem_map.mp hname
    refine ⟨values.get ⟨i, hdraws.parameters i hi⟩, ?_⟩
    rw [hparameters, lookup_namedParameters]
    exact List.getElem?_eq_getElem (hdraws.parameters i hi)
  · obtain ⟨path, -, hpath⟩ := hdraws.columns col hcol
    exact (h.allNames halias).isPlain_column hpath

/-- A condition behind a text without markers has the placeholders of the predicate. -/
theorem filtered (hd : m.dialect.Marks) {head : String} (hhead : IsPlain head)
    (p : Option CompiledPredicate) : m.dialect.placeholders (Mapping.filtered head p) =
      p.elim [] fun p => m.dialect.placeholders p.text := by
  cases p with
  | none => exact Dialect.placeholders_plain hd hhead
  | some p =>
    by_cases hempty : p.text = ""
    · have hfiltered : Mapping.filtered head (some p) = head :=
        if_pos (by rw [CompiledPredicate.isEmpty, hempty]; rfl)
      rw [hfiltered, Dialect.placeholders_plain hd hhead, Option.elim_some, hempty]
      rfl
    · rw [filtered_some hempty, Dialect.placeholders_between hd (by decide),
        Dialect.placeholders_plain hd hhead, List.nil_append, Option.elim_some]

end Mapping.Spelled

end EntityMapper
