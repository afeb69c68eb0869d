import EntityMapper.Backend.Scripted
import EntityMapper.Proofs.Session.Operations
import EntityMapper.Proofs.Session.Restore
import EntityMapper.Proofs.Statement.Spelled

/-!
# Every placeholder is bound

A placeholder that nothing is bound to is null to most databases, and then an update matches nothing
and an insert stores nothing. There is no such placeholder: each one in the text of a command is the
name of one binding, and the value of that comes from where it should.

* `Command.Binds` — a name is bound once, to a value
* `Operation.Source.Has` — the value that a predicate or an object has for a name
* `sent_bound` — every command that an operation sends is fully bound
-/

namespace EntityMapper

open Program Session

variable {m : Mapping} {c : Command} {t : Table} {o : Object} {name : String} {v : Value}

/-! ## Bindings -/

/-- One binding of a command has a name, and it has a value. -/
def Command.Binds (c : Command) (name : String) (v : Value) : Prop :=
  c.bindings.filter (fun b => b.1 == name) = [(name, v)]

/-- The first bindings of names have different names. -/
theorem nodup_firstOfEach (bindings : List (String × Value)) :
    ((Command.firstOfEach bindings).map Prod.fst).Nodup := by
  -- what is seen already has different names, and stays so
  have hfold : ∀ seen : List (String × Value), (seen.map Prod.fst).Nodup →
      ((bindings.foldl (fun seen b => if seen.any (fun s => s.1 == b.1) then seen else seen ++ [b])
        seen).map Prod.fst).Nodup := by
    induction bindings with
    | nil => exact fun seen hseen => hseen
    | cons b rest ih =>
      intro seen hseen
      rw [List.foldl_cons]
      refine ih _ ?_
      split
      · exact hseen
      · next hnew =>
        rw [List.map_append, List.map_singleton, List.nodup_append]
        refine ⟨hseen, List.nodup_singleton _, ?_⟩
        rintro k hk l hl rfl
        obtain rfl := List.mem_singleton.mp hl
        obtain ⟨s, hs, heq⟩ := List.mem_map.mp hk
        exact hnew (List.any_eq_true.mpr ⟨s, hs, beq_iff_eq.mpr heq⟩)
  exact hfold [] List.nodup_nil

/-- Among entries with different names one has the name that is looked up. -/
theorem filter_eq_of_lookup {l : List (String × Value)} (hnodup : (l.map Prod.fst).Nodup)
    (h : l.lookup name = some v) : l.filter (fun b => b.1 == name) = [(name, v)] := by
  induction l with
  | nil => cases h
  | cons b rest ih =>
    obtain ⟨k, w⟩ := b
    rw [List.map_cons, List.nodup_cons] at hnodup
    rw [Row.lookup_cons_eq] at h
    by_cases hk : name = k
    · rw [if_pos hk] at h
      obtain rfl := Option.some.inj h
      have hrest : rest.filter (fun b => b.1 == name) = [] := by
        rw [List.filter_eq_nil_iff]
        intro b hb heq
        refine hnodup.1 (List.mem_map.mpr ⟨b, hb, ?_⟩)
        rw [beq_iff_eq.mp heq, hk]
      rw [List.filter_cons_of_pos (by simp [hk]), hrest, hk]
    · rw [if_neg hk] at h
      rw [List.filter_cons_of_neg (by simpa using Ne.symm hk), ih hnodup.2 h]

/-- What is bound to a name that is looked up among parameters and columns. -/
theorem binds_of_lookup (h : (c.parameters ++ c.row.elim [] Row.columns).lookup name = some v) :
    c.Binds name v := by
  refine filter_eq_of_lookup (nodup_firstOfEach _) ?_
  rw [Command.bindings, lookup_firstOfEach]
  exact h

/-! ## Parameters of predicates -/

/-- No name with a prefix starts with an object and a point, which would be taken off. -/
def Command.Spares (object leading : String) : Prop :=
  ¬ (object ++ ".").toList <+: ("p" ++ leading).toList

/-- No object is in front of names that have no point. -/
theorem spares_of_isIdentifier {leading : String} (h : IsIdentifier leading) (object : String) :
    Command.Spares object leading := by
  intro hprefix
  have hmem : '.' ∈ ("p" ++ leading).toList := hprefix.subset (by simp)
  have hname := List.all_eq_true.mp (IsIdentifier.append (show IsIdentifier "p" by decide) h) _ hmem
  exact absurd hname (by decide)

/-- The names of parameters have no object in front that could be taken off. -/
theorem bareName_parameterName {object leading : String} (h : Command.Spares object leading)
    (i : Nat) : Command.bareName object (parameterName leading i) = parameterName leading i := by
  have hname : (parameterName leading i).toList = ("p" ++ leading).toList ++ natDigits i := by
    simp [parameterName]
  unfold Command.bareName
  dsimp only
  rw [if_neg]
  intro hprefixed
  obtain ⟨rest, hrest⟩ := List.isPrefixOf_iff_prefix.mp hprefixed
  rw [hname] at hrest
  rcases List.append_eq_append_iff.mp hrest with ⟨more, hmore, -⟩ | ⟨digits, hdigits, hnumber⟩
  · exact h ⟨more, by rw [String.toList_append]; exact hmore.symm⟩
  · -- what is taken off would end among the digits
    cases List.eq_nil_or_concat digits with
    | inl hnil =>
      rw [hnil, List.append_nil] at hdigits
      exact h ⟨[], by rw [String.toList_append, List.append_nil]; exact hdigits⟩
    | inr hlast =>
      obtain ⟨init, c, rfl⟩ := hlast
      rw [List.concat_eq_append, ← List.append_assoc] at hdigits
      obtain ⟨-, hpoint⟩ := List.append_inj' hdigits rfl
      have hdigit : c.isDigit = true := isDigit_natDigits (n := i) (by rw [hnumber]; simp)
      rw [← List.singleton_inj.mp hpoint] at hdigit
      exact absurd hdigit (by decide)

/-- A command adds the parameters of a predicate as they are named. -/
theorem withPredicate_parameters {p : CompiledPredicate} {leading : String} {values : List Value}
    (hp : p.parameters = namedParameters leading values) (h : Command.Spares c.object leading) :
    (c.withPredicate p).parameters = c.parameters ++ p.parameters := by
  have hbare : p.parameters.map (fun b => (Command.bareName c.object b.1, b.2)) = p.parameters := by
    rw [hp, namedParameters, List.map_map]
    refine List.map_congr_left fun b _ => ?_
    obtain ⟨w, i⟩ := b
    exact Prod.ext (bareName_parameterName h i) rfl
  rw [Command.withPredicate_eq]
  dsimp only
  rw [hbare]

/-- A command with a predicate binds the parameters of the predicate. -/
theorem binds_of_predicate {p : CompiledPredicate} {values : List Value}
    (hp : p.parameters = namedParameters "" values) (hc : c.parameters = [])
    (h : p.parameters.lookup name = some v) : (c.withPredicate p).Binds name v := by
  refine binds_of_lookup ?_
  rw [withPredicate_parameters hp (spares_of_isIdentifier (by decide) _), hc, List.nil_append,
    List.lookup_append, h, Option.some_or]

/-! ## Values of objects -/

/-- An object has a value for each column of a table. -/
def Table.Fills (t : Table) (o : Object) : Prop := o.values.length = t.scalarFields.length

theorem lookup_of_mem {l : List (Field × Datum)} (hnodup : (l.map fun e => e.1.name).Nodup)
    {f : Field} {d : Datum} (h : (f, d) ∈ l) :
    (l.map fun e => (e.1.name, e.2.toValue)).lookup f.name = some d.toValue := by
  induction l with
  | nil => exact absurd h List.not_mem_nil
  | cons e rest ih =>
    rw [List.map_cons, List.nodup_cons] at hnodup
    rw [List.map_cons, Row.lookup_cons_eq]
    rcases List.mem_cons.mp h with rfl | h
    · exact if_pos rfl
    · have hname : f.name ≠ e.1.name := fun heq =>
        hnodup.1 (heq ▸ List.mem_map.mpr ⟨(f, d), h, rfl⟩)
      rw [if_neg hname, ih hnodup.2 h]

theorem Table.Fills.map_entries (h : t.Fills o) :
    (t.entries o).map (fun e => e.1.name) = t.scalarFields.map Field.name := by
  have hfirst : (t.entries o).map Prod.fst = t.scalarFields :=
    List.map_fst_zip (le_of_eq h.symm)
  conv_rhs => rw [← hfirst]
  rw [List.map_map]
  rfl

/-- The command of an object binds the name of each column to the value that the object has in
it. -/
theorem binds_of_object {sql : Except SchemaError String} (h : objectCommand m sql o = .ok c)
    (hdistinct : (m.table.fields.map Field.name).Nodup) (hfills : m.table.Fills o)
    (hname : name ∈ m.table.scalarFields.map Field.name) :
    ∃ f d, (f, d) ∈ m.table.entries o ∧ f.name = name ∧ c.Binds name d.toValue := by
  have hscalar : (m.table.scalarFields.map Field.name).Nodup :=
    (List.filter_sublist.map Field.name).nodup hdistinct
  rw [← hfills.map_entries] at hname hscalar
  obtain ⟨⟨f, d⟩, hentry, rfl⟩ := List.mem_map.mp hname
  refine ⟨f, d, hentry, rfl, binds_of_lookup ?_⟩
  unfold objectCommand at h
  obtain ⟨sql, -, h⟩ := exists_of_bind_eq_ok h
  obtain ⟨row, hrow, h⟩ := exists_of_bind_eq_ok h
  obtain rfl := Except.ok.inj h
  have hlookup := get?_ofColumns ((m.table.entries o).map fun e => (e.1.name, e.2.toValue)) f.name
  rw [← toRow_eq_ok (mapError_eq_ok hrow), lookup_of_mem hscalar hentry] at hlookup
  exact hlookup

/-! ## Commands of operations -/

/-- The texts in which a call hands over its command. Where an identity is read back, the query for
it may stand behind the insert. -/
def Call.texts : Call → List String
  | .insertIdentity c lastIdentity => [c.text, (Scripted.combined c lastIdentity).text]
  | other => (other.command?.map Command.text).toList

/-- The value of a source for a name: the one that the predicate pairs with it, or the one that the
object has in the column of that name. -/
def Session.Operation.Source.Has (t : Table) : Operation.Source → String → Value → Prop
  | .predicate p, name, v => (name, v) ∈ p.parameters
  | .object o, name, v => ∃ f d, (f, d) ∈ t.entries o ∧ f.name = name ∧ d.toValue = v
  | .nothing, _, _ => False

/-- A command is fully bound in a text: each placeholder is the name of one binding, and the value
of that is the one that the source has for the name. -/
def Command.FullyBound (c : Command) (m : Mapping) (source : Operation.Source) (text : String) :
    Prop :=
  ∀ name ∈ m.dialect.placeholders text, ∃ v, source.Has m.table name v ∧ c.Binds name v

section Issued

variable {e : EntityType} {op : Operation} {call : Call} {source : Operation.Source}
  {condition : Option Expr} {rootAlias : Option String} {p : Option CompiledPredicate}

/-- A command without placeholders is fully bound. -/
theorem fullyBound_of_plain (hd : m.dialect.Marks) {text : String} (h : IsPlain text)
    (source : Operation.Source) : c.FullyBound m source text := by
  intro name hname
  rw [Dialect.placeholders_plain hd h] at hname
  exact absurd hname List.not_mem_nil

/-- A statement with a predicate behind it is fully bound. -/
theorem fullyBound_filtered (hm : m.Spelled) (hd : m.dialect.Marks) {head : String}
    (hhead : IsPlain head) (halias : ∀ a, rootAlias = some a → IsIdentifier a)
    (hp : m.compile? rootAlias condition = .ok p) :
    ((m.command (Mapping.filtered head p)).withPredicate? p).FullyBound m
      (.ofPredicate? p) (Mapping.filtered head p) := by
  intro name hname
  rw [Mapping.Spelled.filtered hd hhead] at hname
  cases condition with
  | none =>
    obtain rfl := Except.ok.inj hp
    exact absurd hname List.not_mem_nil
  | some e =>
    obtain ⟨q, rfl, hq⟩ := Mapping.compile?_some hp
    obtain ⟨v, hv⟩ := hm.predicate hd halias hq name hname
    obtain ⟨-, values, -, -, hvalues⟩ := compile_cases hq
    exact ⟨v, mem_of_lookup_eq_some hv, binds_of_predicate hvalues rfl hv⟩

/-- A statement over the columns of an object is fully bound. -/
theorem fullyBound_of_object {sql : Except SchemaError String} (h : objectCommand m sql o = .ok c)
    (hdistinct : (m.table.fields.map Field.name).Nodup) (hfills : m.table.Fills o)
    {fields : List Field} (hfields : fields ⊆ m.table.scalarFields) {text : String}
    (htext : m.dialect.placeholders text = fields.map Field.name) :
    c.FullyBound m (.object o) text := by
  intro name hname
  rw [htext] at hname
  obtain ⟨f, d, hentry, hf, hbinds⟩ :=
    binds_of_object h hdistinct hfills (List.map_subset _ hfields hname)
  exact ⟨d.toValue, ⟨f, d, hentry, hf, rfl⟩, hbinds⟩

/-- A statement that looks for the key of an object is fully bound. -/
theorem fullyBound_of_key {sql : Except SchemaError String} (h : objectCommand m sql o = .ok c)
    (hdistinct : (m.table.fields.map Field.name).Nodup) (hfills : m.table.Fills o)
    (htext : ∀ text, sql = .ok text →
      m.dialect.placeholders text = m.table.primaryKey.map Field.name) :
    c.FullyBound m (.object o) c.text :=
  fullyBound_of_object h hdistinct hfills List.filter_sublist.subset
    (htext _ (objectCommand_ok h).1)

/-- An update is fully bound. -/
theorem fullyBound_update (hm : m.Spelled) (hd : m.dialect.Marks)
    (hdistinct : (m.table.fields.map Field.name).Nodup) (hfills : m.table.Fills o)
    (h : objectCommand m m.update o = .ok c) : c.FullyBound m (.object o) c.text := by
  have hset := (Mapping.Spelled.updateColumns_sublist_scalarFields m).subset
  have hkey : m.table.primaryKey ⊆ m.table.scalarFields := List.filter_sublist.subset
  have htext := hm.update hd (objectCommand_ok h).1
  rw [← List.map_append] at htext
  exact fullyBound_of_object h hdistinct hfills (List.append_subset.mpr ⟨hset, hkey⟩) htext

/-- A query is fully bound. -/
theorem fullyBound_query (hm : m.Spelled) (hd : m.dialect.Marks)
    (h : queryCommand m condition = .ok c)
    (hp : m.compile? (some m.rootAlias) condition = .ok p) :
    c.FullyBound m (.ofPredicate? p) c.text := by
  obtain ⟨q, sql, hq, hsql, rfl⟩ := queryCommand_ok h
  obtain rfl := Except.ok.inj (hq.symm.trans hp)
  rw [Command.withPredicate?_text]
  exact fullyBound_filtered hm hd (hm.select hsql) hm.rootAlias hp

/-- A count is fully bound. -/
theorem fullyBound_count (hm : m.Spelled) (hd : m.dialect.Marks) {condition : Expr}
    {p : CompiledPredicate} (h : countCommand m condition = .ok c)
    (hp : m.compile (some m.rootAlias) condition = .ok p) :
    c.FullyBound m (.predicate p) c.text := by
  obtain ⟨q, j, hq, hj, rfl⟩ := countCommand_ok h
  obtain rfl := Except.ok.inj (hq.symm.trans hp)
  rw [Command.withPredicate_text]
  exact fullyBound_filtered hm hd (hm.countAll hj) hm.rootAlias (Mapping.compile?_of_compile hp)

/-- A deletion of many rows is fully bound. -/
theorem fullyBound_deleteAll (hm : m.Spelled) (hd : m.dialect.Marks)
    (h : deleteAllCommand m condition = .ok c) (hp : m.compile? none condition = .ok p) :
    c.FullyBound m (.ofPredicate? p) c.text := by
  obtain ⟨q, hq, rfl⟩ := deleteAllCommand_ok h
  obtain rfl := Except.ok.inj (hq.symm.trans hp)
  have hhead : IsPlain ("delete from " ++ m.table.name) := by
    simp +decide only [isPlain_append, hm.table.name]
  have hnone : ∀ a, (none : Option String) = some a → IsIdentifier a := fun _ heq => by cases heq
  rw [Command.withPredicate?_text]
  exact fullyBound_filtered hm hd hhead hnone hp

/-- An insert is fully bound in each of its texts. -/
theorem fullyBound_insert (hm : m.Spelled) {database : Database} (hd : m.dialect = .of database)
    (hdistinct : (m.table.fields.map Field.name).Nodup) (hfills : m.table.Fills o)
    {ignoreAutomatic : Bool} (h : objectCommand m (.ok (m.insert ignoreAutomatic)) o = .ok c) :
    ∀ text ∈ (insertCall m ignoreAutomatic c).texts, c.FullyBound m (.object o) text := by
  have hmarks : m.dialect.Marks := hd ▸ Dialect.marks_of database
  have hcolumns : m.insertColumns ignoreAutomatic ⊆ m.table.scalarFields :=
    List.filter_sublist.subset
  have htext :
      m.dialect.placeholders c.text = (m.insertColumns ignoreAutomatic).map Field.name := by
    rw [← Except.ok.inj (objectCommand_ok h).1]
    exact hm.insert hmarks ignoreAutomatic
  have hbound := fullyBound_of_object h hdistinct hfills hcolumns htext
  unfold insertCall
  cases hback : readBack? m ignoreAutomatic with
  | none =>
    intro text hmem
    obtain rfl := List.mem_singleton.mp hmem
    exact hbound
  | some identity =>
    obtain ⟨f, last⟩ := identity
    obtain ⟨-, -, hlast⟩ := readBack?_eq_some.mp hback
    intro text hmem
    rcases List.mem_cons.mp hmem with rfl | hmem
    · exact hbound
    · obtain rfl := List.mem_singleton.mp hmem
      -- the query for the identity has no placeholders
      have hplain : IsPlain last := by
        rw [hd] at hlast
        cases database with
        | oracle => cases hlast
        | mysql | postgresql | sqlite | sqlserver =>
          obtain rfl := Option.some.inj hlast
          decide
      have hcombined : m.dialect.placeholders (Scripted.combined c last).text =
          (m.insertColumns ignoreAutomatic).map Field.name := by
        rw [Scripted.combined, Dialect.placeholders_between hmarks (by decide),
          Dialect.placeholders_plain hmarks hplain, List.append_nil, htext]
      exact fullyBound_of_object h hdistinct hfills hcolumns hcombined

/-- Where a call hands its command over in one text, that is the text of the command. -/
theorem forall_mem_texts (hcall : call.texts = [c.text]) (hc : call.command? = some c)
    (h : c.FullyBound m source c.text) {d : Command} (hd : call.command? = some d) :
    ∀ text ∈ call.texts, d.FullyBound m source text := by
  obtain rfl := Option.some.inj (hc.symm.trans hd)
  intro text hmem
  rw [hcall] at hmem
  obtain rfl := List.mem_singleton.mp hmem
  exact h

/-- An insert is handed over with its command. -/
theorem command?_insertCall (m : Mapping) (ignoreAutomatic : Bool) (c : Command) :
    (insertCall m ignoreAutomatic c).command? = some c := by
  unfold insertCall
  cases readBack? m ignoreAutomatic <;> rfl

/-- The statements of names alone have no placeholders. -/
theorem Mapping.Spelled.definitions (hm : m.Spelled) {database : Database}
    (hd : m.dialect = .of database) (op : Operation) : ∀ sql ∈ op.definitions m, IsPlain sql := by
  have hcreate : IsPlain m.createTable := hm.createTable hd
  have hrecreate : ∀ sql ∈ [m.dropTable, m.createTable], IsPlain sql :=
    List.forall_mem_cons.mpr ⟨hm.dropTable, List.forall_mem_singleton.mpr hcreate⟩
  cases op with
  | createTable => exact List.forall_mem_singleton.mpr hcreate
  | dropTable => exact List.forall_mem_singleton.mpr hm.dropTable
  | truncate recreate =>
    cases recreate with
    | false => exact List.forall_mem_singleton.mpr hm.truncate
    | true => exact hrecreate
  | alterTable => exact hrecreate
  | _ => exact fun _ h => absurd h List.not_mem_nil

theorem Mapping.Spelled.backupCommand (hm : m.Spelled) : IsPlain (backupCommand m).text := by
  have htext : (Session.backupCommand m).text = "select * from " ++ m.table.name := rfl
  rw [htext, isPlain_append]
  exact ⟨by decide, hm.table.name⟩

/-- The objects of rows have a value for each column. -/
theorem fills_of_materialize {catalog : Catalog} {rows : List Row} {objects : List Object}
    (h : materialize catalog t rows = .ok objects) : ∀ o ∈ objects, t.Fills o := by
  intro o ho
  obtain ⟨g, -, hcompletes⟩ := exists_of_forall₂_mem (materialize_roots h) ho
  have hvalues : o.values = (t.seenFirst g).values := by rw [hcompletes]
  rw [Table.Fills, hvalues]
  unfold Table.seenFirst
  cases g.head? with
  | none => exact List.length_map _
  | some v => exact List.length_map _

/-- **The commands of every operation are fully bound**, in each text that they are handed over
in. -/
theorem Session.Operation.Issues.fullyBound (hissues : op.Issues e m call source) (hm : m.Spelled)
    {database : Database} (hd : m.dialect = .of database)
    (hdistinct : (m.table.fields.map Field.name).Nodup)
    (hobject : ∀ o, op.object? = some o → m.table.Fills o)
    (hkeys : ∀ o, m.table.Fills o → m.table.Fills (e.assignKeys o)) {c : Command}
    (hc : call.command? = some c) : ∀ text ∈ call.texts, c.FullyBound m source text := by
  have hmarks : m.dialect.Marks := hd ▸ Dialect.marks_of database
  have hkeyed : ∀ o, m.table.Fills o → m.table.Fills (keyed e m o) := by
    intro o ho
    unfold keyed
    split
    · exact hkeys o ho
    · exact ho
  cases hissues with
  | query command predicate | load command predicate =>
    exact forall_mem_texts rfl rfl (fullyBound_query hm hmarks command predicate) hc
  | existsWhere command predicate =>
    exact forall_mem_texts rfl rfl (fullyBound_count hm hmarks command predicate) hc
  | deleteAll command predicate =>
    exact forall_mem_texts rfl rfl (fullyBound_deleteAll hm hmarks command predicate) hc
  | reload command =>
    have hbound := fullyBound_of_key command hdistinct (hobject _ rfl) fun _ => hm.reload hmarks
    exact forall_mem_texts rfl rfl hbound hc
  | existsObject command | check command =>
    have hbound := fullyBound_of_key command hdistinct (hobject _ rfl) fun _ =>
      hm.existenceCheck hmarks
    exact forall_mem_texts rfl rfl hbound hc
  | delete command =>
    have hbound := fullyBound_of_key command hdistinct (hobject _ rfl) fun _ => hm.delete hmarks
    exact forall_mem_texts rfl rfl hbound hc
  | update _ command =>
    have hbound := fullyBound_update hm hmarks hdistinct (hobject _ rfl) command
    exact forall_mem_texts rfl rfl hbound hc
  | insert _ command =>
    obtain rfl := Option.some.inj ((command?_insertCall m _ _).symm.trans hc)
    exact fullyBound_insert hm hd hdistinct (hkeyed _ (hobject _ rfl)) command
  | definition statement =>
    have hplain := hm.definitions hd op _ statement
    exact forall_mem_texts rfl rfl (fullyBound_of_plain hmarks hplain .nothing) hc
  | backUp =>
    exact forall_mem_texts rfl rfl (fullyBound_of_plain hmarks hm.backupCommand .nothing) hc
  | restore backedUp member command =>
    have hfills := hkeyed _ (fills_of_materialize backedUp _ member)
    -- the automatic columns are among those that are restored, so that nothing is read back
    exact forall_mem_texts rfl rfl
      (fullyBound_insert hm hd hdistinct hfills command _ List.mem_cons_self) hc

end Issued

/-! ## What is sent -/

namespace Session

variable {s : Session} {e : EntityType} {op : Operation}

/-- Where all backends speak the SQL of a database, so does the one of a table. -/
theorem target_dialect (hdialects : ∀ b ∈ s.backends.entries, ∃ database, b.2 = .of database)
    (h : s.target t = .ok m) : ∃ database, m.dialect = .of database := by
  unfold target Backends.find at h
  cases hd : s.backends.dialect? t.backend with
  | none =>
    rw [hd] at h
    cases h
  | some d =>
    rw [hd] at h
    obtain rfl := Except.ok.inj h
    obtain ⟨before, after, hentries, -⟩ := List.lookup_eq_some_iff.mp hd
    exact hdialects (t.backend, d) (hentries ▸ List.mem_append_cons_self)

/-- **Every placeholder that is sent is bound.** Take the SQL of any database, a table whose fields
have different names, and identifiers for the names of fields, tables and databases. Whatever an
operation does and whoever replies, each command that it hands over is one of its own: it has a
source, the predicate that was compiled for it or the object that it writes or looks for, which for
an insert has taken its keys. Each placeholder in its text is the name of one binding, and the value
of that is the one that the source has for the name. -/
theorem sent_bound {σ : Type} {h : Handler σ} {st st' : σ} {events : List Event}
    (hdialects : ∀ b ∈ s.backends.entries, ∃ database, b.2 = .of database)
    (htable : e.table.Spelled) (hcatalog : ∀ t ∈ s.catalog.tables, t.Spelled)
    (hdistinct : (e.table.fields.map Field.name).Nodup)
    (hobject : ∀ o, op.object? = some o → e.table.Fills o)
    (hkeys : ∀ o, e.table.Fills o → e.table.Fills (e.assignKeys o))
    (hrun : (op.perform s e).run h st = ((), st', events)) :
    ∀ x ∈ exchanges events, ∀ c, x.call.command? = some c →
      ∃ m source, s.target e.table = .ok m ∧ op.Issues e m x.call source ∧
        ∀ text ∈ x.call.texts, ∀ name ∈ m.dialect.placeholders text,
          ∃ v, source.Has e.table name v ∧ c.Binds name v := by
  intro x hx c hc
  obtain ⟨m, source, hm, hissues⟩ := issues_of_run hrun hx hc
  obtain ⟨database, hd⟩ := target_dialect hdialects hm
  have htable' : m.table = e.table := target_eq_ok hm
  have hspelled : m.Spelled := ⟨htable' ▸ htable, target_catalog hm ▸ hcatalog⟩
  rw [← htable'] at hdistinct hobject hkeys
  refine ⟨m, source, hm, hissues, ?_⟩
  rw [← htable']
  exact hissues.fullyBound hspelled hd hdistinct hobject hkeys hc

/-- A guest without a number is saved over five exchanges, a look for its number and its insert
among them. -/
theorem sent_bound_guests :
    ∃ events, ((Operation.write .save {} (Guests.guest 0)).perform Guests.session
        ⟨Guests.table, id⟩).run (Guests.answer (.int 7)) () = ((), (), events) ∧
      (exchanges events).length = 5 ∧
      ∀ x ∈ exchanges events, ∀ c, x.call.command? = some c →
        ∃ m source, Guests.session.target Guests.table = .ok m ∧
          (Operation.write .save {} (Guests.guest 0)).Issues ⟨Guests.table, id⟩ m x.call source ∧
          ∀ text ∈ x.call.texts, ∀ name ∈ m.dialect.placeholders text,
            ∃ v, source.Has Guests.table name v ∧ c.Binds name v := by
  have hspelled : Guests.table.Spelled := ⟨by decide, nofun, by decide, nofun⟩
  have hfills : ∀ o, (Operation.write .save {} (Guests.guest 0)).object? = some o →
      Guests.table.Fills o := by
    rintro o ho
    obtain rfl := Option.some.inj ho
    rfl
  have hrun : ((Operation.write .save {} (Guests.guest 0)).perform Guests.session
      ⟨Guests.table, id⟩).run (Guests.answer (.int 7)) () = ((), (), _) := rfl
  refine ⟨_, hrun, rfl, sent_bound ?_ hspelled ?_ (by decide) hfills (fun _ ho => ho) hrun⟩
  · exact List.forall_mem_singleton.mpr ⟨.sqlite, rfl⟩
  · exact List.forall_mem_singleton.mpr hspelled

end Session

end EntityMapper
