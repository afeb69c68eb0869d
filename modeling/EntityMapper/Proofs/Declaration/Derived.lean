import EntityMapper.Proofs.Declaration.Attributes
import EntityMapper.Proofs.Declaration.Expansion
import Mathlib.Data.List.Nodup

/-!
# Derived mappings

What an implementation says means a table and handles on its fields, once it is known what the types
mean that it names. The implementation that is derived from a declaration has a column or an
association for each field that is not left out, and one handle on each of them.

* `Expansion.table` — the table that an implementation builds
* `Declaration.Exposes` — the fields of a derived table and the handles on them
* `Declaration.exposes_of_mapped` — what is read of a derived implementation
-/

namespace EntityMapper

/-! ## The table that is built -/

/-- What a fresh object of an entity type holds: a value in each column, objects by the place of
their association, and what stands beside the mapped fields. -/
structure Fresh where
  value : String → Datum
  children : Nat → List Object
  unmapped : List (String × Datum)

/-- What types mean that are named in source text: what a field of a type holds, and of an entity
type what tells it from others and what a fresh object of it holds. -/
structure SourceTypes where
  value : List Lexeme → FieldType
  entity : List Lexeme → String
  fresh : List Lexeme → Fresh

/-- The type of a declared field. -/
def Declaration.typeOf? (d : Declaration) (field : String) : Option (List Lexeme) :=
  (d.fields.find? fun f => plainName f.name == plainName field).map FieldDeclaration.type

namespace BuilderCall

/-- The field that a call adds. Its type is that of the declared field which its closures name. -/
def field? (types : SourceTypes) (d : Declaration) : BuilderCall → Option Field
  | .scalar name options field => (d.typeOf? field).map fun type =>
    { Field.ofType name (types.value type) options with
      initial := (types.fresh [.name d.name]).value name }
  | .association name c parent child field =>
    ((d.typeOf? field).bind (wrapped? c.wrapper)).map fun target =>
      .ofAssociation name ⟨c, parent, child, types.entity target⟩
  | _ => none

/-- The rule that a call adds. -/
def rule? : BuilderCall → Option Rule
  | .required name => some (.required name)
  | .maxLength name literal => (integerLiteral? literal).map fun n => .maxLength name n.toNat
  | _ => none

/-- The table after a call. -/
def apply (types : SourceTypes) (d : Declaration) (t : Table) (call : BuilderCall) : Table :=
  match call with
  | .database name shown => { t with database := some ⟨name, shown⟩ }
  | .backend name => { t with backend := name }
  | _ => { t with
      fields := t.fields ++ (call.field? types d).toList
      rules := t.rules ++ call.rule?.toList }

end BuilderCall

/-- The table that an implementation of a declared type builds. -/
def Expansion.table (types : SourceTypes) (d : Declaration) (x : Expansion) : Table :=
  x.calls.foldl (BuilderCall.apply types d)
    { entity := plainName x.owner
      typeId := types.entity [.name x.owner]
      tableName := x.tableName
      initialChildren := (types.fresh [.name x.owner]).children
      unmapped := (types.fresh [.name x.owner]).unmapped }

namespace Expansion

/-- The handles on columns: the name that a handle has, and the type of its column. -/
def columns (types : SourceTypes) (x : Expansion) : List (String × Option FieldType) :=
  (x.handles.filter fun h => h.kind == .column).map fun h => (h.name, some (types.value h.type))

/-- The handles on associations: the name that a handle has, and the entity type that it leads to. -/
def associations (types : SourceTypes) (x : Expansion) : List (String × String) :=
  (x.handles.filter fun h => h.kind == .association).map fun h => (h.name, types.entity h.type)

end Expansion

/-- A call adds the field that it is for. -/
theorem BuilderCall.fields_apply (types : SourceTypes) (d : Declaration) (t : Table)
    (call : BuilderCall) :
    (call.apply types d t).fields = t.fields ++ (call.field? types d).toList := by
  cases call with
  | database | backend => exact (List.append_nil _).symm
  | scalar | association | required | maxLength => rfl

/-- The fields of a table are those that its calls add. -/
theorem Expansion.fields_table (types : SourceTypes) (d : Declaration) (x : Expansion) :
    (x.table types d).fields = x.calls.filterMap (BuilderCall.field? types d) := by
  have hfold : ∀ (calls : List BuilderCall) (t : Table),
      (calls.foldl (BuilderCall.apply types d) t).fields =
        t.fields ++ calls.filterMap (BuilderCall.field? types d) := by
    intro calls
    induction calls with
    | nil => exact fun t => (List.append_nil _).symm
    | cons call calls ih =>
      intro t
      rw [List.foldl_cons, ih, BuilderCall.fields_apply, List.append_assoc, List.filterMap_cons]
      cases call.field? types d <;> rfl
  exact hfold _ _

/-! ## What is derived of a declaration -/

/-- Whether a field is left out of the mapping by its attributes. -/
def FieldDeclaration.isSkipped (f : FieldDeclaration) : Bool :=
  (FieldAttributes.ofGroups f.attributes).toOption.any fun a => a.role == .skip

/-- A declaration as it stands in source text: its visibility is one, each type could be an argument
of another, and its fields have different names; a raw name is the name without its mark. -/
structure Declaration.IsWritten (d : Declaration) : Prop where
  visibility : LexemeReader.visibility d.visibility = some (d.visibility, [])
  types : ∀ f ∈ d.fields, Lexeme.IsArgument f.type
  distinct : (d.fields.map fun f => plainName f.name).Nodup

instance (d : Declaration) : Decidable d.IsWritten :=
  decidable_of_iff (LexemeReader.visibility d.visibility = some (d.visibility, []) ∧
      (∀ f ∈ d.fields, Lexeme.IsArgument f.type) ∧ (d.fields.map fun f => plainName f.name).Nodup)
    ⟨fun h => ⟨h.1, h.2.1, h.2.2⟩, fun h => ⟨h.1, h.2, h.3⟩⟩

/-- What a mapped field has of the declared one: its name, and its type or what stands in it. -/
structure MappedField.IsOf (g : MappedField) (f : FieldDeclaration) : Prop where
  name : g.name = f.name
  type : match g with
    | .column _ type _ => type = f.type
    | .association _ c target _ _ => wrapped? c.wrapper f.type = some target

section Mapped

variable {d : Declaration} {m : Mapped} {owner : String}

theorem isOf_of_associationOf {f : FieldDeclaration} {c : Cardinality} {a : FieldAttributes}
    {g : MappedField} (h : associationOf owner f c a = .ok g) : g.IsOf f := by
  unfold associationOf at h
  split at h
  · cases h
  · next target htarget =>
    obtain rfl := Except.ok.inj h
    exact ⟨rfl, htarget⟩

/-- A field that is left out is nothing to the mapping, any other is mapped under its name. -/
theorem mapped?_eq_ok {f : FieldDeclaration} {r : Option MappedField}
    (h : f.mapped? owner = .ok r) :
    f.isSkipped = true ∧ r = none ∨ f.isSkipped = false ∧ ∃ g, r = some g ∧ g.IsOf f := by
  unfold FieldDeclaration.mapped? at h
  obtain ⟨a, ha, h⟩ := exists_of_bind_eq_ok h
  have hskipped : f.isSkipped = (a.role == .skip) := by
    rw [FieldDeclaration.isSkipped, mapError_eq_ok ha]
    rfl
  rw [hskipped]
  cases hrole : a.role with
  | skip =>
    rw [hrole] at h
    obtain rfl := Except.ok.inj h
    exact .inl ⟨rfl, rfl⟩
  | scalar =>
    rw [hrole] at h
    obtain rfl := Except.ok.inj h
    exact .inr ⟨rfl, _, rfl, rfl, rfl⟩
  | oneToMany | oneToOne =>
    rw [hrole] at h
    obtain ⟨g, hg, rfl⟩ := map_eq_ok.mp h
    exact .inr ⟨rfl, g, rfl, isOf_of_associationOf hg⟩

/-- What a mapping has of its declaration. -/
theorem mapped_eq_ok (h : d.mapped = .ok m) : ∃ a rs,
    EntityAttributes.ofGroups d.attributes = .ok a ∧
      d.fields.mapM (FieldDeclaration.mapped? d.name) = .ok rs ∧
      m.name = d.name ∧ m.visibility = d.visibility ∧ m.assignKeys = a.assignKeys ∧
      m.fields = rs.filterMap id := by
  unfold Declaration.mapped at h
  dsimp only at h
  split at h
  · cases h
  split at h
  · cases h
  split at h
  · cases h
  obtain ⟨a, ha, h⟩ := exists_of_bind_eq_ok h
  obtain ⟨rs, hrs, h⟩ := exists_of_bind_eq_ok h
  obtain rfl := Except.ok.inj h
  exact ⟨a, rs, mapError_eq_ok ha, hrs, rfl, rfl, rfl, rfl⟩

/-- The mapped fields are, in their order, those that are not left out. -/
theorem fields_of_mapped (h : d.mapped = .ok m) :
    List.Forall₂ MappedField.IsOf m.fields (d.fields.filter fun f => !f.isSkipped) := by
  obtain ⟨a, rs, -, hrs, -, -, -, hfields⟩ := mapped_eq_ok h
  rw [hfields]
  have hall := mapM_eq_ok_iff.mp hrs
  generalize d.fields = fs at hall
  clear hrs hfields
  induction hall with
  | nil => exact .nil
  | cons hf _ ih =>
    rcases mapped?_eq_ok hf with ⟨hskipped, rfl⟩ | ⟨hskipped, g, rfl, hg⟩
    · simpa [hskipped] using ih
    · simpa [hskipped] using And.intro hg ih

/-- The function that assigns keys is balanced source text. -/
theorem isBalanced_of_mapped (h : d.mapped = .ok m) {path : List Lexeme}
    (hpath : m.assignKeys = some path) : Lexeme.isBalanced [] path = true := by
  obtain ⟨a, rs, ha, -, -, -, hassign, -⟩ := mapped_eq_ok h
  obtain ⟨settings, hsettings, -, rfl⟩ := EntityAttributes.ofGroups_eq_ok.mp ha
  have hmem : EntitySetting.assignKeys path ∈ settings := by
    rw [hassign] at hpath
    obtain ⟨s, hs, heq⟩ := List.mem_filterMap.mp (List.mem_of_getLast? hpath)
    cases s with
    | assignKeys p => exact Option.some.inj heq ▸ hs
    | table | database | showDatabase | backend => cases heq
  obtain ⟨i, hi⟩ := exists_of_mem_settingsOf hsettings hmem
  exact EntitySetting.isBalanced_of_ofItem hi

/-- The type of a handle stands between angle brackets. -/
theorem isArgument_of_mapped (h : d.mapped = .ok m) (hd : d.IsWritten) :
    ∀ g ∈ m.fields, Lexeme.IsArgument (g.handleFunction m.name).type := by
  intro g hg
  obtain ⟨f, hf, hof⟩ := exists_of_forall₂_mem (fields_of_mapped h).flip hg
  have htype := hof.type
  cases g with
  | column name type a =>
    obtain rfl : type = f.type := htype
    exact hd.types f (List.mem_filter.mp hf).1
  | association name c target parent child => exact Lexeme.isArgument_of_wrapped? htype

/-- **What is read of the implementation of a written declaration.** -/
theorem ofLexemes?_of_mapped (h : d.mapped = .ok m) (hd : d.IsWritten) :
    Expansion.ofLexemes? m.implementation = some m.expansion := by
  obtain ⟨a, rs, -, -, -, hvisibility, -, -⟩ := mapped_eq_ok h
  exact Mapped.ofLexemes?_implementation (hvisibility ▸ hd.visibility)
    (fun path => isBalanced_of_mapped h) (isArgument_of_mapped h hd)

end Mapped

/-! ## What is exposed -/

/-- What an implementation exposes of a declaration: its table has a field for each one that is not
left out, under its name and in its place, and on each field there is one handle of that name, which
a function of that name gives: on a column a handle for values of its type, on an association one
that leads where it does. A field that is left out has neither. -/
structure Declaration.Exposes (d : Declaration) (types : SourceTypes) (x : Expansion) : Prop where
  fields : (x.table types d).fields.map Field.name =
    (d.fields.filter fun f => !f.isSkipped).map fun f => plainName f.name
  distinct : ((x.table types d).fields.map Field.name).Nodup
  handles : x.handles.map HandleFunction.name = (x.table types d).fields.map Field.name
  functions : ∀ h ∈ x.handles, plainName h.function = h.name ∧ h.owner = d.name
  columns : x.columns types = (x.table types d).scalarFields.map fun f => (f.name, f.type?)
  associations : x.associations types =
    (x.table types d).associations.map fun a => (a.1, a.2.target)
  skipped : ∀ f ∈ d.fields, f.isSkipped = true →
    plainName f.name ∉ (x.table types d).fields.map Field.name ∧
      ∀ h ∈ x.handles, plainName h.function ≠ plainName f.name

section Exposes

variable {d : Declaration} {m : Mapped} (types : SourceTypes)

/-- The field that the call of a mapped field adds. -/
def MappedField.field (types : SourceTypes) (owner : String) (g : MappedField) : Field :=
  match g with
  | .column name type a => { Field.ofType (plainName name) (types.value type) a.options with
      initial := (types.fresh [.name owner]).value (plainName name) }
  | .association name c target parent child =>
    .ofAssociation (plainName name) ⟨c, parent, child, types.entity target⟩

theorem typeOf?_of_mem (hd : d.IsWritten) {f : FieldDeclaration} (hf : f ∈ d.fields) :
    d.typeOf? f.name = some f.type := by
  -- names differ, so the first field of the name is the field itself
  have hfind : d.fields.find? (fun f' => plainName f'.name == plainName f.name) = some f := by
    cases hfound : d.fields.find? fun f' => plainName f'.name == plainName f.name with
    | none => exact absurd (beq_self_eq_true _) (List.find?_eq_none.mp hfound f hf)
    | some f' =>
      have hname : plainName f'.name = plainName f.name := by
        have hfound := List.find?_some hfound
        exact eq_of_beq hfound
      rw [List.inj_on_of_nodup_map hd.distinct (List.mem_of_find?_eq_some hfound) hf hname]
  rw [Declaration.typeOf?, hfind]
  rfl

theorem field?_call (hd : d.IsWritten) {f : FieldDeclaration} (hf : f ∈ d.fields)
    {g : MappedField} (hg : g.IsOf f) :
    g.call.field? types d = some (g.field types d.name) := by
  have htype := typeOf?_of_mem hd hf
  obtain ⟨hname, hof⟩ := hg
  cases g with
  | column name type a =>
    obtain rfl : name = f.name := hname
    obtain rfl : type = f.type := hof
    show (d.typeOf? f.name).map _ = _
    rw [htype]
    rfl
  | association name c target parent child =>
    obtain rfl : name = f.name := hname
    show ((d.typeOf? f.name).bind (wrapped? c.wrapper)).map _ = _
    rw [htype, Option.bind_some, hof]
    rfl

/-- Rules add no fields. -/
theorem filterMap_ruleCalls (g : MappedField) :
    g.ruleCalls.filterMap (BuilderCall.field? types d) = [] := by
  cases g with
  | association => rfl
  | column name type a =>
    obtain ⟨_, _, _, _, _, required, maxLength, _, _⟩ := a
    cases required <;> cases maxLength <;> rfl

/-- The table of a derived implementation has the field of each mapped one. -/
theorem fields_expansion (h : d.mapped = .ok m) (hd : d.IsWritten) :
    (m.expansion.table types d).fields = m.fields.map (MappedField.field types d.name) := by
  have hsettings : m.settingCalls.filterMap (BuilderCall.field? types d) = [] := by
    rw [Mapped.settingCalls]
    cases m.database <;> cases m.backend <;> rfl
  have hrules : (m.fields.flatMap MappedField.ruleCalls).filterMap (BuilderCall.field? types d) =
      [] := by
    rw [List.filterMap_flatMap]
    exact List.flatMap_eq_nil_iff.mpr fun g _ => filterMap_ruleCalls types g
  have hsteps : (m.fields.map MappedField.call).filterMap (BuilderCall.field? types d) =
      m.fields.map (MappedField.field types d.name) := by
    rw [List.filterMap_map, ← List.filterMap_eq_map]
    refine List.filterMap_congr fun g hg => ?_
    obtain ⟨f, hf, hof⟩ := exists_of_forall₂_mem (fields_of_mapped h).flip hg
    exact field?_call types hd (List.mem_filter.mp hf).1 hof
  rw [Expansion.fields_table, Mapped.expansion, List.filterMap_append, List.filterMap_append,
    hsettings, hrules, hsteps, List.append_nil, List.nil_append]

theorem name_field (owner : String) (g : MappedField) :
    (g.field types owner).name = plainName g.name := by
  cases g <;> rfl

theorem name_handleFunction (owner : String) (g : MappedField) :
    (g.handleFunction owner).name = plainName g.name := by
  cases g <;> rfl

theorem columns_expansion {t : Table} {owner : String}
    (h : t.fields = m.fields.map (MappedField.field types owner)) :
    m.expansion.columns types = t.scalarFields.map fun f => (f.name, f.type?) := by
  rw [Table.scalarFields, h, Expansion.columns, Mapped.expansion]
  induction m.fields with
  | nil => rfl
  | cons g gs ih =>
    cases g with
    | column name type a => exact congrArg ((plainName name, some (types.value type)) :: ·) ih
    | association name c target parent child => exact ih

theorem associations_expansion {t : Table} {owner : String}
    (h : t.fields = m.fields.map (MappedField.field types owner)) :
    m.expansion.associations types = t.associations.map fun a => (a.1, a.2.target) := by
  rw [Table.associations, h, Expansion.associations, Mapped.expansion]
  induction m.fields with
  | nil => rfl
  | cons g gs ih =>
    cases g with
    | column name type a => exact ih
    | association name c target parent child =>
      exact congrArg ((plainName name, types.entity target) :: ·) ih

/-- The mapped fields have the names of those that are not left out. -/
theorem names_of_mapped (h : d.mapped = .ok m) : (m.fields.map fun g => plainName g.name) =
    (d.fields.filter fun f => !f.isSkipped).map fun f => plainName f.name := by
  have hall := (fields_of_mapped h).imp fun g f hof => congrArg plainName hof.name
  rw [← List.forall₂_eq_eq_eq, List.forall₂_map_left_iff, List.forall₂_map_right_iff]
  exact hall

/-- **A derived implementation exposes the fields that are not left out.** -/
theorem Declaration.exposes_of_mapped (h : d.mapped = .ok m) (hd : d.IsWritten) :
    d.Exposes types m.expansion := by
  obtain ⟨-, -, -, -, howner, -⟩ := mapped_eq_ok h
  have htable := fields_expansion types h hd
  have hnames : (m.expansion.table types d).fields.map Field.name =
      m.fields.map fun g => plainName g.name := by
    rw [htable, List.map_map]
    exact List.map_congr_left fun g _ => name_field types d.name g
  have hhandles : m.expansion.handles.map HandleFunction.name =
      m.fields.map fun g => plainName g.name := by
    rw [Mapped.expansion, List.map_map]
    exact List.map_congr_left fun g _ => name_handleFunction m.name g
  have hfunctions : ∀ k ∈ m.expansion.handles,
      plainName k.function = k.name ∧ k.owner = d.name := by
    intro k hk
    obtain ⟨g, -, rfl⟩ := List.mem_map.mp hk
    cases g <;> exact ⟨rfl, howner⟩
  refine ⟨hnames.trans (names_of_mapped h), ?_, hhandles.trans hnames.symm, hfunctions,
    columns_expansion types htable, associations_expansion types htable, fun f hf hskipped => ?_⟩
  · rw [hnames, names_of_mapped h]
    exact (List.filter_sublist.map _).nodup hd.distinct
  · -- the name would be that of a field that is not left out
    have hnot : plainName f.name ∉ m.fields.map fun g => plainName g.name := by
      rw [names_of_mapped h]
      intro hmem
      obtain ⟨f', hf', hname⟩ := List.mem_map.mp hmem
      obtain ⟨hf', hnot⟩ := List.mem_filter.mp hf'
      obtain rfl := List.inj_on_of_nodup_map hd.distinct hf' hf hname
      rw [hskipped] at hnot
      cases hnot
    refine ⟨hnames ▸ hnot, fun k hk hname => hnot ?_⟩
    rw [← hhandles, ← hname, (hfunctions k hk).1]
    exact List.mem_map_of_mem hk

end Exposes

end EntityMapper
