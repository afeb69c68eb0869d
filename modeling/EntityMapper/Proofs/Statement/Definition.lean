import EntityMapper.Proofs.Statement.LineEnds
import EntityMapper.Proofs.Statement.Placeholders
import EntityMapper.Proofs.Statement.Required
import EntityMapper.Proofs.Text.Joined

/-!
# Comparing definitions of tables

The script that creates a table tells what it declares: no two tables have one script unless they
have one name, declare the same columns and have the same key. All of it is told from commas, line
ends and the first blank of a line, so the names have to be words.

* `ColumnClause`, `Mapping.declared` — what the columns of a table are declared as
* `Mapping.definitionLines_eq_iff` — the lines of a table tell what it declares
* `Mapping.createTable_inj` — a script tells the name of its table and its lines
* `Mapping.definitionsMatch_createTable` — when two scripts match
-/

namespace EntityMapper

/-! ## Words -/

/-- A text is one word: it has no white space and no comma. -/
def IsOneWord (s : String) : Prop := ∀ c ∈ s.toList, isBlank c = false ∧ c ≠ ','

theorem IsOneWord.lacks {s : String} (h : IsOneWord s) {x : Char}
    (hx : isBlank x = true ∨ x = ',') : Lacks x s := by
  intro hmem
  obtain ⟨hblank, hcomma⟩ := h x hmem
  rcases hx with hx | hx
  · rw [hblank] at hx
    cases hx
  · exact hcomma hx

/-- The names that the definition of a table writes are words. -/
structure Table.Worded (t : Table) : Prop where
  name : IsOneWord t.name
  fields : ∀ f ∈ t.scalarFields, IsOneWord f.name

/-- The characters of identifiers lie between those of `0` and `z`. -/
theorem toNat_of_isParameterChar {c : Char} (h : isParameterChar c = true) :
    48 ≤ c.toNat ∧ c.toNat ≤ 122 := by
  -- a letter of either case, a digit, or the underscore
  rcases Bool.or_eq_true_iff.mp h with h | h
  · rcases Bool.or_eq_true_iff.mp h with h | h
    · rcases Bool.or_eq_true_iff.mp h with h | h
      · have hrange : 65 ≤ c.toNat ∧ c.toNat ≤ 90 := of_decide_eq_true h
        omega
      · have hlow : 97 ≤ c.toNat := of_decide_eq_true (Bool.and_eq_true_iff.mp h).1
        have hhigh : c.toNat ≤ 122 := of_decide_eq_true (Bool.and_eq_true_iff.mp h).2
        omega
    · have hlow : 48 ≤ c.toNat := of_decide_eq_true (Bool.and_eq_true_iff.mp h).1
      have hhigh : c.toNat ≤ 57 := of_decide_eq_true (Bool.and_eq_true_iff.mp h).2
      omega
  · rw [beq_iff_eq.mp h]
    decide

theorem IsIdentifier.isOneWord {s : String} (h : IsIdentifier s) : IsOneWord s := by
  intro c hc
  obtain ⟨hlow, hhigh⟩ := toNat_of_isParameterChar (List.all_eq_true.mp h c hc)
  have hapart : ∀ r ∈ blankRanges, r.2 < 48 ∨ 122 < r.1 := by decide
  constructor
  · rw [Bool.eq_false_iff]
    intro hblank
    obtain ⟨r, hr, hle, hge⟩ := inRanges_iff.mp hblank
    have hr := hapart r hr
    omega
  · rintro rfl
    exact absurd hlow (by decide)

/-- Where the names of a table, its database and its columns are identifiers, they are words. -/
theorem Table.worded_of_identifiers {t : Table} (hname : IsIdentifier t.tableName)
    (hdatabase : ∀ b, t.database = some b → IsIdentifier b.name)
    (hfields : ∀ f ∈ t.scalarFields, IsIdentifier f.name) : t.Worded where
  name := by
    unfold name
    split
    · next database heq =>
      have htext : s!"{database}.{t.tableName}" = database ++ "." ++ t.tableName := rfl
      have hword : IsOneWord database := (hdatabase _ heq).isOneWord
      have hpoint : IsOneWord "." := by
        intro c hc
        rw [List.mem_singleton.mp hc]
        decide
      intro c hc
      rw [htext, String.toList_append, String.toList_append, List.mem_append, List.mem_append] at hc
      rcases hc with (hc | hc) | hc
      · exact hword c hc
      · exact hpoint c hc
      · exact hname.isOneWord c hc
    · exact hname.isOneWord
  fields := fun f hf => (hfields f hf).isOneWord

/-! ## Clauses -/

/-- What a column is declared as, behind its name: an identity, or a type and whether it may be
null. -/
inductive ColumnClause
  | identity
  | plain (type : String) (nullable : Bool)
deriving DecidableEq

namespace ColumnClause

variable {d : Dialect} {a b : ColumnClause}

/-- A clause in SQL. -/
def text (d : Dialect) : ColumnClause → String
  | .identity => d.identityColumn
  | .plain type nullable => type ++ " " ++ if nullable then "null" else "not null"

/-- The clauses of a dialect: those with its types. -/
inductive Of (d : Dialect) : ColumnClause → Prop
  | identity : Of d .identity
  | plain (type : ValueType) (nullable : Bool) : Of d (.plain (d.columnType type) nullable)

/-- A text of one line that does not start as a key does. -/
structure Behind (s : String) : Prop where
  line : Lacks '\n' s
  noReturn : Lacks '\r' s
  head : ∃ c r, s.toList = c :: r ∧ c ≠ 'k'

theorem behind_columnType (d : Dialect) (type : ValueType) : Behind (d.columnType type) := by
  change Behind ((Dialect.of d.database).columnType type)
  cases d.database <;> cases type <;>
    exact ⟨by decide, by decide, _, _, rfl, by decide⟩

theorem behind_identityColumn (d : Dialect) : Behind d.identityColumn := by
  change Behind (Dialect.of d.database).identityColumn
  cases d.database <;> exact ⟨by decide, by decide, _, _, rfl, by decide⟩

theorem Of.behind (h : a.Of d) : Behind (a.text d) := by
  cases h with
  | identity => exact behind_identityColumn d
  | plain type nullable =>
    obtain ⟨hline, hreturn, c, r, htype, hc⟩ := behind_columnType d type
    have hnull : Lacks '\n' (if nullable = true then "null" else "not null") ∧
        Lacks '\r' (if nullable = true then "null" else "not null") := by
      cases nullable <;> decide
    have hblank : Lacks '\n' " " ∧ Lacks '\r' " " := by decide
    refine ⟨?_, ?_, c, ?_⟩
    · simp [text, hline, hblank, hnull]
    · simp [text, hreturn, hblank, hnull]
    · simp [text, String.toList_append, htype, hc]

/-- An identity ends as no other column does. -/
theorem identityColumn_ne_text (d : Dialect) (type : String) (nullable : Bool) :
    d.identityColumn ≠ text d (.plain type nullable) := by
  have hends : ¬ "null".toList <:+ d.identityColumn.toList := by
    change ¬ "null".toList <:+ (Dialect.of d.database).identityColumn.toList
    cases d.database <;> decide
  intro heq
  refine hends ?_
  rw [heq, text, String.toList_append]
  refine List.IsSuffix.trans ?_ (List.suffix_append _ _)
  cases nullable <;> decide

/-- A column that may be null ends as none that may not. -/
theorem nullable_ne (d : Dialect) (type : ValueType) (type' : String) :
    text d (.plain (d.columnType type) true) ≠ text d (.plain type' false) := by
  intro heq
  have htext : " " ++ d.columnType type ++ " null" = " " ++ type' ++ " not null" := by
    have hblank := congrArg (" " ++ ·) heq
    simp only [text, ← String.append_assoc] at hblank
    simpa [String.append_assoc] using hblank
  obtain ⟨-, hends⟩ := d.not_suffix_columnType type
  refine hends ?_
  rw [htext, String.toList_append]
  exact List.suffix_append _ _

/-- **A clause of a dialect is told from its text.** -/
theorem Of.eq_of_text (ha : a.Of d) (hb : b.Of d) (h : a.text d = b.text d) : a = b := by
  cases ha with
  | identity =>
    cases hb with
    | identity => rfl
    | plain type nullable => exact absurd h (identityColumn_ne_text d _ _)
  | plain type nullable =>
    cases hb with
    | identity => exact absurd h.symm (identityColumn_ne_text d _ _)
    | plain type' nullable' =>
      by_cases hnull : nullable = nullable'
      · subst hnull
        have htype : d.columnType type = d.columnType type' :=
          (String.append_left_inj _).mp ((String.append_left_inj _).mp h)
        rw [htype]
      · cases nullable <;> cases nullable'
        · exact absurd rfl hnull
        · exact absurd h.symm (nullable_ne d type' _)
        · exact absurd h (nullable_ne d type _)
        · exact absurd rfl hnull

end ColumnClause

/-! ## Lines -/

/-- Where equal results are of things that are alike in another respect, the lists are so too. -/
theorem map_eq_map_of_imp {α β γ : Type} {f f' : α → β} {g g' : α → γ} {l m : List α}
    (himp : ∀ x ∈ l, ∀ y ∈ m, f x = f' y → g x = g' y) (h : l.map f = m.map f') :
    l.map g = m.map g' := by
  induction l generalizing m with
  | nil =>
    obtain rfl := List.map_eq_nil_iff.mp h.symm
    rfl
  | cons x l ih =>
    cases m with
    | nil => cases h
    | cons y m =>
      obtain ⟨hxy, hrest⟩ := List.cons.inj h
      have hhead := himp x List.mem_cons_self y List.mem_cons_self hxy
      have htail := ih (fun x hx y hy =>
        himp x (List.mem_cons_of_mem _ hx) y (List.mem_cons_of_mem _ hy)) hrest
      rw [List.map_cons, List.map_cons, hhead, htail]

namespace Mapping

variable {m m' : Mapping} {f f' : Field}

instance (m : Mapping) (f : Field) : Decidable (m.DeclaresIdentity f) :=
  inferInstanceAs (Decidable (_ ∧ _))

/-- What a column is declared as. -/
def clause (m : Mapping) (f : Field) : ColumnClause :=
  if m.DeclaresIdentity f then .identity else .plain (m.dialect.columnType f.valueType) f.isNullable

/-- What the columns of a table are declared as, in order. -/
def declared (m : Mapping) : List (String × ColumnClause) :=
  m.table.scalarFields.map fun f => (f.name, m.clause f)

theorem clause_eq_identity : m.clause f = .identity ↔ m.DeclaresIdentity f := by
  unfold clause
  split
  · next h => simp [h]
  · next h => simp [h]

theorem clause_of (m : Mapping) (f : Field) : (m.clause f).Of m.dialect := by
  unfold clause
  split
  · exact .identity
  · exact .plain _ _

/-- The line of a column. -/
theorem columnDefinition_eq (m : Mapping) (f : Field) :
    m.columnDefinition f = f.name ++ " " ++ (m.clause f).text m.dialect := by
  unfold clause
  split
  · next h => rw [columnDefinition_identity h, String.append_assoc, ColumnClause.text]
  · next h =>
    rw [columnDefinition_plain h, ColumnClause.text]
    simp only [String.append_assoc]

/-- The first blank of a column's line stands behind the name. -/
theorem toList_columnDefinition (m : Mapping) (f : Field) :
    (m.columnDefinition f).toList =
      f.name.toList ++ ' ' :: ((m.clause f).text m.dialect).toList := by
  rw [columnDefinition_eq, String.toList_append, String.toList_append, List.append_assoc]
  rfl

/-- **A column is told from its line.** -/
theorem declared_of_columnDefinition (hdialect : m.dialect = m'.dialect) (hf : IsOneWord f.name)
    (hf' : IsOneWord f'.name) (h : m.columnDefinition f = m'.columnDefinition f') :
    (f.name, m.clause f) = (f'.name, m'.clause f') := by
  have hlist := congrArg String.toList h
  rw [toList_columnDefinition, toList_columnDefinition] at hlist
  obtain ⟨hname, htext⟩ := append_cons_inj (hf.lacks (.inl (by decide)))
    (hf'.lacks (.inl (by decide))) hlist
  have hclause : m.clause f = m'.clause f' := by
    have hof := m'.clause_of f'
    rw [← hdialect] at hof htext
    exact (m.clause_of f).eq_of_text hof (String.toList_inj.mp htext)
  rw [String.toList_inj.mp hname, hclause]

/-- The line of the key. -/
def keyLine (m : Mapping) : String :=
  "primary key (" ++ ", ".intercalate (m.table.primaryKey.map Field.name) ++ ")"

/-- The line of the key, unless a column declares it. -/
def keyLines (m : Mapping) : List String :=
  if m.table.hasPrimaryKey && !m.inlineKey then [m.keyLine] else []

theorem definitionLines_eq (m : Mapping) :
    m.definitionLines = m.table.scalarFields.map m.columnDefinition ++ m.keyLines := rfl

/-- Whether a line is that of a key. -/
def isKeyLine (line : String) : Bool := "primary key (".toList.isPrefixOf line.toList

theorem isKeyLine_keyLine (m : Mapping) : isKeyLine m.keyLine = true := by
  rw [isKeyLine, List.isPrefixOf_iff_prefix, keyLine, String.append_assoc, String.toList_append]
  exact List.prefix_append _ _

theorem isKeyLine_columnDefinition (hf : IsOneWord f.name) :
    isKeyLine (m.columnDefinition f) = false := by
  rw [Bool.eq_false_iff]
  intro hkey
  obtain ⟨r, hr⟩ := List.isPrefixOf_iff_prefix.mp hkey
  rw [toList_columnDefinition] at hr
  have hword : ' ' ∉ "primary".toList := by decide
  -- behind the first blank the one line has a key, and the other a type
  obtain ⟨-, htext⟩ := append_cons_inj (r := "key (".toList ++ r) hword
    (hf.lacks (.inl (by decide))) hr
  obtain ⟨c, cs, hhead, hc⟩ := (m.clause_of f).behind.head
  rw [hhead] at htext
  exact hc (List.cons.inj htext).1.symm

/-- The lines of a table are those of its columns, and then that of its key. -/
theorem filter_definitionLines (h : m.table.Worded) :
    m.definitionLines.filter (fun line => !isKeyLine line) =
        m.table.scalarFields.map m.columnDefinition ∧
      m.definitionLines.filter isKeyLine = m.keyLines := by
  have hcolumns : ∀ line ∈ m.table.scalarFields.map m.columnDefinition, isKeyLine line = false := by
    intro line hline
    obtain ⟨f, hf, rfl⟩ := List.mem_map.mp hline
    exact isKeyLine_columnDefinition (h.fields f hf)
  have hkey : ∀ line ∈ m.keyLines, isKeyLine line = true := by
    intro line hline
    unfold keyLines at hline
    split at hline
    · rw [List.mem_singleton.mp hline]
      exact m.isKeyLine_keyLine
    · cases hline
  constructor
  · rw [definitionLines_eq, List.filter_append, List.filter_eq_self.mpr, List.filter_eq_nil_iff.mpr,
      List.append_nil]
    · simpa using hkey
    · simpa using hcolumns
  · rw [definitionLines_eq, List.filter_append, List.filter_eq_nil_iff.mpr, List.filter_eq_self.mpr,
      List.nil_append]
    · exact hkey
    · simpa using hcolumns

/-! ## Keys -/

/-- Whether a column declares the key is told from the columns. -/
theorem inlineKey_of_declared (hdialect : m.dialect = m'.dialect) (h : m.declared = m'.declared)
    (hinline : m.inlineKey = true) : m'.inlineKey = true := by
  have hplace : m.dialect.inlineIdentityKey = true := (Bool.and_eq_true_iff.mp hinline).1
  obtain ⟨f, hf, hidentity⟩ : ∃ f ∈ m.table.scalarFields, f.isIdentity = true := by
    unfold inlineKey at hinline
    split at hinline
    · next key f hkey hf => exact ⟨f, List.mem_of_find?_eq_some hf, List.find?_some hf⟩
    · simp at hinline
  have hclause : m.clause f = .identity := clause_eq_identity.mpr ⟨hidentity, .inl hinline⟩
  have hmem : (f.name, ColumnClause.identity) ∈ m'.declared := by
    rw [← h, ← hclause]
    exact List.mem_map_of_mem hf
  obtain ⟨f', -, hf'⟩ := List.mem_map.mp hmem
  obtain ⟨-, hinline' | hnone⟩ := clause_eq_identity.mp (Prod.mk.inj hf').2
  · exact hinline'
  · rw [← hdialect, hplace] at hnone
    cases hnone

theorem inlineKey_eq (hdialect : m.dialect = m'.dialect) (h : m.declared = m'.declared) :
    m.inlineKey = m'.inlineKey :=
  Bool.eq_iff_iff.mpr
    ⟨inlineKey_of_declared hdialect h, inlineKey_of_declared hdialect.symm h.symm⟩

/-- A column that declares the key is the first identity. -/
theorem keyNames_of_inlineKey (h : m.inlineKey = true) :
    m.table.primaryKey.map Field.name =
      ((m.declared.find? fun c => c.2 == .identity).map Prod.fst).toList := by
  have hfind : m.declared.find? (fun c => c.2 == .identity) =
      m.table.identityField?.map fun f => (f.name, m.clause f) := by
    have hidentity : ((fun c : String × ColumnClause => c.2 == .identity) ∘
        fun f => (f.name, m.clause f)) = Field.isIdentity := by
      funext f
      rw [Function.comp_apply, Bool.eq_iff_iff, beq_iff_eq, clause_eq_identity]
      exact ⟨And.left, fun hf => ⟨hf, .inl h⟩⟩
    rw [declared, List.find?_map, hidentity, Table.identityField?]
  rw [hfind]
  unfold inlineKey at h
  split at h
  · next key f hkey hf =>
    have hname : key.name = f.name := by simpa using (Bool.and_eq_true_iff.mp h).2
    simp [hkey, hf, hname]
  · simp at h

/-- The names of a key are told from its line. -/
theorem keyNames_of_keyLine (hw : m.table.Worded) (hw' : m'.table.Worded)
    (hkey : m.table.hasPrimaryKey = true) (hkey' : m'.table.hasPrimaryKey = true)
    (h : m.keyLine = m'.keyLine) :
    m.table.primaryKey.map Field.name = m'.table.primaryKey.map Field.name := by
  have hcomma : ∀ {m : Mapping}, m.table.Worded →
      ∀ l ∈ (m.table.primaryKey.map Field.name).map String.toList, ',' ∉ l := by
    intro m hw l hl
    simp only [List.map_map, List.mem_map] at hl
    obtain ⟨f, hf, rfl⟩ := hl
    exact (hw.fields f (List.mem_of_mem_filter hf)).lacks (.inr rfl)
  have hne : ∀ {m : Mapping}, m.table.hasPrimaryKey = true →
      (m.table.primaryKey.map Field.name).map String.toList ≠ [] := by
    intro m hkey hnil
    rw [List.map_eq_nil_iff, List.map_eq_nil_iff] at hnil
    simp [Table.hasPrimaryKey, hnil] at hkey
  unfold keyLine at h
  have hjoined := congrArg String.toList
    ((String.append_right_inj _).mp ((String.append_left_inj _).mp h))
  rw [String.toList_intercalate, String.toList_intercalate] at hjoined
  have hnames := intercalate_inj (u := []) (x := ',') (v := [' ']) List.not_mem_nil (hcomma hw)
    (hcomma hw') (hne hkey) (hne hkey') hjoined
  exact List.map_injective_iff.mpr (fun _ _ => String.toList_inj.mp) hnames

/-- **The lines of a table tell what it declares**, and are told from it. -/
theorem definitionLines_eq_iff (hdialect : m.dialect = m'.dialect) (hw : m.table.Worded)
    (hw' : m'.table.Worded) :
    m.definitionLines = m'.definitionLines ↔ m.declared = m'.declared ∧
      m.table.primaryKey.map Field.name = m'.table.primaryKey.map Field.name := by
  have hkeyed : ∀ m : Mapping,
      m.table.hasPrimaryKey = !(m.table.primaryKey.map Field.name).isEmpty := by
    intro m
    simp [Table.hasPrimaryKey]
  have hnone : ∀ {m : Mapping}, ¬ m.table.hasPrimaryKey = true →
      m.table.primaryKey.map Field.name = [] := by
    intro m hnot
    simpa [hkeyed m] using hnot
  constructor
  · intro h
    obtain ⟨hcolumns, hkeys⟩ := filter_definitionLines hw
    obtain ⟨hcolumns', hkeys'⟩ := filter_definitionLines hw'
    rw [← h] at hcolumns' hkeys'
    have hdeclared : m.declared = m'.declared := by
      refine map_eq_map_of_imp (fun f hf f' hf' => ?_) (hcolumns.symm.trans hcolumns')
      exact declared_of_columnDefinition hdialect (hw.fields f hf) (hw'.fields f' hf')
    have hinline := inlineKey_eq hdialect hdeclared
    refine ⟨hdeclared, ?_⟩
    have hlines : m.keyLines = m'.keyLines := hkeys.symm.trans hkeys'
    cases hm : m.inlineKey with
    | true => rw [keyNames_of_inlineKey hm, keyNames_of_inlineKey (hinline ▸ hm), hdeclared]
    | false =>
      have hm' : m'.inlineKey = false := hinline ▸ hm
      simp only [keyLines, hm, hm', Bool.not_false, Bool.and_true] at hlines
      by_cases hkey : m.table.hasPrimaryKey = true
      · by_cases hkey' : m'.table.hasPrimaryKey = true
        · rw [if_pos hkey, if_pos hkey'] at hlines
          exact keyNames_of_keyLine hw hw' hkey hkey' (List.cons.inj hlines).1
        · rw [if_pos hkey, if_neg hkey'] at hlines
          cases hlines
      · by_cases hkey' : m'.table.hasPrimaryKey = true
        · rw [if_neg hkey, if_pos hkey'] at hlines
          cases hlines
        · rw [hnone hkey, hnone hkey']
  · rintro ⟨hdeclared, hnames⟩
    have hlines : m.table.scalarFields.map m.columnDefinition =
        m'.table.scalarFields.map m'.columnDefinition := by
      refine map_eq_map_of_imp (fun f _ f' _ hff' => ?_) hdeclared
      obtain ⟨hname, hclause⟩ := Prod.mk.inj hff'
      rw [columnDefinition_eq, columnDefinition_eq, hname, hclause, hdialect]
    have hinline := inlineKey_eq hdialect hdeclared
    rw [definitionLines_eq, definitionLines_eq, hlines, keyLines, keyLines, keyLine, keyLine,
      hkeyed m, hkeyed m', hnames, hinline]

/-! ## Scripts -/

theorem createTable_eq (m : Mapping) :
    m.createTable = "create table " ++ m.table.name ++ " (\n    " ++
      ",\n    ".intercalate m.definitionLines ++ "\n)" := rfl

/-- A line of a table is not empty, and it is one line. -/
theorem line_of_mem (hw : m.table.Worded) {line : String} (h : line ∈ m.definitionLines) :
    line ≠ "" ∧ Lacks '\n' line ∧ Lacks '\r' line := by
  have hlacks : ∀ {x : Char}, isBlank x = true → ∀ f ∈ m.table.scalarFields, Lacks x f.name :=
    fun hx f hf => (hw.fields f hf).lacks (.inl hx)
  have hnewline : isBlank '\n' = true := by decide
  have hreturn : isBlank '\r' = true := by decide
  rw [definitionLines_eq, List.mem_append] at h
  rcases h with h | h
  · obtain ⟨f, hf, rfl⟩ := List.mem_map.mp h
    have hbehind := (m.clause_of f).behind
    have hblank : Lacks '\n' " " ∧ Lacks '\r' " " := by decide
    refine ⟨fun hnil => ?_, ?_, ?_⟩
    · have hlist := congrArg String.toList hnil
      simp [toList_columnDefinition] at hlist
    · simp [columnDefinition_eq, hlacks hnewline f hf, hblank, hbehind.line]
    · simp [columnDefinition_eq, hlacks hreturn f hf, hblank, hbehind.noReturn]
  · unfold keyLines at h
    split at h
    · obtain rfl := List.mem_singleton.mp h
      have hnames : ∀ {x : Char}, isBlank x = true →
          ∀ name ∈ m.table.primaryKey.map Field.name, Lacks x name := by
        intro x hx name hname
        obtain ⟨f, hf, rfl⟩ := List.mem_map.mp hname
        exact hlacks hx f (List.mem_of_mem_filter hf)
      refine ⟨fun hnil => ?_, ?_, ?_⟩
      · have hlist := congrArg String.toList hnil
        simp [keyLine, String.toList_append] at hlist
      · simp only [keyLine, lacks_append]
        exact ⟨⟨by decide, .intercalate (by decide) (hnames hnewline)⟩, by decide⟩
      · simp only [keyLine, lacks_append]
        exact ⟨⟨by decide, .intercalate (by decide) (hnames hreturn)⟩, by decide⟩
    · cases h

/-- **A script tells the name of its table and its lines.** -/
theorem createTable_inj (hw : m.table.Worded) (hw' : m'.table.Worded)
    (h : m.createTable = m'.createTable) :
    m.table.name = m'.table.name ∧ m.definitionLines = m'.definitionLines := by
  have htext : ∀ m : Mapping, m.createTable.toList =
      ("create table " ++ m.table.name ++ " (").toList ++ '\n' :: ("    ".toList ++
        (([','] ++ '\n' :: "    ".toList).intercalate (m.definitionLines.map String.toList) ++
          "\n)".toList)) := by
    intro m
    rw [createTable_eq]
    simp [String.toList_append, String.toList_intercalate]
  have hhead : ∀ {m : Mapping}, m.table.Worded →
      '\n' ∉ ("create table " ++ m.table.name ++ " (").toList := by
    intro m hw
    have hname : Lacks '\n' m.table.name := hw.name.lacks (.inl (by decide))
    show Lacks _ _
    simp only [lacks_append]
    exact ⟨⟨by decide, hname⟩, by decide⟩
  have hlist := congrArg String.toList h
  rw [htext, htext] at hlist
  obtain ⟨hname, hbody⟩ := append_cons_inj (hhead hw) (hhead hw') hlist
  have hname := (String.append_right_inj _).mp
    ((String.append_left_inj _).mp (String.toList_inj.mp hname))
  have hjoined := List.append_cancel_right (List.append_cancel_left hbody)
  have hline : ∀ {m : Mapping}, m.table.Worded →
      ∀ l ∈ m.definitionLines.map String.toList, l ≠ [] ∧ '\n' ∉ l := by
    intro m hw l hl
    obtain ⟨line, hmem, rfl⟩ := List.mem_map.mp hl
    obtain ⟨hne, hnewline, -⟩ := line_of_mem hw hmem
    exact ⟨fun hnil => hne (String.toList_eq_nil_iff.mp hnil), hnewline⟩
  have hlines := intercalate_inj_of_nonempty (by decide) (hline hw) (hline hw') hjoined
  exact ⟨hname, List.map_injective_iff.mpr (fun _ _ => String.toList_inj.mp) hlines⟩

/-- A script has no carriage return. -/
theorem lacks_return (hw : m.table.Worded) : Lacks '\r' m.createTable := by
  have hname : Lacks '\r' m.table.name := hw.name.lacks (.inl (by decide))
  rw [createTable_eq]
  simp only [lacks_append]
  exact ⟨⟨⟨⟨by decide, hname⟩, by decide⟩,
    .intercalate (by decide) fun line hline => (line_of_mem hw hline).2.2⟩, by decide⟩

end Mapping

/-! ## Scripts that match -/

namespace Mapping

variable {m m' : Mapping}

/-- A generated script is compared as it is. -/
theorem normal_createTable (hw : m.table.Worded) :
    trimRight (unifyLineEnds m.createTable.toList) = m.createTable.toList := by
  obtain ⟨front, hfront⟩ : ∃ front, m.createTable.toList = front ++ [')'] := by
    have hend : "\n)".toList = ['\n'] ++ [')'] := rfl
    rw [createTable_eq, String.toList_append, hend, ← List.append_assoc]
    exact ⟨_, rfl⟩
  rw [unifyLineEnds_self (lacks_return hw), hfront, trimRight_concat (by decide)]

/-- **Comparing scripts finds what the tables differ in, and nothing else.** Let two tables have
words for the names that a script writes. In one dialect, whichever it is,

* their scripts match just if the tables have one name, declare the same columns in one order, each
  with the same type and whether it may be null or as an identity, and have the same columns for
  their keys,
* and whatever is saved, it matches the same scripts after any of its newlines have been replaced by
  a carriage return and a newline, and white space has been put at the end. -/
theorem definitionsMatch_createTable (hdialect : m.dialect = m'.dialect) (hw : m.table.Worded)
    (hw' : m'.table.Worded) :
    (definitionsMatch m.createTable m'.createTable = true ↔
      m.table.name = m'.table.name ∧ m.declared = m'.declared ∧
        m.table.primaryKey.map Field.name = m'.table.primaryKey.map Field.name) ∧
    ∀ saved saved' blanks generated : String, Respelled saved.toList saved'.toList →
      (∀ c ∈ blanks.toList, isBlank c = true) →
      definitionsMatch (saved' ++ blanks) generated = definitionsMatch saved generated := by
  refine ⟨?_, fun saved saved' blanks generated => definitionsMatch_respelled generated⟩
  unfold definitionsMatch
  rw [normal_createTable hw, normal_createTable hw', beq_iff_eq, String.toList_inj]
  constructor
  · intro h
    obtain ⟨hname, hlines⟩ := createTable_inj hw hw' h
    exact ⟨hname, (definitionLines_eq_iff hdialect hw hw').mp hlines⟩
  · rintro ⟨hname, hdeclared⟩
    have hlines := (definitionLines_eq_iff hdialect hw hw').mpr hdeclared
    rw [createTable_eq, createTable_eq, hname, hlines]

end Mapping

/-! ## Pairs -/

/-- Notes under two names that may be missing. -/
def Pairs.lenient : Mapping := { Pairs.mapping with
  table := { Pairs.table with
    fields := [.ofType "a" { scalar := .text } { primaryKey := true },
      .ofType "b" { scalar := .text } { primaryKey := true },
      .ofType "note" { scalar := .text, nullable := true },
      .ofType "slug" { scalar := .text } { automatic := .computed }] } }

open Pairs in
/-- The script of the notes matches itself with other line ends, and not that of notes that may be
missing. -/
theorem Mapping.definitionsMatch_createTable_pairs :
    definitionsMatch (String.ofList (mapping.createTable.toList.flatMap fun c =>
        if c = '\n' then ['\r', '\n'] else [c]) ++ " \n") mapping.createTable = true ∧
      definitionsMatch mapping.createTable lenient.createTable = false := by
  have hword : mapping.table.Worded :=
    Table.worded_of_identifiers (by decide) nofun (by decide)
  have hword' : lenient.table.Worded :=
    Table.worded_of_identifiers (by decide) nofun (by decide)
  have hdialect : mapping.dialect = lenient.dialect := rfl
  obtain ⟨hself, hsaved⟩ := definitionsMatch_createTable rfl hword hword
  have hdiffers := (definitionsMatch_createTable hdialect hword hword').1
  constructor
  · have hspelled := respelled_all (lacks_return hword)
    have hblanks : ∀ c ∈ " \n".toList, isBlank c = true := by
      intro c hc
      rcases List.mem_pair.mp hc with rfl | rfl
      · decide
      · decide
    rw [hsaved mapping.createTable _ _ _ (by rwa [String.toList_ofList]) hblanks]
    exact hself.mpr ⟨rfl, rfl, rfl⟩
  · rw [Bool.eq_false_iff, ne_eq, hdiffers]
    rintro ⟨-, hdeclared, -⟩
    exact absurd hdeclared (by decide)

end EntityMapper
