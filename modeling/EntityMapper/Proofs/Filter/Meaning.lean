import EntityMapper.Engine.Evaluate
import EntityMapper.Proofs.Filter.Grouping
import EntityMapper.Proofs.Filter.Parameters

/-!
# What the text of a condition leaves open

An expression of members, literals, comparisons, connectives and arithmetic stands for a tree of
SQL. Its text and its values determine the tree up to the grouping of comparisons, and where nothing
is compared with a comparison they determine it entirely. They do not where something is.

* `Scope.meaning`, `Scope.truth` — what an expression stands for, and whether it holds in a row
* `meaning_of_translates` — its condition stands for the same
* `compile_meaning` — expressions of one text and one list of values are grouped alike, and what is
  settled by its groups holds in the same rows
* `compile_ambiguous_library` — two expressions of one text that hold in different rows
-/

namespace EntityMapper

open Engine (SqlExpr Place Cell)

/-! ## Meaning -/

/-- An expression is made of members, literals, comparisons, connectives and arithmetic. -/
def Expr.IsBasic : Expr → Prop
  | .member _ => True
  | .constant _ => True
  | .compare _ l r => l.IsBasic ∧ r.IsBasic
  | .and l r => l.IsBasic ∧ r.IsBasic
  | .or l r => l.IsBasic ∧ r.IsBasic
  | .not e => e.IsBasic
  | .arithmetic _ l r => l.IsBasic ∧ r.IsBasic
  | .call .. => False
  | .conditional .. => False

/-- The comparison of an operand with null: equality with null is the test for it. -/
def nullComparison (op : CompareOp) (e : SqlExpr Place) : SqlExpr Place :=
  match op with
  | .eq => .same e (.literal .null)
  | .ne => .not (.same e (.literal .null))
  | op => .compare op e (.literal .null)

/-- The tree of SQL that a basic expression stands for, with each column at its place in a row. -/
def Scope.meaning (s : Scope) (place : Option String → String → Place) : Expr → SqlExpr Place
  | .member path => match s.column path with
    | .ok (.column qualifier name) => .column (place qualifier name)
    | _ => .literal .null
  | .constant v => .literal (.ofValue v)
  | .compare op l r =>
    if r.isNullLiteral then nullComparison op (s.meaning place l)
    else if l.isNullLiteral then nullComparison op (s.meaning place r)
    else .compare op (s.meaning place l) (s.meaning place r)
  | .and l r => .and (s.meaning place l) (s.meaning place r)
  | .or l r => .or (s.meaning place l) (s.meaning place r)
  | .not e => .not (s.meaning place e)
  | .arithmetic op l r => .arithmetic op (s.meaning place l) (s.meaning place r)
  | .call .. => .literal .null
  | .conditional .. => .literal .null

/-- Whether a basic expression holds in a row, if that is known. -/
def Scope.truth (s : Scope) (place : Option String → String → Place) (row : Engine.Frame)
    (e : Expr) : Option Bool :=
  ((s.meaning place e).eval row).truth

/-- The tree of SQL that a basic condition stands for. -/
def Condition.meaning (values : List Value) (place : Option String → String → Place) :
    Condition → SqlExpr Place
  | .null => .literal .null
  | .column qualifier name => .column (place qualifier name)
  | .parameter i => .literal (.ofValue (values.getD i .null))
  | .compare op l r => .compare op (l.meaning values place) (r.meaning values place)
  | .isNull e => nullComparison .eq (e.meaning values place)
  | .isNotNull e => nullComparison .ne (e.meaning values place)
  | .and l r => .and (l.meaning values place) (r.meaning values place)
  | .or l r => .or (l.meaning values place) (r.meaning values place)
  | .not e => .not (e.meaning values place)
  | .arithmetic op l r => .arithmetic op (l.meaning values place) (r.meaning values place)
  | .like .. => .literal .null
  | .isIn .. => .literal .null
  | .never => .literal .null
  | .lower _ => .literal .null
  | .upper _ => .literal .null

variable {s : Scope} {e e₁ e₂ l r : Expr} {bound bound' : List Value} {c : Condition}
  {place : Option String → String → Place}

/-- A datetime is stored as its canonical text. -/
theorem ofValue_normalizeLiteral (v : Value) : Cell.ofValue v.normalizeLiteral = .ofValue v := by
  cases v <;> rfl

theorem isBasic_of_besideNull (h : Expr.besideNull l r = some e) (hl : l.IsBasic)
    (hr : r.IsBasic) : e.IsBasic := by
  rcases besideNull_eq_some h with ⟨rfl, -⟩ | ⟨-, rfl⟩
  · exact hl
  · exact hr

/-- A comparison stands for a test of what is beside null, and else for what it is. -/
theorem meaning_compare (op : CompareOp) (l r : Expr) :
    s.meaning place (.compare op l r) = match Expr.besideNull l r with
      | some e => nullComparison op (s.meaning place e)
      | none => .compare op (s.meaning place l) (s.meaning place r) := by
  rw [Scope.meaning, Expr.besideNull]
  split
  · rfl
  · split <;> rfl

theorem Scope.Translates.grows (h : s.Translates e bound c bound') : bound <+: bound' := by
  obtain ⟨vs, rfl, -⟩ := h.supplies
  exact List.prefix_append ..

/-- **What a basic expression is translated into stands for the same.** -/
theorem meaning_of_translates (h : s.Translates e bound c bound') (he : e.IsBasic)
    {values : List Value} (hvalues : bound' <+: values) :
    c.meaning values place = s.meaning place e := by
  induction h with
  | member hcolumn =>
    rw [Scope.meaning, hcolumn]
    rfl
  | null => rfl
  | @constant v bound _ =>
    obtain ⟨later, rfl⟩ := hvalues
    rw [Condition.meaning, Scope.meaning, ← ofValue_normalizeLiteral v]
    simp
  | isNull htested _ ih =>
    rw [meaning_compare, htested, Condition.meaning,
      ih (isBasic_of_besideNull htested he.1 he.2) hvalues]
  | isNotNull htested _ ih =>
    rw [meaning_compare, htested, Condition.meaning,
      ih (isBasic_of_besideNull htested he.1 he.2) hvalues]
  | compare htested _ hr ihl ihr =>
    rw [meaning_compare, htested, Condition.meaning, ihl he.1 (hr.grows.trans hvalues),
      ihr he.2 hvalues]
  | and _ hr ihl ihr =>
    rw [Scope.meaning, Condition.meaning, ihl he.1 (hr.grows.trans hvalues), ihr he.2 hvalues]
  | or _ hr ihl ihr =>
    rw [Scope.meaning, Condition.meaning, ihl he.1 (hr.grows.trans hvalues), ihr he.2 hvalues]
  | arithmetic _ hr ihl ihr =>
    rw [Scope.meaning, Condition.meaning, ihl he.1 (hr.grows.trans hvalues), ihr he.2 hvalues]
  | not _ ih => rw [Scope.meaning, Condition.meaning, ih he hvalues]
  | never | isIn | lower | upper | like => exact absurd he not_false

/-! ## Basic conditions -/

theorem IsBare.intercalate {names : List String} (hne : names ≠ [])
    (h : ∀ name ∈ names, IsBare name) : IsBare ("_".intercalate names) := by
  match names, hne with
  | [name], _ =>
    rw [String.intercalate_singleton]
    exact h name List.mem_cons_self
  | name :: other :: rest, _ =>
    obtain ⟨-, hall⟩ := h name List.mem_cons_self
    obtain ⟨-, hrest⟩ := intercalate (List.cons_ne_nil other rest) fun n hn =>
      h n (List.mem_cons_of_mem _ hn)
    have htext : ("_".intercalate (name :: other :: rest)).toList =
        name.toList ++ '_' :: ("_".intercalate (other :: rest)).toList := by
      simp [String.intercalate_cons_cons]
    constructor
    · intro hempty
      rw [hempty] at htext
      simp at htext
    · rw [htext, List.all_append, List.all_cons, hall, hrest]
      decide

/-- The names of fields and of the alias of the root are words without dots, and no column is
written like the null literal. -/
structure Scope.Bare (s : Scope) : Prop where
  names : s.AllNames IsBare
  notNull : s.rootAlias = none → ∀ f ∈ s.table.scalarFields, f.name ≠ "null"

/-- **What a basic expression is translated into is a basic condition.** -/
theorem basic_of_translates (hs : s.Bare) (h : s.Translates e bound c bound') (he : e.IsBasic) :
    c.Basic bound.length bound'.length := by
  induction h with
  | member hcolumn =>
    obtain ⟨hqualifier, hname⟩ := hs.names.column IsBare.intercalate hcolumn
    refine .column hqualifier hname fun hnone => ?_
    rcases column_cases hcolumn with ⟨name, -, hname, heq⟩ | ⟨chain, name, u, -, -, -, -, -, heq⟩
    · obtain ⟨f, hf, rfl⟩ := requireColumn_ok hname
      obtain ⟨rfl, rfl⟩ := Condition.column.inj heq
      exact hs.notNull hnone f hf
    · exact nomatch hnone.symm.trans (Condition.column.inj heq).1
  | null => exact .null
  | constant =>
    rw [List.length_append]
    exact .parameter
  | isNull htested _ ih => exact .isNull (ih (isBasic_of_besideNull htested he.1 he.2))
  | isNotNull htested _ ih => exact .isNotNull (ih (isBasic_of_besideNull htested he.1 he.2))
  | compare _ _ _ ihl ihr => exact .compare (ihl he.1) (ihr he.2)
  | and _ _ ihl ihr => exact .and (ihl he.1) (ihr he.2)
  | or _ _ ihl ihr => exact .or (ihl he.1) (ihr he.2)
  | not _ ih => exact .not (ih he)
  | arithmetic _ _ ihl ihr => exact .arithmetic (ihl he.1) (ihr he.2)
  | never | isIn | lower | upper | like => exact absurd he not_false

/-! ## Comparisons of comparisons -/

/-- Whether an expression is a comparison of two operands that are not null, or a test of one. -/
def Expr.compares : Expr → Bool
  | .compare _ l r =>
    if r.isNullLiteral then l.compares else if l.isNullLiteral then r.compares else true
  | _ => false

/-- Whether an expression is a comparison of any operands. -/
def Expr.isComparison : Expr → Bool
  | .compare .. => true
  | _ => false

/-- Nothing is compared with a comparison, and no comparison is compared, be it with null. -/
def Expr.Settled : Expr → Prop
  | .member _ => True
  | .constant _ => True
  | .compare _ l r => l.Settled ∧ r.Settled ∧ match Expr.besideNull l r with
    | some e => e.compares = false
    | none => l.compares = false ∧ r.isComparison = false
  | .and l r => l.Settled ∧ r.Settled
  | .or l r => l.Settled ∧ r.Settled
  | .not e => e.Settled
  | .arithmetic _ l r => l.Settled ∧ r.Settled
  | .call _ t _ => t.Settled
  | .conditional .. => True

theorem compares_compare (op : CompareOp) (l r : Expr) :
    (Expr.compare op l r).compares = match Expr.besideNull l r with
      | some e => e.compares
      | none => true := by
  rw [Expr.compares, Expr.besideNull]
  split
  · rfl
  · split <;> rfl

theorem compares_of_translates (h : s.Translates e bound c bound') : c.compares = e.compares := by
  induction h with
  | isNull htested _ ih | isNotNull htested _ ih =>
    rw [compares_compare, htested, Condition.compares, ih]
  | compare htested => rw [compares_compare, htested, Condition.compares]
  | _ => rfl

theorem isTest_of_translates (h : s.Translates e bound c bound') : c.isTest = e.isComparison := by
  cases h <;> rfl

theorem settled_of_besideNull (h : Expr.besideNull l r = some e) (hl : l.Settled)
    (hr : r.Settled) : e.Settled := by
  rcases besideNull_eq_some h with ⟨rfl, -⟩ | ⟨-, rfl⟩
  · exact hl
  · exact hr

/-- **What is translated from a settled expression is settled.** -/
theorem settled_of_translates (h : s.Translates e bound c bound') (he : e.Settled) :
    c.Settled := by
  induction h with
  | isNull htested ht ih | isNotNull htested ht ih =>
    obtain ⟨hl, hr, hcompares⟩ := he
    rw [htested] at hcompares
    exact ⟨ih (settled_of_besideNull htested hl hr),
      (compares_of_translates ht).trans hcompares⟩
  | compare htested htl htr ihl ihr =>
    obtain ⟨hl, hr, hcompares⟩ := he
    rw [htested] at hcompares
    exact ⟨ihl hl, ihr hr, (compares_of_translates htl).trans hcompares.1,
      (isTest_of_translates htr).trans hcompares.2⟩
  | and _ _ ihl ihr | or _ _ ihl ihr | arithmetic _ _ ihl ihr => exact ⟨ihl he.1, ihr he.2⟩
  | not _ ih | isIn _ _ ih | lower _ ih | upper _ ih | like _ _ ih => exact ih he
  | member | null | constant | never => trivial

/-! ## Texts and values -/

/-- **Text and values determine what is settled by its groups.** Basic expressions that compile to
one text and the same values have conditions that are grouped alike; and where one of them compares
nothing with a comparison, both hold in the same rows. -/
theorem compile_meaning (hs : s.Bare) {database : Database} {leading : String}
    {p₁ p₂ : CompiledPredicate} (he₁ : e₁.IsBasic) (he₂ : e₂.IsBasic)
    (h₁ : s.compile (.of database) leading e₁ = .ok p₁)
    (h₂ : s.compile (.of database) leading e₂ = .ok p₂) (htext : p₁.text = p₂.text)
    (hvalues : p₁.parameters.map Prod.snd = p₂.parameters.map Prod.snd) :
    (∃ c₁ c₂ values, s.condition e₁ [] = .ok (c₁, values) ∧
        s.condition e₂ [] = .ok (c₂, values) ∧ c₁.grouped = c₂.grouped) ∧
      (e₁.Settled → ∀ place row, s.truth place row e₁ = s.truth place row e₂) := by
  obtain ⟨c₁, values₁, hc₁, htext₁, hparameters₁⟩ := compile_cases h₁
  obtain ⟨c₂, values₂, hc₂, htext₂, hparameters₂⟩ := compile_cases h₂
  rw [hparameters₁, hparameters₂, values_namedParameters, values_namedParameters] at hvalues
  subst hvalues
  have ht₁ := translates_of_condition e₁ hc₁
  have ht₂ := translates_of_condition e₂ hc₂
  have hgrouped : c₁.grouped = c₂.grouped :=
    grouped_eq_of_text_eq (Dialect.marks_of database) (basic_of_translates hs ht₁ he₁)
      (basic_of_translates hs ht₂ he₂) (htext₁.symm.trans (htext.trans htext₂))
  refine ⟨⟨c₁, c₂, values₁, hc₁, hc₂, hgrouped⟩, fun hsettled place row => ?_⟩
  obtain rfl := (settled_of_translates ht₁ hsettled).eq_of_grouped_eq hgrouped
  have hmeaning : s.meaning place e₁ = s.meaning place e₂ :=
    (meaning_of_translates ht₁ he₁ (List.prefix_refl _)).symm.trans
      (meaning_of_translates ht₂ he₂ (List.prefix_refl _))
  rw [Scope.truth, hmeaning, Scope.truth]

namespace Library

/-- Noon of a day. -/
def noon : DateTime := ⟨2024, 1, 2, 12, 0, 0, 0, by decide⟩

/-- Authors without a number who have a book that is called by a time. -/
def unnumbered : Expr :=
  .and (.compare .eq (.member ["id"]) (.constant .null))
    (.not (.compare .ne (.member ["books", "title"]) (.constant (.datetime noon))))

/-- The same, with the null in front and the time as a text. -/
def unnumbered' : Expr :=
  .and (.compare .eq (.constant .null) (.member ["id"]))
    (.not (.compare .ne (.member ["books", "title"]) (.constant (.text noon.text))))

/-- What both compile to. -/
def unnumberedPredicate : CompiledPredicate where
  text := "(a.id is null AND NOT (books.title <> @p0))"
  parameters := [("p0", .text noon.text)]

theorem compile_unnumbered :
    authorScope.compile (.of .sqlite) "" unnumbered = .ok unnumberedPredicate :=
  ok_of_toOption (by decide +kernel)

theorem compile_unnumbered' :
    authorScope.compile (.of .sqlite) "" unnumbered' = .ok unnumberedPredicate :=
  ok_of_toOption (by decide +kernel)

theorem bare_authorScope : authorScope.Bare where
  names := Scope.allNames_of_tables (by decide +kernel) fun a ha => by
    obtain rfl := Option.some.inj ha
    decide
  notNull := nofun

/-- Authors whose number is equal to whether it is one. -/
def rightNested : Expr :=
  .compare .eq (.member ["id"]) (.compare .eq (.member ["id"]) (.constant (.int 1)))

/-- Authors for whom it is one whether their number is equal to itself. -/
def leftNested : Expr :=
  .compare .eq (.compare .eq (.member ["id"]) (.member ["id"])) (.constant (.int 1))

/-- What both compile to. -/
def nestedPredicate : CompiledPredicate where
  text := "a.id = a.id = @p0"
  parameters := [("p0", .int 1)]

/-- A row with the number five. -/
def five : Engine.Frame := ⟨fun _ => .null, 0, [.int 5], []⟩

/-- Every column is the first of a row. -/
def firstPlace (_ : Option String) (_ : String) : Place := ⟨0, .integer⟩

end Library

/-- A test for null and a time are told by their text and its values. -/
theorem compile_meaning_library :
    Library.authorScope.compile (.of .sqlite) "" Library.unnumbered =
        .ok Library.unnumberedPredicate ∧
      Library.authorScope.compile (.of .sqlite) "" Library.unnumbered' =
        .ok Library.unnumberedPredicate ∧
      ∀ place row, Library.authorScope.truth place row Library.unnumbered =
        Library.authorScope.truth place row Library.unnumbered' := by
  have hbasic : Library.unnumbered.IsBasic := ⟨⟨trivial, trivial⟩, trivial, trivial⟩
  have hbasic' : Library.unnumbered'.IsBasic := ⟨⟨trivial, trivial⟩, trivial, trivial⟩
  have hsettled : Library.unnumbered.Settled :=
    ⟨⟨trivial, trivial, rfl⟩, trivial, trivial, rfl, rfl⟩
  obtain ⟨-, htruth⟩ := compile_meaning Library.bare_authorScope hbasic hbasic'
    Library.compile_unnumbered Library.compile_unnumbered' rfl rfl
  exact ⟨Library.compile_unnumbered, Library.compile_unnumbered', htruth hsettled⟩

/-- The text of a comparison with a comparison does not tell which of them is compared. -/
theorem compile_ambiguous_library :
    Library.authorScope.compile (.of .sqlite) "" Library.rightNested =
        .ok Library.nestedPredicate ∧
      Library.authorScope.compile (.of .sqlite) "" Library.leftNested =
        .ok Library.nestedPredicate ∧
      Library.authorScope.truth Library.firstPlace Library.five Library.rightNested =
        some false ∧
      Library.authorScope.truth Library.firstPlace Library.five Library.leftNested = some true :=
  ⟨ok_of_toOption (by decide +kernel), ok_of_toOption (by decide +kernel), by decide +kernel,
    by decide +kernel⟩

end EntityMapper
