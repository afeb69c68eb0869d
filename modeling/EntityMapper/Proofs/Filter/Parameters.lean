import Mathlib.Data.List.Nodup
import EntityMapper.Proofs.Fallible
import EntityMapper.Proofs.Statement.Placeholders

/-!
# The parameters of a compiled expression

Compiling numbers the values that it binds and writes the placeholder of each of them where it binds
it, so that the placeholders of a text are those of rising numbers. A literal is bound unless it is
null, but of values that are looked for the nulls are bound as well. What is looked for among no
values has bound its literals before the condition is written that has none of them.

* `Expr.literals`, `Expr.listedNulls`, `Expr.unwritten` — how much is bound, and how much of it is
  not written
* `Scope.Translates.supplies` — what translating an expression binds and writes
* `compile_placeholders` — the names, the values and the placeholders of a compiled expression
* `compile_literals` — how many parameters there are, how many of them null and how many written
-/

namespace EntityMapper

/-! ## Literals -/

namespace Expr

/-- The number of literals that are not null. -/
def literals : Expr → Nat
  | .member _ => 0
  | .constant v => if v.isNull then 0 else 1
  | .compare _ l r => l.literals + r.literals
  | .and l r => l.literals + r.literals
  | .or l r => l.literals + r.literals
  | .not e => e.literals
  | .arithmetic _ l r => l.literals + r.literals
  | .call _ t args => t.literals + ofAll args
  | .conditional c t e => c.literals + t.literals + e.literals
where
  /-- The number of literals in the arguments of a call. -/
  ofAll : List Expr → Nat
    | [] => 0
    | a :: rest => a.literals + ofAll rest

/-- The number of nulls among the values that are looked for. -/
def listedNulls : Expr → Nat
  | .member _ => 0
  | .constant _ => 0
  | .compare _ l r => l.listedNulls + r.listedNulls
  | .and l r => l.listedNulls + r.listedNulls
  | .or l r => l.listedNulls + r.listedNulls
  | .not e => e.listedNulls
  | .arithmetic _ l r => l.listedNulls + r.listedNulls
  | .call .isIn t args => t.listedNulls + args.countP isNullLiteral
  | .call _ t _ => t.listedNulls
  | .conditional c t e => c.listedNulls + t.listedNulls + e.listedNulls

/-- The number of values that are bound in what is looked for among no values. -/
def unwritten : Expr → Nat
  | .member _ => 0
  | .constant _ => 0
  | .compare _ l r => l.unwritten + r.unwritten
  | .and l r => l.unwritten + r.unwritten
  | .or l r => l.unwritten + r.unwritten
  | .not e => e.unwritten
  | .arithmetic _ l r => l.unwritten + r.unwritten
  | .call .isIn t [] => t.literals + t.listedNulls
  | .call _ t _ => t.unwritten
  | .conditional c t e => c.unwritten + t.unwritten + e.unwritten

/-- What an expression binds and writes: its values, normalized, and the numbers of those that the
condition has, where the first of them has the number `first`. -/
structure Supplies (e : Expr) (first : Nat) (vs : List Value) (c : Condition) : Prop where
  length : vs.length = e.literals + e.listedNulls
  nulls : vs.countP Value.isNull = e.listedNulls
  normal : ∀ v ∈ vs, v.type ≠ .datetime
  numbered : c.parameters.Sublist (List.range' first vs.length)
  written : c.parameters.length + e.unwritten = vs.length

namespace Supplies

variable {e e₁ e₂ : Expr} {first : Nat} {vs vs₁ vs₂ : List Value} {c c₁ c₂ : Condition}

/-- What is built around an operand binds and writes what that does. -/
theorem around (h : e₁.Supplies first vs c₁) (hliterals : e.literals = e₁.literals)
    (hlisted : e.listedNulls = e₁.listedNulls) (hunwritten : e.unwritten = e₁.unwritten)
    (hparameters : c.parameters = c₁.parameters) : e.Supplies first vs c where
  length := by rw [hliterals, hlisted, h.length]
  nulls := by rw [hlisted, h.nulls]
  normal := h.normal
  numbered := hparameters ▸ h.numbered
  written := by rw [hparameters, hunwritten, h.written]

/-- What is built of two operands binds and writes what they do, one behind the other. -/
theorem both (h₁ : e₁.Supplies first vs₁ c₁) (h₂ : e₂.Supplies (first + vs₁.length) vs₂ c₂)
    (hliterals : e.literals = e₁.literals + e₂.literals)
    (hlisted : e.listedNulls = e₁.listedNulls + e₂.listedNulls)
    (hunwritten : e.unwritten = e₁.unwritten + e₂.unwritten)
    (hparameters : c.parameters = c₁.parameters ++ c₂.parameters) :
    e.Supplies first (vs₁ ++ vs₂) c where
  length := by
    rw [List.length_append, h₁.length, h₂.length, hliterals, hlisted]
    omega
  nulls := by rw [List.countP_append, h₁.nulls, h₂.nulls, hlisted]
  normal := fun v hv => (List.mem_append.mp hv).elim (h₁.normal v) (h₂.normal v)
  numbered := by
    rw [hparameters, List.length_append, ← List.range'_append_1]
    exact h₁.numbered.append h₂.numbered
  written := by
    have hw₁ := h₁.written
    have hw₂ := h₂.written
    rw [hparameters, List.length_append, List.length_append, hunwritten]
    omega

/-- What binds values of its own behind an operand, and writes each of them. -/
theorem binding (h : e₁.Supplies first vs c₁) {more : List Value}
    (hliterals : e.literals + e.listedNulls = e₁.literals + e₁.listedNulls + more.length)
    (hnulls : e.listedNulls = e₁.listedNulls + more.countP Value.isNull)
    (hnormal : ∀ v ∈ more, v.type ≠ .datetime) (hunwritten : e.unwritten = e₁.unwritten)
    (hparameters : c.parameters =
      c₁.parameters ++ List.range' (first + vs.length) more.length) :
    e.Supplies first (vs ++ more) c where
  length := by rw [List.length_append, h.length, hliterals]
  nulls := by rw [List.countP_append, h.nulls, hnulls]
  normal := fun v hv => (List.mem_append.mp hv).elim (h.normal v) (hnormal v)
  numbered := by
    rw [hparameters, List.length_append, ← List.range'_append_1]
    exact h.numbered.append (List.Sublist.refl _)
  written := by
    have hw := h.written
    rw [hparameters, List.length_append, List.length_append, List.length_range', hunwritten]
    omega

end Supplies

end Expr

variable {s : Scope} {e l r : Expr} {bound bound' : List Value} {c : Condition}

theorem literals_ofAll_constants (vs : List Value) :
    Expr.literals.ofAll (vs.map .constant) + vs.countP Value.isNull = vs.length := by
  induction vs with
  | nil => rfl
  | cons v rest ih =>
    rw [List.map_cons, Expr.literals.ofAll, Expr.literals, List.countP_cons, List.length_cons]
    cases v.isNull <;> simp <;> omega

theorem isNullLiteral_constant_eq (v : Value) : (Expr.constant v).isNullLiteral = v.isNull := by
  cases v <;> rfl

theorem isNull_normalizeLiteral (v : Value) : v.normalizeLiteral.isNull = v.isNull := by
  cases v <;> rfl

/-- The literals beside a null are those of the operand that is tested. -/
theorem counts_besideNull (h : Expr.besideNull l r = some e) :
    l.literals + r.literals = e.literals ∧ l.listedNulls + r.listedNulls = e.listedNulls ∧
      l.unwritten + r.unwritten = e.unwritten := by
  rcases besideNull_eq_some h with ⟨rfl, rfl⟩ | ⟨rfl, rfl⟩
  · exact ⟨rfl, rfl, rfl⟩
  · simp [Expr.literals, Expr.listedNulls, Expr.unwritten, Value.isNull]

/-- A text method has one literal beside those of its target, which is no null. -/
theorem counts_like {method : Method} {text pattern : String}
    (h : method.pattern? text = some pattern) (e : Expr) :
    (Expr.call method e [.constant (.text text)]).literals = e.literals + 1 ∧
      (Expr.call method e [.constant (.text text)]).listedNulls =
        e.listedNulls + [Value.text pattern].countP Value.isNull ∧
      (Expr.call method e [.constant (.text text)]).unwritten = e.unwritten := by
  cases method with
  | contains | startsWith | endsWith => exact ⟨rfl, rfl, rfl⟩
  | isIn | toLower | toUpper | other => exact nomatch h

/-- **What translating an expression binds and writes.** -/
theorem Scope.Translates.supplies (h : s.Translates e bound c bound') :
    ∃ vs, bound' = bound ++ vs ∧ e.Supplies bound.length vs c := by
  induction h with
  | member =>
    refine ⟨[], (List.append_nil _).symm, ?_, ?_, List.forall_mem_nil _, List.Sublist.refl _, ?_⟩
    · simp [Expr.literals, Expr.listedNulls]
    · simp [Expr.listedNulls]
    · simp [Expr.unwritten, Condition.parameters]
  | null =>
    refine ⟨[], (List.append_nil _).symm, ?_, ?_, List.forall_mem_nil _, List.Sublist.refl _, ?_⟩
    · simp [Expr.literals, Expr.listedNulls, Value.isNull]
    · simp [Expr.listedNulls]
    · simp [Expr.unwritten, Condition.parameters]
  | @constant v bound h =>
    refine ⟨[v.normalizeLiteral], rfl, ?_, ?_, ?_, ?_, rfl⟩
    · simp [Expr.literals, Expr.listedNulls, Value.isNull_iff, h]
    · simp [Expr.listedNulls, isNull_normalizeLiteral, Value.isNull_iff, h]
    · intro w hw
      obtain rfl := List.mem_singleton.mp hw
      exact v.normalizeLiteral_type_ne
    · exact List.Sublist.refl _
  | isNull htested _ ih =>
    obtain ⟨vs, rfl, ih⟩ := ih
    obtain ⟨hliterals, hlisted, hunwritten⟩ := counts_besideNull htested
    exact ⟨vs, rfl, ih.around hliterals hlisted hunwritten rfl⟩
  | isNotNull htested _ ih =>
    obtain ⟨vs, rfl, ih⟩ := ih
    obtain ⟨hliterals, hlisted, hunwritten⟩ := counts_besideNull htested
    exact ⟨vs, rfl, ih.around hliterals hlisted hunwritten rfl⟩
  | compare _ _ _ ihl ihr | and _ _ ihl ihr | or _ _ ihl ihr | arithmetic _ _ ihl ihr =>
    obtain ⟨vs, rfl, ihl⟩ := ihl
    obtain ⟨ws, rfl, ihr⟩ := ihr
    rw [List.length_append] at ihr
    exact ⟨vs ++ ws, List.append_assoc .., ihl.both ihr rfl rfl rfl rfl⟩
  | not _ ih =>
    obtain ⟨vs, rfl, ih⟩ := ih
    exact ⟨vs, rfl, ih.around rfl rfl rfl rfl⟩
  | lower _ ih | upper _ ih =>
    obtain ⟨vs, rfl, ih⟩ := ih
    exact ⟨vs, rfl, ih.around rfl rfl rfl rfl⟩
  | @never e bound bound' c _ ih =>
    -- the values of what is looked for stay bound
    obtain ⟨vs, rfl, ih⟩ := ih
    have hlisted : (Expr.call .isIn e []).listedNulls = e.listedNulls := by
      simp [Expr.listedNulls]
    refine ⟨vs, rfl, ?_, hlisted ▸ ih.nulls, ih.normal, List.nil_sublist _, ?_⟩
    · rw [hlisted, ih.length, Expr.literals, Expr.literals.ofAll, Nat.add_zero]
    · rw [ih.length, Expr.unwritten]
      exact Nat.zero_add _
  | @isIn e bound bound' c vs hvs _ ih =>
    obtain ⟨ws, rfl, ih⟩ := ih
    have hlisted : (Expr.call .isIn e (vs.map .constant)).listedNulls =
        e.listedNulls + vs.countP Value.isNull := by
      rw [Expr.listedNulls, List.countP_map]
      congr 2
      funext v
      exact isNullLiteral_constant_eq v
    refine ⟨ws ++ vs.map Value.normalizeLiteral, List.append_assoc .., ih.binding ?_ ?_ ?_ ?_ ?_⟩
    · have hliterals := literals_ofAll_constants vs
      rw [hlisted, Expr.literals, List.length_map]
      omega
    · rw [hlisted, List.countP_map]
      congr 2
      funext v
      exact (isNull_normalizeLiteral v).symm
    · exact List.forall_mem_map.mpr fun v _ => v.normalizeLiteral_type_ne
    · obtain ⟨v, rest, rfl⟩ := List.exists_cons_of_ne_nil hvs
      rfl
    · rw [Condition.parameters, List.length_append, List.length_map]
  | @like method text pattern e bound bound' c hpattern _ ih =>
    obtain ⟨vs, rfl, ih⟩ := ih
    obtain ⟨hliterals, hlisted, hunwritten⟩ := counts_like hpattern e
    refine ⟨vs ++ [.text pattern], List.append_assoc .., ih.binding ?_ hlisted ?_ hunwritten ?_⟩
    · rw [hliterals, hlisted]
      simp [Value.isNull]
      omega
    · intro v hv
      obtain rfl := List.mem_singleton.mp hv
      exact (Value.text pattern).normalizeLiteral_type_ne
    · rw [Condition.parameters, List.length_append]
      rfl

/-! ## Compiled expressions -/

/-- The names of parameters are in the order of their numbers. -/
theorem names_namedParameters (leading : String) (values : List Value) :
    (namedParameters leading values).map Prod.fst =
      (List.range values.length).map (parameterName leading) := by
  rw [namedParameters, List.map_map, List.range_eq_range', ← List.zipIdx_map_snd 0 values,
    List.map_map]
  rfl

theorem values_namedParameters (leading : String) (values : List Value) :
    (namedParameters leading values).map Prod.snd = values := by
  rw [namedParameters, List.map_map]
  exact List.zipIdx_map_fst 0 values

theorem length_namedParameters (leading : String) (values : List Value) :
    (namedParameters leading values).length = values.length := by
  rw [namedParameters, List.length_map, List.length_zipIdx]

/-- Some of the numbers of parameters are those of some of the parameters. -/
theorem exists_sublist_namedParameters {leading : String} {values : List Value} {numbers : List Nat}
    (h : numbers.Sublist (List.range' 0 values.length)) :
    ∃ written : List (String × Value), written.Sublist (namedParameters leading values) ∧
      written.map Prod.fst = numbers.map (parameterName leading) := by
  rw [← List.zipIdx_map_snd 0 values] at h
  obtain ⟨written, hwritten, rfl⟩ := List.sublist_map_iff.mp h
  let named : Value × Nat → String × Value := fun x => (parameterName leading x.2, x.1)
  have hnamed : namedParameters leading values = values.zipIdx.map named := rfl
  refine ⟨written.map named, hnamed ▸ hwritten.map named, ?_⟩
  rw [List.map_map, List.map_map]
  rfl

variable {d : Dialect} {leading : String} {p : CompiledPredicate}

/-- What a compiled expression binds and writes. -/
theorem supplies_compile (h : s.compile d leading e = .ok p) : ∃ c values,
    s.condition e [] = .ok (c, values) ∧ e.Supplies 0 values c ∧
      p.text = c.text (fun i => d.placeholder (parameterName leading i)) ∧
      p.parameters = namedParameters leading values := by
  obtain ⟨c, values, hc, htext, hparameters⟩ := compile_cases h
  obtain ⟨_, rfl, hsupplies⟩ := (translates_of_condition e hc).supplies
  exact ⟨c, _, hc, hsupplies, htext, hparameters⟩

/-- Where names are identifiers, the placeholders of an expression are its written parameters. -/
theorem placeholders_compile (hs : s.AllNames IsIdentifier) (hd : d.Marks)
    (hleading : IsIdentifier leading) {values : List Value}
    (hc : s.condition e [] = .ok (c, values)) :
    d.placeholders (c.text fun i => d.placeholder (parameterName leading i)) =
      c.parameters.map (parameterName leading) := by
  refine Dialect.placeholders_condition hd hleading fun col hcol => ?_
  obtain ⟨path, -, hpath⟩ := (draws_condition e hc).columns col hcol
  exact hs.isPlain_column hpath

/-- **The names, the values and the placeholders of a compiled expression**: the parameters are named
by their numbers, each by a name of its own, none of them is a datetime, and the placeholders in the
text are some of the names, each at most once and in their order. -/
theorem compile_placeholders (hs : s.AllNames IsIdentifier) (hleading : IsIdentifier leading)
    {database : Database} (h : s.compile (.of database) leading e = .ok p) :
    p.parameters.map Prod.fst =
        (List.range p.parameters.length).map (parameterName leading) ∧
      (p.parameters.map Prod.fst).Nodup ∧
      (∀ b ∈ p.parameters, b.2.type ≠ .datetime) ∧
      ((Dialect.of database).placeholders p.text).Sublist (p.parameters.map Prod.fst) := by
  obtain ⟨c, values, hc, hsupplies, htext, hparameters⟩ := supplies_compile h
  have hnames : p.parameters.map Prod.fst =
      (List.range p.parameters.length).map (parameterName leading) := by
    rw [hparameters, names_namedParameters, length_namedParameters]
  refine ⟨hnames, ?_, fun b hb => ?_, ?_⟩
  · rw [hnames]
    exact List.Nodup.map (fun _ _ => parameterName_inj) List.nodup_range
  · refine hsupplies.normal b.2 ?_
    rw [← values_namedParameters leading values, ← hparameters]
    exact List.mem_map_of_mem hb
  · rw [htext, placeholders_compile hs (Dialect.marks_of database) hleading hc, hnames, hparameters,
      length_namedParameters, List.range_eq_range']
    exact hsupplies.numbered.map _

namespace Library

/-- Authors of the first number or of none; or of which the double number is among no numbers, with
a title before some other. -/
def wanted : Expr :=
  .or (.call .isIn (.member ["id"]) [.constant (.int 1), .constant .null])
    (.and (.call .isIn (.arithmetic .mul (.member ["id"]) (.constant (.int 2))) [])
      (.compare .lt (.member ["books", "title"]) (.constant (.text "m"))))

/-- What they compile to: the number that the double is made with is bound and not written. -/
def wantedPredicate : CompiledPredicate where
  text := "(a.id IN (@px0, @px1) OR (1 = 0 AND books.title < @px3))"
  parameters := [("px0", .int 1), ("px1", .null), ("px2", .int 2), ("px3", .text "m")]

theorem compile_wanted :
    authorScope.compile (.of .sqlite) "x" wanted = .ok wantedPredicate :=
  ok_of_toOption (by decide +kernel)

theorem allNames_authorScope : authorScope.AllNames IsIdentifier :=
  Scope.allNames_of_tables (by decide +kernel) fun a ha => by
    obtain rfl := Option.some.inj ha
    decide

end Library

/-- The parameters of the authors that are wanted are named in their order. -/
theorem compile_placeholders_library :
    Library.authorScope.compile (.of .sqlite) "x" Library.wanted = .ok Library.wantedPredicate ∧
      Library.wantedPredicate.parameters.map Prod.fst = (List.range 4).map (parameterName "x") ∧
      ((Dialect.of .sqlite).placeholders Library.wantedPredicate.text).Sublist
        (Library.wantedPredicate.parameters.map Prod.fst) := by
  obtain ⟨hnames, -, -, hplaceholders⟩ :=
    compile_placeholders Library.allNames_authorScope (by decide) Library.compile_wanted
  exact ⟨Library.compile_wanted, hnames, hplaceholders⟩

/-! ## Placeholders that stand in a text -/

/-- The placeholder of a name stands in a text, and nothing goes on with the name. -/
def Dialect.Stands (d : Dialect) (name text : String) : Prop :=
  ∃ before after : String, text = before ++ d.placeholder name ++ after ∧ StartsApart after.toList

theorem StartsApart.append {cs rest : List Char} (hcs : StartsApart cs) (hrest : StartsApart rest) :
    StartsApart (cs ++ rest) := by
  cases cs with
  | nil => exact hrest
  | cons c r => exact hcs

namespace Dialect.Stands

variable {name text separator s r : String}

/-- What stands in a text stands in one that ends with it. -/
theorem behind (h : d.Stands name text) (before : String) : d.Stands name (before ++ text) := by
  obtain ⟨b, after, rfl, hafter⟩ := h
  exact ⟨before ++ b, after, by simp only [String.append_assoc], hafter⟩

/-- What stands in a text stands in one that goes on with a separator. -/
theorem closed (h : d.Stands name text) (hseparator : IsSeparator separator) :
    d.Stands name (text ++ separator) := by
  obtain ⟨before, a, rfl, ha⟩ := h
  refine ⟨before, a ++ separator, by simp only [String.append_assoc], ?_⟩
  have hstarts := hseparator.startsApart []
  rw [List.append_nil] at hstarts
  rw [String.toList_append]
  exact ha.append hstarts

/-- What stands in one of two texts stands in both of them with a separator between. -/
theorem between (hseparator : IsSeparator separator) (h : d.Stands name s ∨ d.Stands name r) :
    d.Stands name (s ++ separator ++ r) := by
  rcases h with ⟨before, a, rfl, ha⟩ | h
  · refine ⟨before, a ++ separator ++ r, by simp only [String.append_assoc], ?_⟩
    rw [String.toList_append, String.toList_append, List.append_assoc]
    exact ha.append (hseparator.startsApart _)
  · exact h.behind _

/-- What stands in one of two operands stands in the operation. -/
theorem operator {operator : String} (hoperator : IsSeparator (" " ++ operator ++ " "))
    (h : d.Stands name s ∨ d.Stands name r) :
    d.Stands name (s ++ " " ++ operator ++ " " ++ r) := by
  have hbetween := between hoperator h
  simpa only [String.append_assoc] using hbetween

/-- A listed placeholder stands in the list. -/
theorem intercalate {names : List String} (h : name ∈ names) :
    d.Stands name (", ".intercalate (names.map d.placeholder)) := by
  match names with
  | [n] =>
    obtain rfl := List.mem_singleton.mp h
    exact ⟨"", "", by simp, nofun⟩
  | n :: m :: rest =>
    rw [List.map_cons, List.map_cons, String.intercalate_cons_cons]
    rcases List.mem_cons.mp h with rfl | h
    · exact between (by decide) (.inl ⟨"", "", by simp, nofun⟩)
    · exact (intercalate h).behind _

end Dialect.Stands

/-- **Each parameter of a condition stands in its text.** -/
theorem stands_of_mem_parameters {i : Nat} (h : i ∈ c.parameters) :
    d.Stands (parameterName leading i)
      (c.text fun i => d.placeholder (parameterName leading i)) := by
  have hself : ∀ name, d.Stands name (d.placeholder name) :=
    fun name => ⟨"", "", by simp, nofun⟩
  induction c with
  | null | column | never => exact absurd h List.not_mem_nil
  | parameter k =>
    obtain rfl := List.mem_singleton.mp h
    exact hself _
  | compare op l r ihl ihr =>
    exact .operator (Dialect.isSeparator_compareOp op) ((List.mem_append.mp h).imp ihl ihr)
  | arithmetic op l r ihl ihr =>
    rw [Condition.text]
    refine .closed (.operator (Dialect.isSeparator_arithmeticOp op) ?_) (by decide)
    exact (List.mem_append.mp h).imp (fun h => (ihl h).behind _) ihr
  | and l r ihl ihr | or l r ihl ihr =>
    rw [Condition.text]
    refine .closed (.between (by decide) ?_) (by decide)
    exact (List.mem_append.mp h).imp (fun h => (ihl h).behind _) ihr
  | isNull e ih | isNotNull e ih => exact (ih h).closed (by decide)
  | not e ih | lower e ih | upper e ih => exact ((ih h).behind _).closed (by decide)
  | like e pattern ih =>
    rw [Condition.text]
    refine .between (by decide) ((List.mem_append.mp h).imp ih fun h => ?_)
    obtain rfl := List.mem_singleton.mp h
    exact hself _
  | isIn e items ih =>
    rw [Condition.text]
    refine .closed (.between (by decide) ((List.mem_append.mp h).imp ih fun h => ?_)) (by decide)
    have hname : parameterName leading i ∈ items.map (parameterName leading) :=
      List.mem_map_of_mem h
    have hlisted := Dialect.Stands.intercalate (d := d) hname
    rwa [List.map_map] at hlisted

/-- **How many parameters a compiled expression has**: one for each literal that is not null and one
for each null that is looked for, and only those are null. All of them are written, but for those of
what is looked for among no values. -/
theorem compile_literals (h : s.compile d leading e = .ok p) :
    p.parameters.length = e.literals + e.listedNulls ∧
      p.parameters.countP (fun b => b.2.isNull) = e.listedNulls ∧
      ∃ written : List (String × Value), written.Sublist p.parameters ∧
        written.length + e.unwritten = p.parameters.length ∧
        (∀ b ∈ written, d.Stands b.1 p.text) ∧
        (s.AllNames IsIdentifier → d.Marks → IsIdentifier leading →
          d.placeholders p.text = written.map Prod.fst) := by
  obtain ⟨c, values, hc, hsupplies, htext, hparameters⟩ := supplies_compile h
  obtain ⟨written, hsublist, hwritten⟩ :
      ∃ written : List (String × Value), written.Sublist (namedParameters leading values) ∧
        written.map Prod.fst = c.parameters.map (parameterName leading) :=
    exists_sublist_namedParameters hsupplies.numbered
  have hlength : written.length = c.parameters.length := by
    have hnames := congrArg List.length hwritten
    rwa [List.length_map, List.length_map] at hnames
  rw [htext, hparameters, length_namedParameters]
  refine ⟨hsupplies.length, ?_, written, hsublist, ?_, fun b hb => ?_, fun hs hd hleading => ?_⟩
  · rw [← hsupplies.nulls, ← values_namedParameters leading values, List.countP_map,
      values_namedParameters]
    rfl
  · rw [hlength, hsupplies.written]
  · have hname : b.1 ∈ c.parameters.map (parameterName leading) :=
      hwritten ▸ List.mem_map_of_mem hb
    obtain ⟨i, hi, hname⟩ := List.mem_map.mp hname
    rw [← hname]
    exact stands_of_mem_parameters hi
  · rw [placeholders_compile hs hd hleading hc, hwritten]

/-- The authors that are wanted have three literals and four parameters, one of them null; three of
the four are written, all but the number that the double is made with. -/
theorem compile_literals_library :
    Library.authorScope.compile (.of .sqlite) "x" Library.wanted = .ok Library.wantedPredicate ∧
      Library.wanted.literals = 3 ∧ Library.wantedPredicate.parameters.length = 3 + 1 ∧
      Library.wantedPredicate.parameters.countP (fun b => b.2.isNull) = 1 ∧
      ∃ written : List (String × Value), written.length + 1 = 4 ∧
        (Dialect.of .sqlite).placeholders Library.wantedPredicate.text = written.map Prod.fst := by
  obtain ⟨hlength, hnulls, written, -, hwritten, -, hplaceholders⟩ :=
    compile_literals Library.compile_wanted
  exact ⟨Library.compile_wanted, rfl, hlength, hnulls, written, hwritten,
    hplaceholders Library.allNames_authorScope (Dialect.marks_of .sqlite) (by decide)⟩

end EntityMapper
