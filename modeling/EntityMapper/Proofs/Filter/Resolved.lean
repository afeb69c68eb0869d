import EntityMapper.Proofs.Filter.Translation

/-!
# What a compiled expression draws on

Whatever an expression is, with or without a sense, its condition takes each column from a path of
the expression and each parameter from the values that were bound, and there is no condition where
a path leads nowhere. So the text of a condition is never empty, and without an alias for the root
it has no qualifier in it.

* `Scope.Draws` — where the columns and parameters of a condition come from
* `draws_condition` — the condition of every expression draws so
* `compile_unqualified`, `compile_qualified` — the texts without and with an alias for the root
-/

namespace EntityMapper

/-! ## Paths, columns and parameters -/

namespace Expr

/-- The paths of the members of an expression. -/
def paths : Expr → List (List String)
  | .member path => [path]
  | .constant _ => []
  | .compare _ l r => l.paths ++ r.paths
  | .and l r => l.paths ++ r.paths
  | .or l r => l.paths ++ r.paths
  | .not e => e.paths
  | .arithmetic _ l r => l.paths ++ r.paths
  | .call _ t args => t.paths ++ ofAll args
  | .conditional c t e => c.paths ++ t.paths ++ e.paths
where
  /-- The paths in the arguments of a call. -/
  ofAll : List Expr → List (List String)
    | [] => []
    | a :: rest => a.paths ++ ofAll rest

/-- Whether an expression goes through an association. -/
def HasChain (e : Expr) : Prop := ∃ path ∈ e.paths, 1 < path.length

end Expr

namespace Condition

/-- The columns that a condition names, with their qualifiers. -/
def columns : Condition → List (Option String × String)
  | .null => []
  | .column qualifier name => [(qualifier, name)]
  | .parameter _ => []
  | .compare _ l r => l.columns ++ r.columns
  | .isNull e => e.columns
  | .isNotNull e => e.columns
  | .and l r => l.columns ++ r.columns
  | .or l r => l.columns ++ r.columns
  | .not e => e.columns
  | .arithmetic _ l r => l.columns ++ r.columns
  | .like e _ => e.columns
  | .isIn e _ => e.columns
  | .never => []
  | .lower e => e.columns
  | .upper e => e.columns

/-- The numbers of the parameters in a condition, from left to right. -/
def parameters : Condition → List Nat
  | .null => []
  | .column _ _ => []
  | .parameter i => [i]
  | .compare _ l r => l.parameters ++ r.parameters
  | .isNull e => e.parameters
  | .isNotNull e => e.parameters
  | .and l r => l.parameters ++ r.parameters
  | .or l r => l.parameters ++ r.parameters
  | .not e => e.parameters
  | .arithmetic _ l r => l.parameters ++ r.parameters
  | .like e pattern => e.parameters ++ [pattern]
  | .isIn e items => e.parameters ++ items
  | .never => []
  | .lower e => e.parameters
  | .upper e => e.parameters

end Condition

/-! ## What a condition draws on -/

/-- A condition for some paths: there is a column for each path, the condition has no others, and
its parameters are among the values that are bound then. -/
structure Scope.Draws (s : Scope) (paths : List (List String)) (bound bound' : List Value)
    (c : Condition) : Prop where
  resolved : ∀ path ∈ paths, ∃ qualifier name, s.column path = .ok (.column qualifier name)
  columns : ∀ col ∈ c.columns, ∃ path ∈ paths, s.column path = .ok (.column col.1 col.2)
  grows : bound.length ≤ bound'.length
  parameters : ∀ i ∈ c.parameters, i < bound'.length

variable {s : Scope} {paths paths' : List (List String)} {bound bound' bound₁ : List Value}
  {c c₁ c₂ : Condition} {e : Expr}

namespace Scope.Draws

/-- A condition of no path. -/
theorem literal (hgrows : bound.length ≤ bound'.length) (hcolumns : c.columns = [])
    (hparameters : ∀ i ∈ c.parameters, i < bound'.length) : s.Draws [] bound bound' c where
  resolved := nofun
  columns := fun _ hcol => absurd (hcolumns ▸ hcol) List.not_mem_nil
  grows := hgrows
  parameters := hparameters

/-- A condition around another one. -/
theorem around (h : s.Draws paths bound bound' c₁) (hcolumns : c.columns = c₁.columns)
    (hparameters : c.parameters = c₁.parameters) : s.Draws paths bound bound' c where
  resolved := h.resolved
  columns := hcolumns ▸ h.columns
  grows := h.grows
  parameters := hparameters ▸ h.parameters

/-- A condition that binds more values after another one. -/
theorem binding (h : s.Draws paths bound bound₁ c₁) (hgrows : bound₁.length ≤ bound'.length)
    {items : List Nat} (hitems : ∀ i ∈ items, i < bound'.length) (hcolumns : c.columns = c₁.columns)
    (hparameters : c.parameters = c₁.parameters ++ items) : s.Draws paths bound bound' c where
  resolved := h.resolved
  columns := hcolumns ▸ h.columns
  grows := h.grows.trans hgrows
  parameters := fun i hi => by
    rw [hparameters, List.mem_append] at hi
    exact hi.elim (fun hi => (h.parameters i hi).trans_le hgrows) (hitems i)

/-- A condition of two others. -/
theorem both (h : s.Draws paths bound bound₁ c₁) (h' : s.Draws paths' bound₁ bound' c₂)
    (hcolumns : c.columns = c₁.columns ++ c₂.columns)
    (hparameters : c.parameters = c₁.parameters ++ c₂.parameters) :
    s.Draws (paths ++ paths') bound bound' c where
  resolved := fun path hpath => (List.mem_append.mp hpath).elim (h.resolved path) (h'.resolved path)
  columns := fun col hcol => by
    rw [hcolumns, List.mem_append] at hcol
    rcases hcol with hcol | hcol
    · obtain ⟨path, hpath, heq⟩ := h.columns col hcol
      exact ⟨path, List.mem_append_left _ hpath, heq⟩
    · obtain ⟨path, hpath, heq⟩ := h'.columns col hcol
      exact ⟨path, List.mem_append_right _ hpath, heq⟩
  grows := h.grows.trans h'.grows
  parameters := fun i hi => by
    rw [hparameters, List.mem_append] at hi
    exact hi.elim (fun hi => (h.parameters i hi).trans_le h'.grows) (h'.parameters i)

end Scope.Draws

/-! ## Every expression -/

theorem paths_ofAll_constants (vs : List Value) :
    Expr.paths.ofAll (vs.map .constant) = [] := by
  induction vs with
  | nil => rfl
  | cons v rest ih => exact ih

/-- The paths of a comparison with null are those of the operand that is tested. -/
theorem paths_besideNull {l r : Expr} (h : Expr.besideNull l r = some e) :
    l.paths ++ r.paths = e.paths := by
  rcases besideNull_eq_some h with ⟨rfl, rfl⟩ | ⟨rfl, rfl⟩
  · exact List.append_nil _
  · rfl

/-- What an expression is translated into draws on its paths and on what it binds. -/
theorem Scope.Translates.draws (h : s.Translates e bound c bound') :
    s.Draws e.paths bound bound' c := by
  induction h with
  | @member path qualifier name bound h =>
    constructor
    · intro p hp
      obtain rfl := List.mem_singleton.mp hp
      exact ⟨_, _, h⟩
    · intro col hcol
      obtain rfl := List.mem_singleton.mp hcol
      exact ⟨path, List.mem_singleton_self _, h⟩
    · exact Nat.le_refl _
    · exact nofun
  | null => exact .literal (Nat.le_refl _) rfl nofun
  | constant =>
    refine .literal (by simp) rfl fun i hi => ?_
    obtain rfl := List.mem_singleton.mp hi
    simp
  | isNull htested _ ih =>
    rw [Expr.paths, paths_besideNull htested]
    exact ih.around rfl rfl
  | isNotNull htested _ ih =>
    rw [Expr.paths, paths_besideNull htested]
    exact ih.around rfl rfl
  | compare _ _ _ ihl ihr => exact ihl.both ihr rfl rfl
  | and _ _ ihl ihr => exact ihl.both ihr rfl rfl
  | or _ _ ihl ihr => exact ihl.both ihr rfl rfl
  | arithmetic _ _ ihl ihr => exact ihl.both ihr rfl rfl
  | not _ ih => exact ih.around rfl rfl
  | never _ ih =>
    -- what is looked for is not written, but its paths have their columns
    rw [Expr.paths, Expr.paths.ofAll, List.append_nil]
    exact ⟨ih.resolved, nofun, ih.grows, nofun⟩
  | isIn _ _ ih =>
    rw [Expr.paths, paths_ofAll_constants, List.append_nil]
    refine ih.binding (by simp) (fun i hi => ?_) rfl rfl
    simpa using (List.mem_range'_1.mp hi).2
  | lower _ ih =>
    rw [Expr.paths, Expr.paths.ofAll, List.append_nil]
    exact ih.around rfl rfl
  | upper _ ih =>
    rw [Expr.paths, Expr.paths.ofAll, List.append_nil]
    exact ih.around rfl rfl
  | @like method text pattern e bound bound' c _ _ ih =>
    have hargs : Expr.paths.ofAll [.constant (.text text)] = [] := paths_ofAll_constants [.text text]
    rw [Expr.paths, hargs, List.append_nil]
    refine ih.binding (by simp) (fun i hi => ?_) rfl rfl
    obtain rfl := List.mem_singleton.mp hi
    simp

/-- **The condition of every expression draws on its paths and on what it binds.** -/
theorem draws_condition (e : Expr) {bound bound' : List Value} {c : Condition}
    (h : s.condition e bound = .ok (c, bound')) : s.Draws e.paths bound bound' c :=
  (translates_of_condition e h).draws

/-! ## Texts -/

theorem toList_placeholder (d : Dialect) (name : String) :
    (d.placeholder name).toList = d.marker :: name.toList := by simp [Dialect.placeholder]

theorem placeholder_ne_empty (d : Dialect) (name : String) : d.placeholder name ≠ "" := by
  intro h
  have hchars := congrArg String.toList h
  rw [toList_placeholder] at hchars
  exact nomatch hchars

/-- Only a column or a parameter without a name is written as nothing. -/
theorem Condition.text_ne_empty {placeholder : Nat → String}
    (hplaceholder : ∀ i, placeholder i ≠ "")
    (hcolumns : ∀ col ∈ c.columns, columnText col.1 col.2 ≠ "") : c.text placeholder ≠ "" := by
  cases c with
  | column qualifier name => exact hcolumns (qualifier, name) (List.mem_singleton_self _)
  | parameter i => exact hplaceholder i
  | _ => simp [text]

/-- What a compiled expression is made of. -/
theorem compile_cases {d : Dialect} {leading : String} {p : CompiledPredicate}
    (h : s.compile d leading e = .ok p) :
    ∃ c values, s.condition e [] = .ok (c, values) ∧
      p.text = c.text (fun i => d.placeholder (parameterName leading i)) ∧
      p.parameters = namedParameters leading values := by
  unfold Scope.compile at h
  cases hc : s.condition e [] with
  | error err =>
    rw [hc] at h
    exact nomatch h
  | ok r =>
    obtain ⟨c, values⟩ := r
    rw [hc] at h
    obtain rfl := Except.ok.inj h
    exact ⟨c, values, rfl, rfl, rfl⟩

/-- A condition names only columns of a table, and no qualifier. -/
def Condition.Unqualified (t : Table) (c : Condition) : Prop :=
  ∀ col ∈ c.columns, ∃ f ∈ t.scalarFields, col = (none, f.name)

/-- **Without an alias for the root a condition has no qualifier**: where an expression compiles, it
goes through no association and its text is not empty. -/
theorem compile_unqualified (halias : s.rootAlias = none)
    (hnames : ∀ f ∈ s.table.scalarFields, f.name ≠ "") {d : Dialect} {leading : String}
    {p : CompiledPredicate} (h : s.compile d leading e = .ok p) :
    ¬ e.HasChain ∧ p.text ≠ "" ∧ ∃ c values, s.condition e [] = .ok (c, values) ∧
      c.Unqualified s.table ∧ p.text = c.text fun i => d.placeholder (parameterName leading i) := by
  obtain ⟨c, values, hc, htext, -⟩ := compile_cases h
  have hdraws := draws_condition e hc
  -- a path of several names has no column
  have hcolumn : ∀ {path qualifier name}, s.column path = .ok (.column qualifier name) →
      path.length = 1 ∧ ∃ f ∈ s.table.scalarFields, (qualifier, name) = (none, f.name) := by
    intro path qualifier name hcolumn
    rcases column_cases hcolumn with ⟨n, rfl, hname, heq⟩ | ⟨-, -, -, -, -, hsome, -, -, -⟩
    · obtain ⟨f, hf, rfl⟩ := requireColumn_ok hname
      obtain ⟨rfl, rfl⟩ := Condition.column.inj heq
      exact ⟨rfl, f, hf, by rw [halias]⟩
    · rw [halias] at hsome
      exact nomatch hsome
  have hunqualified : c.Unqualified s.table := by
    intro col hcol
    obtain ⟨path, -, hpath⟩ := hdraws.columns col hcol
    exact (hcolumn hpath).2
  refine ⟨?_, ?_, c, values, hc, hunqualified, htext⟩
  · rintro ⟨path, hpath, hlong⟩
    obtain ⟨qualifier, name, hresolved⟩ := hdraws.resolved path hpath
    exact absurd (hcolumn hresolved).1 (Nat.ne_of_gt hlong)
  · rw [htext]
    refine Condition.text_ne_empty (fun i => placeholder_ne_empty d _) fun col hcol => ?_
    obtain ⟨f, hf, rfl⟩ := hunqualified col hcol
    exact hnames f hf

/-- Behind an alias no text is empty either. -/
theorem compile_qualified {a : String} (halias : s.rootAlias = some a) {d : Dialect}
    {leading : String} {p : CompiledPredicate} (h : s.compile d leading e = .ok p) :
    p.text ≠ "" := by
  obtain ⟨c, values, hc, htext, -⟩ := compile_cases h
  rw [htext]
  refine Condition.text_ne_empty (fun i => placeholder_ne_empty d _) fun col hcol => ?_
  obtain ⟨path, -, hpath⟩ := (draws_condition e hc).columns col hcol
  obtain ⟨b, hq⟩ : ∃ b, col.1 = some b := by
    rcases column_cases hpath with ⟨n, -, -, heq⟩ | ⟨chain, n, -, -, -, -, -, -, heq⟩
    · exact ⟨a, (Condition.column.inj heq).1.trans halias⟩
    · exact ⟨_, (Condition.column.inj heq).1⟩
  rw [hq, Condition.columnText]
  simp

end EntityMapper
