import EntityMapper.Predicate.Compile
import EntityMapper.Proofs.FieldRoundtrip
import EntityMapper.Proofs.Filter.Surface
import EntityMapper.Proofs.Filter.Written
import EntityMapper.Proofs.Graph.Distinct
import EntityMapper.Proofs.Join.Rows

/-!
# Compiled predicates say what was built

Compiling a predicate gives a condition that says the same once the values are bound: values are
numbered in the order in which they are bound, and no later value changes an earlier one. The
condition is written with the names of its parameters, and read back from there.

* `condition_operand`, `condition_clause` — the condition of a predicate says what the predicate
  says
* `readCondition_compile` — the text of a compiled predicate is read back as the predicate
-/

namespace EntityMapper

/-! ## Names -/

/-- The fields of all tables that can be reached and the alias of the root have names of a kind. -/
structure Scope.AllNames (P : String → Prop) (s : Scope) : Prop where
  fields : ∀ t, s.catalog.Reaches s.table t → ∀ f ∈ t.fields, P f.name
  rootAlias : ∀ a, s.rootAlias = some a → P a

/-- Fields have such names where they have them in each table of the catalog. -/
theorem Scope.allNames_of_tables {P : String → Prop} {s : Scope}
    (hfields : ∀ t ∈ s.table :: s.catalog.tables, ∀ f ∈ t.fields, P f.name)
    (hrootAlias : ∀ a, s.rootAlias = some a → P a) : s.AllNames P where
  fields := by
    intro t ht
    rcases ht.known with rfl | hmem | hnone
    · exact hfields _ List.mem_cons_self
    · exact hfields t (List.mem_cons_of_mem _ hmem)
    · rw [hnone]
      exact fun f hf => nomatch hf
  rootAlias := hrootAlias

/-- No keyword has an underscore. -/
theorem ofWord?_eq_none {cs : List Char} (h : '_' ∈ cs) : Keyword.ofWord? cs = none := by
  have hall : ∀ k ∈ Keyword.all, '_' ∉ k.text.toList := by decide
  refine List.find?_eq_none.mpr fun k hk => ?_
  rw [beq_iff_eq]
  intro heq
  have hmem : '_' ∈ cs.map Char.toLower := List.mem_map.mpr ⟨'_', h, by decide⟩
  exact hall k hk (heq ▸ hmem)

/-- Names joined by underscores are a name. -/
theorem isName_intercalate {names : List String} (hne : names ≠ [])
    (h : ∀ s ∈ names, IsName s) : IsName ("_".intercalate names) := by
  match names, hne with
  | [s], _ =>
    rw [String.intercalate_singleton]
    exact h s List.mem_cons_self
  | s :: t :: rest, _ =>
    have hname := h s List.mem_cons_self
    obtain ⟨c, r, hs, hdigit⟩ := hname.exists_cons
    obtain ⟨-, hrest, -⟩ := isName_intercalate (show t :: rest ≠ [] by simp) fun u hu =>
      h u (List.mem_cons_of_mem _ hu)
    have htext : ("_".intercalate (s :: t :: rest)).toList =
        s.toList ++ '_' :: ("_".intercalate (t :: rest)).toList := by
      rw [String.intercalate_cons_cons, String.toList_append, String.toList_append,
        List.append_assoc]
      rfl
    refine ⟨?_, ?_, ?_⟩
    · rw [htext, hs]
      simpa using hdigit
    · rw [htext, List.all_append, List.all_cons, hname.2.1, hrest]
      decide
    · rw [htext]
      exact ofWord?_eq_none (by simp)

theorem field?_eq_some {t : Table} {name : String} {f : Field} (h : t.field? name = some f) :
    f ∈ t.fields ∧ f.name = name :=
  ⟨List.mem_of_find?_eq_some h, by simpa using List.find?_some h⟩

theorem requireColumn_ok {t : Table} {name : String} (h : t.requireColumn name = .ok ()) :
    ∃ f ∈ t.scalarFields, f.name = name := by
  unfold Table.requireColumn at h
  cases hf : t.field? name with
  | none => rw [hf] at h; exact nomatch h
  | some f =>
    obtain ⟨hmem, hname⟩ := field?_eq_some hf
    cases hscalar : f.isScalar with
    | true => exact ⟨f, List.mem_filter.mpr ⟨hmem, hscalar⟩, hname⟩
    | false =>
      simp only [hf, hscalar] at h
      exact nomatch h

theorem requireAssociation_ok {t : Table} {name : String} {a : Association}
    (h : t.requireAssociation name = .ok a) :
    (∃ f ∈ t.fields, f.name = name) ∧ (name, a) ∈ t.associations := by
  unfold Table.requireAssociation at h
  cases hf : t.field? name with
  | none => rw [hf] at h; exact nomatch h
  | some f =>
    obtain ⟨hmem, hname⟩ := field?_eq_some hf
    rw [hf] at h
    cases ha : f.association? with
    | none => simp only [ha] at h; exact nomatch h
    | some b =>
      simp only [ha, Except.ok.injEq] at h
      refine ⟨⟨f, hmem, hname⟩, List.mem_filterMap.mpr ⟨f, hmem, ?_⟩⟩
      rw [ha, Option.map_some, hname, h]

/-- Following a chain reaches its table, and its names are those of fields on the way. -/
theorem follow_ok {c : Catalog} {t u : Table} {chain : List String} (h : c.follow t chain = .ok u) :
    c.Reaches t u ∧ ∀ name ∈ chain, ∃ v, c.Reaches t v ∧ ∃ f ∈ v.fields, f.name = name := by
  induction chain generalizing t with
  | nil =>
    obtain rfl : t = u := Except.ok.inj h
    exact ⟨.refl t, by simp⟩
  | cons name rest ih =>
    rw [Catalog.follow] at h
    cases ha : t.requireAssociation name with
    | error e => rw [ha] at h; exact nomatch h
    | ok a =>
      rw [ha] at h
      obtain ⟨hfield, hmem⟩ := requireAssociation_ok ha
      obtain ⟨hreach, hnames⟩ := ih h
      have htarget : c.table a.target ∈ c.targets t := List.mem_map.mpr ⟨_, hmem, rfl⟩
      refine ⟨.step htarget hreach, fun s hs => ?_⟩
      rcases List.mem_cons.mp hs with rfl | hs
      · exact ⟨t, .refl t, hfield⟩
      · obtain ⟨v, hv, hf⟩ := hnames s hs
        exact ⟨v, .step htarget hv, hf⟩

variable {s : Scope} {bound bound' : List Value} {c : Condition}

/-- The two ways in which a path has a column: it is a column of the root, under the alias of the
root, or one at the end of a chain of associations, under their names; that needs such an alias. -/
theorem column_cases {path : List String} (h : s.column path = .ok c) :
    (∃ name, path = [name] ∧ s.table.requireColumn name = .ok () ∧
      c = .column s.rootAlias name) ∨
    ∃ chain name u, chain ≠ [] ∧ path = chain ++ [name] ∧ s.rootAlias.isSome = true ∧
      s.catalog.follow s.table chain = .ok u ∧ u.requireColumn name = .ok () ∧
      c = .column (some ("_".intercalate chain)) name := by
  unfold Scope.column at h
  split at h
  · exact nomatch h
  · next name hlast hinit =>
    obtain ⟨_, hcolumn, h⟩ := exists_of_bind_eq_ok h
    refine .inl ⟨name, ?_, hcolumn, (Except.ok.inj h).symm⟩
    rw [← List.dropLast_append_getLast? name hlast, hinit, List.nil_append]
  · next name hlast hchain =>
    split at h
    · exact nomatch h
    · next halias =>
      obtain ⟨u, hfollow, h⟩ := exists_of_bind_eq_ok h
      obtain ⟨_, hcolumn, h⟩ := exists_of_bind_eq_ok h
      refine .inr ⟨path.dropLast, name, u, hchain, ?_, ?_, hfollow, hcolumn,
        (Except.ok.inj h).symm⟩
      · exact (List.dropLast_append_getLast? name hlast).symm
      · simpa [Option.isSome_iff_ne_none] using halias

theorem eq_column_of_column {path : List String} (h : s.column path = .ok c) :
    ∃ qualifier name, c = .column qualifier name := by
  rcases column_cases h with ⟨name, -, -, rfl⟩ | ⟨chain, name, -, -, -, -, -, -, rfl⟩
  · exact ⟨_, name, rfl⟩
  · exact ⟨_, name, rfl⟩

/-- The column that a path ends in is named by the names on the way: its qualifier is the alias of
the root, or joins those of the fields that are gone through. -/
theorem Scope.AllNames.column {P : String → Prop} (hs : s.AllNames P)
    (hjoin : ∀ {names : List String}, names ≠ [] → (∀ name ∈ names, P name) →
      P ("_".intercalate names))
    {path : List String} {qualifier : Option String} {name : String}
    (h : s.column path = .ok (.column qualifier name)) :
    (∀ q, qualifier = some q → P q) ∧ P name := by
  rcases column_cases h with ⟨name', -, hcolumn, heq⟩ |
    ⟨chain, name', u, hne, -, -, hfollow, hcolumn, heq⟩
  · obtain ⟨f, hf, rfl⟩ := requireColumn_ok hcolumn
    obtain ⟨rfl, rfl⟩ := Condition.column.inj heq
    exact ⟨hs.rootAlias, hs.fields _ (.refl _) f (List.mem_of_mem_filter hf)⟩
  · obtain ⟨f, hf, rfl⟩ := requireColumn_ok hcolumn
    obtain ⟨rfl, rfl⟩ := Condition.column.inj heq
    obtain ⟨hreach, hchain⟩ := follow_ok hfollow
    refine ⟨fun q hq => ?_, hs.fields u hreach f (List.mem_of_mem_filter hf)⟩
    obtain rfl := Option.some.inj hq
    refine hjoin hne fun n hn => ?_
    obtain ⟨v, hv, g, hg, rfl⟩ := hchain n hn
    exact hs.fields v hv g hg

/-- The column that a path ends in has names. -/
theorem column_ok (hs : s.AllNames IsName) {chain : List String} {name : String}
    (h : s.column (chain ++ [name]) = .ok c) :
    c = .column (qualifierOf s.rootAlias chain) name ∧
      (∀ q, qualifierOf s.rootAlias chain = some q → IsName q) ∧ IsName name := by
  have hcolumn : c = .column (qualifierOf s.rootAlias chain) name := by
    rcases column_cases h with ⟨name', hpath, -, rfl⟩ | ⟨chain', name', u, hne, hpath, -, -, -, rfl⟩
    · obtain ⟨rfl, hname⟩ := List.append_inj' (hpath.trans (List.nil_append _).symm) rfl
      obtain rfl := List.singleton_inj.mp hname
      rfl
    · obtain ⟨rfl, hname⟩ := List.append_inj' hpath rfl
      obtain rfl := List.singleton_inj.mp hname
      obtain ⟨first, rest, rfl⟩ := List.exists_cons_of_ne_nil hne
      rfl
  subst hcolumn
  exact ⟨rfl, hs.column isName_intercalate h⟩

/-! ## Binding -/

/-- What compiling has done: values are bound behind those that were, the condition is of a shape
that can be written, and it says what was meant, whatever is bound later. -/
structure Binds (bound bound' : List Value) (shape : Nat → Condition → Prop) (c : Condition)
    (meant : Sentence) : Prop where
  grows : bound <+: bound'
  written : shape bound'.length c
  meaning : ∀ values, bound' <+: values → c.sentence values = meant

theorem run_bind_eq_ok {α β : Type} {x : Binding α} {f : α → Binding β} {r : β × List Value}
    (h : (x >>= f) bound = .ok r) :
    ∃ a bound', x bound = .ok (a, bound') ∧ f a bound' = .ok r := by
  cases hx : x bound with
  | error e =>
    simp only [Bind.bind, StateT.bind, Except.bind, hx] at h
    exact nomatch h
  | ok p =>
    obtain ⟨a, bound'⟩ := p
    simp only [Bind.bind, StateT.bind, Except.bind, hx] at h
    exact ⟨a, bound', rfl, h⟩

theorem run_pure_eq_ok {α : Type} {a b : α}
    (h : (Pure.pure a : Binding α) bound = .ok (b, bound')) : a = b ∧ bound = bound' := by
  obtain ⟨rfl, rfl⟩ := Prod.mk.inj (Except.ok.inj h)
  exact ⟨rfl, rfl⟩

/-- A bound value is the last one. -/
theorem bind_ok {v : Value} {i : Nat} (h : EntityMapper.bind v bound = .ok (i, bound')) :
    bound <+: bound' ∧ i < bound'.length ∧
      ∀ values, bound' <+: values → values.getD i .null = v.normalizeLiteral := by
  obtain ⟨rfl, rfl⟩ := Prod.mk.inj (Except.ok.inj h)
  refine ⟨List.prefix_append _ _, by simp, fun values hvalues => ?_⟩
  obtain ⟨later, rfl⟩ := hvalues
  simp

/-- What is built of one operand says what was meant with it. -/
theorem binds_one {x : Binding Condition} {build : Condition → Condition}
    {say : Sentence → Sentence} {shape shape' : Nat → Condition → Prop} {meant : Sentence}
    (hx : ∀ {e bound₁}, x bound = .ok (e, bound₁) → Binds bound bound₁ shape e meant)
    (hshape : ∀ {n e}, shape n e → shape' n (build e))
    (hsay : ∀ values e, (build e).sentence values = say (e.sentence values))
    (h : (x >>= fun e => Pure.pure (build e)) bound = .ok (c, bound')) :
    Binds bound bound' shape' c (say meant) := by
  obtain ⟨e, bound₁, he, h⟩ := run_bind_eq_ok h
  obtain ⟨rfl, rfl⟩ := run_pure_eq_ok h
  obtain ⟨hgrows, hwritten, hmeaning⟩ := hx he
  refine ⟨hgrows, hshape hwritten, fun values hvalues => ?_⟩
  rw [hsay, hmeaning values hvalues]

/-- What is built of two operands says what was meant with them: what the second one binds leaves
what the first one says as it is. -/
theorem binds_two {x y : Binding Condition} {build : Condition → Condition → Condition}
    {say : Sentence → Sentence → Sentence} {shape shape' : Nat → Condition → Prop}
    {meant meant' : Sentence}
    (hx : ∀ {e bound₁}, x bound = .ok (e, bound₁) → Binds bound bound₁ shape e meant)
    (hy : ∀ {e bound₁ bound₂}, y bound₁ = .ok (e, bound₂) → Binds bound₁ bound₂ shape e meant')
    (hmono : ∀ {m e}, shape m e → ∀ {n}, m ≤ n → shape n e)
    (hshape : ∀ {n l r}, shape n l → shape n r → shape' n (build l r))
    (hsay : ∀ values l r,
      (build l r).sentence values = say (l.sentence values) (r.sentence values))
    (h : (x >>= fun l => y >>= fun r => Pure.pure (build l r)) bound = .ok (c, bound')) :
    Binds bound bound' shape' c (say meant meant') := by
  obtain ⟨l, bound₁, hl, h⟩ := run_bind_eq_ok h
  obtain ⟨r, bound₂, hr, h⟩ := run_bind_eq_ok h
  obtain ⟨rfl, rfl⟩ := run_pure_eq_ok h
  obtain ⟨hgrows, hwritten, hmeaning⟩ := hx hl
  obtain ⟨hgrows', hwritten', hmeaning'⟩ := hy hr
  refine ⟨hgrows.trans hgrows', hshape (hmono hwritten hgrows'.length_le) hwritten',
    fun values hvalues => ?_⟩
  rw [hsay, hmeaning values (hgrows'.trans hvalues), hmeaning' values hvalues]

/-- A literal says its value. -/
theorem condition_literal {d : Datum}
    (h : s.condition (.constant d.toValue) bound = .ok (c, bound')) :
    Binds bound bound' Condition.IsOperand c d.sentence := by
  unfold Datum.sentence
  by_cases hnull : d.toValue = .null
  · rw [hnull] at h
    obtain ⟨rfl, rfl⟩ := run_pure_eq_ok h
    rw [if_pos (Value.isNull_iff.mpr hnull)]
    exact ⟨List.prefix_refl _, .null, fun _ _ => rfl⟩
  · have hbinds : (EntityMapper.bind d.toValue >>= fun i =>
        Pure.pure (Condition.parameter i)) bound = .ok (c, bound') := by
      cases hv : d.toValue with
      | null => exact absurd hv hnull
      | bool | int | float | text | blob | datetime => rwa [hv] at h
    obtain ⟨i, bound₁, hbind, hbinds⟩ := run_bind_eq_ok hbinds
    obtain ⟨rfl, rfl⟩ := run_pure_eq_ok hbinds
    obtain ⟨hextends, hlt, hvalue⟩ := bind_ok hbind
    rw [if_neg fun h => hnull (Value.isNull_iff.mp h)]
    refine ⟨hextends, .parameter hlt, fun values hvalues => ?_⟩
    rw [Condition.sentence, hvalue values hvalues]

/-- The literals of a list are bound in their order. -/
theorem bindAll_ok {ds : List Datum} {items : List Nat}
    (h : bindAll (ds.map fun d => .constant d.toValue) bound = .ok (items, bound')) :
    bound <+: bound' ∧ (∀ i ∈ items, i < bound'.length) ∧
      ∀ values, bound' <+: values → items.map (fun i => Sentence.value (values.getD i .null)) =
        ds.map fun d => .value d.toValue.normalizeLiteral := by
  induction ds generalizing bound items with
  | nil =>
    obtain ⟨rfl, rfl⟩ := run_pure_eq_ok h
    exact ⟨List.prefix_refl _, by simp, by simp⟩
  | cons d ds ih =>
    rw [List.map_cons, bindAll] at h
    obtain ⟨i, bound₁, hbind, h⟩ := run_bind_eq_ok h
    obtain ⟨more, bound₂, hall, h⟩ := run_bind_eq_ok h
    obtain ⟨rfl, rfl⟩ := run_pure_eq_ok h
    obtain ⟨hextends, hlt, hvalue⟩ := bind_ok hbind
    obtain ⟨hextends', hlts, hvalues⟩ := ih hall
    refine ⟨hextends.trans hextends', fun k hk => ?_, fun values hprefix => ?_⟩
    · rcases List.mem_cons.mp hk with rfl | hk
      · exact Nat.lt_of_lt_of_le hlt hextends'.length_le
      · exact hlts k hk
    · rw [List.map_cons, List.map_cons, hvalue values (hextends'.trans hprefix),
        hvalues values hprefix]

/-! ## Operands -/

/-- **The condition of an operand says what the operand says.** -/
theorem condition_operand (hs : s.AllNames IsName) {h : Operand} {chain : List String}
    (hc : s.condition (h.column.expr.under chain) bound = .ok (c, bound')) :
    Binds bound bound' Condition.IsOperand c (h.sentence s.rootAlias chain) := by
  induction h generalizing chain bound bound' c with
  | named name =>
    have hcolumn : (s.column (chain ++ [name]) >>= fun c => .ok (c, bound)) = .ok (c, bound') := hc
    cases hcol : s.column (chain ++ [name]) with
    | error e => rw [hcol] at hcolumn; exact nomatch hcolumn
    | ok c' =>
      rw [hcol] at hcolumn
      obtain ⟨rfl, rfl⟩ := Prod.mk.inj (Except.ok.inj hcolumn)
      obtain ⟨rfl, hq, hname⟩ := column_ok hs hcol
      exact ⟨List.prefix_refl _, .column hq hname, fun _ _ => rfl⟩
  | lower h ih =>
    have hc : (s.condition (h.column.expr.under chain) >>= fun e => Pure.pure (.lower e)) bound =
      .ok (c, bound') := hc
    exact binds_one (fun he => ih he) .lower (fun _ _ => rfl) hc
  | upper h ih =>
    have hc : (s.condition (h.column.expr.under chain) >>= fun e => Pure.pure (.upper e)) bound =
      .ok (c, bound') := hc
    exact binds_one (fun he => ih he) .upper (fun _ _ => rfl) hc
  | arithmetic h op d ih =>
    have hc : (s.condition (h.column.expr.under chain) >>= fun l =>
        s.condition (.constant d.toValue) >>= fun r =>
          Pure.pure (.arithmetic op l r)) bound = .ok (c, bound') := hc
    exact binds_two (fun hl => ih hl) condition_literal Condition.IsOperand.mono .arithmetic
      (fun _ _ _ => rfl) hc
  | through next h ih =>
    have hunder : (Operand.through next h).column.expr.under chain =
        h.column.expr.under (chain ++ next.path) := Expr.under_under _ _ _
    rw [hunder] at hc
    exact ih hc

theorem under_nil : ∀ e : Expr, e.under [] = e
  | .member _ => rfl
  | .constant _ => rfl
  | .compare _ l r => by simp [Expr.under, under_nil l, under_nil r]
  | .and l r => by simp [Expr.under, under_nil l, under_nil r]
  | .or l r => by simp [Expr.under, under_nil l, under_nil r]
  | .not e => by simp [Expr.under, under_nil e]
  | .arithmetic _ l r => by simp [Expr.under, under_nil l, under_nil r]
  | .call _ t args => by
    have hargs : args.map (Expr.under []) = args :=
      (List.map_congr_left fun a _ => under_nil a).trans (List.map_id args)
    simp [Expr.under, under_nil t, hargs]
  | .conditional c t e => by simp [Expr.under, under_nil c, under_nil t, under_nil e]

/-- The condition of an operand of the root. -/
theorem condition_root (hs : s.AllNames IsName) {h : Operand}
    (hc : s.condition h.column.expr bound = .ok (c, bound')) :
    Binds bound bound' Condition.IsOperand c (h.sentence s.rootAlias []) :=
  condition_operand hs (by rwa [under_nil])

/-- No operand is a literal. -/
theorem isNullLiteral_operand (h : Operand) (chain : List String) :
    (h.column.expr.under chain).isNullLiteral = false := by
  induction h generalizing chain with
  | through next h ih =>
    have hunder : (Operand.through next h).column.expr.under chain =
        h.column.expr.under (chain ++ next.path) := Expr.under_under _ _ _
    rw [hunder]
    exact ih _
  | named | lower | upper | arithmetic => rfl

/-! ## Predicates -/

/-- A comparison with null is a test. -/
theorem condition_nullTest (hs : s.AllNames IsName) {h : Operand} {op : CompareOp}
    (hc : s.condition (.compare op h.column.expr (.constant .null)) bound = .ok (c, bound')) :
    (op = .eq ∧
        Binds bound bound' Condition.IsClause c (.isNull (h.sentence s.rootAlias []))) ∨
      (op = .ne ∧
        Binds bound bound' Condition.IsClause c (.isNotNull (h.sentence s.rootAlias []))) := by
  have hc : (s.condition h.column.expr >>= fun e => liftM (nullTest op e)) bound =
    .ok (c, bound') := hc
  cases op with
  | eq => exact .inl ⟨rfl, binds_one (condition_root hs) .isNull (fun _ _ => rfl) hc⟩
  | ne => exact .inr ⟨rfl, binds_one (condition_root hs) .isNotNull (fun _ _ => rfl) hc⟩
  | lt | lte | gt | gte =>
    obtain ⟨e, bound₁, -, hc⟩ := run_bind_eq_ok hc
    exact nomatch hc

/-- A comparison with an operand that is not null. -/
theorem condition_compare (hs : s.AllNames IsName) {h : Operand} {op : CompareOp} {r : Expr}
    {right : Sentence} (hnull : r.isNullLiteral = false)
    (hr : ∀ {bound bound' c}, s.condition r bound = .ok (c, bound') →
      Binds bound bound' Condition.IsOperand c right)
    (hc : s.condition (.compare op h.column.expr r) bound = .ok (c, bound')) :
    Binds bound bound' Condition.IsClause c (.compare op (h.sentence s.rootAlias []) right) := by
  have hleft : h.column.expr.isNullLiteral = false := by
    have h := isNullLiteral_operand h []
    rwa [under_nil] at h
  have hc : (if r.isNullLiteral then s.condition h.column.expr >>= fun e => liftM (nullTest op e)
      else if h.column.expr.isNullLiteral then s.condition r >>= fun e => liftM (nullTest op e)
      else s.condition h.column.expr >>= fun a => s.condition r >>= fun b =>
        Pure.pure (.compare op a b)) bound = .ok (c, bound') := hc
  rw [if_neg (by rw [hnull]; decide), if_neg (by rw [hleft]; decide)] at hc
  exact binds_two (condition_root hs) hr Condition.IsOperand.mono .compare (fun _ _ _ => rfl) hc

/-- A text method looks for its pattern. -/
theorem condition_text (hs : s.AllNames IsName) {h : Operand} {m : TextMethod} {text : String}
    (hc : s.condition (Clause.text h m text).predicate.expr bound = .ok (c, bound')) :
    Binds bound bound' Condition.IsClause c ((Clause.text h m text).sentence s.rootAlias) := by
  have hlike : (s.condition h.column.expr >>= fun t =>
      EntityMapper.bind (.text (m.pattern text)) >>= fun i =>
        Pure.pure (Condition.like t i)) bound = .ok (c, bound') := by
    cases m <;> exact hc
  obtain ⟨t, bound₁, ht, hlike⟩ := run_bind_eq_ok hlike
  obtain ⟨i, bound₂, hi, hlike⟩ := run_bind_eq_ok hlike
  obtain ⟨rfl, rfl⟩ := run_pure_eq_ok hlike
  obtain ⟨hgrows, hwritten, hmeaning⟩ := condition_root hs ht
  obtain ⟨hgrows', hlt, hvalue⟩ := bind_ok hi
  refine ⟨hgrows.trans hgrows', .like (hwritten.mono hgrows'.length_le) hlt,
    fun values hvalues => ?_⟩
  rw [Condition.sentence, hmeaning values (hgrows'.trans hvalues), hvalue values hvalues]
  rfl

/-- A list of values says each of them, and no values say what never holds. -/
theorem condition_isIn (hs : s.AllNames IsName) {h : Operand} {ds : List Datum}
    (hc : s.condition (h.column.isIn ds).expr bound = .ok (c, bound')) :
    Binds bound bound' Condition.IsClause c ((Clause.isIn h ds).sentence s.rootAlias) := by
  have hc : (s.condition h.column.expr >>= fun t =>
      if (ds.map fun d => Expr.constant d.toValue).isEmpty then Pure.pure .never
      else bindAll (ds.map fun d => .constant d.toValue) >>= fun items =>
        Pure.pure (.isIn t items)) bound = .ok (c, bound') := hc
  obtain ⟨t, bound₁, ht, hc⟩ := run_bind_eq_ok hc
  obtain ⟨hgrows, hwritten, hmeaning⟩ := condition_root hs ht
  cases ds with
  | nil =>
    obtain ⟨rfl, rfl⟩ := run_pure_eq_ok hc
    exact ⟨hgrows, .never, fun _ _ => rfl⟩
  | cons d ds =>
    rw [if_neg (by simp)] at hc
    obtain ⟨items, bound₂, hitems, hc⟩ := run_bind_eq_ok hc
    obtain ⟨rfl, rfl⟩ := run_pure_eq_ok hc
    obtain ⟨hgrows', hlt, hvalues'⟩ := bindAll_ok hitems
    cases items with
    | nil => exact nomatch hvalues' bound₂ (List.prefix_refl _)
    | cons i items =>
      refine ⟨hgrows.trans hgrows', .isIn (hwritten.mono hgrows'.length_le) hlt,
        fun values hvalues => ?_⟩
      rw [Condition.sentence, hmeaning values (hgrows'.trans hvalues), hvalues' values hvalues]
      rfl

/-- **The condition of a predicate says what the predicate says.** -/
theorem condition_clause (hs : s.AllNames IsName) {p : Clause}
    (hc : s.condition p.predicate.expr bound = .ok (c, bound')) :
    Binds bound bound' Condition.IsClause c (p.sentence s.rootAlias) := by
  induction p generalizing bound bound' c with
  | compare h op d =>
    have hc : s.condition (.compare op h.column.expr (.constant d.toValue)) bound =
      .ok (c, bound') := hc
    unfold Clause.sentence CompareOp.withDatum
    by_cases hnull : d.toValue = .null
    · rw [hnull] at hc
      rw [if_pos (Value.isNull_iff.mpr hnull)]
      rcases condition_nullTest hs hc with ⟨rfl, hbinds⟩ | ⟨rfl, hbinds⟩
      · exact hbinds
      · exact hbinds
    · rw [if_neg fun h => hnull (Value.isNull_iff.mp h)]
      refine condition_compare hs ?_ condition_literal hc
      cases hv : d.toValue with
      | null => exact absurd hv hnull
      | bool | int | float | text | blob | datetime => rfl
  | compareWith h op other =>
    refine condition_compare hs ?_ (condition_root hs) hc
    have hother := isNullLiteral_operand other []
    rwa [under_nil] at hother
  | isNull h =>
    have hc : s.condition (.compare .eq h.column.expr (.constant .null)) bound = .ok (c, bound') :=
      hc
    rcases condition_nullTest hs hc with ⟨-, hbinds⟩ | ⟨hop, -⟩
    · exact hbinds
    · exact nomatch hop
  | isNotNull h =>
    have hc : s.condition (.compare .ne h.column.expr (.constant .null)) bound = .ok (c, bound') :=
      hc
    rcases condition_nullTest hs hc with ⟨hop, -⟩ | ⟨-, hbinds⟩
    · exact nomatch hop
    · exact hbinds
  | isIn h ds => exact condition_isIn hs hc
  | text h m text => exact condition_text hs hc
  | and l r ihl ihr =>
    have hc : (s.condition l.predicate.expr >>= fun a =>
        s.condition r.predicate.expr >>= fun b =>
          Pure.pure (.and a b)) bound = .ok (c, bound') := hc
    exact binds_two (fun hl => ihl hl) (fun hr => ihr hr) Condition.IsClause.mono .and
      (fun _ _ _ => rfl) hc
  | or l r ihl ihr =>
    have hc : (s.condition l.predicate.expr >>= fun a =>
        s.condition r.predicate.expr >>= fun b =>
          Pure.pure (.or a b)) bound = .ok (c, bound') := hc
    exact binds_two (fun hl => ihl hl) (fun hr => ihr hr) Condition.IsClause.mono .or
      (fun _ _ _ => rfl) hc
  | not p ih =>
    have hc : (s.condition p.predicate.expr >>= fun e => Pure.pure (.not e)) bound =
      .ok (c, bound') := hc
    exact binds_one (fun he => ih he) .not (fun _ _ => rfl) hc

/-! ## Parameters -/

theorem parameterName_inj {leading : String} {i k : Nat}
    (h : parameterName leading i = parameterName leading k) : i = k := by
  have hdigits := congrArg String.toList h
  simp only [parameterName, String.toList_append, String.toList_ofList,
    List.append_cancel_left_eq] at hdigits
  rw [← digitsValue_natDigits i, hdigits, digitsValue_natDigits]

/-- Each parameter is looked up by its own name. -/
theorem lookup_namedParameters (leading : String) (values : List Value) (i : Nat) :
    (namedParameters leading values).lookup (parameterName leading i) = values[i]? := by
  have hfrom : ∀ (values : List Value) (first i : Nat),
      ((values.zipIdx first).map fun x => (parameterName leading x.2, x.1)).lookup
        (parameterName leading (first + i)) = values[i]? := by
    intro values
    induction values with
    | nil => simp
    | cons v rest ih =>
      intro first i
      rw [List.zipIdx_cons, List.map_cons, Row.lookup_cons_eq]
      cases i with
      | zero => simp
      | succ i =>
        -- the entry of another number has another name
        rw [if_neg fun h => by have := parameterName_inj h; omega, List.getElem?_cons_succ,
          ← ih (first + 1) i, show first + 1 + i = first + (i + 1) by omega]
  have hzero := hfrom values 0 i
  rw [Nat.zero_add] at hzero
  exact hzero

theorem isNamePart_parameterName {leading : String} (h : IsNamePart leading) (i : Nat) :
    IsNamePart (parameterName leading i) := by
  have hdigits : (natDigits i).all Engine.isNameChar = true := by
    refine List.all_eq_true.mpr fun d hd => ?_
    have hdigit := isDigit_natDigits hd
    simp [Engine.isNameChar, Char.isAlphanum, hdigit]
  unfold IsNamePart parameterName at *
  simp only [String.toList_append, String.toList_ofList, List.all_append, h, hdigits]
  decide

/-- Placeholders are written as a marker and a name. -/
theorem marked_placeholder {leading : String} (h : IsNamePart leading) (database : Database) :
    Marked (fun i => (Dialect.of database).placeholder (parameterName leading i))
      (parameterName leading) where
  marked := by
    intro i
    refine ⟨(Dialect.of database).marker, ?_, ?_⟩
    · cases database <;> decide
    · simp [Dialect.placeholder, String.toList_append]
  part := isNamePart_parameterName h

/-! ## Compiled predicates -/

/-- **The text of a compiled predicate is read back as the predicate**, each parameter standing for
the value that is bound to it. -/
theorem readCondition_compile (hs : s.AllNames IsName) {leading : String} (hleading : IsNamePart leading)
    {database : Database} {p : Clause} {compiled : CompiledPredicate}
    (h : s.compile (.of database) leading p.predicate.expr = .ok compiled) :
    readCondition (fun name => compiled.parameters.lookup name) compiled.text =
      some (p.sentence s.rootAlias) := by
  unfold Scope.compile at h
  cases hc : s.condition p.predicate.expr [] with
  | error e => rw [hc] at h; exact nomatch h
  | ok r =>
    obtain ⟨c, values⟩ := r
    rw [hc] at h
    obtain rfl := Except.ok.inj h
    obtain ⟨-, hwritten, hmeaning⟩ := condition_clause hs hc
    -- nothing was bound before, so the number of a parameter is its place
    have hlook : ∀ i < values.length,
        (namedParameters leading values).lookup (parameterName leading i) =
          some (values.getD i .null) := by
      intro i hi
      rw [lookup_namedParameters, List.getD_eq_getElem?_getD, List.getElem?_eq_getElem hi,
        Option.getD_some]
    rw [← hmeaning values (List.prefix_refl _)]
    exact readCondition_text (marked_placeholder hleading database) hlook hwritten

namespace Library

/-- The authors of a query that calls them `a`. -/
def authorScope : Scope := ⟨catalog, author, some "a"⟩

/-- Authors of no given number, or with a book that has a long title, and of a small number. -/
def search : Clause :=
  .and
    (.or (.not (.isIn (.named "id") [.int 1, .int 2]))
      (.text (.through ⟨["books"]⟩ (.lower (.named "title"))) .contains "long"))
    (.compareWith (.arithmetic (.named "id") .mul (.int 2)) .lt
      (.through ⟨["books"]⟩ (.named "id")))

/-- The text of the search. -/
def searchText : String :=
  "((NOT (a.id IN (@p0, @p1)) OR lower(books.title) LIKE @p2) AND (a.id * @p3) < books.id)"

theorem named_authorScope : authorScope.AllNames IsName :=
  Scope.allNames_of_tables (by decide +kernel) fun a ha => by
    obtain rfl := Option.some.inj ha
    decide

end Library

/-- The condition of a search in a library says what is searched. -/
theorem readCondition_compile_library :
    ∃ compiled, Library.authorScope.compile (.of .sqlite) "" Library.search.predicate.expr =
        .ok compiled ∧
      compiled.text = Library.searchText ∧
      readCondition (fun name => compiled.parameters.lookup name) compiled.text =
        some (Library.search.sentence (some "a")) := by
  have hok : (Library.authorScope.compile (.of .sqlite) ""
      Library.search.predicate.expr).isOk = true := by
    decide +kernel
  have htext : (Library.authorScope.compile (.of .sqlite) ""
      Library.search.predicate.expr).toOption.map CompiledPredicate.text =
        some Library.searchText := by
    decide +kernel
  obtain ⟨compiled, h⟩ := exists_of_isOk hok
  rw [h] at htext
  exact ⟨compiled, h, Option.some.inj htext,
    readCondition_compile Library.named_authorScope (by decide) h⟩

end EntityMapper
