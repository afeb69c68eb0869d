import EntityMapper.Proofs.Filter.Compile

/-!
# What expressions are translated into

Compiling is a computation that binds values and may fail. Where it does not fail, what it gives is
told by the shape of the expression alone: which condition is written, which operands are translated
for it in which order, and which values are bound behind theirs. What holds of all conditions is
shown along that.

* `Scope.Translates` — an expression and its condition, with the values bound before and after it
* `translates_of_condition` — what an expression compiles to is what it is translated into
-/

namespace EntityMapper

/-! ## Shapes -/

/-- The operand that a comparison with null tests. Of two nulls the first one is tested. -/
def Expr.besideNull (l r : Expr) : Option Expr :=
  if r.isNullLiteral then some l else if l.isNullLiteral then some r else none

/-- An expression is translated into a condition. The values that it binds come behind those that
were bound before it, and each of its parameters has the number of its value. -/
inductive Scope.Translates (s : Scope) : Expr → List Value → Condition → List Value → Prop
  | member {path : List String} {qualifier : Option String} {name : String} {bound : List Value}
      (h : s.column path = .ok (.column qualifier name)) :
      Translates s (.member path) bound (.column qualifier name) bound
  | null {bound : List Value} : Translates s (.constant .null) bound .null bound
  | constant {v : Value} {bound : List Value} (h : v ≠ .null) :
      Translates s (.constant v) bound (.parameter bound.length) (bound ++ [v.normalizeLiteral])
  /-- a comparison with null is a test -/
  | isNull {l r e : Expr} {bound bound' : List Value} {c : Condition}
      (h : Expr.besideNull l r = some e) (he : Translates s e bound c bound') :
      Translates s (.compare .eq l r) bound (.isNull c) bound'
  | isNotNull {l r e : Expr} {bound bound' : List Value} {c : Condition}
      (h : Expr.besideNull l r = some e) (he : Translates s e bound c bound') :
      Translates s (.compare .ne l r) bound (.isNotNull c) bound'
  | compare {op : CompareOp} {l r : Expr} {bound bound₁ bound' : List Value} {c d : Condition}
      (h : Expr.besideNull l r = none) (hl : Translates s l bound c bound₁)
      (hr : Translates s r bound₁ d bound') :
      Translates s (.compare op l r) bound (.compare op c d) bound'
  | and {l r : Expr} {bound bound₁ bound' : List Value} {c d : Condition}
      (hl : Translates s l bound c bound₁) (hr : Translates s r bound₁ d bound') :
      Translates s (.and l r) bound (.and c d) bound'
  | or {l r : Expr} {bound bound₁ bound' : List Value} {c d : Condition}
      (hl : Translates s l bound c bound₁) (hr : Translates s r bound₁ d bound') :
      Translates s (.or l r) bound (.or c d) bound'
  | not {e : Expr} {bound bound' : List Value} {c : Condition}
      (he : Translates s e bound c bound') : Translates s (.not e) bound (.not c) bound'
  | arithmetic {op : ArithmeticOp} {l r : Expr} {bound bound₁ bound' : List Value}
      {c d : Condition} (hl : Translates s l bound c bound₁) (hr : Translates s r bound₁ d bound') :
      Translates s (.arithmetic op l r) bound (.arithmetic op c d) bound'
  /-- among no values there is none, but what is looked for has bound its own -/
  | never {e : Expr} {bound bound' : List Value} {c : Condition}
      (he : Translates s e bound c bound') :
      Translates s (.call .isIn e []) bound .never bound'
  /-- values that are looked for are bound, be they null -/
  | isIn {e : Expr} {bound bound' : List Value} {c : Condition} {vs : List Value} (h : vs ≠ [])
      (he : Translates s e bound c bound') :
      Translates s (.call .isIn e (vs.map .constant)) bound
        (.isIn c (List.range' bound'.length vs.length)) (bound' ++ vs.map Value.normalizeLiteral)
  | lower {e : Expr} {bound bound' : List Value} {c : Condition}
      (he : Translates s e bound c bound') :
      Translates s (.call .toLower e []) bound (.lower c) bound'
  | upper {e : Expr} {bound bound' : List Value} {c : Condition}
      (he : Translates s e bound c bound') :
      Translates s (.call .toUpper e []) bound (.upper c) bound'
  /-- a text is bound with the pattern around it -/
  | like {method : Method} {text pattern : String} {e : Expr} {bound bound' : List Value}
      {c : Condition} (h : method.pattern? text = some pattern)
      (he : Translates s e bound c bound') :
      Translates s (.call method e [.constant (.text text)]) bound (.like c bound'.length)
        (bound' ++ [.text pattern])

variable {s : Scope} {e l r : Expr} {bound bound' : List Value} {c : Condition}

theorem eq_null_of_isNullLiteral (h : e.isNullLiteral = true) : e = .constant .null := by
  unfold Expr.isNullLiteral at h
  split at h
  · rfl
  · exact nomatch h

/-- What is tested stands beside the null literal. -/
theorem besideNull_eq_some (h : Expr.besideNull l r = some e) :
    l = e ∧ r = .constant .null ∨ l = .constant .null ∧ r = e := by
  unfold Expr.besideNull at h
  split at h
  · next hr => exact .inl ⟨Option.some.inj h, eq_null_of_isNullLiteral hr⟩
  · split at h
    · next hl => exact .inr ⟨eq_null_of_isNullLiteral hl, Option.some.inj h⟩
    · exact nomatch h

/-! ## Translating -/

/-- Literals are bound in their order. -/
theorem bindAll_eq_ok {args : List Expr} {items : List Nat}
    (h : bindAll args bound = .ok (items, bound')) : ∃ vs : List Value,
      args = vs.map .constant ∧ items = List.range' bound.length vs.length ∧
        bound' = bound ++ vs.map Value.normalizeLiteral := by
  induction args generalizing bound items with
  | nil =>
    obtain ⟨rfl, rfl⟩ := run_pure_eq_ok h
    exact ⟨[], rfl, rfl, by simp⟩
  | cons a rest ih =>
    cases a with
    | constant v =>
      obtain ⟨i, bound₁, hi, h⟩ := run_bind_eq_ok h
      obtain ⟨more, bound₂, hmore, h⟩ := run_bind_eq_ok h
      obtain ⟨rfl, rfl⟩ := run_pure_eq_ok h
      obtain ⟨rfl, rfl⟩ := Prod.mk.inj (Except.ok.inj hi)
      obtain ⟨vs, rfl, rfl, rfl⟩ := ih hmore
      refine ⟨v :: vs, rfl, ?_, by simp⟩
      rw [List.length_append, List.length_singleton, List.length_cons, List.range'_succ]
    | member | compare | and | or | not | arithmetic | call | conditional => exact nomatch h

/-- The comparison as it is compiled. -/
theorem condition_compare_eq (op : CompareOp) (l r : Expr) :
    s.condition (.compare op l r) = match Expr.besideNull l r with
      | some e => s.condition e >>= fun a => liftM (nullTest op a)
      | none => s.condition l >>= fun a => s.condition r >>= fun b => pure (.compare op a b) := by
  have h : s.condition (.compare op l r) =
      if r.isNullLiteral then s.condition l >>= fun a => liftM (nullTest op a)
      else if l.isNullLiteral then s.condition r >>= fun a => liftM (nullTest op a)
      else s.condition l >>= fun a => s.condition r >>= fun b => pure (.compare op a b) := rfl
  rw [h, Expr.besideNull]
  split
  · rfl
  · split <;> rfl

/-- A condition around that of one operand. -/
theorem condition_around {x : Binding Condition} (build : Condition → Condition)
    (h : (x >>= fun a => pure (build a)) bound = .ok (c, bound')) :
    ∃ a, x bound = .ok (a, bound') ∧ c = build a := by
  obtain ⟨a, bound₁, ha, h⟩ := run_bind_eq_ok h
  obtain ⟨rfl, rfl⟩ := run_pure_eq_ok h
  exact ⟨a, ha, rfl⟩

/-- A condition of two operands, of which the second one binds behind the first. -/
theorem condition_both {x y : Binding Condition} (build : Condition → Condition → Condition)
    (h : (x >>= fun a => y >>= fun b => pure (build a b)) bound = .ok (c, bound')) :
    ∃ a bound₁ b, x bound = .ok (a, bound₁) ∧ y bound₁ = .ok (b, bound') ∧ c = build a b := by
  obtain ⟨a, bound₁, ha, h⟩ := run_bind_eq_ok h
  obtain ⟨b, hb, rfl⟩ := condition_around (build a) h
  exact ⟨a, bound₁, b, ha, hb, rfl⟩

/-- The text methods have one text for their argument, and a pattern for it. -/
theorem condition_pattern {method : Method} {target : Expr} {args : List Expr}
    (hmethod : method = .contains ∨ method = .startsWith ∨ method = .endsWith)
    (h : s.condition (.call method target args) bound = .ok (c, bound')) :
    ∃ text pattern a bound₁, args = [.constant (.text text)] ∧
      method.pattern? text = some pattern ∧ s.condition target bound = .ok (a, bound₁) ∧
      c = .like a bound₁.length ∧ bound' = bound₁ ++ [.text pattern] := by
  rcases hmethod with rfl | rfl | rfl
  all_goals
    unfold Scope.condition at h
    split at h
    · obtain ⟨a, bound₁, ha, h⟩ := run_bind_eq_ok h
      obtain ⟨i, bound₂, hi, h⟩ := run_bind_eq_ok h
      obtain ⟨rfl, rfl⟩ := run_pure_eq_ok h
      obtain ⟨rfl, rfl⟩ := Prod.mk.inj (Except.ok.inj hi)
      exact ⟨_, _, a, bound₁, rfl, rfl, ha, rfl, rfl⟩
    · exact nomatch h

/-- **What an expression compiles to is what it is translated into.** -/
theorem translates_of_condition : ∀ (e : Expr) {bound bound' : List Value} {c : Condition},
    s.condition e bound = .ok (c, bound') → s.Translates e bound c bound'
  | .member path, bound, bound', c, h => by
    have h : (s.column path >>= fun c => .ok (c, bound)) = .ok (c, bound') := h
    obtain ⟨c', hcolumn, h⟩ := exists_of_bind_eq_ok h
    obtain ⟨rfl, rfl⟩ := Prod.mk.inj (Except.ok.inj h)
    obtain ⟨qualifier, name, rfl⟩ := eq_column_of_column hcolumn
    exact .member hcolumn
  | .constant v, bound, bound', c, h => by
    by_cases hnull : v = .null
    · subst hnull
      obtain ⟨rfl, rfl⟩ := run_pure_eq_ok h
      exact .null
    · have h : (EntityMapper.bind v >>= fun i => pure (.parameter i)) bound = .ok (c, bound') := by
        cases v <;> first | exact absurd rfl hnull | exact h
      obtain ⟨i, bound₁, hi, h⟩ := run_bind_eq_ok h
      obtain ⟨rfl, rfl⟩ := run_pure_eq_ok h
      obtain ⟨rfl, rfl⟩ := Prod.mk.inj (Except.ok.inj hi)
      exact .constant hnull
  | .compare op l r, bound, bound', c, h => by
    rw [condition_compare_eq] at h
    cases htested : Expr.besideNull l r with
    | none =>
      rw [htested] at h
      obtain ⟨a, bound₁, b, ha, hb, rfl⟩ := condition_both (.compare op) h
      exact .compare htested (translates_of_condition l ha) (translates_of_condition r hb)
    | some e =>
      rw [htested] at h
      have he : ∀ {a bound₁}, s.condition e bound = .ok (a, bound₁) →
          s.Translates e bound a bound₁ := by
        rcases besideNull_eq_some htested with ⟨rfl, -⟩ | ⟨-, rfl⟩
        · exact translates_of_condition l
        · exact translates_of_condition r
      obtain ⟨a, bound₁, ha, h⟩ := run_bind_eq_ok h
      cases op with
      | eq =>
        obtain ⟨rfl, rfl⟩ := run_pure_eq_ok h
        exact .isNull htested (he ha)
      | ne =>
        obtain ⟨rfl, rfl⟩ := run_pure_eq_ok h
        exact .isNotNull htested (he ha)
      | lt | lte | gt | gte => exact nomatch h
  | .and l r, _, _, _, h => by
    obtain ⟨a, bound₁, b, ha, hb, rfl⟩ := condition_both .and h
    exact .and (translates_of_condition l ha) (translates_of_condition r hb)
  | .or l r, _, _, _, h => by
    obtain ⟨a, bound₁, b, ha, hb, rfl⟩ := condition_both .or h
    exact .or (translates_of_condition l ha) (translates_of_condition r hb)
  | .not e, _, _, _, h => by
    obtain ⟨a, ha, rfl⟩ := condition_around .not h
    exact .not (translates_of_condition e ha)
  | .arithmetic op l r, _, _, _, h => by
    obtain ⟨a, bound₁, b, ha, hb, rfl⟩ := condition_both (.arithmetic op) h
    exact .arithmetic (translates_of_condition l ha) (translates_of_condition r hb)
  | .call method target args, bound, bound', c, h => by
    cases method with
    | contains | startsWith | endsWith =>
      obtain ⟨text, pattern, a, bound₁, rfl, hpattern, ha, rfl, rfl⟩ := condition_pattern (by simp) h
      exact .like hpattern (translates_of_condition target ha)
    | isIn =>
      have h : (s.condition target >>= fun t => if args.isEmpty then pure .never
        else bindAll args >>= fun items => pure (.isIn t items)) bound = .ok (c, bound') := h
      obtain ⟨a, bound₁, ha, h⟩ := run_bind_eq_ok h
      have ha := translates_of_condition target ha
      cases args with
      | nil =>
        obtain ⟨rfl, rfl⟩ := run_pure_eq_ok h
        exact .never ha
      | cons a rest =>
        obtain ⟨items, bound₂, hitems, h⟩ := run_bind_eq_ok h
        obtain ⟨rfl, rfl⟩ := run_pure_eq_ok h
        obtain ⟨vs, hargs, rfl, rfl⟩ := bindAll_eq_ok hitems
        rw [hargs]
        refine .isIn ?_ ha
        rintro rfl
        exact nomatch hargs
    | toLower =>
      cases args with
      | cons => exact nomatch h
      | nil =>
        obtain ⟨a, ha, rfl⟩ := condition_around .lower h
        exact .lower (translates_of_condition target ha)
    | toUpper =>
      cases args with
      | cons => exact nomatch h
      | nil =>
        obtain ⟨a, ha, rfl⟩ := condition_around .upper h
        exact .upper (translates_of_condition target ha)
    | other name => exact nomatch h
  | .conditional .., _, _, _, h => nomatch h

end EntityMapper
