import EntityMapper.Proofs.Filter.Resolved

/-!
# One expression in two places

An expression may be compiled where it is and from a place in front of it, with a chain of
associations before each of its paths. If a path has a column in one place just if it has one in the
other, both compile or none of them does. Then they bind the same values, and their conditions have
one form: each column has its counterpart, and both are those of one path.

* `Condition.Paired` — two conditions of one form
* `Alongside` — two computations that fail together and bind the same values
* `alongside_condition` — an expression is compiled alongside itself
* `compile_paired` — what that says of compiled predicates
-/

namespace EntityMapper

/-! ## Two conditions -/

/-- The paths whose columns are written, in their order. What is looked for among no values is
resolved and not written. -/
def Expr.shown : Expr → List (List String)
  | .member path => [path]
  | .constant _ => []
  | .compare _ l r => l.shown ++ r.shown
  | .and l r => l.shown ++ r.shown
  | .or l r => l.shown ++ r.shown
  | .not e => e.shown
  | .arithmetic _ l r => l.shown ++ r.shown
  | .call .isIn _ [] => []
  | .call _ t _ => t.shown
  | .conditional c t e => c.shown ++ t.shown ++ e.shown

theorem append_subset_append {α : Type} {as bs cs ds : List α} (h : as ⊆ cs) (h' : bs ⊆ ds) :
    as ++ bs ⊆ cs ++ ds := fun _ hx =>
  List.mem_append.mpr ((List.mem_append.mp hx).imp (fun hx => h hx) fun hx => h' hx)

/-- What is shown of an expression is in it. -/
theorem shown_subset_paths : ∀ e : Expr, e.shown ⊆ e.paths
  | .member path => List.Subset.refl [path]
  | .constant _ => List.nil_subset _
  | .compare _ l r => append_subset_append (shown_subset_paths l) (shown_subset_paths r)
  | .and l r => append_subset_append (shown_subset_paths l) (shown_subset_paths r)
  | .or l r => append_subset_append (shown_subset_paths l) (shown_subset_paths r)
  | .not e => shown_subset_paths e
  | .arithmetic _ l r => append_subset_append (shown_subset_paths l) (shown_subset_paths r)
  | .call method t args => by
    have htarget := List.subset_append_of_subset_left (Expr.paths.ofAll args) (shown_subset_paths t)
    cases method with
    | isIn =>
      cases args with
      | nil => exact List.nil_subset _
      | cons => exact htarget
    | contains | startsWith | endsWith | toLower | toUpper | other => exact htarget
  | .conditional c t e => append_subset_append
      (append_subset_append (shown_subset_paths c) (shown_subset_paths t))
      (shown_subset_paths e)

/-- Two conditions of one form: they are the same but for their columns, which stand where the other
one has the column of the same path. -/
inductive Condition.Paired (pair : List String → Condition → Condition → Prop) :
    List (List String) → Condition → Condition → Prop
  | null : Paired pair [] .null .null
  | column {path : List String} {c c' : Condition} (h : pair path c c') : Paired pair [path] c c'
  | parameter (i : Nat) : Paired pair [] (.parameter i) (.parameter i)
  | compare (op : CompareOp) {ps qs : List (List String)} {l l' r r' : Condition}
      (hl : Paired pair ps l l') (hr : Paired pair qs r r') :
      Paired pair (ps ++ qs) (.compare op l r) (.compare op l' r')
  | isNull {ps : List (List String)} {c c' : Condition} (h : Paired pair ps c c') :
      Paired pair ps (.isNull c) (.isNull c')
  | isNotNull {ps : List (List String)} {c c' : Condition} (h : Paired pair ps c c') :
      Paired pair ps (.isNotNull c) (.isNotNull c')
  | and {ps qs : List (List String)} {l l' r r' : Condition}
      (hl : Paired pair ps l l') (hr : Paired pair qs r r') :
      Paired pair (ps ++ qs) (.and l r) (.and l' r')
  | or {ps qs : List (List String)} {l l' r r' : Condition}
      (hl : Paired pair ps l l') (hr : Paired pair qs r r') :
      Paired pair (ps ++ qs) (.or l r) (.or l' r')
  | not {ps : List (List String)} {c c' : Condition} (h : Paired pair ps c c') :
      Paired pair ps (.not c) (.not c')
  | arithmetic (op : ArithmeticOp) {ps qs : List (List String)} {l l' r r' : Condition}
      (hl : Paired pair ps l l') (hr : Paired pair qs r r') :
      Paired pair (ps ++ qs) (.arithmetic op l r) (.arithmetic op l' r')
  | like (pattern : Nat) {ps : List (List String)} {c c' : Condition} (h : Paired pair ps c c') :
      Paired pair ps (.like c pattern) (.like c' pattern)
  | isIn (items : List Nat) {ps : List (List String)} {c c' : Condition}
      (h : Paired pair ps c c') : Paired pair ps (.isIn c items) (.isIn c' items)
  | never : Paired pair [] .never .never
  | lower {ps : List (List String)} {c c' : Condition} (h : Paired pair ps c c') :
      Paired pair ps (.lower c) (.lower c')
  | upper {ps : List (List String)} {c c' : Condition} (h : Paired pair ps c c') :
      Paired pair ps (.upper c) (.upper c')

/-! ## Two computations -/

/-- Two computations that fail together. Otherwise they bind the same values, and what they give is
related. -/
def Alongside {α : Type} (related : α → α → Prop) (x y : Binding α) : Prop :=
  ∀ bound, (∃ e e', x bound = .error e ∧ y bound = .error e') ∨
    ∃ a a' bound', x bound = .ok (a, bound') ∧ y bound = .ok (a', bound') ∧ related a a'

namespace Alongside

variable {α β : Type} {R : α → α → Prop} {S : β → β → Prop} {x y : Binding α}

theorem pure {a a' : α} (h : R a a') : Alongside R (Pure.pure a) (Pure.pure a') :=
  fun bound => .inr ⟨a, a', bound, rfl, rfl, h⟩

theorem fail (e e' : MapperError) : Alongside R (throw e) (throw e') :=
  fun _ => .inl ⟨e, e', rfl, rfl⟩

/-- A computation fails where it fails. -/
theorem same (x : Binding α) : Alongside Eq x x := by
  intro bound
  cases h : x bound with
  | error e => exact .inl ⟨e, e, rfl, rfl⟩
  | ok r => exact .inr ⟨r.1, r.1, r.2, rfl, rfl, rfl⟩

/-- What goes on from related results goes on alongside. -/
theorem bind {f g : α → Binding β} (h : Alongside R x y)
    (hf : ∀ {a a'}, R a a' → Alongside S (f a) (g a')) : Alongside S (x >>= f) (y >>= g) := by
  intro bound
  rcases h bound with ⟨e, e', hx, hy⟩ | ⟨a, a', bound', hx, hy, hrel⟩
  · refine .inl ⟨e, e', ?_, ?_⟩
    · simp only [Bind.bind, StateT.bind, Except.bind, hx]
    · simp only [Bind.bind, StateT.bind, Except.bind, hy]
  · have hxf : (x >>= f) bound = f a bound' := by
      simp only [Bind.bind, StateT.bind, Except.bind, hx]
    have hyg : (y >>= g) bound = g a' bound' := by
      simp only [Bind.bind, StateT.bind, Except.bind, hy]
    rw [hxf, hyg]
    exact hf hrel bound'

end Alongside

/-! ## Going in front -/

theorem isNullLiteral_under (chain : List String) (e : Expr) :
    (e.under chain).isNullLiteral = e.isNullLiteral := by
  cases e <;> rfl

theorem besideNull_under (chain : List String) (l r : Expr) :
    Expr.besideNull (l.under chain) (r.under chain) =
      (Expr.besideNull l r).map (Expr.under chain) := by
  unfold Expr.besideNull
  rw [isNullLiteral_under, isNullLiteral_under]
  split
  · rfl
  · split <;> rfl

/-- The literals that are looked for are in no place. -/
theorem bindAll_under (chain : List String) (args : List Expr) :
    bindAll (args.map (Expr.under chain)) = bindAll args := by
  induction args with
  | nil => rfl
  | cons a rest ih =>
    cases a with
    | constant v =>
      show (EntityMapper.bind v >>= fun i => bindAll (rest.map (Expr.under chain)) >>= fun is =>
        Pure.pure (i :: is)) = _
      rw [ih]
      rfl
    | member | compare | and | or | not | arithmetic | call | conditional => rfl

/-- What is shown of a comparison with null is the operand that is tested. -/
theorem shown_besideNull {l r e : Expr} (h : Expr.besideNull l r = some e) :
    l.shown ++ r.shown = e.shown := by
  rcases besideNull_eq_some h with ⟨rfl, rfl⟩ | ⟨rfl, rfl⟩
  · exact List.append_nil _
  · rfl

/-- The only argument of a text method. -/
def Expr.soleText? : List Expr → Option String
  | [.constant (.text s)] => some s
  | _ => none

theorem soleText?_under (chain : List String) (args : List Expr) :
    Expr.soleText? (args.map (Expr.under chain)) = Expr.soleText? args := by
  match args with
  | [] => rfl
  | [a] => cases a <;> rfl
  | _ :: _ :: _ => simp [Expr.soleText?]

/-- The condition of a text method. -/
theorem condition_textMethod (s : Scope) {method : Method} (target : Expr) (args : List Expr)
    (h : method = .contains ∨ method = .startsWith ∨ method = .endsWith) :
    s.condition (.call method target args) = match Expr.soleText? args with
      | some text => s.condition target >>= fun t => match method.pattern? text with
        | some pattern => EntityMapper.bind (.text pattern) >>= fun i => pure (.like t i)
        | none => throw (.unsupported (.unknownMethod method))
      | none => throw (.unsupported (.notOneText method)) := by
  rcases h with rfl | rfl | rfl
  all_goals
    conv_lhs => unfold Scope.condition
    split
    · rfl
    · next hsole =>
      have hnone : Expr.soleText? args = none := by
        unfold Expr.soleText?
        split
        · exact absurd rfl (hsole _)
        · rfl
      rw [hnone]

/-! ## Expressions -/

variable {s s' : Scope} {chain : List String}

/-- The columns of a path in two places. -/
def Scope.Counterparts (s s' : Scope) (chain path : List String) (c c' : Condition) : Prop :=
  s.column path = .ok c ∧ s'.column (chain ++ path) = .ok c'

/-- A path has a column in one place just if it has one in the other. -/
def Scope.Resolves (s s' : Scope) (chain : List String) : Prop :=
  ∀ path, (∃ c, s.column path = .ok c) ↔ ∃ c', s'.column (chain ++ path) = .ok c'

/-- A value is bound alongside itself. -/
theorem alongside_constant (v : Value) :
    Alongside (Condition.Paired (s.Counterparts s' chain) []) (s.condition (.constant v))
      (s'.condition (.constant v)) := by
  by_cases hnull : v = .null
  · subst hnull
    exact .pure .null
  · have hbind : ∀ s : Scope, s.condition (.constant v) =
        EntityMapper.bind v >>= fun i => pure (.parameter i) := fun s => by
      cases v <;> first | exact absurd rfl hnull | rfl
    rw [hbind, hbind]
    exact (Alongside.same _).bind fun {i _} heq => heq ▸ .pure (.parameter i)

/-- **An expression is compiled alongside itself**, where its paths have their columns in both
places. -/
theorem alongside_condition (h : s.Resolves s' chain) : ∀ e : Expr,
    Alongside (Condition.Paired (s.Counterparts s' chain) e.shown) (s.condition e)
      (s'.condition (e.under chain))
  | .member path => by
    intro bound
    have hrun : ∀ (s : Scope) path, s.condition (.member path) bound =
        (s.column path >>= fun c => .ok (c, bound)) := fun _ _ => rfl
    rw [Expr.under, hrun, hrun]
    cases hc : s.column path with
    | ok c =>
      obtain ⟨c', hc'⟩ := (h path).mp ⟨c, hc⟩
      rw [hc']
      exact .inr ⟨c, c', bound, rfl, rfl, .column ⟨hc, hc'⟩⟩
    | error e =>
      cases hc' : s'.column (chain ++ path) with
      | ok c' =>
        obtain ⟨c, hok⟩ := (h path).mpr ⟨c', hc'⟩
        rw [hc] at hok
        cases hok
      | error e' => exact .inl ⟨e, e', rfl, rfl⟩
  | .constant v => alongside_constant v
  | .compare op l r => by
    rw [Expr.under, condition_compare_eq, condition_compare_eq, besideNull_under]
    cases htested : Expr.besideNull l r with
    | none =>
      exact (alongside_condition h l).bind fun hl => (alongside_condition h r).bind fun hr =>
        .pure (hl.compare op hr)
    | some e =>
      have he : Alongside (Condition.Paired (s.Counterparts s' chain) e.shown) (s.condition e)
          (s'.condition (e.under chain)) := by
        rcases besideNull_eq_some htested with ⟨rfl, -⟩ | ⟨-, rfl⟩
        · exact alongside_condition h l
        · exact alongside_condition h r
      rw [Expr.shown, shown_besideNull htested]
      refine he.bind fun hpaired => ?_
      cases op with
      | eq => exact .pure hpaired.isNull
      | ne => exact .pure hpaired.isNotNull
      | lt | lte | gt | gte => exact .fail _ _
  | .and l r => (alongside_condition h l).bind fun hl => (alongside_condition h r).bind fun hr =>
      .pure (hl.and hr)
  | .or l r => (alongside_condition h l).bind fun hl => (alongside_condition h r).bind fun hr =>
      .pure (hl.or hr)
  | .not e => (alongside_condition h e).bind fun he => .pure he.not
  | .arithmetic op l r => (alongside_condition h l).bind fun hl =>
      (alongside_condition h r).bind fun hr => .pure (hl.arithmetic op hr)
  | .call method target args => by
    rw [Expr.under, Expr.underAll_eq_map]
    have htarget := alongside_condition h target
    cases method with
    | contains | startsWith | endsWith =>
      rw [condition_textMethod s target args (by simp),
        condition_textMethod s' _ _ (by simp), soleText?_under]
      cases Expr.soleText? args with
      | none => exact .fail _ _
      | some text =>
        exact htarget.bind fun ht =>
          (Alongside.same _).bind fun {i _} heq => heq ▸ .pure (ht.like i)
    | isIn =>
      have hisIn : ∀ (s : Scope) target args, s.condition (.call .isIn target args) =
          s.condition target >>= fun t => if args.isEmpty then pure .never
            else bindAll args >>= fun items => pure (.isIn t items) := fun _ _ _ => rfl
      rw [hisIn, hisIn, bindAll_under]
      cases args with
      | nil => exact htarget.bind fun _ => .pure .never
      | cons a rest =>
        exact htarget.bind fun ht => (Alongside.same _).bind fun {items _} heq =>
          heq ▸ .pure (ht.isIn items)
    | toLower =>
      cases args with
      | nil => exact htarget.bind fun ht => .pure ht.lower
      | cons => exact .fail _ _
    | toUpper =>
      cases args with
      | nil => exact htarget.bind fun ht => .pure ht.upper
      | cons => exact .fail _ _
    | other name => exact .fail _ _
  | .conditional .. => .fail _ _

/-! ## Predicates -/

/-- **What an expression compiles to in two places**: none of them, or two predicates with the same
parameters whose texts are those of paired conditions. -/
theorem compile_paired (h : s.Resolves s' chain) (d : Dialect) (leading : String) (e : Expr) :
    (∃ err err', s.compile d leading e = .error err ∧
        s'.compile d leading (e.under chain) = .error err') ∨
      ∃ p p', s.compile d leading e = .ok p ∧ s'.compile d leading (e.under chain) = .ok p' ∧
        p.parameters = p'.parameters ∧ ∃ c c',
          Condition.Paired (s.Counterparts s' chain) e.shown c c' ∧
          p.text = c.text (fun i => d.placeholder (parameterName leading i)) ∧
          p'.text = c'.text (fun i => d.placeholder (parameterName leading i)) := by
  unfold Scope.compile
  rcases alongside_condition h e [] with ⟨err, err', hc, hc'⟩ | ⟨c, c', values, hc, hc', hpaired⟩
  · rw [hc, hc']
    exact .inl ⟨err, err', rfl, rfl⟩
  · rw [hc, hc']
    exact .inr ⟨_, _, rfl, rfl, rfl, c, c', hpaired, rfl, rfl⟩

end EntityMapper
