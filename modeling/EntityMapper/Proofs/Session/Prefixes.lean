import EntityMapper.Proofs.Filter.Parameters
import EntityMapper.Proofs.Session.Bound

/-!
# Two predicates in one command

A parameter is named by its prefix with its number behind it, and nothing between them. So two
prefixes keep the parameters of two predicates apart, unless one of them is the other one with a
number behind it: then the tenfold of that number, under the shorter prefix, has the name of zero
under the longer one. A name that both predicates have is bound to the value of the first.

* `RunsInto` — a prefix that is another one with a number behind it
* `shared_parameterName_iff` — the prefixes under which two of so many parameters have one name
* `compile_prefixes` — which names two compiled predicates share, and what a command with both binds
-/

namespace EntityMapper

/-! ## Digits -/

theorem length_natDigits_of_lt {n : Nat} (h : n < 10) : (natDigits n).length = 1 := by
  rw [natDigits, Nat.toDigits_of_lt_base h]
  rfl

/-- A number of more than one digit is written with those of its tenth and the last one. -/
theorem natDigits_eq_append {n : Nat} (h : 10 ≤ n) :
    natDigits n = natDigits (n / 10) ++ natDigits (n % 10) := by
  have happend := Nat.toDigits_append_toDigits (b := 10) (n := n / 10) (d := n % 10) (by decide)
    (by omega) (by omega)
  rw [Nat.div_add_mod] at happend
  exact happend.symm

/-- Ten times a number is written with a zero behind it. -/
theorem natDigits_ten_mul {k : Nat} (h : 0 < k) :
    natDigits (10 * k) = natDigits k ++ natDigits 0 := by
  rw [natDigits_eq_append (by omega), Nat.mul_div_cancel_left k (by decide), Nat.mul_mod_right]

theorem ten_le_of_append {n : Nat} {front rest : List Char} (hfront : front ≠ [])
    (hrest : rest ≠ []) (h : natDigits n = front ++ rest) : 10 ≤ n := by
  by_contra hlt
  have hlength := congrArg List.length h
  have hfront := List.length_pos_iff.mpr hfront
  have hrest := List.length_pos_iff.mpr hrest
  rw [length_natDigits_of_lt (by omega), List.length_append] at hlength
  omega

/-- The first digits of a number, where there are others behind, are those of a number that is at
most its tenth, and not zero. -/
theorem exists_natDigits_of_append {n : Nat} {front rest : List Char} (hfront : front ≠ [])
    (hrest : rest ≠ []) (h : natDigits n = front ++ rest) :
    ∃ k, 0 < k ∧ front = natDigits k ∧ 10 * k ≤ n := by
  induction rest using List.reverseRecOn generalizing n with
  | nil => exact absurd rfl hrest
  | append_singleton init last ih =>
    have hn := ten_le_of_append hfront hrest h
    -- the last digit of the number is the last one behind
    rw [natDigits_eq_append hn, ← List.append_assoc] at h
    obtain ⟨htenth, -⟩ := List.append_inj' h (length_natDigits_of_lt (by omega))
    by_cases hinit : init = []
    · rw [hinit, List.append_nil] at htenth
      exact ⟨n / 10, by omega, htenth.symm, by omega⟩
    · obtain ⟨k, hk, hdigits, hle⟩ := ih hinit htenth
      exact ⟨k, hk, hdigits, by omega⟩

/-! ## Names under two prefixes -/

/-- The prefix `b` is `a` with a number behind it, and there are parameters, so many under `a` and
under `b`, of which two have one name. -/
def RunsInto (a b : String) (under under' : Nat) : Prop :=
  0 < under' ∧ ∃ k, 0 < k ∧ 10 * k < under ∧ b = a ++ String.ofList (natDigits k)

variable {a b : String}

theorem parameterName_eq_iff {i k : Nat} : parameterName a i = parameterName b k ↔
    a.toList ++ natDigits i = b.toList ++ natDigits k := by
  rw [parameterName, parameterName, ← String.toList_inj]
  simp

/-- A prefix with a number behind it gives zero the name that ten times the number has. -/
theorem parameterName_append {k : Nat} (h : 0 < k) :
    parameterName a (10 * k) = parameterName (a ++ String.ofList (natDigits k)) 0 := by
  rw [parameterName_eq_iff, natDigits_ten_mul h, String.toList_append, String.toList_ofList,
    List.append_assoc]

/-- Of two prefixes with one name the longer one runs into the shorter. -/
theorem runsInto_of_append {i k under under' : Nat} {more : List Char} (hmore : more ≠ [])
    (hb : b.toList = a.toList ++ more) (hdigits : natDigits i = more ++ natDigits k)
    (hi : i < under) (hk : k < under') : RunsInto a b under under' := by
  obtain ⟨n, hn, rfl, hle⟩ := exists_natDigits_of_append hmore (natDigits_ne_nil k) hdigits
  refine ⟨by omega, n, hn, by omega, ?_⟩
  rw [← String.toList_inj, hb, String.toList_append, String.toList_ofList]

/-- **Two of so many parameters have one name** just if one of their prefixes is the other one with
a number behind it, of which the tenfold is the number of a parameter there. -/
theorem shared_parameterName_iff (hab : a ≠ b) {under under' : Nat} :
    (∃ i < under, ∃ k < under', parameterName a i = parameterName b k) ↔
      RunsInto a b under under' ∨ RunsInto b a under' under := by
  constructor
  · rintro ⟨i, hi, k, hk, heq⟩
    rw [parameterName_eq_iff] at heq
    have hne : ∀ more, b.toList = a.toList ++ more → more ≠ [] := by
      rintro more h rfl
      exact hab (String.toList_inj.mp (by rw [h, List.append_nil]))
    have hne' : ∀ more, a.toList = b.toList ++ more → more ≠ [] := by
      rintro more h rfl
      exact hab (String.toList_inj.mp (by rw [h, List.append_nil]))
    rcases List.append_eq_append_iff.mp heq with ⟨more, hb, hdigits⟩ | ⟨more, ha, hdigits⟩
    · exact .inl (runsInto_of_append (hne more hb) hb hdigits hi hk)
    · exact .inr (runsInto_of_append (hne' more ha) ha hdigits hk hi)
  · rintro (⟨h, k, hk, hlt, rfl⟩ | ⟨h, k, hk, hlt, rfl⟩)
    · exact ⟨10 * k, hlt, 0, h, parameterName_append hk⟩
    · exact ⟨0, h, 10 * k, hlt, (parameterName_append hk).symm⟩

/-! ## Bindings -/

theorem mem_namedParameters {leading : String} {values : List Value} {x : String × Value} :
    x ∈ namedParameters leading values ↔ ∃ i, ∃ h : i < values.length,
      x = (parameterName leading i, values[i]) := by
  unfold namedParameters
  rw [List.mem_map]
  constructor
  · rintro ⟨⟨v, i⟩, hmem, rfl⟩
    obtain ⟨h, hv⟩ := List.getElem?_eq_some_iff.mp (List.mem_zipIdx_iff_getElem?.mp hmem)
    exact ⟨i, h, Prod.ext rfl hv.symm⟩
  · rintro ⟨i, h, rfl⟩
    exact ⟨(values[i], i), List.mem_zipIdx_iff_getElem?.mpr (List.getElem?_eq_getElem h), rfl⟩

/-- A parameter is looked up by its name. -/
theorem lookup_of_mem_namedParameters {leading : String} {values : List Value} {x : String × Value}
    (h : x ∈ namedParameters leading values) :
    (namedParameters leading values).lookup x.1 = some x.2 := by
  obtain ⟨i, hi, rfl⟩ := mem_namedParameters.mp h
  rw [lookup_namedParameters, List.getElem?_eq_getElem hi]

section Compiled

variable {s s' : Scope} {d d' : Dialect} {e e' : Expr} {p q : CompiledPredicate}

/-- The placeholders of a compiled expression, where they can be told in its text, are names of its
parameters. -/
theorem mem_names_of_placeholder {leading : String} (hs : s.AllNames IsIdentifier) (hd : d.Marks)
    (hleading : IsIdentifier leading) (h : s.compile d leading e = .ok p) {name : String}
    (hname : name ∈ d.placeholders p.text) : name ∈ p.parameters.map Prod.fst := by
  obtain ⟨c, values, hc, hsupplies, htext, hparameters⟩ := supplies_compile h
  rw [htext, placeholders_compile hs hd hleading hc] at hname
  rw [hparameters, names_namedParameters, List.range_eq_range']
  exact (hsupplies.numbered.map _).subset hname

/-- The names that two compiled predicates share are those that their parameters share by number. -/
theorem shared_names_iff {values values' : List Value}
    (hp : p.parameters = namedParameters a values) (hq : q.parameters = namedParameters b values') :
    (∃ name, name ∈ p.parameters.map Prod.fst ∧ name ∈ q.parameters.map Prod.fst) ↔
      ∃ i < p.parameters.length, ∃ k < q.parameters.length,
        parameterName a i = parameterName b k := by
  rw [hp, hq, names_namedParameters, names_namedParameters, length_namedParameters,
    length_namedParameters]
  constructor
  · rintro ⟨name, hname, hname'⟩
    obtain ⟨i, hi, rfl⟩ := List.mem_map.mp hname
    obtain ⟨k, hk, heq⟩ := List.mem_map.mp hname'
    exact ⟨i, List.mem_range.mp hi, k, List.mem_range.mp hk, heq.symm⟩
  · rintro ⟨i, hi, k, hk, heq⟩
    exact ⟨_, List.mem_map_of_mem (List.mem_range.mpr hi),
      heq ▸ List.mem_map_of_mem (List.mem_range.mpr hk)⟩

/-- **Which names two compiled predicates share, and what a command with both binds.** Predicates
with different prefixes share a name just if one of the prefixes runs into the other. Each parameter
of the first predicate is bound to its own value, and so is each of the second one whose name the
first has not; the others are bound to the values of the first. The placeholders of a text are
parameters, where they can be told. -/
theorem compile_prefixes (hab : a ≠ b) (hp : s.compile d a e = .ok p)
    (hq : s'.compile d' b e' = .ok q) :
    ((∃ name, name ∈ p.parameters.map Prod.fst ∧ name ∈ q.parameters.map Prod.fst) ↔
      RunsInto a b p.parameters.length q.parameters.length ∨
        RunsInto b a q.parameters.length p.parameters.length) ∧
    (∀ c : Command, c.parameters = [] → Command.Spares c.object a → Command.Spares c.object b →
      (∀ x ∈ p.parameters, ((c.withPredicate p).withPredicate q).Binds x.1 x.2) ∧
      ∀ x ∈ q.parameters, x.1 ∉ p.parameters.map Prod.fst →
        ((c.withPredicate p).withPredicate q).Binds x.1 x.2) ∧
    (s.AllNames IsIdentifier → d.Marks → IsIdentifier a →
      ∀ name ∈ d.placeholders p.text, name ∈ p.parameters.map Prod.fst) ∧
    (s'.AllNames IsIdentifier → d'.Marks → IsIdentifier b →
      ∀ name ∈ d'.placeholders q.text, name ∈ q.parameters.map Prod.fst) := by
  obtain ⟨-, values, -, -, hparameters⟩ := compile_cases hp
  obtain ⟨-, values', -, -, hparameters'⟩ := compile_cases hq
  refine ⟨(shared_names_iff hparameters hparameters').trans (shared_parameterName_iff hab), ?_,
    fun hs hd ha name hname => mem_names_of_placeholder hs hd ha hp hname,
    fun hs hd hb name hname => mem_names_of_placeholder hs hd hb hq hname⟩
  intro c hc ha hb
  have hobject : (c.withPredicate p).object = c.object := by rw [Command.withPredicate_eq]
  have hboth : ((c.withPredicate p).withPredicate q).parameters = p.parameters ++ q.parameters := by
    rw [withPredicate_parameters hparameters' (hobject ▸ hb), withPredicate_parameters hparameters ha,
      hc, List.nil_append]
  have hbinds : ∀ {name v}, ((p.parameters.lookup name).or (q.parameters.lookup name)) = some v →
      ((c.withPredicate p).withPredicate q).Binds name v := by
    intro name v h
    refine binds_of_lookup ?_
    rw [hboth, List.lookup_append, List.lookup_append, h, Option.some_or]
  refine ⟨fun x hx => hbinds ?_, fun x hx hnew => hbinds ?_⟩
  · rw [hparameters] at hx ⊢
    rw [lookup_of_mem_namedParameters hx, Option.some_or]
  · have hnone : p.parameters.lookup x.1 = none :=
      List.lookup_eq_none_iff.mpr fun y hy => by
        rw [bne_iff_ne]
        rintro hname
        exact hnew (List.mem_map.mpr ⟨y, hy, hname.symm⟩)
    rw [hparameters'] at hx ⊢
    rw [hnone, lookup_of_mem_namedParameters hx, Option.none_or]

end Compiled

namespace Library

/-- Authors of one of eleven numbers. -/
def listed : Expr :=
  .call .isIn (.member ["id"]) ([20, 21, 22, 23, 24, 25, 26, 27, 28, 29, 30].map (.constant ∘ .int))

/-- What they compile to without a prefix. -/
def listedPredicate : CompiledPredicate where
  text := "a.id IN (@p0, @p1, @p2, @p3, @p4, @p5, @p6, @p7, @p8, @p9, @p10)"
  parameters := [("p0", .int 20), ("p1", .int 21), ("p2", .int 22), ("p3", .int 23), ("p4", .int 24),
    ("p5", .int 25), ("p6", .int 26), ("p7", .int 27), ("p8", .int 28), ("p9", .int 29),
    ("p10", .int 30)]

/-- Authors but one. -/
def others : Expr := .compare .ne (.member ["id"]) (.constant (.int 5))

/-- What they compile to with the prefix `1`. -/
def othersPredicate : CompiledPredicate := ⟨"a.id <> @p10", [("p10", .int 5)]⟩

theorem compile_listed : authorScope.compile (.of .sqlite) "" listed = .ok listedPredicate :=
  ok_of_toOption (by decide +kernel)

theorem compile_others : authorScope.compile (.of .sqlite) "1" others = .ok othersPredicate :=
  ok_of_toOption (by decide +kernel)

/-- A command for the authors that has both predicates. -/
def both : Command :=
  ((Command.mk "authors" "" [] none).withPredicate listedPredicate).withPredicate othersPredicate

end Library

/-- The eleventh parameter without a prefix and the first one with the prefix `1` have one name. Of
the two values the first is bound. -/
theorem compile_prefixes_library :
    Library.authorScope.compile (.of .sqlite) "" Library.listed = .ok Library.listedPredicate ∧
      Library.authorScope.compile (.of .sqlite) "1" Library.others = .ok Library.othersPredicate ∧
      (∃ name, name ∈ Library.listedPredicate.parameters.map Prod.fst ∧
        name ∈ Library.othersPredicate.parameters.map Prod.fst) ∧
      Library.both.Binds "p10" (.int 30) ∧ Library.othersPredicate.parameters = [("p10", .int 5)] := by
  obtain ⟨hshared, hbinds, -, -⟩ :=
    compile_prefixes (by decide) Library.compile_listed Library.compile_others
  obtain ⟨hfirst, -⟩ := hbinds (.mk "authors" "" [] none) rfl
    (spares_of_isIdentifier (by decide) _) (spares_of_isIdentifier (by decide) _)
  refine ⟨Library.compile_listed, Library.compile_others, ?_, ?_, rfl⟩
  · exact hshared.mpr (.inl ⟨by decide, 1, by decide, by decide, by decide⟩)
  · exact hfirst ("p10", .int 30) (by decide)

/-- So prefixes that differ do not keep names apart, and a command of both predicates does not bind
the parameter of the second to its value. -/
theorem prefixes_not_apart :
    ¬ ∀ (a b : String) (e e' : Expr) (p q : CompiledPredicate), a ≠ b →
      Library.authorScope.compile (.of .sqlite) a e = .ok p →
      Library.authorScope.compile (.of .sqlite) b e' = .ok q →
        (∀ name ∈ p.parameters.map Prod.fst, name ∉ q.parameters.map Prod.fst) ∨
        ∀ x ∈ q.parameters,
          (((Command.mk "authors" "" [] none).withPredicate p).withPredicate q).Binds x.1 x.2 := by
  intro h
  rcases h "" "1" _ _ _ _ (by decide) Library.compile_listed Library.compile_others with h | h
  · exact h "p10" (by decide) (by decide)
  · have hbinds : Library.both.Binds "p10" (.int 5) := h ("p10", .int 5) (by decide)
    revert hbinds
    unfold Command.Binds
    decide +kernel

end EntityMapper
