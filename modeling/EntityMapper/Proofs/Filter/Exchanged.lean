import EntityMapper.Predicate.Qualifier
import EntityMapper.Proofs.Filter.Rerooted
import Mathlib.Data.List.Basic

/-!
# Predicates under another alias

A compiled predicate is taken to another alias of its table by exchanging qualifiers in its text.
In the text of a condition the qualifier of the root stands where a name begins, and what ends in it
goes on from the name before it, so exactly the columns of the root are exchanged. What comes out is
what the expression compiles to under the other alias.

* `exchange_plain`, `exchange_qualified` — what is exchanged in a text and in a qualified name
* `Exchanges` — what a piece of text becomes where no name runs into it
* `compile_replaceAlias` — exchanging the alias is compiling with the other one
-/

namespace EntityMapper

/-! ## Exchanging in a list of characters -/

section Characters

variable {old new : List Char} {before : Option Char}

/-- A list does not go on with a name. -/
def EndsName (rest : List Char) : Prop := ∀ c ∈ rest.head?, isNameChar c = false

/-- What is not in front of `old.` is kept. -/
theorem exchange_skip {c : Char} {r : List Char} (h : ¬ old ++ ['.'] <+: c :: r) :
    exchangeQualifier old new before (c :: r) = c :: exchangeQualifier old new (some c) r := by
  rw [exchangeQualifier, if_neg (by rwa [List.isPrefixOf_iff_prefix])]

/-- What is in front of `old.` is looked back at. -/
theorem exchange_match (r : List Char) :
    exchangeQualifier old new before (old ++ '.' :: r) =
      (if before.any isNameChar then old else new) ++
        '.' :: exchangeQualifier old new (some '.') r := by
  have hprefix : old ++ ['.'] <+: old ++ '.' :: r := ⟨r, by simp⟩
  cases old with
  | nil => rw [List.nil_append, exchangeQualifier, if_pos (by simp)]; rfl
  | cons c rest =>
    rw [List.cons_append, exchangeQualifier, if_pos (by rwa [List.isPrefixOf_iff_prefix])]
    simp

variable (hold : ∀ c ∈ old, isNameChar c = true ∧ c ≠ '.')

include hold in
/-- Before what does not go on with a name, a text without dots is kept. -/
theorem exchange_plain (new : List Char) (before : Option Char) {x rest : List Char}
    (hx : '.' ∉ x) (hrest : EndsName rest) :
    ∃ last, exchangeQualifier old new before (x ++ rest) =
      x ++ exchangeQualifier old new last rest := by
  induction x generalizing before with
  | nil => exact ⟨before, rfl⟩
  | cons c x ih =>
    have hskip : ¬ old ++ ['.'] <+: c :: (x ++ rest) := by
      rintro ⟨t, ht⟩
      have hdot : '.' ∈ old ++ ['.'] := by simp
      rcases List.append_eq_append_iff.mp (ht.trans (List.cons_append ..).symm) with
        ⟨more, hmore, -⟩ | ⟨more, hmore, hrest'⟩
      · exact hx (hmore ▸ List.mem_append_left _ hdot)
      · cases more with
        | nil => exact hx (by rwa [hmore, List.append_nil] at hdot)
        | cons m more =>
          -- the qualifier would go on behind the text
          have hname : isNameChar m = true := by
            have hm : m ∈ old ++ ['.'] := hmore ▸ List.mem_append_right _ List.mem_cons_self
            rcases List.mem_append.mp hm with hm | hm
            · exact (hold m hm).1
            · obtain rfl := List.mem_singleton.mp hm
              decide
          rw [hrest m (by rw [hrest']; rfl)] at hname
          exact nomatch hname
    obtain ⟨last, hlast⟩ := ih (some c) fun h => hx (List.mem_cons_of_mem _ h)
    exact ⟨last, by rw [List.cons_append, exchange_skip hskip, hlast, List.cons_append]⟩

include hold in
/-- A text without dots that ends outside a name is kept, whatever follows. -/
theorem exchange_opening {x : List Char} (hx : '.' ∉ x) {c : Char} (hc : isNameChar c = false)
    (hcx : x.getLast? = some c) (rest : List Char) :
    exchangeQualifier old new before (x ++ rest) =
      x ++ exchangeQualifier old new (some c) rest := by
  obtain ⟨y, rfl⟩ := List.getLast?_eq_some_iff.mp hcx
  have hskip : ¬ old ++ ['.'] <+: c :: rest := by
    rintro ⟨t, ht⟩
    have hfirst : ∃ d r, old ++ ['.'] = d :: r ∧ isNameChar d = true := by
      cases old with
      | nil => exact ⟨'.', [], rfl, by decide⟩
      | cons d r => exact ⟨d, r ++ ['.'], rfl, (hold d List.mem_cons_self).1⟩
    obtain ⟨d, r, hd, hname⟩ := hfirst
    rw [hd, List.cons_append] at ht
    obtain rfl := (List.cons.inj ht).1
    rw [hc] at hname
    exact nomatch hname
  have hrest : EndsName (c :: rest) := fun d hd => Option.some.inj hd ▸ hc
  obtain ⟨last, hlast⟩ := exchange_plain hold new before
    (fun h => hx (List.mem_append_left _ h)) hrest
  rw [List.append_assoc, List.singleton_append, hlast, exchange_skip hskip, List.append_assoc,
    List.singleton_append]

include hold in
/-- Another qualifier is not taken for the old one. -/
theorem not_prefix_of_ne {w : List Char} (hw : '.' ∉ w) (hne : w ≠ old) (r : List Char) :
    ¬ old ++ ['.'] <+: w ++ '.' :: r := by
  rintro ⟨t, ht⟩
  rw [List.append_assoc, List.singleton_append] at ht
  rcases List.append_eq_append_iff.mp ht with ⟨more, rfl, hmore⟩ | ⟨more, rfl, hmore⟩
  · cases more with
    | nil => exact hne (List.append_nil _)
    | cons d more =>
      obtain rfl := (List.cons.inj hmore).1
      exact hw (List.mem_append_right _ List.mem_cons_self)
  · cases more with
    | nil => exact hne (List.append_nil _).symm
    | cons d more =>
      obtain rfl := (List.cons.inj hmore).1
      exact (hold '.' (List.mem_append_right _ List.mem_cons_self)).2 rfl

include hold in
/-- **A qualifier is kept if it is another one, or goes on with a name.** -/
theorem exchange_kept (new : List Char) (before : Option Char) {w : List Char}
    (hw : ∀ c ∈ w, isNameChar c = true ∧ c ≠ '.')
    (h : w ≠ old ∨ before.any isNameChar = true) (r : List Char) :
    exchangeQualifier old new before (w ++ '.' :: r) =
      w ++ '.' :: exchangeQualifier old new (some '.') r := by
  have hdot : '.' ∉ w := fun h => (hw _ h).2 rfl
  induction w generalizing before with
  | nil =>
    by_cases heq : [] = old
    · subst heq
      have hmatch : exchangeQualifier [] new before ([] ++ '.' :: r) = _ := exchange_match r
      rw [hmatch, if_pos (h.resolve_left (absurd rfl))]
    · exact exchange_skip (not_prefix_of_ne hold hdot heq r)
  | cons c w ih =>
    by_cases heq : c :: w = old
    · subst heq
      rw [exchange_match, if_pos (h.resolve_left (absurd rfl))]
    · have hskip : exchangeQualifier old new before (c :: (w ++ '.' :: r)) = _ :=
        exchange_skip (not_prefix_of_ne hold hdot heq r)
      have hrest := ih (some c) (fun d hd => hw d (List.mem_cons_of_mem _ hd))
        (.inr (hw c List.mem_cons_self).1) fun hd => hdot (List.mem_cons_of_mem _ hd)
      rw [List.cons_append, hskip, hrest, List.cons_append]

end Characters

/-! ## Exchanging in texts -/

/-- What a piece of text becomes where no name goes on before it or behind it. -/
def Exchanges (old new x y : String) : Prop :=
  ∀ (before : Option Char) (rest : List Char), before.any isNameChar = false → EndsName rest →
    ∃ last, exchangeQualifier old.toList new.toList before (x.toList ++ rest) =
      y.toList ++ exchangeQualifier old.toList new.toList last rest

/-- A text has no dots. -/
def IsDotless (s : String) : Prop := '.' ∉ s.toList

instance (s : String) : Decidable (IsDotless s) := inferInstanceAs (Decidable (¬ _))

/-- A text without dots that ends outside a name. -/
def Opens (s : String) : Prop :=
  IsDotless s ∧ s.toList.getLast?.any (fun c => !isNameChar c) = true

instance (s : String) : Decidable (Opens s) := inferInstanceAs (Decidable (_ ∧ _))

/-- A text without dots that begins outside a name. -/
def Closes (s : String) : Prop :=
  IsDotless s ∧ s.toList.head?.any (fun c => !isNameChar c) = true

instance (s : String) : Decidable (Closes s) := inferInstanceAs (Decidable (_ ∧ _))

@[simp] theorem isDotless_append {s r : String} :
    IsDotless (s ++ r) ↔ IsDotless s ∧ IsDotless r := by
  simp [IsDotless]

theorem IsDotless.intercalate {separator : String} (hseparator : IsDotless separator)
    {texts : List String} (h : ∀ s ∈ texts, IsDotless s) :
    IsDotless (separator.intercalate texts) := by
  match texts with
  | [] => exact List.not_mem_nil
  | [s] =>
    rw [String.intercalate_singleton]
    exact h s List.mem_cons_self
  | s :: r :: rest =>
    rw [String.intercalate_cons_cons, isDotless_append, isDotless_append]
    exact ⟨⟨h s List.mem_cons_self, hseparator⟩,
      intercalate hseparator fun u hu => h u (List.mem_cons_of_mem _ hu)⟩

theorem Closes.append {s r : String} (hs : Closes s) (hr : IsDotless r) : Closes (s ++ r) := by
  obtain ⟨hdot, hfirst⟩ := hs
  refine ⟨isDotless_append.mpr ⟨hdot, hr⟩, ?_⟩
  rw [String.toList_append, List.head?_append]
  cases h : s.toList.head? with
  | none => simp [h] at hfirst
  | some c => simpa [h] using hfirst

theorem Closes.endsName {s : String} (h : Closes s) (rest : List Char) :
    EndsName (s.toList ++ rest) := by
  obtain ⟨-, hfirst⟩ := h
  intro c hc
  cases hs : s.toList with
  | nil =>
    rw [hs] at hfirst
    exact nomatch hfirst
  | cons b r =>
    rw [hs] at hfirst hc
    obtain rfl : b = c := Option.some.inj hc
    simpa using hfirst

/-- The characters of an identifier. -/
theorem IsIdentifier.isNameChar {s : String} (h : IsIdentifier s) :
    ∀ c ∈ s.toList, isNameChar c = true ∧ c ≠ '.' := by
  intro c hc
  have hparameter : isParameterChar c = true := List.all_eq_true.mp h c hc
  refine ⟨?_, ?_⟩
  · unfold EntityMapper.isNameChar
    unfold isParameterChar at hparameter
    rw [hparameter, Bool.true_or]
  · rintro rfl
    exact absurd hparameter (by decide)

theorem IsIdentifier.dotless {s : String} (h : IsIdentifier s) : IsDotless s :=
  fun hdot => (h.isNameChar _ hdot).2 rfl

namespace Exchanges

variable {old new x x' y y' : String}

/-- A text without dots is kept. -/
theorem dotless (hold : IsIdentifier old) (hx : IsDotless x) : Exchanges old new x x :=
  fun before _ _ hrest => exchange_plain hold.isNameChar new.toList before hx hrest

/-- A column is exchanged if it has the old qualifier. -/
theorem column (hold : IsIdentifier old) {name : String} (hname : IsIdentifier name) :
    Exchanges old new (old ++ "." ++ name) (new ++ "." ++ name) := by
  intro before rest hbefore hrest
  obtain ⟨last, hlast⟩ := exchange_plain hold.isNameChar new.toList (some '.') hname.dotless hrest
  have hmatch : exchangeQualifier old.toList new.toList before
      (old.toList ++ '.' :: (name.toList ++ rest)) = _ := exchange_match _
  rw [hbefore, if_neg Bool.false_ne_true, hlast] at hmatch
  exact ⟨last, by simpa using hmatch⟩

/-- A column of another qualifier is kept. -/
theorem otherColumn (hold : IsIdentifier old) {qualifier name : String}
    (hqualifier : IsIdentifier qualifier) (hne : qualifier ≠ old) (hname : IsIdentifier name) :
    Exchanges old new (qualifier ++ "." ++ name) (qualifier ++ "." ++ name) := by
  intro before rest hbefore hrest
  obtain ⟨last, hlast⟩ := exchange_plain hold.isNameChar new.toList (some '.') hname.dotless hrest
  have hkept := exchange_kept hold.isNameChar new.toList before hqualifier.isNameChar 
    (.inl fun h => hne (String.toList_inj.mp h)) (name.toList ++ rest)
  rw [hlast] at hkept
  exact ⟨last, by simpa using hkept⟩

/-- Behind what ends outside a name a text is exchanged, whatever is before both. -/
theorem opened (hold : IsIdentifier old) {opening : String} (hopening : Opens opening)
    (h : Exchanges old new x y) (before : Option Char) {rest : List Char} (hrest : EndsName rest) :
    ∃ last, exchangeQualifier old.toList new.toList before ((opening ++ x).toList ++ rest) =
      (opening ++ y).toList ++ exchangeQualifier old.toList new.toList last rest := by
  obtain ⟨hdot, hlast⟩ := hopening
  cases hc : opening.toList.getLast? with
  | none => simp [hc] at hlast
  | some c =>
    have hc' : isNameChar c = false := by simpa [hc] using hlast
    obtain ⟨last, hx⟩ := h (some c) rest hc' hrest
    refine ⟨last, ?_⟩
    rw [String.toList_append, List.append_assoc,
      exchange_opening hold.isNameChar hdot hc' hc, hx, String.toList_append, List.append_assoc]

/-- A text behind one that ends outside a name. -/
theorem behind (hold : IsIdentifier old) {opening : String} (hopening : Opens opening)
    (h : Exchanges old new x y) : Exchanges old new (opening ++ x) (opening ++ y) :=
  fun before _ _ hrest => h.opened hold hopening before hrest

/-- A text in front of one that begins outside a name. -/
theorem before (hold : IsIdentifier old) (h : Exchanges old new x y) {closing : String}
    (hclosing : Closes closing) : Exchanges old new (x ++ closing) (y ++ closing) := by
  intro before rest hbefore hrest
  obtain ⟨mid, hx⟩ := h before _ hbefore (hclosing.endsName rest)
  obtain ⟨last, hlast⟩ := exchange_plain hold.isNameChar new.toList mid hclosing.1 hrest
  refine ⟨last, ?_⟩
  rw [String.toList_append, List.append_assoc, hx, hlast, String.toList_append, List.append_assoc]

/-- Two texts around one that is outside names at both ends. -/
theorem between (hold : IsIdentifier old) (h : Exchanges old new x y) {operator : String}
    (hopens : Opens operator) (hcloses : Closes operator) (h' : Exchanges old new x' y') :
    Exchanges old new (x ++ operator ++ x') (y ++ operator ++ y') := by
  intro before rest hbefore hrest
  have hends : EndsName ((operator ++ x').toList ++ rest) := by
    rw [String.toList_append, List.append_assoc]
    exact hcloses.endsName _
  obtain ⟨mid, hx⟩ := h before _ hbefore hends
  obtain ⟨last, hlast⟩ := h'.opened hold hopens mid hrest
  refine ⟨last, ?_⟩
  rw [String.append_assoc, String.toList_append, List.append_assoc, hx, hlast, String.append_assoc,
    ← List.append_assoc, ← String.toList_append]

/-- Two texts in parentheses. -/
theorem enclosed (hold : IsIdentifier old) (h : Exchanges old new x y) {operator : String}
    (hopens : Opens operator) (hcloses : Closes operator) (h' : Exchanges old new x' y') :
    Exchanges old new ("(" ++ x ++ operator ++ x' ++ ")") ("(" ++ y ++ operator ++ y' ++ ")") := by
  have hboth := ((h.between hold hopens hcloses h').behind hold
    (show Opens "(" by decide)).before hold (show Closes ")" by decide)
  simpa only [String.append_assoc] using hboth

/-- A text in the parentheses of a call. -/
theorem called (hold : IsIdentifier old) (h : Exchanges old new x y) {opening : String}
    (hopening : Opens opening) : Exchanges old new (opening ++ x ++ ")") (opening ++ y ++ ")") :=
  (h.behind hold hopening).before hold (by decide)

/-- The whole of a text. -/
theorem replaceQualifier_eq (h : Exchanges old new x y) : replaceQualifier x old new = y := by
  obtain ⟨last, hlast⟩ := h none [] rfl fun c hc => nomatch hc
  rw [List.append_nil, exchangeQualifier, List.append_nil] at hlast
  rw [replaceQualifier, hlast, String.ofList_toList]

end Exchanges

/-! ## Conditions -/

theorem compareOp_parts (op : CompareOp) :
    Opens (" " ++ op.sql ++ " ") ∧ Closes (" " ++ op.sql ++ " ") := by
  cases op <;> decide

theorem arithmeticOp_parts (op : ArithmeticOp) :
    Opens (" " ++ op.sql ++ " ") ∧ Closes (" " ++ op.sql ++ " ") := by
  cases op <;> decide

/-- **What exchanging makes of a condition**: if it makes the paired columns of the columns, it
makes the paired condition of the whole. -/
theorem Condition.Paired.exchanges {pair : List String → Condition → Condition → Prop}
    {paths : List (List String)} {c c' : Condition} {placeholder : Nat → String} {old new : String}
    (h : Condition.Paired pair paths c c') (hold : IsIdentifier old)
    (hplaceholder : ∀ i, IsDotless (placeholder i))
    (hpair : ∀ path ∈ paths, ∀ c c', pair path c c' →
      Exchanges old new (c.text placeholder) (c'.text placeholder)) :
    Exchanges old new (c.text placeholder) (c'.text placeholder) := by
  induction h with
  | null => exact .dotless hold (show IsDotless "null" by decide)
  | never => exact .dotless hold (show IsDotless "1 = 0" by decide)
  | parameter i => exact .dotless hold (hplaceholder i)
  | column h => exact hpair _ List.mem_cons_self _ _ h
  | compare op _ _ ihl ihr =>
    obtain ⟨hl, hr⟩ := List.forall_mem_append.mp hpair
    obtain ⟨hopens, hcloses⟩ := compareOp_parts op
    have hboth := (ihl hl).between hold hopens hcloses (ihr hr)
    simpa only [text, String.append_assoc] using hboth
  | arithmetic op _ _ ihl ihr =>
    obtain ⟨hl, hr⟩ := List.forall_mem_append.mp hpair
    obtain ⟨hopens, hcloses⟩ := arithmeticOp_parts op
    have hboth := (ihl hl).enclosed hold hopens hcloses (ihr hr)
    simpa only [text, String.append_assoc] using hboth
  | and _ _ ihl ihr =>
    obtain ⟨hl, hr⟩ := List.forall_mem_append.mp hpair
    exact (ihl hl).enclosed hold (by decide) (by decide) (ihr hr)
  | or _ _ ihl ihr =>
    obtain ⟨hl, hr⟩ := List.forall_mem_append.mp hpair
    exact (ihl hl).enclosed hold (by decide) (by decide) (ihr hr)
  | isNull _ ih => exact (ih hpair).before hold (by decide)
  | isNotNull _ ih => exact (ih hpair).before hold (by decide)
  | not _ ih => exact (ih hpair).called hold (by decide)
  | lower _ ih => exact (ih hpair).called hold (by decide)
  | upper _ ih => exact (ih hpair).called hold (by decide)
  | like pattern _ ih =>
    have hcloses : Closes (" LIKE " ++ placeholder pattern) :=
      Closes.append (by decide) (hplaceholder pattern)
    have hlike := (ih hpair).before hold hcloses
    simpa only [text, String.append_assoc] using hlike
  | isIn items _ ih =>
    have hitems : IsDotless (", ".intercalate (items.map placeholder)) := by
      refine IsDotless.intercalate (by decide) fun s hs => ?_
      obtain ⟨i, -, rfl⟩ := List.mem_map.mp hs
      exact hplaceholder i
    have hcloses : Closes (" IN (" ++ ", ".intercalate (items.map placeholder) ++ ")") :=
      (Closes.append (by decide) hitems).append (by decide)
    have hin := (ih hpair).before hold hcloses
    simpa only [text, String.append_assoc] using hin

/-! ## Predicates -/

variable {c : Catalog} {t : Table} {a b leading : String} {e : Expr} {p : CompiledPredicate}

/-- A path has its column under each alias of the root. -/
theorem resolves_alias (c : Catalog) (t : Table) (a b : String) :
    Scope.Resolves ⟨c, t, some a⟩ ⟨c, t, some b⟩ [] := by
  intro path
  rw [List.nil_append]
  rcases List.eq_nil_or_concat' path with rfl | ⟨q, name, rfl⟩
  · exact ⟨fun ⟨_, h⟩ => (nomatch h), fun ⟨_, h⟩ => (nomatch h)⟩
  · constructor
    · rintro ⟨_, h⟩
      obtain ⟨u, hfollow, hcolumn, -⟩ := (column_concat_iff rfl).mp h
      exact ⟨_, (column_concat_iff rfl).mpr ⟨u, hfollow, hcolumn, rfl⟩⟩
    · rintro ⟨_, h⟩
      obtain ⟨u, hfollow, hcolumn, -⟩ := (column_concat_iff rfl).mp h
      exact ⟨_, (column_concat_iff rfl).mpr ⟨u, hfollow, hcolumn, rfl⟩⟩

/-- The columns of a path under two aliases: that of the root is exchanged, that of another table is
not. -/
theorem exchanges_counterparts (hs : Scope.AllNames IsIdentifier ⟨c, t, some a⟩)
    {path : List String} (hchain : 1 < path.length → a ≠ "_".intercalate path.dropLast)
    {placeholder : Nat → String} {x x' : Condition}
    (h : Scope.Counterparts ⟨c, t, some a⟩ ⟨c, t, some b⟩ [] path x x') :
    Exchanges a b (x.text placeholder) (x'.text placeholder) := by
  obtain ⟨hx, hx'⟩ := h
  rw [List.nil_append] at hx'
  rcases List.eq_nil_or_concat' path with rfl | ⟨q, name, rfl⟩
  · exact nomatch hx
  · obtain ⟨-, -, -, rfl⟩ := (column_concat_iff rfl).mp hx
    obtain ⟨-, -, -, rfl⟩ := (column_concat_iff rfl).mp hx'
    have hold : IsIdentifier a := hs.rootAlias a rfl
    obtain ⟨hqualifier, hname⟩ := hs.column
      (fun _ h => IsIdentifier.intercalate (by decide) h) hx
    cases q with
    | nil => exact .column hold hname
    | cons first rest =>
      have hne : "_".intercalate (first :: rest) ≠ a := by
        rw [List.dropLast_concat] at hchain
        exact (hchain (by simp)).symm
      exact .otherColumn hold (hqualifier _ rfl) hne hname

/-- The placeholders of a dialect have no dots. -/
theorem isDotless_placeholder (database : Database) (hleading : IsIdentifier leading) (i : Nat) :
    IsDotless ((Dialect.of database).placeholder (parameterName leading i)) := by
  have hname := (isIdentifier_parameterName hleading i).dotless
  unfold IsDotless at hname ⊢
  rw [toList_placeholder]
  refine List.not_mem_cons_of_ne_of_not_mem ?_ hname
  cases database <;> decide

/-- **Exchanging the alias of a compiled predicate is compiling with the other alias**, where names
are identifiers and no chain of the expression goes by the name of the alias. -/
theorem compile_replaceAlias (hs : Scope.AllNames IsIdentifier ⟨c, t, some a⟩)
    (hleading : IsIdentifier leading)
    (hchains : ∀ path ∈ e.paths, 1 < path.length → a ≠ "_".intercalate path.dropLast)
    {database : Database}
    (h : Scope.compile ⟨c, t, some a⟩ (.of database) leading e = .ok p) :
    Scope.compile ⟨c, t, some b⟩ (.of database) leading e = .ok (p.replaceAlias a b) := by
  have hpaired := compile_paired (resolves_alias c t a b) (.of database) leading e
  rw [under_nil] at hpaired
  rcases hpaired with
    ⟨err, -, herr, -⟩ | ⟨q, q', hq, hq', hparameters, x, x', hpaired, htext, htext'⟩
  · exact nomatch herr.symm.trans h
  · obtain rfl := Except.ok.inj (hq.symm.trans h)
    have hexchanges := hpaired.exchanges (hs.rootAlias a rfl)
      (isDotless_placeholder database hleading) fun path hpath _ _ hpair =>
        exchanges_counterparts (b := b) hs (hchains path (shown_subset_paths e hpath)) hpair
    rw [← htext, ← htext'] at hexchanges
    rw [hq', CompiledPredicate.replaceAlias, hexchanges.replaceQualifier_eq, hparameters]

/-- An alias at the end of another one: only the column of the root is exchanged. -/
theorem compile_replaceAlias_library :
    ∃ p, Scope.compile ⟨Library.catalog, Library.author, some "s"⟩ (.of .sqlite) "x"
        Library.wanted = .ok p ∧
      p.text = "(s.id IN (@px0, @px1) OR (1 = 0 AND books.title < @px3))" ∧
      (p.replaceAlias "s" "w").text = "(w.id IN (@px0, @px1) OR (1 = 0 AND books.title < @px3))" ∧
      Scope.compile ⟨Library.catalog, Library.author, some "w"⟩ (.of .sqlite) "x"
        Library.wanted = .ok (p.replaceAlias "s" "w") := by
  have hs : (Scope.compile ⟨Library.catalog, Library.author, some "s"⟩ (.of .sqlite) "x"
      Library.wanted).toOption.map CompiledPredicate.text =
        some "(s.id IN (@px0, @px1) OR (1 = 0 AND books.title < @px3))" := by
    decide +kernel
  have hw : (Scope.compile ⟨Library.catalog, Library.author, some "w"⟩ (.of .sqlite) "x"
      Library.wanted).toOption.map CompiledPredicate.text =
        some "(w.id IN (@px0, @px1) OR (1 = 0 AND books.title < @px3))" := by
    decide +kernel
  obtain ⟨p, hp, htext⟩ := Option.map_eq_some_iff.mp hs
  have hnames : Scope.AllNames IsIdentifier ⟨Library.catalog, Library.author, some "s"⟩ :=
    Scope.allNames_of_tables (by decide +kernel) fun a ha => by
      obtain rfl := Option.some.inj ha
      decide
  have hb : Scope.compile ⟨Library.catalog, Library.author, some "w"⟩ (.of .sqlite) "x"
      Library.wanted = .ok (p.replaceAlias "s" "w") :=
    compile_replaceAlias hnames (by decide) (by decide +kernel) (ok_of_toOption hp)
  rw [hb] at hw
  exact ⟨p, ok_of_toOption hp, htext, Option.some.inj hw, hb⟩

end EntityMapper
