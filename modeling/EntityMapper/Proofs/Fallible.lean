import Mathlib.Data.List.Forall2
import Mathlib.Data.List.Perm.Basic

/-!
# Computations that may fail

What is known of a computation that did not fail: each of its parts did not, and its result is put
together from theirs. Maps and folds over lists have one statement for the whole, from which the
others follow: a map gives what each item gives, in order, and a fold keeps what each step keeps.

* `mapM_eq_ok_iff` — a map over a list, item by item
* `mapM_cases` — a map succeeds, or fails where the first item does
* `exists_perm_of_mapM` — a list in another order gives the same in that order
* `foldlM_preserves` — an invariant of each step is one of the fold
-/

namespace EntityMapper

section Results

variable {ε ε' α β : Type} {x : Except ε α} {a : α} {b : β}

/-! ## Single results -/

theorem exists_of_bind_eq_ok {f : α → Except ε β} (h : x >>= f = .ok b) :
    ∃ a, x = .ok a ∧ f a = .ok b := by
  cases x with
  | error e => exact nomatch h
  | ok a => exact ⟨a, rfl, h⟩

theorem map_eq_ok {f : α → β} : x.map f = .ok b ↔ ∃ a, x = .ok a ∧ f a = b := by
  cases x with
  | error e => exact ⟨nofun, nofun⟩
  | ok a =>
    refine ⟨fun h => ⟨a, rfl, Except.ok.inj h⟩, ?_⟩
    rintro ⟨a', ha, rfl⟩
    obtain rfl := Except.ok.inj ha
    rfl

theorem exists_map_eq_ok {f : α → β} : (∃ b, x.map f = .ok b) ↔ ∃ a, x = .ok a := by
  constructor
  · rintro ⟨b, h⟩
    obtain ⟨a, ha, -⟩ := map_eq_ok.mp h
    exact ⟨a, ha⟩
  · rintro ⟨a, ha⟩
    exact ⟨f a, map_eq_ok.mpr ⟨a, ha, rfl⟩⟩

theorem mapError_eq_ok {f : ε → ε'} (h : x.mapError f = .ok a) : x = .ok a := by
  cases x with
  | error err => exact nomatch h
  | ok b => exact congrArg Except.ok (Except.ok.inj h)

theorem ite_eq_ok {e : ε} {a b : α} (c : Bool) :
    (if c then .error e else .ok b : Except ε α) = .ok a ↔ c = false ∧ a = b := by
  cases c with
  | true => simp
  | false => simp [eq_comm]

theorem exists_of_isOk (h : x.isOk = true) : ∃ a, x = .ok a := by
  cases x with
  | error e => exact nomatch h
  | ok a => exact ⟨a, rfl⟩

theorem ok_of_toOption (h : x.toOption = some a) : x = .ok a := by
  cases x with
  | error e => exact nomatch h
  | ok b => exact congrArg Except.ok (Option.some.inj h)

end Results

/-! ## Maps -/

/-- What stands in a list has something beside it in the other. -/
theorem exists_of_forall₂_mem {α β : Type} {R : α → β → Prop} {l : List α} {m : List β}
    (h : List.Forall₂ R l m) {y : β} (hy : y ∈ m) : ∃ x ∈ l, R x y := by
  induction h with
  | nil => exact absurd hy List.not_mem_nil
  | @cons x z l m hxz _ ih =>
    rcases List.mem_cons.mp hy with rfl | hy
    · exact ⟨x, List.mem_cons_self, hxz⟩
    · obtain ⟨w, hw, hwy⟩ := ih hy
      exact ⟨w, List.mem_cons_of_mem _ hw, hwy⟩

section Maps

variable {ε α β : Type} {f : α → Except ε β} {l : List α} {r : List β}

theorem mapM_cons_eq_ok {a : α} :
    (a :: l).mapM f = .ok r ↔ ∃ b bs, f a = .ok b ∧ l.mapM f = .ok bs ∧ r = b :: bs := by
  rw [List.mapM_cons]
  constructor
  · intro h
    obtain ⟨b, hb, h⟩ := exists_of_bind_eq_ok h
    obtain ⟨bs, hbs, h⟩ := exists_of_bind_eq_ok h
    exact ⟨b, bs, hb, hbs, (Except.ok.inj h).symm⟩
  · rintro ⟨b, bs, hb, hbs, rfl⟩
    rw [hb, hbs]
    rfl

/-- **A map gives what each item gives**, in order. -/
theorem mapM_eq_ok_iff : l.mapM f = .ok r ↔ List.Forall₂ (fun x y => f x = .ok y) l r := by
  induction l generalizing r with
  | nil =>
    rw [List.forall₂_nil_left_iff, List.mapM_nil]
    exact ⟨fun h => (Except.ok.inj h).symm, fun h => congrArg Except.ok h.symm⟩
  | cons a l ih =>
    rw [mapM_cons_eq_ok, List.forall₂_cons_left_iff]
    constructor
    · rintro ⟨b, bs, hb, hbs, rfl⟩
      exact ⟨b, bs, hb, ih.mp hbs, rfl⟩
    · rintro ⟨b, bs, hb, hbs, rfl⟩
      exact ⟨b, bs, hb, ih.mpr hbs, rfl⟩

theorem mapM_eq_ok_map {g : α → β} (h : ∀ x ∈ l, f x = .ok (g x)) : l.mapM f = .ok (l.map g) :=
  mapM_eq_ok_iff.mpr (List.forall₂_map_right_iff.mpr (List.forall₂_same.mpr h))

/-- What a map gives is given by an item. -/
theorem exists_of_mem_mapM (h : l.mapM f = .ok r) {b : β} (hb : b ∈ r) :
    ∃ a ∈ l, f a = .ok b :=
  exists_of_forall₂_mem (mapM_eq_ok_iff.mp h) hb

/-- **A map succeeds, or it fails where the first item does.** -/
theorem mapM_cases (f : α → Except ε β) (l : List α) :
    (∃ r, l.mapM f = .ok r ∧ ∀ a ∈ l, ∃ b, f a = .ok b) ∨
      ∃ (i : Nat) (a : α) (e : ε), l[i]? = some a ∧ f a = .error e ∧ l.mapM f = .error e ∧
        ∀ k < i, ∀ b, l[k]? = some b → ∃ y, f b = .ok y := by
  induction l with
  | nil => exact .inl ⟨[], rfl, List.forall_mem_nil _⟩
  | cons x rest ih =>
    rw [List.mapM_cons]
    cases hx : f x with
    | error e => exact .inr ⟨0, x, e, rfl, hx, rfl, fun k hk => absurd hk (Nat.not_lt_zero k)⟩
    | ok y =>
      rcases ih with ⟨r, hr, hall⟩ | ⟨i, a, e, ha, he, hr, hbefore⟩
      · rw [hr]
        exact .inl ⟨y :: r, rfl, List.forall_mem_cons.mpr ⟨⟨y, hx⟩, hall⟩⟩
      · rw [hr]
        refine .inr ⟨i + 1, a, e, ha, he, rfl, fun k hk b hb => ?_⟩
        cases k with
        | zero =>
          obtain rfl := Option.some.inj hb
          exact ⟨y, hx⟩
        | succ k => exact hbefore k (Nat.lt_of_succ_lt_succ hk) b hb

/-- A map succeeds if it does on each item. -/
theorem mapM_isOk_iff : (∃ r, l.mapM f = .ok r) ↔ ∀ a ∈ l, ∃ b, f a = .ok b := by
  rcases mapM_cases f l with ⟨r, hr, hall⟩ | ⟨i, a, e, ha, he, hr, -⟩
  · exact ⟨fun _ => hall, fun _ => ⟨r, hr⟩⟩
  · refine ⟨fun ⟨r, hok⟩ => ?_, fun hall => ?_⟩
    · rw [hr] at hok
      exact nomatch hok
    · obtain ⟨b, hb⟩ := hall a (List.mem_of_getElem? ha)
      rw [he] at hb
      exact nomatch hb

/-- A list in another order gives the same in that order. -/
theorem exists_perm_of_mapM {l' : List α} (h : l.Perm l') (hr : l.mapM f = .ok r) :
    ∃ r', l'.mapM f = .ok r' ∧ r.Perm r' := by
  induction h generalizing r with
  | nil => exact ⟨r, hr, .refl r⟩
  | cons a _ ih =>
    obtain ⟨b, bs, hb, hbs, rfl⟩ := mapM_cons_eq_ok.mp hr
    obtain ⟨bs', hbs', hperm⟩ := ih hbs
    exact ⟨b :: bs', mapM_cons_eq_ok.mpr ⟨b, bs', hb, hbs', rfl⟩, hperm.cons b⟩
  | swap a a' l =>
    obtain ⟨b', r, hb', hrest, rfl⟩ := mapM_cons_eq_ok.mp hr
    obtain ⟨b, bs, hb, hbs, rfl⟩ := mapM_cons_eq_ok.mp hrest
    have hcons := mapM_cons_eq_ok.mpr ⟨b', bs, hb', hbs, rfl⟩
    exact ⟨b :: b' :: bs, mapM_cons_eq_ok.mpr ⟨b, b' :: bs, hb, hcons, rfl⟩, .swap b b' bs⟩
  | trans _ _ ih ih' =>
    obtain ⟨r₁, hr₁, hperm⟩ := ih hr
    obtain ⟨r₂, hr₂, hperm'⟩ := ih' hr₁
    exact ⟨r₂, hr₂, hperm.trans hperm'⟩

/-! ### Maps that may give nothing -/

/-- What is kept of a map of which no failure is told. -/
theorem toOption_mapM (f : α → Except ε β) (l : List α) :
    (l.mapM f).toOption = l.mapM fun x => (f x).toOption := by
  induction l with
  | nil => rfl
  | cons x rest ih =>
    rw [List.mapM_cons, List.mapM_cons, ← ih]
    cases f x with
    | error e => rfl
    | ok y =>
      cases rest.mapM f with
      | error e => rfl
      | ok ys => rfl

theorem mapM_eq_some_iff {f : α → Option β} :
    l.mapM f = some r ↔ List.Forall₂ (fun x y => f x = some y) l r := by
  induction l generalizing r with
  | nil =>
    rw [List.forall₂_nil_left_iff, List.mapM_nil]
    exact ⟨fun h => (Option.some.inj h).symm, fun h => congrArg some h.symm⟩
  | cons a l ih =>
    rw [List.forall₂_cons_left_iff, List.mapM_cons]
    constructor
    · intro h
      obtain ⟨b, hb, h⟩ := Option.bind_eq_some_iff.mp h
      obtain ⟨bs, hbs, h⟩ := Option.bind_eq_some_iff.mp h
      exact ⟨b, bs, hb, ih.mp hbs, (Option.some.inj h).symm⟩
    · rintro ⟨b, bs, hb, hbs, rfl⟩
      rw [hb, ih.mpr hbs]
      rfl

theorem mapM_eq_some_map {f : α → Option β} {g : α → β} (h : ∀ x ∈ l, f x = some (g x)) :
    l.mapM f = some (l.map g) :=
  mapM_eq_some_iff.mpr (List.forall₂_map_right_iff.mpr (List.forall₂_same.mpr h))

/-- Maps that agree on each item agree. -/
theorem mapM_congr {f g : α → Option β} (h : ∀ x ∈ l, f x = g x) : l.mapM f = l.mapM g := by
  induction l with
  | nil => rfl
  | cons x l ih =>
    rw [List.mapM_cons, List.mapM_cons, h x List.mem_cons_self,
      ih fun y hy => h y (List.mem_cons_of_mem _ hy)]

theorem mapM_map {γ : Type} (f : α → β) (g : β → Option γ) (l : List α) :
    (l.map f).mapM g = l.mapM fun x => g (f x) := by
  induction l with
  | nil => rfl
  | cons x rest ih => rw [List.map_cons, List.mapM_cons, List.mapM_cons, ih]

end Maps

/-! ## Folds -/

section Folds

variable {ε ε' α β : Type}

/-- **What each step of a fold preserves, the whole fold preserves.** -/
theorem foldlM_preserves {f : β → α → Except ε β} {I : β → Prop}
    (hstep : ∀ b a b', I b → f b a = .ok b' → I b') {l : List α} {b b' : β} (hb : I b)
    (h : l.foldlM f b = .ok b') : I b' := by
  induction l generalizing b with
  | nil =>
    obtain rfl : b = b' := Except.ok.inj h
    exact hb
  | cons a rest ih =>
    rw [List.foldlM_cons] at h
    obtain ⟨b₁, hfirst, h⟩ := exists_of_bind_eq_ok h
    exact ih (hstep b a b₁ hb hfirst) h

/-- A fold whose failures are told in another way fails where it did. -/
theorem foldlM_mapError (f : β → α → Except ε β) (e : ε → ε') (l : List α) (b : β) :
    l.foldlM (fun b a => (f b a).mapError e) b = (l.foldlM f b).mapError e := by
  induction l generalizing b with
  | nil => rfl
  | cons a rest ih =>
    rw [List.foldlM_cons, List.foldlM_cons]
    cases f b a with
    | error e => rfl
    | ok b => exact ih b

end Folds

end EntityMapper
