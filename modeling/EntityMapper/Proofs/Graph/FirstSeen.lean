import Mathlib.Data.List.Basic
import Mathlib.Data.List.Pairwise

/-!
# Groups in the order in which they are first seen

`firstSeen same opens l` reads a list from the left. An element that `opens` starts a group, which
takes every later element that is the `same`; an element that does not open is passed over as long
as no group takes it. This is grouping of the whole list at once.

* `firstSeen_append_singleton` — one more element at the end is one step of `enter`, so the groups
  can also be kept while the elements come one by one
* `exists_of_mem_firstSeen` — a group opens with its head, and takes only what is the same
* `length_firstSeen_eq_iff` — when each element is a group of its own
* `firstSeen_keyed`, `firstSeen_together_iff` — grouping by a key
* `firstSeen_map`, `firstSeen_filter` — grouping commutes with translating the elements and with
  keeping those of a class
-/

namespace EntityMapper

variable {α β : Type} {same : α → α → Bool} {opens : α → Bool}

/-! ## The groups -/

/-- The elements that are not the same as a given one. -/
def unlike (same : α → α → Bool) (x : α) (l : List α) : List α := l.filter fun y => !same x y

theorem length_unlike_le (same : α → α → Bool) (x : α) (l : List α) :
    (unlike same x l).length ≤ l.length := List.length_filter_le _ _

/-- The groups of a list, each with its elements in order. -/
def firstSeen (same : α → α → Bool) (opens : α → Bool) : List α → List (List α)
  | [] => []
  | x :: rest =>
    if opens x then (x :: rest.filter (same x)) :: firstSeen same opens (unlike same x rest)
    else firstSeen same opens rest
termination_by l => l.length
decreasing_by
  · exact Nat.lt_succ_of_le (length_unlike_le same x rest)
  · simp

/-- Whether a group takes an element. -/
def takes (same : α → α → Bool) (x : α) (g : List α) : Bool := g.head?.any fun y => same y x

/-- One more element: it joins the first group that takes it, or starts one if it opens. -/
def enter (same : α → α → Bool) (opens : α → Bool) (x : α) : List (List α) → List (List α)
  | [] => if opens x then [[x]] else []
  | g :: rest => if takes same x g then (g ++ [x]) :: rest else g :: enter same opens x rest

@[simp] theorem firstSeen_nil : firstSeen same opens [] = [] := by rw [firstSeen]

theorem firstSeen_cons_of_opens {x : α} (h : opens x = true) (rest : List α) :
    firstSeen same opens (x :: rest) =
      (x :: rest.filter (same x)) :: firstSeen same opens (unlike same x rest) := by
  rw [firstSeen, if_pos h]

theorem firstSeen_cons_of_not {x : α} (h : opens x = false) (rest : List α) :
    firstSeen same opens (x :: rest) = firstSeen same opens rest := by
  rw [firstSeen, if_neg (by simp [h])]

/-- **Grouping one element more is one step.** -/
theorem firstSeen_append_singleton (l : List α) (x : α) :
    firstSeen same opens (l ++ [x]) = enter same opens x (firstSeen same opens l) := by
  induction l using firstSeen.induct same opens with
  | case1 =>
    rw [List.nil_append, firstSeen_nil, enter]
    by_cases h : opens x = true
    · rw [firstSeen_cons_of_opens h, if_pos h]
      simp [unlike]
    · rw [firstSeen_cons_of_not (by simpa using h), if_neg h, firstSeen_nil]
  | case2 y rest hy ih =>
    rw [List.cons_append, firstSeen_cons_of_opens hy, firstSeen_cons_of_opens hy, enter]
    by_cases h : same y x = true
    · rw [if_pos (by simpa [takes] using h)]
      simp [unlike, List.filter_append, h]
    · rw [if_neg (by simpa [takes] using h), ← ih]
      simp [unlike, List.filter_append, h]
  | case3 y rest hy ih =>
    rw [List.cons_append, firstSeen_cons_of_not (by simpa using hy),
      firstSeen_cons_of_not (by simpa using hy), ih]

/-! ## What the groups are -/

/-- A group opens with its head, and its elements are elements of the list. -/
theorem exists_of_mem_firstSeen {l g : List α} (h : g ∈ firstSeen same opens l) :
    ∃ x more, g = x :: more ∧ opens x = true ∧ (∀ y ∈ more, same x y = true) ∧
      ∀ y ∈ g, y ∈ l := by
  induction l using firstSeen.induct same opens with
  | case1 => simp at h
  | case2 y rest hy ih =>
    rw [firstSeen_cons_of_opens hy, List.mem_cons] at h
    rcases h with rfl | h
    · refine ⟨y, _, rfl, hy, fun z hz => (List.mem_filter.mp hz).2, fun z hz => ?_⟩
      rcases List.mem_cons.mp hz with rfl | hz
      · exact List.mem_cons_self
      · exact List.mem_cons_of_mem _ (List.mem_filter.mp hz).1
    · obtain ⟨x, more, hg, hx, hmore, hmem⟩ := ih h
      exact ⟨x, more, hg, hx, hmore,
        fun z hz => List.mem_cons_of_mem _ (List.mem_filter.mp (hmem z hz)).1⟩
  | case3 y rest hy ih =>
    rw [firstSeen_cons_of_not (by simpa using hy)] at h
    obtain ⟨x, more, hg, hx, hmore, hmem⟩ := ih h
    exact ⟨x, more, hg, hx, hmore, fun z hz => List.mem_cons_of_mem _ (hmem z hz)⟩

theorem mem_of_mem_firstSeen {l g : List α} (h : g ∈ firstSeen same opens l) {y : α} (hy : y ∈ g) :
    y ∈ l := by
  obtain ⟨_, _, _, _, _, hmem⟩ := exists_of_mem_firstSeen h
  exact hmem y hy

/-- Where no element opens there are no groups. -/
theorem firstSeen_eq_nil {l : List α} (h : ∀ x ∈ l, opens x = false) :
    firstSeen same opens l = [] := by
  induction l with
  | nil => rw [firstSeen_nil]
  | cons x rest ih =>
    rw [firstSeen_cons_of_not (h x List.mem_cons_self)]
    exact ih fun y hy => h y (List.mem_cons_of_mem _ hy)

/-! ## How many groups there are -/

theorem length_firstSeen_le (l : List α) : (firstSeen same opens l).length ≤ l.length := by
  induction l using firstSeen.induct same opens with
  | case1 => simp
  | case2 x rest hx ih =>
    rw [firstSeen_cons_of_opens hx, List.length_cons, List.length_cons]
    exact Nat.succ_le_succ (Nat.le_trans ih (length_unlike_le same x rest))
  | case3 x rest hx ih =>
    rw [firstSeen_cons_of_not (by simpa using hx), List.length_cons]
    exact Nat.le_trans ih (Nat.le_succ _)

/-- Where all that opens is the same there is one group at most. -/
theorem length_firstSeen_le_one {l : List α}
    (h : ∀ x ∈ l, ∀ y ∈ l, opens x = true → opens y = true → same x y = true) :
    (firstSeen same opens l).length ≤ 1 := by
  induction l using firstSeen.induct same opens with
  | case1 => simp
  | case2 x rest hx _ =>
    have hnone : ∀ y ∈ unlike same x rest, opens y = false := by
      intro y hy
      obtain ⟨hy, hunlike⟩ := List.mem_filter.mp hy
      by_contra hopens
      have hsame := h x List.mem_cons_self y (List.mem_cons_of_mem _ hy) hx (by simpa using hopens)
      rw [hsame] at hunlike
      exact nomatch hunlike
    rw [firstSeen_cons_of_opens hx, firstSeen_eq_nil hnone]
    exact Nat.le_refl 1
  | case3 x rest hx ih =>
    rw [firstSeen_cons_of_not (by simpa using hx)]
    exact ih fun y hy z hz => h y (List.mem_cons_of_mem _ hy) z (List.mem_cons_of_mem _ hz)

/-- Elements that all open and of which none is the same as an earlier one are groups of their
own. -/
theorem firstSeen_of_apart {l : List α} (hopens : ∀ x ∈ l, opens x = true)
    (hapart : l.Pairwise fun x y => same x y = false) :
    firstSeen same opens l = l.map fun x => [x] := by
  induction l with
  | nil => rw [firstSeen_nil, List.map_nil]
  | cons x rest ih =>
    obtain ⟨hx, hrest⟩ := List.pairwise_cons.mp hapart
    have hgroup : rest.filter (same x) = [] :=
      List.filter_eq_nil_iff.mpr fun y hy => by rw [hx y hy]; exact Bool.false_ne_true
    have hunlike : unlike same x rest = rest :=
      List.filter_eq_self.mpr fun y hy => by rw [hx y hy]; rfl
    rw [firstSeen_cons_of_opens (hopens x List.mem_cons_self), hgroup, hunlike, List.map_cons,
      ih (fun y hy => hopens y (List.mem_cons_of_mem _ hy)) hrest]

/-- **There are as many groups as elements just if each element is a group of its own.** -/
theorem length_firstSeen_eq_iff {l : List α} : (firstSeen same opens l).length = l.length ↔
    (∀ x ∈ l, opens x = true) ∧ l.Pairwise fun x y => same x y = false := by
  constructor
  · intro h
    induction l using firstSeen.induct same opens with
    | case1 => exact ⟨fun x hx => absurd hx List.not_mem_nil, .nil⟩
    | case2 x rest hx ih =>
      rw [firstSeen_cons_of_opens hx, List.length_cons, List.length_cons] at h
      have hle : (firstSeen same opens (unlike same x rest)).length ≤ (unlike same x rest).length :=
        length_firstSeen_le _
      have hunlike_le := length_unlike_le same x rest
      -- nothing is taken by the group of the first element
      have hlength : (unlike same x rest).length = rest.length := by omega
      have hunlike : unlike same x rest = rest := List.filter_sublist.eq_of_length hlength
      have hdiffers : ∀ y ∈ rest, same x y = false := fun y hy => by
        simpa using List.filter_eq_self.mp hunlike y hy
      rw [hunlike] at ih h
      obtain ⟨hopens, hapart⟩ := ih (Nat.succ.inj h)
      refine ⟨fun y hy => ?_, List.pairwise_cons.mpr ⟨hdiffers, hapart⟩⟩
      rcases List.mem_cons.mp hy with rfl | hy
      · exact hx
      · exact hopens y hy
    | case3 x rest hx ih =>
      rw [firstSeen_cons_of_not (by simpa using hx), List.length_cons] at h
      have hle : (firstSeen same opens rest).length ≤ rest.length := length_firstSeen_le rest
      omega
  · rintro ⟨hopens, hapart⟩
    rw [firstSeen_of_apart hopens hapart, List.length_map]

/-! ## Groups by a key -/

section Keyed

variable {κ : Type} {key : α → κ}

/-- Where all elements open they all are in the groups. -/
theorem perm_flatten_firstSeen {l : List α} (hopens : ∀ x ∈ l, opens x = true) :
    (firstSeen same opens l).flatten.Perm l := by
  induction l using firstSeen.induct same opens with
  | case1 =>
    rw [firstSeen_nil]
    exact .nil
  | case2 x rest hx ih =>
    have ih := ih fun y hy => hopens y (List.mem_cons_of_mem _ (List.mem_filter.mp hy).1)
    rw [firstSeen_cons_of_opens hx, List.flatten_cons, List.cons_append]
    exact ((ih.append_left _).trans (List.filter_append_perm (same x) rest)).cons x
  | case3 x rest hx ih => exact absurd (hopens x List.mem_cons_self) hx

/-- **Elements that are the same where they have one key are grouped by it**: each group has one key,
and no two groups have the same. -/
theorem firstSeen_keyed {l : List α} (hopens : ∀ x ∈ l, opens x = true)
    (hsame : ∀ x ∈ l, ∀ y ∈ l, same x y = true ↔ key x = key y) :
    (∀ g ∈ firstSeen same opens l, ∀ x ∈ g, ∀ y ∈ g, key x = key y) ∧
      (firstSeen same opens l).Pairwise fun g g' => ∀ x ∈ g, ∀ y ∈ g', key x ≠ key y := by
  induction l using firstSeen.induct same opens with
  | case1 =>
    rw [firstSeen_nil]
    exact ⟨fun g hg => absurd hg List.not_mem_nil, .nil⟩
  | case2 x rest hx ih =>
    have hrest : ∀ {y}, y ∈ unlike same x rest → y ∈ x :: rest :=
      fun hy => List.mem_cons_of_mem _ (List.mem_filter.mp hy).1
    obtain ⟨hgroups, hapart⟩ := ih (fun y hy => hopens y (hrest hy))
      fun y hy z hz => hsame y (hrest hy) z (hrest hz)
    have hfirst : ∀ y ∈ x :: rest.filter (same x), key x = key y := by
      intro y hy
      rcases List.mem_cons.mp hy with rfl | hy
      · rfl
      · obtain ⟨hy, hxy⟩ := List.mem_filter.mp hy
        exact (hsame x List.mem_cons_self y (List.mem_cons_of_mem _ hy)).mp hxy
    rw [firstSeen_cons_of_opens hx]
    refine ⟨?_, List.pairwise_cons.mpr ⟨fun g hg y hy z hz heq => ?_, hapart⟩⟩
    · intro g hg y hy z hz
      rcases List.mem_cons.mp hg with rfl | hg
      · exact (hfirst y hy).symm.trans (hfirst z hz)
      · exact hgroups g hg y hy z hz
    · -- what has the first key is in the first group already
      have hz := mem_of_mem_firstSeen hg hz
      have hxz := (hsame x List.mem_cons_self z (hrest hz)).mpr ((hfirst y hy).trans heq)
      have hunlike := (List.mem_filter.mp hz).2
      rw [hxz] at hunlike
      exact nomatch hunlike
  | case3 x rest hx ih => exact absurd (hopens x List.mem_cons_self) hx

/-- Two elements are in one group just if they have one key. -/
theorem firstSeen_together_iff {l : List α} (hopens : ∀ x ∈ l, opens x = true)
    (hsame : ∀ x ∈ l, ∀ y ∈ l, same x y = true ↔ key x = key y) {x y : α} (hx : x ∈ l)
    (hy : y ∈ l) : (∃ g ∈ firstSeen same opens l, x ∈ g ∧ y ∈ g) ↔ key x = key y := by
  obtain ⟨hgroups, hapart⟩ := firstSeen_keyed hopens hsame
  have hperm : (firstSeen same opens l).flatten.Perm l := perm_flatten_firstSeen hopens
  constructor
  · rintro ⟨g, hg, hxg, hyg⟩
    exact hgroups g hg x hxg y hyg
  · intro heq
    obtain ⟨g, hg, hxg⟩ := List.mem_flatten.mp (hperm.mem_iff.mpr hx)
    obtain ⟨g', hg', hyg⟩ := List.mem_flatten.mp (hperm.mem_iff.mpr hy)
    by_cases hone : g = g'
    · exact ⟨g, hg, hxg, hone ▸ hyg⟩
    · have hsymm : Std.Symm fun g g' : List α => ∀ x ∈ g, ∀ y ∈ g', key x ≠ key y :=
        ⟨fun g g' h x hx y hy heq => h y hy x hx heq.symm⟩
      exact absurd heq (hapart.forall hg hg' hone x hxg y hyg)

end Keyed

/-! ## Translating and selecting -/

theorem firstSeen_map {f : α → β} {same' : β → β → Bool} {opens' : β → Bool}
    (hsame : ∀ x y, same x y = same' (f x) (f y)) (hopens : ∀ x, opens x = opens' (f x))
    (l : List α) :
    firstSeen same' opens' (l.map f) = (firstSeen same opens l).map (List.map f) := by
  induction l using firstSeen.induct same opens with
  | case1 => simp
  | case2 x rest hx ih =>
    have hunlike : unlike same' (f x) (rest.map f) = (unlike same x rest).map f := by
      simp [unlike, List.filter_map, Function.comp_def, hsame]
    have hgroup : (rest.map f).filter (same' (f x)) = (rest.filter (same x)).map f := by
      rw [List.filter_map]
      exact congrArg _ (List.filter_congr fun y _ => (hsame x y).symm)
    rw [List.map_cons, firstSeen_cons_of_opens (by rw [← hopens]; exact hx),
      firstSeen_cons_of_opens hx, hunlike, hgroup, ih]
    rfl
  | case3 x rest hx ih =>
    rw [List.map_cons, firstSeen_cons_of_not (by rw [← hopens]; simpa using hx),
      firstSeen_cons_of_not (by simpa using hx), ih]

theorem unlike_filter_of_pos {P : α → Bool} (x : α) (l : List α) :
    unlike same x (l.filter P) = (unlike same x l).filter P := by
  simp [unlike, List.filter_filter, Bool.and_comm]

/-- Selecting a class that no group crosses selects the groups whose head is of the class. -/
theorem firstSeen_filter {P : α → Bool} (l : List α)
    (h : ∀ x ∈ l, ∀ y ∈ l, same x y = true → P x = P y) :
    firstSeen same opens (l.filter P) =
      (firstSeen same opens l).filter fun g => g.head?.any P := by
  induction l using firstSeen.induct same opens with
  | case1 => simp
  | case2 x rest hx ih =>
    have hrest : ∀ y ∈ rest, same x y = true → P x = P y :=
      fun y hy => h x List.mem_cons_self y (List.mem_cons_of_mem _ hy)
    have ih := ih fun y hy z hz => h y (List.mem_cons_of_mem _ (List.mem_filter.mp hy).1) z
      (List.mem_cons_of_mem _ (List.mem_filter.mp hz).1)
    rw [firstSeen_cons_of_opens hx, List.filter_cons]
    by_cases hP : P x = true
    · have hgroup : (rest.filter P).filter (same x) = rest.filter (same x) := by
        rw [List.filter_filter]
        refine List.filter_congr fun y hy => ?_
        cases hs : same x y with
        | false => simp
        | true => simp [← hrest y hy hs, hP]
      rw [if_pos hP, firstSeen_cons_of_opens hx, hgroup, unlike_filter_of_pos, ih]
      simp [hP]
    · -- what is the same as `x` is not of the class either
      have hnone : (unlike same x rest).filter P = rest.filter P := by
        rw [unlike, List.filter_filter]
        refine List.filter_congr fun y hy => ?_
        cases hs : same x y with
        | false => simp
        | true => simp [← hrest y hy hs, hP]
      rw [if_neg hP, ← hnone, ih]
      simp [hP]
  | case3 x rest hx ih =>
    have ih := ih fun y hy z hz => h y (List.mem_cons_of_mem _ hy) z (List.mem_cons_of_mem _ hz)
    rw [firstSeen_cons_of_not (by simpa using hx), List.filter_cons]
    by_cases hP : P x = true
    · rw [if_pos hP, firstSeen_cons_of_not (by simpa using hx), ih]
    · rw [if_neg hP, ih]

end EntityMapper
