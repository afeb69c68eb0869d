import Mathlib.Data.List.Forall2
import Mathlib.Data.List.Induction
import EntityMapper.Proofs.Graph.FirstSeen

/-!
# Lists with the same first occurrences

A joined result repeats a row for every combination with other rows. What counts for grouping is
which elements a list has and the order in which they come up first. Two lists that agree in this
are `Alike`; so are their images, their selections, and the two factors of a product with what the
product shows of them.

* `Alike.map`, `Alike.filter` — translating and selecting keep lists alike
* `alike_flatMap_left`, `alike_flatMap_right` — what a product shows of its factors
* `alike_map_key`, `filter_flatMap_of_key` — what comes of several elements, by the key of each
* `firstSeen_eq_map_key` — groups by a key that every element has
* `firstSeen_perm` — the groups of a list in another order
-/

namespace EntityMapper

section

variable {α β : Type} [BEq α]

/-- The same elements come up first in the same order. -/
def Alike (l l' : List α) : Prop := l.eraseDups = l'.eraseDups

theorem Alike.refl (l : List α) : Alike l l := rfl

theorem Alike.trans {l l' l'' : List α} (h : Alike l l') (h' : Alike l' l'') : Alike l l'' :=
  Eq.trans h h'

variable [LawfulBEq α]

theorem Alike.mem_iff {l l' : List α} (h : Alike l l') (x : α) : x ∈ l ↔ x ∈ l' := by
  rw [← List.mem_eraseDups, h, List.mem_eraseDups]

/-! ## Selecting and translating -/

/-- One more element counts if it is new. -/
theorem eraseDups_concat (l : List α) (x : α) :
    (l ++ [x]).eraseDups = l.eraseDups ++ if x ∈ l then [] else [x] := by
  rw [List.eraseDups_append]
  congr 1
  by_cases hx : x ∈ l
  · rw [if_pos hx]
    simp [List.removeAll, hx]
  · rw [if_neg hx, List.removeAll, List.filter_cons_of_pos (by simpa using hx), List.filter_nil]
    rfl

theorem eraseDups_filter (p : α → Bool) (l : List α) :
    (l.filter p).eraseDups = l.eraseDups.filter p := by
  induction l using List.reverseRecOn with
  | nil => rfl
  | append_singleton l x ih =>
    rw [List.filter_append, eraseDups_concat, List.filter_append, ← ih]
    by_cases hp : p x = true
    · rw [List.filter_cons_of_pos hp, List.filter_nil, eraseDups_concat]
      by_cases hx : x ∈ l
      · rw [if_pos hx, if_pos (List.mem_filter.mpr ⟨hx, hp⟩), List.filter_nil]
      · rw [if_neg hx, if_neg fun h => hx (List.mem_filter.mp h).1, List.filter_cons_of_pos hp,
          List.filter_nil]
    · rw [List.filter_cons_of_neg hp, List.filter_nil, List.append_nil]
      split
      · rw [List.filter_nil, List.append_nil]
      · rw [List.filter_cons_of_neg hp, List.filter_nil, List.append_nil]

theorem eraseDups_map [BEq β] [LawfulBEq β] (f : α → β) (l : List α) :
    (l.eraseDups.map f).eraseDups = (l.map f).eraseDups := by
  induction l using List.reverseRecOn with
  | nil => rfl
  | append_singleton l x ih =>
    have hmem : f x ∈ l.eraseDups.map f ↔ f x ∈ l.map f := by
      simp only [List.mem_map, List.mem_eraseDups]
    rw [eraseDups_concat, List.map_append, List.map_append, List.map_singleton, eraseDups_concat]
    by_cases hx : x ∈ l
    · rw [if_pos hx, if_pos (List.mem_map_of_mem hx), List.map_nil, List.append_nil,
        List.append_nil, ih]
    · rw [if_neg hx, List.map_singleton, eraseDups_concat, ih]
      simp only [hmem]

theorem Alike.filter {l l' : List α} (h : Alike l l') (p : α → Bool) :
    Alike (l.filter p) (l'.filter p) := by
  rw [Alike, eraseDups_filter, eraseDups_filter, h]

theorem Alike.map [BEq β] [LawfulBEq β] {l l' : List α} (h : Alike l l') (f : α → β) :
    Alike (l.map f) (l'.map f) := by
  rw [Alike, ← eraseDups_map, h, eraseDups_map]

theorem eraseDups_eq_self {l : List α} (h : l.Nodup) : l.eraseDups = l := by
  induction l with
  | nil => rfl
  | cons x rest ih =>
    obtain ⟨hx, hrest⟩ := List.nodup_cons.mp h
    rw [List.eraseDups_cons, List.filter_eq_self.mpr, ih hrest]
    intro y hy
    simpa using fun hyx : y = x => hx (hyx ▸ hy)

theorem nodup_eraseDups (l : List α) : l.eraseDups.Nodup := by
  induction l using List.reverseRecOn with
  | nil => exact .nil
  | append_singleton l x ih =>
    rw [eraseDups_concat]
    split
    · rwa [List.append_nil]
    · next hx =>
      refine List.nodup_append.mpr ⟨ih, List.pairwise_singleton _ x, fun y hy z hz => ?_⟩
      rw [List.mem_singleton.mp hz]
      exact fun hyx => hx (hyx ▸ List.mem_eraseDups.mp hy)

/-- The elements of a list in another order come up first in another order. -/
theorem perm_eraseDups {l l' : List α} (h : l.Perm l') : l.eraseDups.Perm l'.eraseDups :=
  (List.perm_ext_iff_of_nodup (nodup_eraseDups l) (nodup_eraseDups l')).mpr fun x => by
    rw [List.mem_eraseDups, List.mem_eraseDups, h.mem_iff]

/-! ## Products -/

theorem alike_append_of_subset {l m : List α} (h : ∀ x ∈ m, x ∈ l) : Alike (l ++ m) l := by
  have hnone : m.removeAll l = [] :=
    List.filter_eq_nil_iff.mpr fun x hx => by simpa using h x hx
  rw [Alike, List.eraseDups_append, hnone, List.eraseDups_nil, List.append_nil]

theorem Alike.append {l l' m m' : List α} (h : Alike l l') (hm : Alike m m') :
    Alike (l ++ m) (l' ++ m') := by
  have hremove : m.removeAll l = m.removeAll l' :=
    List.filter_congr fun x _ => by simp [h.mem_iff x]
  rw [Alike, List.eraseDups_append, List.eraseDups_append, h, hremove]
  exact congrArg _ (hm.filter _)

/-- What comes of the first factor of a product, once for every element of the second. -/
theorem alike_flatMap_left {γ : Type} (l : List γ) (f : γ → α) {m : γ → List β}
    (hm : ∀ x ∈ l, m x ≠ []) : Alike (l.flatMap fun x => (m x).map fun _ => f x) (l.map f) := by
  induction l with
  | nil => exact .refl []
  | cons x rest ih =>
    have ih := ih fun y hy => hm y (List.mem_cons_of_mem _ hy)
    obtain ⟨y, more, hmore⟩ := List.exists_cons_of_ne_nil (hm x List.mem_cons_self)
    have hx : Alike ((m x).map fun _ => f x) [f x] := by
      rw [hmore, List.map_cons]
      exact alike_append_of_subset (l := [f x]) fun z hz => by
        obtain ⟨_, -, rfl⟩ := List.mem_map.mp hz
        exact List.mem_cons_self
    rw [List.flatMap_cons]
    exact hx.append ih

/-- The second factor of a product, all of it once for every element of the first. -/
theorem alike_flatMap_right {l : List β} (hl : l ≠ []) (m : List α) :
    Alike (l.flatMap fun _ => m) m := by
  obtain ⟨y, l, rfl⟩ := List.exists_cons_of_ne_nil hl
  rw [List.flatMap_cons]
  exact alike_append_of_subset fun x hx => by
    obtain ⟨_, -, hx⟩ := List.mem_flatMap.mp hx
    exact hx

end

/-! ## Groups by a key -/

section

variable {α β γ : Type} [BEq γ] [LawfulBEq γ] {l : List α} {F : α → List β} {key : β → γ}
  {K : α → γ}

/-- The keys that come up first are those of the elements. -/
theorem alike_map_key (hF : ∀ x ∈ l, ∀ y ∈ F x, key y = K x) (hne : ∀ x ∈ l, F x ≠ []) :
    Alike ((l.flatMap F).map key) (l.map K) := by
  have hkeys : (l.flatMap F).map key = l.flatMap fun x => (F x).map fun _ => K x := by
    rw [List.map_flatMap]
    exact List.flatMap_congr fun x hx => List.map_congr_left fun y hy => hF x hx y hy
  rw [hkeys]
  exact alike_flatMap_left l K hne

/-- What has the key of an element comes of the element. -/
theorem filter_flatMap_of_key (hF : ∀ x ∈ l, ∀ y ∈ F x, key y = K x) (hK : (l.map K).Nodup) {x : α}
    (hx : x ∈ l) : ((l.flatMap F).filter fun y => key y == K x) = F x := by
  induction l with
  | nil => exact absurd hx List.not_mem_nil
  | cons z rest ih =>
    obtain ⟨hz, hrest⟩ := List.nodup_cons.mp hK
    have hF' : ∀ w ∈ rest, ∀ y ∈ F w, key y = K w := fun w hw => hF w (List.mem_cons_of_mem _ hw)
    rw [List.flatMap_cons, List.filter_append]
    rcases List.mem_cons.mp hx with rfl | hx
    · have hself : ((F x).filter fun y => key y == K x) = F x :=
        List.filter_eq_self.mpr fun y hy => by simp [hF x List.mem_cons_self y hy]
      have hothers : ((rest.flatMap F).filter fun y => key y == K x) = [] := by
        refine List.filter_eq_nil_iff.mpr fun y hy => ?_
        obtain ⟨w, hw, hy⟩ := List.mem_flatMap.mp hy
        rw [hF' w hw y hy, beq_iff_eq]
        intro hwx
        exact hz (hwx ▸ List.mem_map_of_mem hw)
      rw [hself, hothers, List.append_nil]
    · have hnone : ((F z).filter fun y => key y == K x) = [] := by
        refine List.filter_eq_nil_iff.mpr fun y hy => ?_
        rw [hF z List.mem_cons_self y hy, beq_iff_eq]
        intro hzx
        exact hz (hzx ▸ List.mem_map_of_mem hx)
      rw [hnone, List.nil_append]
      exact ih hF' hrest hx

end

/-- Where every element opens and sameness is that of a key, there is a group for each key. -/
theorem firstSeen_eq_map_key {α γ : Type} [BEq γ] [LawfulBEq γ] {same : α → α → Bool}
    {opens : α → Bool} {K : α → γ} {l : List α}
    (hopens : ∀ x ∈ l, opens x = true) (hsame : ∀ x ∈ l, ∀ y ∈ l, same x y = (K y == K x)) :
    firstSeen same opens l = (l.map K).eraseDups.map fun k => l.filter fun x => K x == k := by
  induction l using firstSeen.induct same opens with
  | case1 => simp
  | case2 x rest hx ih =>
    have hgroup : rest.filter (same x) = rest.filter fun y => K y == K x :=
      List.filter_congr fun y hy => hsame x List.mem_cons_self y (List.mem_cons_of_mem _ hy)
    have hunlike : unlike same x rest = rest.filter fun y => !(K y == K x) :=
      List.filter_congr fun y hy => by
        rw [hsame x List.mem_cons_self y (List.mem_cons_of_mem _ hy)]
    have ih := ih (fun y hy => hopens y (List.mem_cons_of_mem _ (List.mem_filter.mp hy).1))
      fun y hy z hz => hsame y (List.mem_cons_of_mem _ (List.mem_filter.mp hy).1) z
        (List.mem_cons_of_mem _ (List.mem_filter.mp hz).1)
    rw [firstSeen_cons_of_opens hx, ih, hgroup, hunlike, List.map_cons, List.eraseDups_cons,
      List.map_cons, List.filter_cons_of_pos (by simp), List.filter_map]
    congr 1
    refine List.map_congr_left fun k hk => ?_
    -- the key of the first group is not among the others
    have hne : k ≠ K x := by
      obtain ⟨y, hy, rfl⟩ := List.mem_map.mp (List.mem_eraseDups.mp hk)
      simpa using (List.mem_filter.mp hy).2
    rw [List.filter_cons_of_neg (by simpa using hne.symm), List.filter_filter]
    refine List.filter_congr fun y _ => ?_
    by_cases hy : K y = k
    · simp [hy, hne]
    · simp [hy]
  | case3 x rest hx ih => exact absurd (hopens x List.mem_cons_self) hx

/-- What does not open makes no difference where it is never the same as what does. -/
theorem firstSeen_opens {α : Type} {same : α → α → Bool} {opens : α → Bool} {l : List α}
    (h : ∀ x ∈ l, ∀ y ∈ l, same x y = true → opens x = opens y) :
    firstSeen same opens l = firstSeen same opens (l.filter opens) := by
  rw [firstSeen_filter l h, List.filter_eq_self.mpr]
  intro g hg
  obtain ⟨x, more, rfl, hx, -, -⟩ := exists_of_mem_firstSeen hg
  exact hx

/-- **A list in another order has the same groups**: they come in another order, and so do the
elements of each. -/
theorem firstSeen_perm {α γ : Type} [BEq γ] [LawfulBEq γ] {same : α → α → Bool}
    {opens : α → Bool} {K : α → γ} {l l' : List α} (hperm : l.Perm l')
    (hopens : ∀ x ∈ l, ∀ y ∈ l, same x y = true → opens x = opens y)
    (hsame : ∀ x ∈ l, ∀ y ∈ l, opens x = true → opens y = true → same x y = (K y == K x)) :
    ∃ between, (firstSeen same opens l).Perm between ∧
      List.Forall₂ List.Perm between (firstSeen same opens l') := by
  have hkeyed : ∀ m : List α, m ⊆ l → firstSeen same opens m = ((m.filter opens).map K).eraseDups.map
      fun k => (m.filter opens).filter fun x => K x == k := by
    intro m hm
    rw [firstSeen_opens fun x hx y hy => hopens x (hm hx) y (hm hy)]
    refine firstSeen_eq_map_key (fun x hx => (List.mem_filter.mp hx).2) fun x hx y hy => ?_
    obtain ⟨hx, hxopens⟩ := List.mem_filter.mp hx
    obtain ⟨hy, hyopens⟩ := List.mem_filter.mp hy
    exact hsame x (hm hx) y (hm hy) hxopens hyopens
  have hfilter := hperm.filter opens
  rw [hkeyed l (List.Subset.refl l), hkeyed l' hperm.symm.subset]
  refine ⟨((l'.filter opens).map K).eraseDups.map
    fun k => (l.filter opens).filter fun x => K x == k, (perm_eraseDups (hfilter.map K)).map _, ?_⟩
  rw [List.forall₂_map_left_iff, List.forall₂_map_right_iff, List.forall₂_same]
  exact fun k _ => hfilter.filter _

end EntityMapper
