import Mathlib.Data.List.Forall2
import EntityMapper.Proofs.Graph.Assembly
import EntityMapper.Proofs.Graph.Reading

/-!
# Reading rows is grouping them

The trees that the rows grow are the groups of the views, and so the objects that come out are the
ones that `Catalog.object` describes, in the order in which they are first seen. The entity types
that one table leads to have to have names that do not run into each other.

* `Gathered.matches` — groups of occurrences that came one by one are the groups of the views
* `materialize_eq` — the objects of a result are those of its groups of rows
-/

namespace EntityMapper

open EntityMapper.Graph (add addBelow)
open Occurrence (nested? nestedIn)

variable {c : Catalog} {g : Graph} {labels : List String}

/-! ## Groups of occurrences and groups of views -/

theorem enter_forall₂ {α β : Type} {R : α → β → Prop} {same : α → α → Bool}
    {same' : β → β → Bool} {opens : α → Bool} {opens' : β → Bool} {x : α} {y : β} (hxy : R x y)
    (hsame : ∀ a b, R a b → same a x = same' b y) {G : List (List α)} {H : List (List β)}
    (h : List.Forall₂ (List.Forall₂ R) G H)
    (hopens : (∀ s ∈ G, takes same x s = false) → opens x = opens' y) :
    List.Forall₂ (List.Forall₂ R) (enter same opens x G) (enter same' opens' y H) := by
  induction h with
  | nil =>
    rw [enter, enter, hopens (by simp)]
    split
    · exact .cons (.cons hxy .nil) .nil
    · exact .nil
  | @cons s r G H hsr _ ih =>
    have htakes : takes same x s = takes same' y r := by
      cases hsr with
      | nil => rfl
      | cons hab _ => exact hsame _ _ hab
    rw [enter, enter, ← htakes]
    by_cases hs : takes same x s = true
    · rw [if_pos hs, if_pos hs]
      exact .cons (List.rel_append hsr (.cons hxy .nil)) ‹_›
    · rw [if_neg hs, if_neg hs]
      refine .cons hsr (ih fun hG => hopens fun q hq => ?_)
      rcases List.mem_cons.mp hq with rfl | hq
      · simpa using hs
      · exact hG q hq

theorem Gathered.snoc {S : List Appearance} {x : Appearance} {G : List (List Appearance)}
    (h : Gathered (S ++ [x]) G) :
    ∃ G₀ opens, Gathered S G₀ ∧ G = enter Appearance.same (fun _ => opens) x G₀ ∧
      ((∀ s ∈ G₀, takes Appearance.same x s = false) →
        (opens = true ∧ ∃ o, x.2.object = .ok (some o)) ∨
          (opens = false ∧ x.2.object = .ok none)) := by
  generalize hS : S ++ [x] = S' at h
  cases h with
  | nil => exact absurd hS (by simp)
  | @append S₀ G₀ h₀ y opens hopens =>
    obtain ⟨rfl, hy⟩ := List.append_inj' hS rfl
    obtain rfl : x = y := List.singleton_inj.mp hy
    exact ⟨G₀, opens, h₀, rfl, hopens⟩

/-- How occurrences are read off what has a sight: what is read shows the sight, and its object
decides whether a group opens; where nothing is read nothing opens, and there is no key. -/
structure Reads (c : Catalog) {σ : Type} (sight : σ → Sight) (opens : σ → Bool)
    (read : σ → Option Appearance) : Prop where
  shown : ∀ {s x}, read s = some x →
    x.1 = (sight s).place ∧ x.2.table = (sight s).table ∧ x.2.SeenIn c (sight s).view
  opened : ∀ {s x o}, read s = some x → x.2.object = .ok (some o) → opens s = true
  passed : ∀ {s x}, read s = some x → x.2.object = .ok none → opens s = false
  missing : ∀ {s}, read s = none →
    opens s = false ∧ (sight s).table.groupKey? (sight s).view = none

theorem groupKey?_of_not_hasPrimaryKey {t : Table} (h : t.hasPrimaryKey = false) (v : View) :
    t.groupKey? v = none := by
  cases hk : t.groupKey? v with
  | none => rfl
  | some k => exact absurd (hasPrimaryKey_of_groupKey? hk) (by rw [h]; decide)

namespace Reads

variable {σ : Type} {sight : σ → Sight} {opens : σ → Bool} {read : σ → Option Appearance}

/-- Occurrences show one object where the sights do. -/
theorem same_eq (h : Reads c sight opens read) {s r : σ} {x y : Appearance}
    (hs : read s = some x) (hr : read r = some y) : x.same y = (sight s).same (sight r) := by
  obtain ⟨-, hst, hsx⟩ := h.shown hs
  obtain ⟨-, hrt, hry⟩ := h.shown hr
  rw [Appearance.same, Occurrence.same, Sight.same, ← hst, ← hrt]
  rcases hsx.identity with ⟨k, hk, hi⟩ | ⟨hkey, hi⟩
  · rcases hry.identity with ⟨l, hl, hj⟩ | ⟨hkey', hj⟩
    · rw [hi, hj, hk, hl]
      simp [Bool.beq_eq_decide_eq, eq_comm]
    · rw [hi, hj, hk, groupKey?_of_not_hasPrimaryKey hkey']
      simp
  · rw [hi, groupKey?_of_not_hasPrimaryKey hkey]
    simp

theorem not_same (h : Reads c sight opens read) {s : σ} (hs : read s = none) (r : σ) :
    (sight r).same (sight s) = false := by
  rw [Sight.same, (h.missing hs).2]
  cases (sight r).table.groupKey? (sight r).view <;> simp

end Reads

/-- **Groups that came one by one are the groups of what is seen.** -/
theorem Gathered.matches {σ : Type} {sight : σ → Sight} {opens : σ → Bool}
    {read : σ → Option Appearance} (h : Reads c sight opens read) {X : List σ}
    {G : List (List Appearance)} (hG : Gathered (X.filterMap read) G) :
    List.Forall₂ (List.Forall₂ fun x s => read s = some x) G
      (firstSeen (fun s r => (sight s).same (sight r)) opens X) := by
  induction X using List.reverseRecOn generalizing G with
  | nil =>
    generalize hS : List.filterMap read [] = S at hG
    cases hG with
    | nil => rw [firstSeen_nil]; exact .nil
    | append h₀ y opens hopens => exact absurd hS (by simp)
  | append_singleton X s ih =>
    rw [firstSeen_append_singleton]
    rw [List.filterMap_append] at hG
    cases hs : read s with
    | none =>
      -- what shows nothing neither joins a group nor starts one
      rw [List.filterMap_cons_none hs, List.filterMap_nil, List.append_nil] at hG
      rw [enter_of_not_takes, if_neg (by rw [(h.missing hs).1]; decide), List.append_nil]
      · exact ih hG
      · intro r _
        unfold takes
        cases r.head? with
        | none => rfl
        | some y => exact h.not_same hs y
    | some x =>
      rw [List.filterMap_cons_some hs, List.filterMap_nil] at hG
      obtain ⟨G₀, opened, hG₀, rfl, hopens⟩ := hG.snoc
      refine enter_forall₂ (R := fun x s => read s = some x) hs (fun a b hb => h.same_eq hb hs)
        (ih hG₀) fun hnone => ?_
      rcases hopens hnone with ⟨rfl, o, ho⟩ | ⟨rfl, ho⟩
      · exact (h.opened hs ho).symm
      · exact (h.passed hs ho).symm

/-! ## Sights below an object -/

/-- What a sight shows of a nested object. -/
def Sight.read (c : Catalog) (s : Sight) : Option Appearance :=
  (nested? c s.view.row s.table s.view.leading).map fun o => (s.place, o)

theorem keyReads_of_not_hasPrimaryKey {t : Table} {v : View} (h : t.hasPrimaryKey = false) :
    t.keyReads v = true := by
  have : t.primaryKey = [] := by simpa [Table.hasPrimaryKey] using h
  rw [Table.keyReads, this]
  rfl

theorem Sight.reads (c : Catalog) : Reads c id Sight.opens (Sight.read c) where
  shown := by
    intro s x hs
    obtain ⟨o, ho, rfl⟩ := Option.map_eq_some_iff.mp hs
    exact ⟨rfl, nested?_seenIn ho⟩
  opened := by
    intro s x o hs ho
    obtain ⟨p, hp, rfl⟩ := Option.map_eq_some_iff.mp hs
    obtain ⟨htable, hseen⟩ := nested?_seenIn hp
    have hsome := Option.isSome_of_eq_some hp
    rw [hseen.object, htable] at ho
    have hreads := (seen_of_rowObject ho).2
    rw [isSome_nested?] at hsome
    unfold Sight.opens Table.opens
    split
    · next hkey =>
      rw [if_pos hkey] at hsome
      rw [hsome, hreads]
      rfl
    · next hkey => rwa [if_neg hkey] at hsome
  passed := by
    intro s x hs ho
    obtain ⟨p, hp, rfl⟩ := Option.map_eq_some_iff.mp hs
    obtain ⟨htable, hseen⟩ := nested?_seenIn hp
    rw [hseen.object, htable] at ho
    have hreads := not_keyReads_of_rowObject ho
    unfold Sight.opens Table.opens
    split
    · rw [hreads, Bool.and_false]
    · next hkey =>
      rw [keyReads_of_not_hasPrimaryKey ((Bool.not_eq_true _).mp hkey)] at hreads
      exact nomatch hreads
  missing := by
    intro s hs
    have hnone : (nested? c s.view.row s.table s.view.leading).isSome = false := by
      rw [Option.map_eq_none_iff.mp hs]
      rfl
    rw [isSome_nested?] at hnone
    unfold Sight.opens Table.opens
    split at hnone
    · next hkey =>
      rw [if_pos hkey, hnone]
      exact ⟨rfl, Option.isNone_iff_eq_none.mp (by simpa using hnone)⟩
    · next hkey =>
      rw [if_neg hkey]
      exact ⟨hnone, groupKey?_of_not_hasPrimaryKey ((Bool.not_eq_true _).mp hkey) _⟩

/-- What is nested in the occurrences of an object is what the sights below it show. -/
theorem nested_eq_filterMap_sights {t : Table} {xs : List Appearance} {vs : List View}
    (h : List.Forall₂ (fun x v => x.2.SeenIn c v) xs vs) (ht : ∀ x ∈ xs, x.2.table = t) :
    (xs.flatMap fun x => x.2.nested) = (c.sights t vs).filterMap (Sight.read c) := by
  induction h with
  | nil => rfl
  | @cons x v xs vs hx _ ih =>
    rw [List.flatMap_cons, ih fun y hy => ht y (List.mem_cons_of_mem _ hy), hx.nested,
      ht x List.mem_cons_self, Catalog.sights_cons, List.filterMap_append, List.filterMap_map]
    rfl

theorem mem_sights {t : Table} {vs : List View} {s : Sight} (h : s ∈ c.sights t vs) :
    ∃ a, t.associations[s.place]? = some a ∧ s.table = c.table a.2.target := by
  obtain ⟨v, -, hs⟩ := List.mem_flatMap.mp h
  obtain ⟨⟨a, p⟩, ha, rfl⟩ := List.mem_map.mp hs
  exact ⟨a, List.mem_zipIdx_iff_getElem?.mp ha, rfl⟩

/-! ## Trees and objects -/

theorem Node.filled_eq (n : Node) (kids : List (Nat × Object)) :
    n.filled kids = { n.object with children := (n.filled kids).children } := by
  induction kids using List.reverseRecOn with
  | nil =>
    obtain ⟨t, o, links⟩ := n
    cases o
    rfl
  | append_singleton kids k ih => rw [Node.filled_append, ih]

/-- The objects of some trees under the association of a place are those of the groups that are
seen first through it. -/
theorem kids_eq {objects : List Object} {t : Table} {F : List Tree} {H : List (List Sight)}
    (h : List.Forall₂ (fun tr s => List.Forall₂ (fun x s => Sight.read c s = some x)
      tr.appearances s ∧
        objects.getD tr.node default = c.object tr.first.2.table (s.map Sight.view)) F H)
    (hH : ∀ s ∈ H, ∀ x ∈ s, ∃ a, t.associations[x.place]? = some a ∧ x.table = c.table a.2.target)
    {a : String × Association} {p : Nat} (ha : t.associations[p]? = some a) :
    (((F.map Tree.link).map fun x => (x.1, objects.getD x.2 default)).filter
      fun k => k.1 == p).map Prod.snd =
    (H.filter fun s => s.head?.any fun x => x.place == p).map
      fun s => c.object (c.table a.2.target) (s.map Sight.view) := by
  induction h with
  | nil => rfl
  | @cons tr s F H htr _ ih =>
    have ih := ih fun s hs => hH s (List.mem_cons_of_mem _ hs)
    obtain ⟨n, first, again, children⟩ := tr
    obtain ⟨hshown, hobject⟩ := htr
    cases hshown with
    | @cons _ x _ s hx _ =>
      obtain ⟨hplace, htable, -⟩ := (Sight.reads c).shown hx
      simp only [id_eq] at hplace htable
      -- a group belongs to the association that its first sight is seen through
      have hhead : ((x :: s).head?.any fun x => x.place == p) = (first.1 == p) := by
        rw [List.head?_cons, Option.any_some, hplace]
      rw [List.map_cons, List.map_cons, List.filter_cons, List.filter_cons, hhead]
      show List.map _ (if (first.1 == p) = true then _ else _) = _
      by_cases hp : (first.1 == p) = true
      · rw [if_pos hp, if_pos hp, List.map_cons, List.map_cons, ih]
        obtain ⟨b, hb, hxtable⟩ := hH _ List.mem_cons_self x List.mem_cons_self
        rw [← hplace, beq_iff_eq.mp hp, ha, Option.some.injEq] at hb
        subst hb
        congr 1
        show objects.getD n default = _
        rw [← hxtable, ← htable]
        exact hobject
      · rw [if_neg hp, if_neg hp, ih]

/-- **The object of a tree is that of the views that its occurrences show.** -/
theorem Grown.object_eq {objects : List Object}
    (hobjects : ∀ {n : Nat} {node}, g.nodes[n]? = some node → objects.getD n default =
      node.filled (node.children.map fun x => (x.1, objects.getD x.2 default)))
    {owner : String} {tr : Tree} (h : Grown c g labels owner tr) {vs : List View}
    (hvs : List.Forall₂ (fun x v => x.2.SeenIn c v) tr.appearances vs) :
    objects.getD tr.node default = c.object tr.first.2.table vs := by
  induction h generalizing vs with
  | @mk owner n first again children o _ _ object node family gathered _ _ _ ih =>
    cases hvs with
    | @cons _ v _ vs hv hrest =>
      have hseen : o = first.2.table.seen v := by
        rw [hv.object] at object
        exact (seen_of_rowObject object).1
      -- the trees of the children are grouped as the sights of the views are
      have hmatch := gathered
      rw [nested_eq_filterMap_sights (.cons hv hrest) fun x hx => (family x hx).1] at hmatch
      have hmatch := hmatch.matches (Sight.reads c)
      rw [List.forall₂_map_left_iff] at hmatch
      have hkids := (List.forall₂_and_left _ _).mpr ⟨fun tr htr => htr, hmatch⟩
      have hkids := hkids.imp (S := fun tr s => List.Forall₂ (fun x s => Sight.read c s = some x)
          tr.appearances s ∧
          objects.getD tr.node default = c.object tr.first.2.table (s.map Sight.view))
        fun tr s hs => ⟨hs.2, ih tr hs.1 (by
          rw [List.forall₂_map_right_iff]
          exact hs.2.imp fun x s hx => ((Sight.reads c).shown hx).2.2)⟩
      show objects.getD n default = _
      rw [hobjects node, Node.filled_eq, Node.children_filled (by rw [hseen]; rfl), c.object_eq,
        hseen]
      refine congrArg (fun kids => { first.2.table.seen v with children := kids }) ?_
      refine List.map_congr_left fun ⟨a, p⟩ ha => ?_
      have ha := List.mem_zipIdx_iff_getElem?.mp ha
      simp only
      rw [Catalog.seenThrough, List.map_map (g := c.object _)]
      congr 1
      exact kids_eq hkids (fun s hs x hx => mem_sights (mem_of_mem_firstSeen hs hx)) ha

/-! ## Rows -/

/-- The whole row as a sight of its root object. -/
def Sight.ofRow (t : Table) (row : Row) : Sight := ⟨0, t, .ofRow row⟩

/-- Whether a row starts an object: where there is no key every row does. -/
def Table.rootOpens (t : Table) (row : Row) : Bool :=
  if t.hasPrimaryKey then t.opens (.ofRow row) else true

/-- What a row shows of its root object. -/
def Sight.readRow (c : Catalog) (t : Table) (row : Row) : Option Appearance :=
  match Occurrence.ofRow c t row with
  | .ok (some o) => some (0, o)
  | _ => none

theorem Sight.ofRow_of_readRow {t : Table} {row : Row} {x : Appearance}
    (h : Sight.readRow c t row = some x) :
    x.1 = 0 ∧ Occurrence.ofRow c t row = .ok (some x.2) := by
  unfold Sight.readRow at h
  split at h
  · next o ho =>
    obtain rfl := Option.some.inj h
    exact ⟨rfl, ho⟩
  · exact nomatch h

theorem Sight.readsRow (c : Catalog) (t : Table) :
    Reads c (Sight.ofRow t) t.rootOpens (Sight.readRow c t) where
  shown := by
    intro row x h
    obtain ⟨hplace, ho⟩ := Sight.ofRow_of_readRow h
    obtain ⟨htable, hseen, -⟩ := ofRow_seenIn ho
    exact ⟨hplace, htable, hseen⟩
  opened := by
    intro row x o h hob
    obtain ⟨-, ho⟩ := Sight.ofRow_of_readRow h
    obtain ⟨htable, hseen, -⟩ := ofRow_seenIn ho
    rw [hseen.object, htable] at hob
    unfold Table.rootOpens Table.opens
    rcases hseen.identity with ⟨k, hk, -⟩ | ⟨hkey, -⟩
    · rw [htable] at hk
      rw [if_pos (hasPrimaryKey_of_groupKey? hk), if_pos (hasPrimaryKey_of_groupKey? hk), hk,
        (seen_of_rowObject hob).2]
      rfl
    · rw [htable] at hkey
      rw [hkey]
      rfl
  passed := by
    intro row x h hob
    obtain ⟨-, ho⟩ := Sight.ofRow_of_readRow h
    obtain ⟨htable, hseen, -⟩ := ofRow_seenIn ho
    rw [hseen.object, htable] at hob
    have hreads := not_keyReads_of_rowObject hob
    unfold Table.rootOpens Table.opens
    split
    · rw [hreads, Bool.and_false]
    · next hkey =>
      rw [keyReads_of_not_hasPrimaryKey ((Bool.not_eq_true _).mp hkey)] at hreads
      exact nomatch hreads
  missing := by
    intro row h
    have hnone : t.hasPrimaryKey = true ∧ t.groupKey? (.ofRow row) = none := by
      unfold Sight.readRow at h
      split at h
      · exact nomatch h
      · next hno => exact not_ofRow hno
    refine ⟨?_, hnone.2⟩
    rw [Table.rootOpens, Table.opens, if_pos hnone.1, if_pos hnone.1, hnone.2]
    rfl

/-- The groups of rows are those of the sights that the rows are. -/
theorem map_ofRow_firstSeen (t : Table) (rows : List Row) :
    (firstSeen (fun r s => (Sight.ofRow t r).same (Sight.ofRow t s)) t.rootOpens rows).map
      (List.map .ofRow) = t.rootGroups rows := by
  unfold Table.rootGroups
  split
  · next hkey =>
    refine (firstSeen_map (fun r s => ?_) (fun r => ?_) rows).symm
    · simp [Sight.same, Sight.ofRow, Table.sameObject]
    · rw [Table.rootOpens, if_pos hkey]
  · next hkey =>
    rw [firstSeen_of_apart, List.map_map]
    · rfl
    · intro r _
      rw [Table.rootOpens, if_neg hkey]
    · refine List.pairwise_of_forall fun r s => ?_
      rw [Sight.same, Sight.ofRow, groupKey?_of_not_hasPrimaryKey ((Bool.not_eq_true _).mp hkey),
        Bool.and_false]

/-! ## Results -/

/-- What reading a row does to the roots. -/
theorem addRow_cases {t : Table} {g' : Graph} {row : Row} (h : Graph.addRow c t g row = .ok g') :
    (Sight.readRow c t row = none ∧ g' = g) ∨
    ∃ o s g₁, Occurrence.ofRow c t row = .ok (some o) ∧ add "" o g = .ok (s, g₁) ∧
      g' = { g₁ with roots := g₁.roots ++ (s.links 0).map Prod.snd } := by
  unfold Graph.addRow at h
  unfold Sight.readRow
  cases ho : Occurrence.ofRow c t row with
  | error e => rw [ho] at h; exact nomatch h
  | ok o =>
    rw [ho] at h
    cases o with
    | none => exact .inl ⟨rfl, (Except.ok.inj h).symm⟩
    | some o =>
      cases ha : add "" o g with
      | error e => simp only [ha] at h; exact nomatch h
      | ok r =>
        obtain ⟨s, g₁⟩ := r
        simp only [ha] at h
        refine .inr ⟨o, s, g₁, rfl, ha, ?_⟩
        cases s with
        | new n => exact (Except.ok.inj h).symm
        | existing n =>
          obtain rfl := Except.ok.inj h
          simp [Sighting.links]
        | absent =>
          obtain rfl := Except.ok.inj h
          simp [Sighting.links]

theorem Labeled.withRoots (h : Labeled g labels) (roots : List Nat) :
    Labeled { g with roots } labels := ⟨h.length, h.keys, h.links⟩

theorem Grown.withRoots {owner : String} {tr : Tree} (h : Grown c g labels owner tr)
    (roots : List Nat) : Grown c { g with roots } labels owner tr := by
  induction h with
  | mk label key object node family gathered separate covered _ ih =>
    exact .mk label key object node family gathered separate covered ih

theorem Siblings.withRoots {owner : String} {ts : List Table} {S : List Appearance} {F : List Tree}
    (h : Siblings c g labels owner ts S F) (roots : List Nat) :
    Siblings c { g with roots } labels owner ts S F :=
  ⟨h.known, h.gathered, h.separate, h.covered, fun tr htr => (h.grown tr htr).withRoots roots⟩

/-- **Reading rows.** The roots are the trees of what the rows show. -/
theorem foldlM_addRow_siblings {t : Table} (hnames : c.NamesApart t) {rows : List Row} {g' : Graph}
    {S : List Appearance} {F : List Tree} (hl : Labeled g labels)
    (hs : Siblings c g labels "" [t] S F) (hroots : g.roots = F.map Tree.node)
    (h : rows.foldlM (Graph.addRow c t) g = .ok g') :
    ∃ labels' F', Labeled g' labels' ∧
      Siblings c g' labels' "" [t] (S ++ rows.filterMap (Sight.readRow c t)) F' ∧
      g'.roots = F'.map Tree.node := by
  induction rows generalizing g labels S F with
  | nil =>
    obtain rfl : g = g' := Except.ok.inj h
    exact ⟨labels, F, hl, by simpa using hs, hroots⟩
  | cons row rest ih =>
    rw [List.foldlM_cons] at h
    cases ha : Graph.addRow c t g row with
    | error e => rw [ha] at h; exact nomatch h
    | ok g₁ =>
      rw [ha] at h
      rcases addRow_cases ha with ⟨hnone, rfl⟩ | ⟨o, s, g₂, ho, hadd, rfl⟩
      · rw [List.filterMap_cons_none hnone]
        exact ih hl hs hroots h
      · obtain ⟨htable, -, hof⟩ := ofRow_seenIn ho
        obtain ⟨labels₂, F₂, hl₂, hs₂, hext, hlinks⟩ := hof.grows 0 hl hs (tablesApart_singleton t)
          (fun u hu => by rwa [List.mem_singleton.mp hu]) (List.mem_singleton.mpr htable) hadd
        have hread : Sight.readRow c t row = some (0, o) := by rw [Sight.readRow, ho]
        rw [List.filterMap_cons_some hread, List.append_cons]
        refine ih (hl₂.withRoots _) (hs₂.withRoots _) ?_ h
        have hnodes : ∀ F : List Tree, F.map Tree.node = (F.map Tree.link).map Prod.snd := by
          intro F
          rw [List.map_map]
          rfl
        rw [hnodes, hlinks, List.map_append, ← hnodes, ← hroots, hext.roots]

/-- The graph that rows give always gives its objects. -/
theorem assemble_of_ofRows {t : Table} (hnames : c.NamesApart t) {rows : List Row}
    (h : Graph.ofRows c t rows = .ok g) :
    ∃ (labels : List String) (F : List Tree) (nodes : List Object),
      Siblings c g labels "" [t] (rows.filterMap (Sight.readRow c t)) F ∧
      g.assemble = .ok ((F.map Tree.node).map fun n => nodes.getD n default) ∧
      ∀ {n : Nat} {node}, g.nodes[n]? = some node → nodes.getD n default =
        node.filled (node.children.map fun x => (x.1, nodes.getD x.2 default)) := by
  have hempty : Labeled {} [] := ⟨rfl, by simp, by simp⟩
  obtain ⟨labels, F, hl, hs, hroots⟩ :=
    foldlM_addRow_siblings hnames hempty (siblings_nil (by simp)) rfl h
  obtain ⟨nodes, hassemble, hnodes⟩ := hl.assemble fun n hn => by
    rw [hroots] at hn
    obtain ⟨tr, htr, rfl⟩ := List.mem_map.mp hn
    rw [← hl.length]
    exact (List.getElem?_eq_some_iff.mp (hs.grown tr htr).label).1
  exact ⟨labels, F, nodes, by simpa using hs, hroots ▸ hassemble, hnodes⟩

/-- Where the rows can be read there is a result. -/
theorem exists_materialize_of_ofRows {t : Table} (hnames : c.NamesApart t) {rows : List Row}
    (h : Graph.ofRows c t rows = .ok g) : ∃ objects, materialize c t rows = .ok objects := by
  obtain ⟨labels, F, nodes, -, hassemble, -⟩ := assemble_of_ofRows hnames h
  refine ⟨(F.map Tree.node).map fun n => nodes.getD n default, ?_⟩
  unfold materialize
  rw [h]
  simp only [hassemble]

/-- **The objects of a result are those of its groups of rows**, in the order in which they are
first seen. -/
theorem materialize_eq {t : Table} (hnames : c.NamesApart t) {rows : List Row}
    {objects : List Object} (h : materialize c t rows = .ok objects) :
    objects = (t.rootGroups rows).map (c.object t) := by
  unfold materialize at h
  cases hg : Graph.ofRows c t rows with
  | error e => rw [hg] at h; exact nomatch h
  | ok g =>
    obtain ⟨labels, F, nodes, hs, hassemble, hnodes⟩ := assemble_of_ofRows hnames hg
    rw [hg] at h
    simp only [hassemble, Except.ok.injEq] at h
    rw [← h, List.map_map, ← map_ofRow_firstSeen, List.map_map]
    have hmatch := List.forall₂_map_left_iff.mp (hs.gathered.matches (Sight.readsRow c t))
    have hmatch := (List.forall₂_and_left _ _).mpr ⟨fun tr htr => htr, hmatch⟩
    rw [← List.forall₂_eq_eq_eq, List.forall₂_map_left_iff, List.forall₂_map_right_iff]
    refine hmatch.imp fun tr r htr => ?_
    have htable := (hs.known _ (hs.gathered.first_mem htr.1)).1
    rw [Function.comp_apply, Function.comp_apply, ← List.mem_singleton.mp htable]
    refine (hs.grown tr htr.1).object_eq hnodes ?_
    rw [List.forall₂_map_right_iff]
    exact htr.2.imp fun x row hx => ((Sight.readsRow c t).shown hx).2.2

end EntityMapper
