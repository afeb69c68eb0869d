import EntityMapper.Proofs.Graph.Distinct

/-!
# Associations that share a type

An object below another is found by its type and its key, not by the association it is seen
through. Where two associations of a table lead to one type they share what is seen: an object
belongs to the association through which it is seen first, and the other goes without it.

* `materialize_carried` — the keys that each association gets, and when a key that is carried under
  its prefix is among them
* `materialize_carried_league` — a game of a team against itself has no away team
-/

namespace EntityMapper

variable {c : Catalog} {t : Table}

/-! ## Keys in the order in which they are seen -/

/-- The type and the key of what is seen, if an object with a key can be made of it. -/
def Sight.key? (s : Sight) : Option (String × List KeyPart) :=
  if s.opens then (s.table.groupKey? s.view).map fun k => (s.table.entity, k) else none

/-- The place of the association through which an object is seen first. -/
def Catalog.firstPlace (c : Catalog) (t : Table) (g : List View) (e : String × List KeyPart) :
    Option Nat :=
  ((c.sights t g).find? fun s => s.key? == some e).map Sight.place

/-- The keys of a type that are seen first through the association of a place, each once, in the
order in which they are seen: row by row, and in a row association by association. -/
def Catalog.keysThrough (c : Catalog) (t : Table) (g : List View) (place : Nat) (entity : String) :
    List (List KeyPart) :=
  ((((c.sights t g).filterMap Sight.key?).eraseDups).filter fun e =>
    e.1 == entity && c.firstPlace t g e == some place).map Prod.snd

/-- What is collected for an association: the objects seen first through it, with their keys. -/
def Catalog.collected (c : Catalog) (t : Table) (g : List View) (place : Nat) (target : Table) :
    List (List KeyPart × Object) :=
  (c.seenThrough t g place).filterMap fun r =>
    (r.head?.bind target.groupKey?).map fun k => (k, c.object target r)

namespace Sight

theorem key?_eq_some {s : Sight} {e : String × List KeyPart} :
    s.key? = some e ↔
      s.opens = true ∧ s.table.entity = e.1 ∧ s.table.groupKey? s.view = some e.2 := by
  unfold key?
  split
  · next h =>
    rw [Option.map_eq_some_iff]
    constructor
    · rintro ⟨k, hk, rfl⟩
      exact ⟨h, rfl, hk⟩
    · rintro ⟨-, he, hk⟩
      exact ⟨e.2, hk, by rw [he]⟩
  · next h => simp [h]

/-- What is the same has the key, if an object can be made of it. -/
theorem key?_of_same {s r : Sight} {e : String × List KeyPart} (hs : s.key? = some e)
    (hr : r.opens = true) : r.key? = some e ↔ s.same r = true := by
  obtain ⟨-, hentity, hk⟩ := key?_eq_some.mp hs
  rw [key?_eq_some, same, hk]
  simp only [Bool.and_eq_true, beq_iff_eq, hr, true_and, ← hentity]
  rw [eq_comm]

theorem not_same_of_key?_eq_none {s r : Sight} (hs : s.key? = none) (ho : s.opens = true) :
    s.same r = false := by
  rw [key?, if_pos ho, Option.map_eq_none_iff] at hs
  rw [same, hs, Bool.and_false]

end Sight

/-- What is not the same as a sight has the other keys. -/
theorem filterMap_unlike {s : Sight} {e : String × List KeyPart} (hs : s.key? = some e)
    (l : List Sight) :
    (unlike Sight.same s l).filterMap Sight.key? =
      (l.filterMap Sight.key?).filter fun e' => !(e' == e) := by
  induction l with
  | nil => rfl
  | cons r l ih =>
    have ih : (l.filter fun y => !s.same y).filterMap Sight.key? = _ := ih
    rw [unlike, List.filter_cons]
    cases hr : r.key? with
    | none =>
      rw [List.filterMap_cons_none hr]
      split
      · rw [List.filterMap_cons_none hr, ih]
      · exact ih
    | some e' =>
      have hopens := (Sight.key?_eq_some.mp hr).1
      rw [List.filterMap_cons_some hr, List.filter_cons]
      by_cases he : e' = e
      · subst he
        rw [if_neg (by simp [(Sight.key?_of_same hs hopens).mp hr]), if_neg (by simp), ih]
      · have hne : s.same r = false := by
          by_contra hsame
          have := (Sight.key?_of_same hs hopens).mpr ((Bool.not_eq_false _).mp hsame)
          exact he (Option.some.inj (hr.symm.trans this))
        rw [if_pos (by rw [hne]; rfl), if_pos (by simpa using he), List.filterMap_cons_some hr, ih]

/-- **The groups have the keys that are seen, each once.** -/
theorem filterMap_head_firstSeen (l : List Sight) :
    ((firstSeen Sight.same Sight.opens l).filterMap fun r => r.head?.bind Sight.key?) =
      (l.filterMap Sight.key?).eraseDups := by
  induction l using firstSeen.induct Sight.same Sight.opens with
  | case1 => simp
  | case2 s rest hs ih =>
    rw [firstSeen_cons_of_opens hs]
    cases hk : s.key? with
    | none =>
      have hunlike : unlike Sight.same s rest = rest :=
        List.filter_eq_self.mpr fun r _ => by rw [Sight.not_same_of_key?_eq_none hk hs]; rfl
      rw [List.filterMap_cons_none (by rw [List.head?_cons, Option.bind_some, hk]),
        List.filterMap_cons_none hk, ih, hunlike]
    | some e =>
      rw [List.filterMap_cons_some (by rw [List.head?_cons, Option.bind_some, hk]),
        List.filterMap_cons_some hk, ih, filterMap_unlike hk, List.eraseDups_cons]
  | case3 s rest hs ih =>
    have hk : s.key? = none := by rw [Sight.key?, if_neg hs]
    rw [firstSeen_cons_of_not (by simpa using hs), List.filterMap_cons_none hk, ih]

/-- The head of a group is where its key is seen first. -/
theorem find?_of_mem_firstSeen {l : List Sight} {r : List Sight}
    (hr : r ∈ firstSeen Sight.same Sight.opens l) {s : Sight} (hs : r.head? = some s)
    {e : String × List KeyPart} (he : s.key? = some e) :
    (l.find? fun s => s.key? == some e) = some s := by
  induction l using firstSeen.induct Sight.same Sight.opens with
  | case1 => simp at hr
  | case2 x rest hx ih =>
    rw [firstSeen_cons_of_opens hx, List.mem_cons] at hr
    rcases hr with rfl | hr
    · obtain rfl : x = s := by simpa using hs
      rw [List.find?_cons_of_pos (by simpa using he)]
    · have hmem : s ∈ unlike Sight.same x rest :=
        mem_of_mem_firstSeen hr (List.mem_of_mem_head? hs)
      have hnot : x.same s = false := by simpa [unlike] using (List.mem_filter.mp hmem).2
      have hopens := (Sight.key?_eq_some.mp he).1
      have hxe : x.key? ≠ some e := fun hxe => by
        rw [(Sight.key?_of_same hxe hopens).mp he] at hnot
        cases hnot
      rw [List.find?_cons_of_neg (by simpa using hxe), ← ih hr, unlike]
      -- what is the same as `x` has another key or none
      rw [List.find?_filter]
      refine congrArg (fun p => rest.find? p) (funext fun y => ?_)
      cases hy : y.key? == some e with
      | false => simp
      | true =>
        have hye : y.key? = some e := by simpa using hy
        have : x.same y = false := by
          by_contra hsame
          cases hxk : x.key? with
          | none =>
            rw [Sight.not_same_of_key?_eq_none hxk hx] at hsame
            exact hsame rfl
          | some e' =>
            have := (Sight.key?_of_same hxk (Sight.key?_eq_some.mp hye).1).mpr
              ((Bool.not_eq_false _).mp hsame)
            rw [hye] at this
            exact hxe (hxk.trans this.symm)
        simp [this]
  | case3 x rest hx ih =>
    rw [firstSeen_cons_of_not (by simpa using hx)] at hr
    have hxk : x.key? = none := by rw [Sight.key?, if_neg hx]
    rw [List.find?_cons_of_neg (by simp [hxk])]
    exact ih hr

/-! ## What an association collects -/

section Collected

variable {a : String × Association} {p : Nat} {g : List View}

/-- The groups of an association start with a view through it, which has a key. -/
theorem exists_of_mem_seenThrough (ha : t.associations[p]? = some a)
    (hkey : (c.table a.2.target).hasPrimaryKey = true) {r : List Sight}
    (hr : r ∈ firstSeen Sight.same Sight.opens (c.sights t g))
    (hp : (r.head?.any fun s => s.place == p) = true) :
    ∃ s, ∃ v ∈ g, ∃ k, r.head? = some s ∧ s.place = p ∧ s.view = v.through a.1 ∧
      s.key? = some ((c.table a.2.target).entity, k) ∧ (c.table a.2.target).groupKey? (v.through a.1) = some k ∧
      (c.table a.2.target).keyReads (v.through a.1) = true := by
  obtain ⟨s, more, rfl, hs, -, hmem⟩ := exists_of_mem_firstSeen hr
  obtain ⟨v, hv, hsv⟩ := List.mem_flatMap.mp (hmem s List.mem_cons_self)
  obtain ⟨⟨b, q⟩, hb, rfl⟩ := List.mem_map.mp hsv
  obtain rfl : q = p := by simpa using hp
  have hb := List.mem_zipIdx_iff_getElem?.mp hb
  rw [ha, Option.some.injEq] at hb
  subst hb
  have hopens := hs
  unfold Sight.opens Table.opens at hopens
  rw [if_pos hkey, Bool.and_eq_true] at hopens
  obtain ⟨k, hk⟩ := Option.isSome_iff_exists.mp hopens.1
  refine ⟨_, v, hv, k, rfl, rfl, rfl, ?_, hk, hopens.2⟩
  exact Sight.key?_eq_some.mpr ⟨hs, rfl, hk⟩

theorem map_snd_collected (ha : t.associations[p]? = some a)
    (hkey : (c.table a.2.target).hasPrimaryKey = true) :
    (c.collected t g p (c.table a.2.target)).map Prod.snd =
      (c.seenThrough t g p).map (c.object (c.table a.2.target)) := by
  unfold Catalog.collected
  rw [List.map_filterMap, ← List.filterMap_eq_map]
  refine List.filterMap_congr fun r hr => ?_
  obtain ⟨q, hq, rfl⟩ := List.mem_map.mp hr
  obtain ⟨hmem, hp⟩ := List.mem_filter.mp hq
  obtain ⟨s, v, -, k, hhead, -, hview, -, hk, -⟩ := exists_of_mem_seenThrough ha hkey hmem hp
  rw [List.head?_map, hhead, Option.map_some, Option.bind_some, hview, hk]
  rfl

/-- **The keys that an association gets** are those seen first through it. -/
theorem map_fst_collected (ha : t.associations[p]? = some a)
    (hkey : (c.table a.2.target).hasPrimaryKey = true) :
    (c.collected t g p (c.table a.2.target)).map Prod.fst =
      c.keysThrough t g p (c.table a.2.target).entity := by
  unfold Catalog.collected Catalog.keysThrough Catalog.seenThrough
  rw [← filterMap_head_firstSeen, List.filterMap_map, List.map_filterMap]
  suffices h : ∀ H : List (List Sight),
      (∀ r ∈ H, r ∈ firstSeen Sight.same Sight.opens (c.sights t g)) →
      (H.filter fun r => r.head?.any fun s => s.place == p).filterMap
        (fun r => ((r.map Sight.view).head?.bind (c.table a.2.target).groupKey?)) =
      ((H.filterMap fun r => r.head?.bind Sight.key?).filter fun e =>
        e.1 == (c.table a.2.target).entity && c.firstPlace t g e == some p).map Prod.snd by
    refine Eq.trans (List.filterMap_congr fun r _ => ?_) (h _ fun r hr => hr)
    simp [Function.comp_def]
  intro H hall
  induction H with
  | nil => rfl
  | cons r H ih =>
    have ih := ih fun q hq => hall q (List.mem_cons_of_mem _ hq)
    have hr := hall r List.mem_cons_self
    rw [List.filter_cons]
    cases hp : r.head?.any fun s => s.place == p with
    | true =>
      obtain ⟨s, v, -, k, hhead, hplace, hview, hs, hk, -⟩ :=
        exists_of_mem_seenThrough ha hkey hr hp
      -- the sight that shows a key first is the head of its group
      have hfirst : c.firstPlace t g ((c.table a.2.target).entity, k) = some p := by
        rw [Catalog.firstPlace, find?_of_mem_firstSeen hr hhead hs, Option.map_some, hplace]
      rw [if_pos rfl, List.filterMap_cons_some (b := k),
        List.filterMap_cons_some (b := ((c.table a.2.target).entity, k)),
        List.filter_cons_of_pos (by simp [hfirst]), List.map_cons, ih]
      · rw [hhead, Option.bind_some, hs]
      · rw [List.head?_map, hhead, Option.map_some, Option.bind_some, hview, hk]
    | false =>
      rw [if_neg (by decide), ih]
      cases hkr : r.head?.bind Sight.key? with
      | none =>
        rw [List.filterMap_cons_none (f := fun r : List Sight => r.head?.bind Sight.key?) hkr]
      | some e =>
        obtain ⟨s, hhead, hs⟩ := Option.bind_eq_some_iff.mp hkr
        have hfirst : c.firstPlace t g e = some s.place := by
          rw [Catalog.firstPlace, find?_of_mem_firstSeen hr hhead hs, Option.map_some]
        have hne : s.place ≠ p := by simpa [hhead] using hp
        rw [List.filterMap_cons_some (f := fun r : List Sight => r.head?.bind Sight.key?) hkr,
          List.filter_cons_of_neg (by simp [hfirst, hne])]

/-- A key that a view carries is among them where no other association showed it before. -/
theorem mem_keysThrough_iff (ha : t.associations[p]? = some a)
    (hkey : (c.table a.2.target).hasPrimaryKey = true) {v : View} (hv : v ∈ g) {k : List KeyPart}
    (hk : (c.table a.2.target).groupKey? (v.through a.1) = some k)
    (hreads : (c.table a.2.target).keyReads (v.through a.1) = true) :
    k ∈ c.keysThrough t g p (c.table a.2.target).entity ↔
      c.firstPlace t g ((c.table a.2.target).entity, k) = some p := by
  have hsight : ((c.table a.2.target).entity, k) ∈ (c.sights t g).filterMap Sight.key? := by
    refine List.mem_filterMap.mpr ⟨⟨p, c.table a.2.target, v.through a.1⟩, ?_, ?_⟩
    · refine List.mem_flatMap.mpr ⟨v, hv, List.mem_map.mpr ⟨(a, p), ?_, rfl⟩⟩
      exact List.mem_zipIdx_iff_getElem?.mpr ha
    · refine Sight.key?_eq_some.mpr ⟨?_, rfl, hk⟩
      unfold Sight.opens Table.opens
      rw [if_pos hkey, hk, hreads]
      rfl
  unfold Catalog.keysThrough
  rw [List.mem_map]
  constructor
  · rintro ⟨⟨entity, l⟩, he, rfl⟩
    have he := (List.mem_filter.mp he).2
    rw [Bool.and_eq_true, beq_iff_eq, beq_iff_eq] at he
    rw [← he.1]
    exact he.2
  · intro hfirst
    refine ⟨((c.table a.2.target).entity, k), List.mem_filter.mpr ⟨List.mem_eraseDups.mpr hsight, ?_⟩, rfl⟩
    rw [hfirst]
    simp

end Collected

/-- **The keys that associations get.** Whatever the other associations of a table are, an
association collects, each once and in the order in which they are seen, the objects of the keys
that are seen first through it, behind what a fresh object holds there; a to-one association keeps
the last of all. So a usable key that a row carries under the prefix of an association gives it an
object exactly where no other association to the same type showed that key before. -/
theorem materialize_carried (hnames : c.NamesApart t) {rows : List Row} {objects : List Object}
    (h : materialize c t rows = .ok objects) :
    objects = (t.rootGroups rows).map (c.object t) ∧
    ∀ (u : Table) (g : List View) (p : Nat) (a : String × Association),
      u.associations[p]? = some a → (c.table a.2.target).hasPrimaryKey = true →
      (c.object u g).children[p]? = some
        (a.2.cardinality.keep (u.initialChildren p)
          ((c.collected u g p (c.table a.2.target)).map Prod.snd)) ∧
      (c.collected u g p (c.table a.2.target)).map Prod.fst =
        c.keysThrough u g p (c.table a.2.target).entity ∧
      (∀ x ∈ c.collected u g p (c.table a.2.target), ∃ v ∈ g,
        (c.table a.2.target).groupKey? (v.through a.1) = some x.1 ∧
        (c.table a.2.target).keyReads (v.through a.1) = true ∧
        x.2.values = ((c.table a.2.target).seen (v.through a.1)).values) ∧
      ∀ v ∈ g, ∀ k, (c.table a.2.target).groupKey? (v.through a.1) = some k →
        (c.table a.2.target).keyReads (v.through a.1) = true →
        (k ∈ (c.collected u g p (c.table a.2.target)).map Prod.fst ↔
          c.firstPlace u g ((c.table a.2.target).entity, k) = some p) := by
  refine ⟨materialize_eq hnames h, fun u g p a ha hkey => ⟨?_, map_fst_collected ha hkey, ?_, ?_⟩⟩
  · rw [map_snd_collected ha hkey, c.object_eq]
    show (u.associations.zipIdx.map _)[p]? = _
    rw [List.getElem?_map, List.getElem?_zipIdx, ha, Option.map_some, Option.map_some, Nat.zero_add]
  · intro x hx
    obtain ⟨r, hr, hx⟩ := List.mem_filterMap.mp hx
    obtain ⟨q, hq, rfl⟩ := List.mem_map.mp hr
    obtain ⟨hmem, hp⟩ := List.mem_filter.mp hq
    obtain ⟨s, v, hv, k, hhead, -, hview, -, hk, hreads⟩ :=
      exists_of_mem_seenThrough ha hkey hmem hp
    rw [List.head?_map, hhead, Option.map_some, Option.bind_some, hview, hk, Option.map_some,
      Option.some.injEq] at hx
    subst hx
    refine ⟨v, hv, hk, hreads, ?_⟩
    rw [c.object_eq]
    show (Table.seenFirst _ _).values = _
    rw [Table.seenFirst, List.head?_map, hhead, Option.map_some, Option.elim_some, hview]
  · intro v hv k hk hreads
    rw [map_fst_collected ha hkey]
    exact mem_keysThrough_iff ha hkey hv hk hreads

/-! ## A league -/

namespace League

/-- Teams with a number. -/
def team : Table where
  entity := "Team"
  tableName := "teams"
  fields := [.ofType "id" { scalar := .int .int64 } { primaryKey := true }]

/-- Games of two teams. -/
def game : Table where
  entity := "Game"
  tableName := "games"
  fields := [.ofType "id" { scalar := .int .int64 } { primaryKey := true },
    .ofAssociation "home" ⟨.one, "home_id", "id", "Team"⟩,
    .ofAssociation "away" ⟨.one, "away_id", "id", "Team"⟩]

/-- Games and teams. -/
def catalog : Catalog := ⟨[game, team]⟩

/-- The row of a game. -/
def row (game home away : Int64) : Row :=
  Row.ofColumns [("id", .int game), ("home_id", .int home), ("away_id", .int away)]

end League

/-- A game of a team against itself has a home team and no away team, though the row carries the
key of both. -/
theorem materialize_carried_league :
    ∃ objects, materialize League.catalog League.game [League.row 1 7 7] = .ok objects ∧
      objects.map (fun o => o.children.map fun kids => kids.map Object.values) =
        [[[[.int 7]], []]] ∧
      objects = (League.game.rootGroups [League.row 1 7 7]).map
        (League.catalog.object League.game) ∧
      League.catalog.keysThrough League.game [.ofRow (League.row 1 7 7)] 0 "Team" = [[some "7"]] ∧
      League.catalog.keysThrough League.game [.ofRow (League.row 1 7 7)] 1 "Team" = [] := by
  have hok : (materialize League.catalog League.game [League.row 1 7 7]).isOk = true := by
    decide +kernel
  have hvalues : (materialize League.catalog League.game [League.row 1 7 7]).toOption.map
      (fun objects => objects.map fun o => o.children.map fun kids => kids.map Object.values) =
        some [[[[.int 7]], []]] := by
    decide +kernel
  obtain ⟨objects, h⟩ := exists_of_isOk hok
  rw [h] at hvalues
  refine ⟨objects, h, Option.some.inj hvalues, ?_, by decide +kernel, by decide +kernel⟩
  exact (materialize_carried (Catalog.namesApart_of_tables (by decide +kernel)) h).1

end EntityMapper
