import EntityMapper.Proofs.Graph.Consistent
import EntityMapper.Proofs.Graph.Roots
import EntityMapper.Proofs.Join.Alike

/-!
# The order of rows

Rows that agree give the same objects in whatever order they come. The order decides only in which
order objects come up, and with it the order of the roots and of the objects under each association.

* `Object.Rearranged` — one object, but for the order of what it leads to
* `groups_perm` — rows in another order have the same groups, in another order
* `grouped_perm` — the object of a group of rows in another order
* `materialize_perm` — rows in another order
* `order_decides` — what the order decides for types of one name and for zeros of both signs
-/

namespace EntityMapper

variable {c : Catalog} {t : Table} {g g' : List View}

/-! ## Objects that differ in order -/

/-- An object with the columns of another one, and under each association the same objects in
another order, down to the last of them. Where an association leads to one object there is no
order to differ in. -/
inductive Object.Rearranged : Object → Object → Prop
  | mk {o p : Object} {between : List (List Object)} (own : p.Completes o)
      (moved : List.Forall₂ List.Perm o.children between)
      (each : List.Forall₂ (List.Forall₂ Object.Rearranged) between p.children) :
      Object.Rearranged o p

/-- The same objects in another order, down to the last of them. -/
def Object.Reordered (os ps : List Object) : Prop :=
  ∃ between, os.Perm between ∧ List.Forall₂ Object.Rearranged between ps

theorem Object.rearranged_of_children {o p : Object} (own : p.Completes o)
    (h : List.Forall₂ Object.Reordered o.children p.children) : o.Rearranged p := by
  have hbetween : ∃ between, List.Forall₂ List.Perm o.children between ∧
      List.Forall₂ (List.Forall₂ Object.Rearranged) between p.children := by
    clear own
    generalize o.children = kids, p.children = kids' at h
    induction h with
    | nil => exact ⟨[], .nil, .nil⟩
    | cons hkids _ ih =>
      obtain ⟨first, hperm, heach⟩ := hkids
      obtain ⟨rest, hperms, heachs⟩ := ih
      exact ⟨first :: rest, .cons hperm hperms, .cons heach heachs⟩
  obtain ⟨between, hmoved, heach⟩ := hbetween
  exact .mk own hmoved heach

/-- An object is itself in another order. -/
theorem Object.rearranged_refl : ∀ o : Object, o.Rearranged o
  | ⟨typeId, values, children, unmapped⟩ => by
    refine .mk rfl (List.forall₂_same.mpr fun kids _ => List.Perm.refl kids) ?_
    refine List.forall₂_same.mpr fun kids hkids => List.forall₂_same.mpr fun kid hkid => ?_
    have hkids : sizeOf kids < sizeOf children := List.sizeOf_lt_of_mem hkids
    exact rearranged_refl kid
  decreasing_by
    have hkid : sizeOf kid < sizeOf kids := List.sizeOf_lt_of_mem hkid
    simp only [Object.mk.sizeOf_spec]
    omega

/-- What an association keeps of objects in another order, behind those that it held at first. -/
theorem Object.Reordered.keep {os ps : List Object} (h : Object.Reordered os ps)
    {cardinality : Cardinality} (hone : cardinality = .one → os.length ≤ 1)
    (initial : List Object) :
    Object.Reordered (cardinality.keep initial os) (cardinality.keep initial ps) := by
  have hsame : List.Forall₂ Object.Rearranged initial initial :=
    List.forall₂_same.mpr fun o _ => o.rearranged_refl
  obtain ⟨between, hperm, heach⟩ := h
  cases cardinality with
  | many => exact ⟨initial ++ between, hperm.append_left initial, List.rel_append hsame heach⟩
  | one =>
    match os, hone rfl with
    | [], _ =>
      obtain rfl := hperm.nil_eq
      cases heach
      exact ⟨initial, .refl _, hsame⟩
    | [o], _ =>
      obtain rfl := List.singleton_perm.mp hperm
      cases heach with
      | cons ho hrest =>
        cases hrest
        exact ⟨[o], .refl _, .cons ho .nil⟩

/-! ## Views of one object -/

/-- Views that show one object and agree on it. -/
structure Catalog.OneObject (c : Catalog) (t : Table) (g : List View) : Prop where
  opens : ∀ v ∈ g, t.opens v = true
  same : ∀ v ∈ g, ∀ w ∈ g, t.sameObject v w = true
  concord : ∀ v ∈ g, ∀ w ∈ g, c.Concords t v w

namespace Catalog.OneObject

theorem agree (h : c.OneObject t g) {v w : View} (hv : v ∈ g) (hw : w ∈ g) : c.Agree t v w :=
  (h.concord v hv w hw).agree (h.opens v hv) (h.same v hv w hw)

/-- The first view does not matter. -/
theorem seenFirst_eq (h : c.OneObject t g) (hperm : g.Perm g') :
    t.seenFirst g' = t.seenFirst g := by
  unfold Table.seenFirst
  cases g with
  | nil => rw [hperm.nil_eq]
  | cons v g =>
    cases g' with
    | nil => exact nomatch hperm.symm.nil_eq
    | cons w g' =>
      have hw : w ∈ v :: g := hperm.mem_iff.mpr List.mem_cons_self
      exact (h.agree List.mem_cons_self hw).columns.seen_eq.symm

/-- What is seen below an object agrees. -/
theorem below (h : c.OneObject t g) {a : String × Association} (ha : a ∈ t.associations) :
    ∀ v ∈ g.map fun v => v.through a.1, ∀ w ∈ g.map fun v => v.through a.1,
      c.Concords (c.table a.2.target) v w := by
  intro v hv w hw
  obtain ⟨v₀, hv₀, rfl⟩ := List.mem_map.mp hv
  obtain ⟨w₀, hw₀, rfl⟩ := List.mem_map.mp hw
  exact (h.concord v₀ hv₀ w₀ hw₀).through (h.opens v₀ hv₀) (h.same v₀ hv₀ w₀ hw₀) ha

theorem perm (h : c.OneObject t g) (hperm : g.Perm g') : c.OneObject t g' where
  opens := fun v hv => h.opens v (hperm.mem_iff.mpr hv)
  same := fun v hv w hw => h.same v (hperm.mem_iff.mpr hv) w (hperm.mem_iff.mpr hw)
  concord := fun v hv w hw => h.concord v (hperm.mem_iff.mpr hv) w (hperm.mem_iff.mpr hw)

/-- An association that leads to one object is given no more of them. -/
theorem length_groups_le (h : c.OneObject t g) {a : String × Association} (ha : a ∈ t.associations)
    (hone : a.2.cardinality = .one) :
    ((c.table a.2.target).groups (g.map fun v => v.through a.1)).length ≤ 1 := by
  refine length_firstSeen_le_one fun v hv w hw hvopens hwopens => ?_
  obtain ⟨v₀, hv₀, rfl⟩ := List.mem_map.mp hv
  obtain ⟨w₀, hw₀, rfl⟩ := List.mem_map.mp hw
  exact (h.agree hv₀ hw₀).one a ha hone hvopens hwopens

end Catalog.OneObject

/-! ## Groups -/

theorem exists_groupKey?_of_opens (hkey : t.hasPrimaryKey = true) {v : View}
    (h : t.opens v = true) : ∃ k, t.groupKey? v = some k := by
  rw [Table.opens, if_pos hkey, Bool.and_eq_true] at h
  exact Option.isSome_iff_exists.mp h.1

section Groups

variable {vs vs' : List View} (hconcord : ∀ v ∈ vs, ∀ w ∈ vs, c.Concords t v w)
  (hkey : t.hasPrimaryKey = true)

include hconcord hkey

/-- The views of a group show one object. -/
theorem oneObject_of_mem_groups (hg : g ∈ t.groups vs) : c.OneObject t g := by
  obtain ⟨x, more, rfl, hopens, hmore, hmem⟩ := exists_of_mem_firstSeen hg
  obtain ⟨k, hk⟩ := exists_groupKey?_of_opens hkey hopens
  have hkeys : ∀ v ∈ x :: more, t.groupKey? v = some k := by
    intro v hv
    rcases List.mem_cons.mp hv with rfl | hv
    · exact hk
    · obtain ⟨l, hl, hv⟩ := Table.sameObject_iff.mp (hmore v hv)
      rwa [← hk.symm.trans hl] at hv
  have hsame : ∀ v ∈ x :: more, ∀ w ∈ x :: more, t.sameObject v w = true := fun v hv w hw =>
    Table.sameObject_iff.mpr ⟨k, hkeys v hv, hkeys w hw⟩
  refine ⟨fun v hv => ?_, hsame, fun v hv w hw => hconcord v (hmem v hv) w (hmem w hw)⟩
  have hx : x ∈ x :: more := List.mem_cons_self
  rw [← (hconcord x (hmem x hx) v (hmem v hv)).opens_eq (hconcord v (hmem v hv) x (hmem x hx))
    (hsame x hx v hv)]
  exact hopens

/-- **Views in another order have the same groups**, in another order. -/
theorem groups_perm (hperm : vs.Perm vs') :
    ∃ between, (t.groups vs).Perm between ∧ List.Forall₂ List.Perm between (t.groups vs') := by
  refine firstSeen_perm (K := t.groupKey?) hperm (fun v hv w hw hsame => ?_) fun v _ w _ hv _ => ?_
  · exact (hconcord v hv w hw).opens_eq (hconcord w hw v hv) hsame
  · obtain ⟨k, hk⟩ := exists_groupKey?_of_opens hkey hv
    rw [Table.sameObject, hk]

/-- The objects of groups that come in another order. -/
theorem reordered_map_groups (hperm : vs.Perm vs') {f : List View → Object}
    (hf : ∀ g ∈ t.groups vs, ∀ g', g.Perm g' → (f g).Rearranged (f g')) :
    Object.Reordered ((t.groups vs).map f) ((t.groups vs').map f) := by
  obtain ⟨between, hgroups, hviews⟩ := groups_perm hconcord hkey hperm
  refine ⟨between.map f, hgroups.map f, ?_⟩
  rw [List.forall₂_map_left_iff, List.forall₂_map_right_iff]
  have hmem := (List.forall₂_and_left _ _).mpr ⟨fun g hg => hg, hviews⟩
  exact hmem.imp fun g g' h => hf g (hgroups.mem_iff.mpr h.1) g' h.2

end Groups

/-! ## Objects of groups -/

/-- **Views of one object in another order give the object with what it leads to rearranged.** -/
theorem grouped_perm (hkeyed : c.AllKeyed t) (h : c.OneObject t g) (hperm : g.Perm g') :
    (c.grouped t g).Rearranged (c.grouped t g') := by
  -- what is below an object has less room
  induction hn : roomOf g using Nat.strongRecOn generalizing t g g' with
  | _ n ih =>
    refine Object.rearranged_of_children ?_ ?_
    · rw [c.grouped_eq t g, c.grouped_eq t g', Object.Completes, h.seenFirst_eq hperm]
    · rw [c.grouped_eq t g, c.grouped_eq t g']
      rw [List.forall₂_map_left_iff, List.forall₂_map_right_iff, List.forall₂_same]
      intro x hx
      have ha : x.1 ∈ t.associations :=
        List.mem_of_getElem? (List.mem_zipIdx_iff_getElem?.mp hx)
      have hbelow := hkeyed.of_mem (List.mem_map_of_mem ha)
      have hkey := hbelow _ (.refl _)
      refine Object.Reordered.keep ?_ (fun hone => ?_) _
      case refine_2 =>
        rw [List.length_map]
        exact h.length_groups_le ha hone
      refine reordered_map_groups (h.below ha) hkey (hperm.map _) fun m hm m' hm' => ?_
      exact ih _ (hn ▸ Table.roomOf_lt_of_mem_groups hm) hbelow
        (oneObject_of_mem_groups (h.below ha) hkey hm) hm' rfl

/-! ## Results -/

/-- **The order of rows decides only order.** In tables that all have keys, with associations that
lead to types of different names, rows that agree give objects or fail in whatever order they come, and the
objects are the same but for the order of the roots and of what each object leads to. -/
theorem materialize_perm (hnames : c.NamesApart t) (hdistinct : c.TargetsDistinct t)
    (hkeyed : c.AllKeyed t) {rows rows' : List Row} (hconcord : c.RowsConcord t rows)
    (hperm : rows.Perm rows') :
    ((∃ os, materialize c t rows = .ok os) ↔ ∃ ps, materialize c t rows' = .ok ps) ∧
      ∀ {os ps}, materialize c t rows = .ok os → materialize c t rows' = .ok ps →
        Object.Reordered os ps := by
  constructor
  · rw [exists_materialize_iff hnames hkeyed (hconcord.concordant hdistinct),
      exists_materialize_iff hnames hkeyed ((hconcord.perm hperm).concordant hdistinct)]
    exact forall_congr' fun row => by rw [hperm.mem_iff]
  · intro os ps hos hps
    have hkey := hkeyed t (.refl t)
    have hviews : ∀ v ∈ rows.map View.ofRow, ∀ w ∈ rows.map View.ofRow, c.Concords t v w := by
      simpa [Catalog.RowsConcord] using hconcord
    rw [materialize_grouped hnames hdistinct hos, materialize_grouped hnames hdistinct hps,
      Table.rootGroups, Table.rootGroups, if_pos hkey, if_pos hkey]
    exact reordered_map_groups hviews hkey (hperm.map _) fun g hg g' hg' =>
      grouped_perm hkeyed (oneObject_of_mem_groups hviews hkey hg) hg'

/-- Rows of a table whose associations lead no further agree if the views of one object do, of the
table and through each association. -/
theorem Catalog.rowsConcord_of_leaves {rows : List Row}
    (hroot : ∀ r ∈ rows, ∀ s ∈ rows, t.sameObject (.ofRow r) (.ofRow s) = true →
      ∀ f ∈ t.scalarFields, (View.ofRow r).cell? f.name = (View.ofRow s).cell? f.name)
    (hone : ∀ r ∈ rows, ∀ s ∈ rows, t.sameObject (.ofRow r) (.ofRow s) = true →
      ∀ a ∈ t.associations, a.2.cardinality = .one →
        (c.table a.2.target).opens ((View.ofRow r).through a.1) = true →
        (c.table a.2.target).opens ((View.ofRow s).through a.1) = true →
        (c.table a.2.target).sameObject ((View.ofRow r).through a.1)
          ((View.ofRow s).through a.1) = true)
    (hbelow : ∀ r ∈ rows, ∀ s ∈ rows, ∀ a ∈ t.associations,
      (c.table a.2.target).sameObject ((View.ofRow r).through a.1)
        ((View.ofRow s).through a.1) = true →
      ∀ f ∈ (c.table a.2.target).scalarFields,
        ((View.ofRow r).through a.1).cell? f.name = ((View.ofRow s).through a.1).cell? f.name)
    (hleaf : ∀ a ∈ t.associations, (c.table a.2.target).associations = []) :
    c.RowsConcord t rows := by
  intro r hr s hs
  refine Catalog.concords_of_below (fun _ hsame => ⟨hroot r hr s hs hsame, hone r hr s hs hsame⟩)
    fun _ _ a ha => Catalog.concords_of_below (fun _ hsame => ⟨hbelow r hr s hs a ha hsame, ?_⟩) ?_
  · rw [hleaf a ha]
    exact fun b hb => absurd hb List.not_mem_nil
  · rw [hleaf a ha]
    exact fun _ _ b hb => absurd hb List.not_mem_nil

/-! ## A desk of the library -/

namespace Library

/-- Readers with a number and a name. -/
def reader : Table where
  entity := "Reader"
  tableName := "readers"
  fields := [.ofType "id" { scalar := .int .int32 } { primaryKey := true },
    .ofType "name" { scalar := .text }]

/-- Loans, each of one reader and of several books. -/
def loan : Table where
  entity := "Loan"
  tableName := "loans"
  fields := [.ofType "id" { scalar := .int .int32 } { primaryKey := true },
    .ofAssociation "reader" ⟨.one, "reader_id", "id", "Reader"⟩,
    .ofAssociation "books" ⟨.many, "id", "loan_id", "Book"⟩]

/-- Loans, readers and books. -/
def desk : Catalog := ⟨[loan, reader, book]⟩

/-- A row of a loan, its reader and one of its books. -/
def loanRow (loan reader book : Int64) (name title : String) : Row :=
  Row.ofColumns [("id", .int loan), ("reader_id", .int reader), ("reader_name", .text name),
    ("books_id", .int book), ("books_title", .text title)]

/-- Two loans of one reader; one of them has two books. -/
def loans : List Row :=
  [loanRow 1 5 7 "Ann" "A", loanRow 1 5 8 "Ann" "B", loanRow 2 5 8 "Ann" "B"]

theorem rowsConcord_loans : desk.RowsConcord loan loans :=
  Catalog.rowsConcord_of_leaves (by decide +kernel) (by decide +kernel) (by decide +kernel)
    (by decide +kernel)

end Library

/-- The loans come out in the order of their first rows, and so do the books of each. -/
theorem materialize_perm_loans :
    ∃ os ps, materialize Library.desk Library.loan Library.loans = .ok os ∧
      materialize Library.desk Library.loan Library.loans.reverse = .ok ps ∧
      Object.Reordered os ps ∧
      os.map (fun o => (o.values, o.children.map fun kids => kids.map Object.values)) =
        [([.int 1], [[[.int 5, .text "Ann"]], [[.int 7, .text "A"], [.int 8, .text "B"]]]),
          ([.int 2], [[[.int 5, .text "Ann"]], [[.int 8, .text "B"]]])] ∧
      ps.map (fun o => (o.values, o.children.map fun kids => kids.map Object.values)) =
        [([.int 2], [[[.int 5, .text "Ann"]], [[.int 8, .text "B"]]]),
          ([.int 1], [[[.int 5, .text "Ann"]], [[.int 8, .text "B"], [.int 7, .text "A"]]])] := by
  have hos : (materialize Library.desk Library.loan Library.loans).toOption.map (fun os =>
      os.map fun o => (o.values, o.children.map fun kids => kids.map Object.values)) =
        some [([.int 1], [[[.int 5, .text "Ann"]], [[.int 7, .text "A"], [.int 8, .text "B"]]]),
          ([.int 2], [[[.int 5, .text "Ann"]], [[.int 8, .text "B"]]])] := by
    decide +kernel
  have hps : (materialize Library.desk Library.loan Library.loans.reverse).toOption.map (fun os =>
      os.map fun o => (o.values, o.children.map fun kids => kids.map Object.values)) =
        some [([.int 2], [[[.int 5, .text "Ann"]], [[.int 8, .text "B"]]]),
          ([.int 1], [[[.int 5, .text "Ann"]], [[.int 8, .text "B"], [.int 7, .text "A"]]])] := by
    decide +kernel
  obtain ⟨hiff, hreordered⟩ := materialize_perm
    (Catalog.namesApart_of_tables (by decide +kernel))
    (Catalog.targetsDistinct_of_tables (by decide +kernel))
    (Catalog.allKeyed_of_tables (by decide +kernel)) Library.rowsConcord_loans
    (List.reverse_perm Library.loans).symm
  have hok : (materialize Library.desk Library.loan Library.loans).isOk = true := by
    decide +kernel
  obtain ⟨os, h⟩ := exists_of_isOk hok
  obtain ⟨ps, h'⟩ := hiff.mp ⟨os, h⟩
  rw [h] at hos
  rw [h'] at hps
  exact ⟨os, ps, h, h', hreordered h h', Option.some.inj hos, Option.some.inj hps⟩

/-! ## Where order decides more -/

/-- An object in another order has as many objects under each association. -/
theorem Object.Rearranged.lengths_eq {o p : Object} (h : o.Rearranged p) :
    o.children.map List.length = p.children.map List.length := by
  have hmap : ∀ {R : List Object → List Object → Prop} {as bs : List (List Object)},
      List.Forall₂ R as bs → (∀ a b, R a b → a.length = b.length) →
      as.map List.length = bs.map List.length := fun h hR => by
    rw [← List.forall₂_eq_eq_eq, List.forall₂_map_left_iff, List.forall₂_map_right_iff]
    exact h.imp hR
  cases h with
  | mk own moved each =>
    exact (hmap moved fun _ _ h => h.length_eq).trans (hmap each fun _ _ h => h.length_eq)

/-- An object in another order has the same columns. -/
theorem Object.Rearranged.values_eq {o p : Object} (h : o.Rearranged p) : p.values = o.values := by
  cases h with
  | mk own moved each => rw [own]

/-- One object in another order is one object. -/
theorem Object.reordered_singleton {o p : Object} (h : Object.Reordered [o] [p]) :
    o.Rearranged p := by
  obtain ⟨between, hperm, heach⟩ := h
  obtain rfl := List.singleton_perm.mp hperm
  cases heach with
  | cons hop _ => exact hop

/-- A result is one object if so much of it can be told. -/
theorem exists_singleton_of_map {ε β : Type} {e : Except ε (List Object)} {f : Object → β} {x : β}
    (h : e.toOption.map (List.map f) = some [x]) : ∃ o, e = .ok [o] ∧ f o = x := by
  obtain ⟨os, hos, hmap⟩ := Option.map_eq_some_iff.mp h
  obtain ⟨o, rfl, hx⟩ := List.map_eq_singleton_iff.mp hmap
  exact ⟨o, ok_of_toOption hos, hx⟩

namespace Parcels

/-- A row of the parcel with its addresses. -/
def row (billing shipping : Value) : Row :=
  Row.ofColumns [("id", .int 1), ("billing_id", billing), ("shipping_id", shipping)]

/-- Each row has one address of the parcel, both with one number. -/
def rows : List Row := [row (.int 5) .null, row .null (.int 5)]

end Parcels

namespace Memos

/-- Texts under a number. -/
def memo : Table where
  entity := "Memo"
  tableName := "memos"
  fields := [.ofType "id" { scalar := .int .int32 } { primaryKey := true },
    .ofType "text" { scalar := .text }]

/-- Memos alone. -/
def catalog : Catalog := ⟨[memo]⟩

/-- A memo with the zeros of both signs as its text. -/
def rows : List Row :=
  [Row.ofColumns [("id", .int 1), ("text", .float (.zero true))],
    Row.ofColumns [("id", .int 1), ("text", .float (.zero false))]]

end Memos

/-- The order of rows decides more where two types of one name are led to: the one whose object
comes first keeps it. And it does where rows agree only up to the sign of a zero: a text has that of
the first row. -/
theorem order_decides :
    (Parcels.catalog.AllKeyed Parcels.parcel ∧ Parcels.catalog.TypesDistinct Parcels.parcel ∧
      Parcels.catalog.RowsConcord Parcels.parcel Parcels.rows ∧
      ∃ o p, materialize Parcels.catalog Parcels.parcel Parcels.rows = .ok [o] ∧
        materialize Parcels.catalog Parcels.parcel Parcels.rows.reverse = .ok [p] ∧
        o.children.map List.length = [1, 0] ∧ p.children.map List.length = [0, 1] ∧
        ¬ Object.Reordered [o] [p]) ∧
    Memos.catalog.AllKeyed Memos.memo ∧ Memos.catalog.TargetsDistinct Memos.memo ∧
      (∀ r ∈ Memos.rows, ∀ s ∈ Memos.rows, ∀ f ∈ Memos.memo.scalarFields,
        (r.get? f.name).any (fun v => (s.get? f.name).any v.sameAs) = true) ∧
      ∃ o p, materialize Memos.catalog Memos.memo Memos.rows = .ok [o] ∧
        materialize Memos.catalog Memos.memo Memos.rows.reverse = .ok [p] ∧
        o.values = [.int 1, .text "-0"] ∧ p.values = [.int 1, .text "0"] ∧
        ¬ Object.Reordered [o] [p] := by
  constructor
  · have hconcord : Parcels.catalog.RowsConcord Parcels.parcel Parcels.rows :=
      Catalog.rowsConcord_of_leaves (by decide +kernel) (by decide +kernel) (by decide +kernel)
        (by decide +kernel)
    obtain ⟨o, ho, hlengths⟩ := exists_singleton_of_map (x := [1, 0])
      (f := fun o => o.children.map List.length)
      (e := materialize Parcels.catalog Parcels.parcel Parcels.rows) (by decide +kernel)
    obtain ⟨p, hp, hlengths'⟩ := exists_singleton_of_map (x := [0, 1])
      (f := fun o => o.children.map List.length)
      (e := materialize Parcels.catalog Parcels.parcel Parcels.rows.reverse) (by decide +kernel)
    refine ⟨Catalog.allKeyed_of_tables (by decide +kernel),
      Catalog.typesDistinct_of_tables (by decide +kernel), hconcord, o, p, ho, hp, hlengths,
      hlengths', fun h => ?_⟩
    have heq := (Object.reordered_singleton h).lengths_eq
    rw [hlengths, hlengths'] at heq
    exact absurd heq (by decide)
  · obtain ⟨o, ho, hvalues⟩ := exists_singleton_of_map (x := [.int 1, .text "-0"])
      (f := Object.values) (e := materialize Memos.catalog Memos.memo Memos.rows)
      (by decide +kernel)
    obtain ⟨p, hp, hvalues'⟩ := exists_singleton_of_map (x := [.int 1, .text "0"])
      (f := Object.values) (e := materialize Memos.catalog Memos.memo Memos.rows.reverse)
      (by decide +kernel)
    refine ⟨Catalog.allKeyed_of_tables (by decide +kernel),
      Catalog.targetsDistinct_of_tables (by decide +kernel), by decide +kernel, o, p, ho, hp,
      hvalues, hvalues', fun h => ?_⟩
    have heq := (Object.reordered_singleton h).values_eq
    rw [hvalues, hvalues'] at heq
    exact absurd heq (by decide)

end EntityMapper
