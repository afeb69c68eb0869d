import EntityMapper.Proofs.Fallible
import EntityMapper.Proofs.Graph.Forest
import EntityMapper.Proofs.Graph.Grouping

/-!
# What occurrences say of views

An occurrence is what one view shows: its identity is the key of the view, its object the one seen
there, and what is nested in it are the occurrences of the views through each association.

* `toOption_keyParts` — the key that a row is read for is the key by which views are grouped
* `seen_of_rowObject`, `not_keyReads_of_rowObject` — when the columns give an object, and which
* `nested?_seenIn`, `ofRow_seenIn` — nested and root occurrences are seen in their views
-/

namespace EntityMapper

open Occurrence (nested? nestedIn nestedPrefix)

variable {c : Catalog} {t : Table} {v : View}

/-! ## Keys -/

theorem toOption_keyPart (v : View) (f : Field) :
    (Table.keyPart v.row v.leading f).toOption = f.keyCell? v := by
  unfold Table.keyPart Field.keyCell? View.cell?
  cases v.row.get? (v.leading ++ f.name) with
  | none => rfl
  | some x =>
    by_cases hnull : x.isNull = true
    · by_cases hnullable : f.isNullable = true
      · simp [hnull, hnullable, Except.toOption]
      · simp [hnull, hnullable, Except.toOption]
    · simp [hnull, Except.toOption]

theorem all_isNone_iff {parts : List KeyPart} :
    parts.all Option.isNone = true ↔ parts.any Option.isSome = false := by
  induction parts with
  | nil => simp
  | cons p rest ih =>
    rw [List.all_cons, List.any_cons, Bool.and_eq_true, Bool.or_eq_false_iff, ih]
    cases p <;> simp

/-- **The key that a row is read for is the key by which views are grouped.** -/
theorem toOption_keyParts (t : Table) (v : View) :
    (t.keyParts v.row v.leading).toOption = t.groupKey? v := by
  have h := toOption_mapM (Table.keyPart v.row v.leading) t.primaryKey
  simp only [toOption_keyPart] at h
  unfold Table.keyParts Table.groupKey?
  rw [← h]
  cases t.primaryKey.mapM (Table.keyPart v.row v.leading) with
  | error e => rfl
  | ok parts =>
    simp only [Bind.bind, Except.bind, Except.toOption]
    by_cases hall : parts.all Option.isNone = true
    · rw [if_pos hall, if_neg (by rw [all_isNone_iff.mp hall]; decide)]
      rfl
    · rw [if_neg hall, if_pos (by rwa [all_isNone_iff, Bool.not_eq_false] at hall)]
      rfl

theorem groupKey?_length {k : List KeyPart} (h : t.groupKey? v = some k) :
    k.length = t.primaryKey.length := by
  unfold Table.groupKey? at h
  split at h
  · next parts hparts =>
    split at h
    · obtain rfl := Option.some.inj h
      exact (mapM_eq_some_iff.mp hparts).length_eq.symm
    · exact nomatch h
  · exact nomatch h

theorem hasPrimaryKey_of_groupKey? {k : List KeyPart} (h : t.groupKey? v = some k) :
    t.hasPrimaryKey = true := by
  unfold Table.hasPrimaryKey
  cases hp : t.primaryKey with
  | nil => simp [Table.groupKey?, hp] at h
  | cons f fs => rfl

/-! ## Values -/

theorem columnValue_eq_some {f : Field} {d : Datum}
    (h : t.columnValue v.row v.leading f = .ok (some d)) :
    d = f.seenIn v ∧
      (f.options.primaryKey = true → (v.cell? f.name).all (fun x => (f.read x).isOk) = true) := by
  unfold Table.columnValue at h
  unfold Field.seenIn View.cell?
  cases hx : v.row.get? (v.leading ++ f.name) with
  | none =>
    simp only [hx, Except.ok.injEq, Option.some.injEq] at h
    exact ⟨h.symm, fun _ => rfl⟩
  | some x =>
    simp only [hx] at h ⊢
    cases hr : f.read x with
    | ok d' =>
      simp only [hr, Except.ok.injEq, Option.some.injEq] at h
      exact ⟨h.symm, fun _ => by rw [Option.all_some, hr]; rfl⟩
    | error e =>
      simp only [hr] at h
      split at h
      · cases h
      · next hkey =>
        split at h
        · simp only [Except.ok.injEq, Option.some.injEq] at h
          exact ⟨h.symm, fun hk => absurd hk hkey⟩
        · cases h

theorem columnValue_eq_none {f : Field} (h : t.columnValue v.row v.leading f = .ok none) :
    f.options.primaryKey = true ∧ (v.cell? f.name).all (fun x => (f.read x).isOk) = false := by
  unfold Table.columnValue at h
  unfold View.cell?
  cases hx : v.row.get? (v.leading ++ f.name) with
  | none => simp [hx] at h
  | some x =>
    simp only [hx] at h
    cases hr : f.read x with
    | ok d => simp [hr] at h
    | error e =>
      simp only [hr] at h
      split at h
      · next hkey => exact ⟨hkey, by rw [Option.all_some, hr]; rfl⟩
      · split at h
        · simp at h
        · exact nomatch h

theorem columnValues_eq_some {fs : List Field} {ds : List Datum}
    (h : t.columnValues v.row v.leading fs = .ok (some ds)) :
    ds = fs.map (fun f => f.seenIn v) ∧ ∀ f ∈ fs, f.options.primaryKey = true →
      (v.cell? f.name).all (fun x => (f.read x).isOk) = true := by
  induction fs generalizing ds with
  | nil =>
    simp only [Table.columnValues, Except.ok.injEq, Option.some.injEq] at h
    exact ⟨h.symm, by simp⟩
  | cons f rest ih =>
    rw [Table.columnValues] at h
    cases hf : t.columnValue v.row v.leading f with
    | error e => rw [hf] at h; exact nomatch h
    | ok d =>
      rw [hf] at h
      cases d with
      | none => exact nomatch h
      | some d =>
        cases hr : t.columnValues v.row v.leading rest with
        | error e => rw [hr] at h; exact nomatch h
        | ok r =>
          rw [hr] at h
          simp only [Bind.bind, Except.bind, Pure.pure, Except.pure, Except.ok.injEq] at h
          obtain ⟨ds', rfl, rfl⟩ := Option.map_eq_some_iff.mp h
          obtain ⟨rfl, hrest⟩ := ih hr
          obtain ⟨rfl, hfirst⟩ := columnValue_eq_some hf
          refine ⟨rfl, fun g hg => ?_⟩
          rcases List.mem_cons.mp hg with rfl | hg
          · exact hfirst
          · exact hrest g hg

theorem columnValues_eq_none {fs : List Field}
    (h : t.columnValues v.row v.leading fs = .ok none) :
    ∃ f ∈ fs, f.options.primaryKey = true ∧
      (v.cell? f.name).all (fun x => (f.read x).isOk) = false := by
  induction fs with
  | nil => simp [Table.columnValues] at h
  | cons f rest ih =>
    rw [Table.columnValues] at h
    cases hf : t.columnValue v.row v.leading f with
    | error e => rw [hf] at h; exact nomatch h
    | ok d =>
      rw [hf] at h
      cases d with
      | none => exact ⟨f, List.mem_cons_self, columnValue_eq_none hf⟩
      | some d =>
        cases hr : t.columnValues v.row v.leading rest with
        | error e => rw [hr] at h; exact nomatch h
        | ok r =>
          rw [hr] at h
          simp only [Bind.bind, Except.bind, Pure.pure, Except.pure, Except.ok.injEq,
            Option.map_eq_none_iff] at h
          subst h
          obtain ⟨g, hg, hgood⟩ := ih hr
          exact ⟨g, List.mem_cons_of_mem _ hg, hgood⟩

/-- **The columns of a view give the object that is seen there.** -/
theorem seen_of_rowObject {o : Object} (h : t.rowObject v.row v.leading = .ok (some o)) :
    o = t.seen v ∧ t.keyReads v = true := by
  unfold Table.rowObject at h
  cases hc : t.columnValues v.row v.leading t.scalarFields with
  | error e => rw [hc] at h; exact nomatch h
  | ok ds =>
    rw [hc] at h
    simp only [Bind.bind, Except.bind, Pure.pure, Except.pure, Except.ok.injEq] at h
    obtain ⟨ds', rfl, rfl⟩ := Option.map_eq_some_iff.mp h
    obtain ⟨rfl, hkeys⟩ := columnValues_eq_some hc
    refine ⟨rfl, List.all_eq_true.mpr fun f hf => ?_⟩
    obtain ⟨hmem, hkey⟩ := List.mem_filter.mp hf
    exact hkeys f hmem hkey

/-- They give none only where a key column cannot hold its value. -/
theorem not_keyReads_of_rowObject (h : t.rowObject v.row v.leading = .ok none) :
    t.keyReads v = false := by
  unfold Table.rowObject at h
  cases hc : t.columnValues v.row v.leading t.scalarFields with
  | error e => rw [hc] at h; exact nomatch h
  | ok ds =>
    rw [hc] at h
    simp only [Bind.bind, Except.bind, Pure.pure, Except.pure, Except.ok.injEq,
      Option.map_eq_none_iff] at h
    subst h
    obtain ⟨f, hf, hkey, hbad⟩ := columnValues_eq_none hc
    exact List.all_eq_false.mpr ⟨f, List.mem_filter.mpr ⟨hf, hkey⟩, by simpa using hbad⟩

/-! ## Occurrences -/

/-- An occurrence is what a view shows. -/
structure Occurrence.SeenIn (c : Catalog) (v : View) (o : Occurrence) : Prop where
  identity : (∃ k, o.table.groupKey? v = some k ∧ o.identity = .keyed k) ∨
    (o.table.hasPrimaryKey = false ∧ o.identity = .keyless)
  object : o.object = o.table.rowObject v.row v.leading
  nested : o.nested = nestedIn c v.row o.table v.leading

theorem nestedIdentity?_eq (t : Table) (v : View) :
    t.nestedIdentity? v.row v.leading =
      if t.hasPrimaryKey then (t.groupKey? v).map .keyed
      else if t.present v then some .keyless else none := by
  unfold Table.nestedIdentity?
  rw [← toOption_keyParts]
  by_cases hkey : t.hasPrimaryKey = true
  · rw [if_pos hkey, if_pos hkey]
    cases t.keyParts v.row v.leading with
    | error e => rfl
    | ok parts => rfl
  · rw [if_neg hkey, if_neg hkey]
    rfl

theorem nested?_eq (c : Catalog) (t : Table) (v : View) :
    nested? c v.row t v.leading = (t.nestedIdentity? v.row v.leading).map fun identity =>
      .mk t identity (t.rowObject v.row v.leading) (nestedIn c v.row t v.leading) := by
  rw [nested?]
  split
  · next h => rw [h, Option.map_none]
  · next identity h => rw [h, Option.map_some]; rfl

/-- A view shows a nested object where it has a key, or without keys where some column is there. -/
theorem isSome_nested? (c : Catalog) (t : Table) (v : View) :
    (nested? c v.row t v.leading).isSome =
      if t.hasPrimaryKey then (t.groupKey? v).isSome else t.present v := by
  rw [nested?_eq, Option.isSome_map, nestedIdentity?_eq]
  split
  · rw [Option.isSome_map]
  · cases t.present v <;> rfl

theorem room_pos_of_nested? (h : (nested? c v.row t v.leading).isSome = true) : 0 < v.room := by
  rw [nested?_eq, Option.isSome_map] at h
  have := Table.length_le_of_nestedIdentity? h
  unfold View.room
  omega

theorem nested?_seenIn {o : Occurrence} (h : nested? c v.row t v.leading = some o) :
    o.table = t ∧ o.SeenIn c v := by
  rw [nested?_eq] at h
  obtain ⟨identity, hi, rfl⟩ := Option.map_eq_some_iff.mp h
  refine ⟨rfl, ?_, rfl, rfl⟩
  rw [nestedIdentity?_eq] at hi
  split at hi
  · obtain ⟨k, hk, rfl⟩ := Option.map_eq_some_iff.mp hi
    exact .inl ⟨k, hk, rfl⟩
  · next hkey =>
    split at hi
    · obtain rfl := Option.some.inj hi
      exact .inr ⟨(Bool.not_eq_true _).mp hkey, rfl⟩
    · exact nomatch hi

theorem Occurrence.SeenIn.suits {o : Occurrence} (h : o.SeenIn c v) : o.identity.Suits o.table := by
  rcases h.identity with ⟨k, hk, hi⟩ | ⟨hkey, hi⟩
  · rw [hi]
    refine ⟨groupKey?_length hk, ⟨fun he => Identity.noConfusion he, fun he => ?_⟩⟩
    have := hasPrimaryKey_of_groupKey? hk
    rw [Table.hasPrimaryKey, he] at this
    exact nomatch this
  · have hnil : o.table.primaryKey = [] := by simpa [Table.hasPrimaryKey] using hkey
    rw [hi]
    exact ⟨by rw [hnil]; rfl, fun _ => hnil, fun _ => rfl⟩

theorem mem_nestedIn {row : Row} {leading : String} {x : Nat × Occurrence}
    (h : x ∈ nestedIn c row t leading) :
    ∃ a, t.associations[x.1]? = some a ∧
      nested? c row (c.table a.2.target) (nestedPrefix leading a.1) = some x.2 := by
  obtain ⟨⟨a, p⟩, ha, hx⟩ := List.mem_filterMap.mp h
  obtain ⟨o, ho, rfl⟩ := Option.map_eq_some_iff.mp hx
  exact ⟨a, List.mem_zipIdx_iff_getElem?.mp ha, ho⟩

/-- What is nested in an occurrence is seen through the association of its place. -/
theorem Occurrence.SeenIn.nested_seenIn {o : Occurrence} (ho : o.SeenIn c v)
    {x : Nat × Occurrence} (hx : x ∈ o.nested) :
    ∃ a, o.table.associations[x.1]? = some a ∧
      x.2.table = c.table a.2.target ∧ x.2.SeenIn c (v.through a.1) := by
  rw [ho.nested] at hx
  obtain ⟨a, ha, hx⟩ := mem_nestedIn hx
  exact ⟨a, ha, nested?_seenIn (v := v.through a.1) hx⟩

theorem Occurrence.SeenIn.of {o : Occurrence} (h : o.SeenIn c v)
    (hnested : ∀ x ∈ o.nested, x.2.Of c) : o.Of c := by
  obtain ⟨t, identity, object, nested⟩ := o
  refine .mk h.suits (fun x hx => ?_) hnested
  obtain rfl : nested = nestedIn c v.row t v.leading := h.nested
  obtain ⟨a, ha, hx⟩ := mem_nestedIn hx
  exact ⟨a, ha, (nested?_seenIn (v := ⟨v.row, nestedPrefix v.leading a.1⟩) hx).1⟩

/-- The occurrences of a row are of the catalog. -/
theorem nested?_of {row : Row} {leading : String} {o : Occurrence}
    (h : nested? c row t leading = some o) : o.Of c := by
  -- a row has no object once names are longer than its longest
  induction hn : row.longestName + 1 - leading.length using Nat.strongRecOn
    generalizing t leading o with
  | _ n ih =>
    obtain ⟨htable, hseen⟩ := nested?_seenIn (v := ⟨row, leading⟩) h
    refine hseen.of fun x hx => ?_
    rw [hseen.nested] at hx
    obtain ⟨a, -, hx⟩ := mem_nestedIn hx
    refine ih _ ?_ hx rfl
    have hroom : 0 < View.room ⟨row, leading⟩ :=
      room_pos_of_nested? (Option.isSome_of_eq_some h)
    exact hn ▸ View.room_through_lt (v := ⟨row, leading⟩) a.1 hroom

/-- The root of a row is seen in the whole row. -/
theorem ofRow_seenIn {row : Row} {o : Occurrence} (h : Occurrence.ofRow c t row = .ok (some o)) :
    o.table = t ∧ o.SeenIn c (.ofRow row) ∧ o.Of c := by
  have hseen : o.table = t ∧ o.SeenIn c (.ofRow row) := by
    unfold Occurrence.ofRow at h
    cases hi : t.rootIdentity? row with
    | error e => rw [hi] at h; exact nomatch h
    | ok identity =>
      rw [hi] at h
      simp only [Bind.bind, Except.bind, Pure.pure, Except.pure, Except.ok.injEq] at h
      obtain ⟨identity, rfl, rfl⟩ := Option.map_eq_some_iff.mp h
      refine ⟨rfl, ?_, rfl, rfl⟩
      unfold Table.rootIdentity? at hi
      have hkeyParts := toOption_keyParts t (.ofRow row)
      split at hi
      · split at hi
        · next parts hparts =>
          simp only [Except.ok.injEq, Option.some.injEq] at hi
          refine .inl ⟨parts, ?_, hi.symm⟩
          exact hkeyParts.symm.trans (by rw [View.ofRow, hparts]; rfl)
        · exact nomatch hi
        · simp at hi
      · next hkey =>
        simp only [Except.ok.injEq, Option.some.injEq] at hi
        exact .inr ⟨(Bool.not_eq_true _).mp hkey, hi.symm⟩
  refine ⟨hseen.1, hseen.2, hseen.2.of fun x hx => ?_⟩
  rw [hseen.2.nested] at hx
  obtain ⟨a, -, hx⟩ := mem_nestedIn hx
  exact nested?_of hx

/-- A row without a root has no key. -/
theorem not_ofRow {row : Row} (h : ∀ o, Occurrence.ofRow c t row ≠ .ok (some o)) :
    t.hasPrimaryKey = true ∧ t.groupKey? (.ofRow row) = none := by
  have hkeyParts := toOption_keyParts t (.ofRow row)
  unfold Occurrence.ofRow Table.rootIdentity? at h
  by_cases hkey : t.hasPrimaryKey = true
  · refine ⟨hkey, hkeyParts.symm.trans ?_⟩
    rw [if_pos hkey] at h
    rw [View.ofRow]
    cases hparts : t.keyParts row "" with
    | error e => rfl
    | ok parts =>
      rw [hparts] at h
      exact absurd rfl (h _)
  · rw [if_neg hkey] at h
    exact absurd rfl (h _)

end EntityMapper
