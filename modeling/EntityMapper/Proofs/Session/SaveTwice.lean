import Mathlib.Data.List.Nodup
import EntityMapper.Proofs.Session.ListStore

/-!
# Saving twice

Over a store, the first save of an object leaves one row with the key that the object has then: the
one that was there, or the one that was put there. So a second save of the object finds it and
updates it, and the row has the values of the object.

* `countRows_of_saves` — one row has the key of an object that was saved
* `save_stored` — a save of an object whose key one row has updates that row
* `save_twice` — what two saves of an object leave
-/

namespace EntityMapper

open Program Session

variable {σ α : Type} {h : Handler σ} {m : Mapping} {e : EntityType} {o o' : Object}
  {xs : List Exchange} {t t' : σ} {w : Written} {c check : Command} {outcome : Outcome Object}

/-! ## Columns -/

theorem insertColumns_sublist :
    ((m.insertColumns true).map Field.name).Sublist m.columnNames := List.filter_sublist.map _

theorem keyNames_sublist : m.keyNames.Sublist m.columnNames := List.filter_sublist.map _

theorem updateColumns_sublist : (m.updateColumns.map Field.name).Sublist m.columnNames := by
  unfold Mapping.updateColumns
  dsimp only
  split <;> exact List.filter_sublist.map _

/-- A column that is saved and belongs to no key is updated. -/
theorem mem_updateColumns {f : Field} (hf : f ∈ m.insertColumns true)
    (hkey : f.options.primaryKey = false) : f ∈ m.updateColumns := by
  obtain ⟨hscalar, hsaved, hautomatic⟩ := Mapping.mem_insertColumns.mp hf
  have hmem : f ∈ m.table.scalarFields.filter fun f =>
      !f.options.ignoreForSave && !f.options.primaryKey && !f.isAutomatic :=
    List.mem_filter.mpr ⟨hscalar, by simp [hsaved, hkey, hautomatic]⟩
  unfold Mapping.updateColumns
  dsimp only
  rw [if_neg]
  · exact hmem
  · intro hempty
    rw [List.isEmpty_iff.mp hempty] at hmem
    exact List.not_mem_nil hmem

theorem mem_of_identityField {f : Field} (hf : m.table.identityField? = some f) :
    f ∈ m.table.scalarFields ∧ f.isAutomatic = true := by
  refine ⟨List.mem_of_find?_eq_some hf, ?_⟩
  have hidentity := List.find?_some hf
  simp only [Field.isIdentity, beq_iff_eq] at hidentity
  simp [Field.isAutomatic, hidentity]

/-- An insert does not write the identity. -/
theorem identity_not_mem {f : Field} (hnames : m.columnNames.Nodup)
    (hf : m.table.identityField? = some f) : f.name ∉ (m.insertColumns true).map Field.name := by
  intro hmem
  obtain ⟨g, hg, hname⟩ := List.mem_map.mp hmem
  obtain ⟨hscalar, -, hsaved⟩ := Mapping.mem_insertColumns.mp hg
  obtain ⟨hf, hautomatic⟩ := mem_of_identityField hf
  obtain rfl := List.inj_on_of_nodup_map hnames hscalar hf hname
  rw [hsaved] at hautomatic
  exact Bool.false_ne_true hautomatic

/-! ## Assigned values -/

theorem find?_zip_set {fs : List Field} {ds : List Datum} {p : Nat} {f : Field}
    (hnames : (fs.map Field.name).Nodup) (hlength : ds.length = fs.length) (hf : fs[p]? = some f)
    (d : Datum) (name : String) :
    ((fs.zip (ds.set p d)).find? fun e => e.1.name == name).map Prod.snd =
      if name = f.name then some d
      else ((fs.zip ds).find? fun e => e.1.name == name).map Prod.snd := by
  induction fs generalizing ds p with
  | nil => exact nomatch hf
  | cons g fs ih =>
    obtain ⟨hg, hnames⟩ := List.nodup_cons.mp hnames
    cases ds with
    | nil => exact nomatch hlength
    | cons d₀ ds =>
      have hlength : ds.length = fs.length := Nat.succ.inj hlength
      cases p with
      | zero =>
        obtain rfl : g = f := Option.some.inj hf
        rw [List.set_cons_zero, List.zip_cons_cons, List.zip_cons_cons, List.find?_cons,
          List.find?_cons]
        by_cases hname : name = g.name
        · simp [hname]
        · have hbeq : (g.name == name) = false := by simpa using fun heq => hname heq.symm
          simp only [hbeq, if_neg hname]
      | succ p =>
        have hne : f.name ≠ g.name := by
          intro heq
          exact hg (heq ▸ List.mem_map_of_mem (List.mem_of_getElem? hf))
        rw [List.set_cons_succ, List.zip_cons_cons, List.zip_cons_cons, List.find?_cons,
          List.find?_cons]
        by_cases hname : name = g.name
        · have hbeq : (g.name == name) = true := by simp [hname]
          rw [hbeq, if_neg (hname ▸ hne.symm)]
        · have hbeq : (g.name == name) = false := by simpa using fun heq => hname heq.symm
          simp only [hbeq]
          exact ih hnames hlength hf

/-- An object stores an assigned identity, and all else as before. -/
theorem stored_setValue {f : Field} (hnames : m.columnNames.Nodup)
    (hf : m.table.identityField? = some f) (hwhole : o.values.length = m.table.scalarFields.length)
    (d : Datum) (name : String) :
    m.table.stored (o.setValue (m.table.scalarFields.findIdx (·.isIdentity)) d) name =
      if name = f.name then d.toValue else m.table.stored o name := by
  have hplace : m.table.scalarFields[m.table.scalarFields.findIdx (·.isIdentity)]? = some f := by
    rw [← List.find?_eq_getElem?_findIdx]
    exact hf
  unfold Table.stored Table.value? Table.entries
  rw [show (o.setValue (m.table.scalarFields.findIdx (·.isIdentity)) d).values =
    o.values.set (m.table.scalarFields.findIdx (·.isIdentity)) d from rfl,
    find?_zip_set hnames hwhole hplace]
  split <;> rfl

/-- A value of the identity's field is assigned as it is. -/
theorem assignIdentity_toValue {f : Field} {d : Datum} (hd : f.Holds d) (hpresent : d.toValue ≠ .null) :
    assignIdentity m.table f o d.toValue =
      .ok (o.setValue (m.table.scalarFields.findIdx (·.isIdentity)) d) := by
  have hnull : d.toValue.isNull = false := by
    rw [Bool.eq_false_iff, ne_eq, Value.isNull_iff]
    exact hpresent
  rw [assignIdentity, hnull, if_neg Bool.false_ne_true, hd.read_toValue]

/-- A save of an object that has a row and a key goes over a connection. -/
theorem goes_save_of_row {s : Session} {row : Row} (hm : s.target e.table = .ok m)
    (hkey : m.table.hasPrimaryKey = true) (hrow : m.table.toRow o = .ok row)
    (hgoes : (s.save e {} o).Goes xs w) :
    ∃ check, objectCommand m m.existenceCheck o = .ok check ∧
      Connects m.table.backend (fun err => refused .existenceCheck err o) (Saves e m {} check o) xs
        w := by
  obtain ⟨c, hc⟩ := exists_objectCommand hrow
  rw [← Mapping.existenceCheck_eq hkey] at hc
  rcases goes_write hgoes with ⟨-, ⟨hvalidate, -⟩ | ⟨-, hnone⟩⟩ | ⟨m', check, hm', hcheck, hconnects⟩
  · exact nomatch hvalidate
  · obtain ⟨err, herr⟩ := hnone m hm
    rw [checkCommand, hc] at herr
    exact nomatch herr
  · obtain rfl : m = m' := Except.ok.inj (hm.symm.trans hm')
    obtain ⟨c', hc', rfl⟩ := checkCommand_save hcheck
    refine ⟨c', hc', hconnects.map (g := id) (fun err => rfl) fun hwrites => ?_⟩
    cases hwrites with
    | save hsaves => exact hsaves

/-- An update leaves the object as it is. -/
theorem Session.Updates.object (h : Updates m o xs w) : w.2 = o := by
  cases h <;> rfl

/-- The nearest 64-bit integer is positive where the integer is. -/
theorem nearestInt64_pos {n : Int} : 0 < nearestInt64 n ↔ 0 < n := by
  have hbound : (twoTo 63 : Int) = 9223372036854775808 := by decide
  rw [Int64.lt_iff_toInt_lt, nearestInt64, hbound, Int64.toInt_ofInt_of_le (by simp) (by simp)]
  simp only [Int64.toInt_zero]
  omega

/-! ## Connections to a store -/

namespace Store

variable (S : Store h m)

/-- Over a store, the body of a connection runs on the rows that there are. -/
theorem of_connects {backend : String} {failed : BackendError → α} {body : List Exchange → α → Prop} {a : α}
    (hbackend : backend = m.table.backend)
    (hconnects : Connects backend failed body xs a) (hgives : h.Gives t xs t') :
    ∃ ys u u', body ys a ∧ h.Gives u ys u' ∧ S.rows u = S.rows t ∧ S.rows t' = S.rows u' := by
  subst hbackend
  cases hconnects with
  | notConnected err =>
    have hreply := (Handler.gives_cons.mp hgives).1
    rw [(S.connect t).1] at hreply
    exact nomatch hreply
  | notOpened err =>
    have hreply := (Handler.gives_cons.mp (Handler.gives_cons.mp hgives).2).1
    rw [(S.opening _).1] at hreply
    exact nomatch hreply
  | @opened ys _ hbody closed =>
    obtain ⟨-, hopening⟩ := Handler.gives_cons.mp hgives
    obtain ⟨-, hrest⟩ := Handler.gives_cons.mp hopening
    obtain ⟨u', hinside, hclosing⟩ := Handler.gives_append.mp hrest
    obtain ⟨-, hend⟩ := Handler.gives_cons.mp hclosing
    obtain rfl := Handler.gives_nil.mp hend
    exact ⟨ys, _, u', hbody, hinside, (S.opening _).2.trans (S.connect t).2, S.closing u'⟩

/-- The rows after an update of an object. -/
structure AfterUpdate (o : Object) (before after : Multiset Row) : Prop where
  count : countRows S.same m.keyNames (m.table.stored o) after =
    countRows S.same m.keyNames (m.table.stored o) before
  set : ∀ r ∈ after, hasValues S.same m.keyNames (m.table.stored o) r = true →
    r.Holds (m.updateColumns.map Field.name) (m.table.stored o)

/-- What is known of an object that has a key which can be compared. -/
structure Identified (o : Object) : Prop where
  row : ∃ row, m.table.toRow o = .ok row
  key : ∀ k ∈ m.keyNames, S.same (m.table.stored o k) (m.table.stored o k) = true

/-- The command that updates an object, over a store. -/
theorem of_update (hkey : m.table.hasPrimaryKey = true) (ho : S.Identified o)
    (hcommand : objectCommand m m.update o = .ok c) :
    (h m.table.backend (.execute c) t).1 =
        .ok (countRows S.same m.keyNames (m.table.stored o) (S.rows t) : Int) ∧
      S.AfterUpdate o (S.rows t) (S.rows (h m.table.backend (.execute c) t).2) := by
  obtain ⟨htext, -, hbound⟩ := objectCommand_ok hcommand
  have htext := Except.ok.inj (htext.symm.trans (Mapping.update_eq hkey))
  obtain ⟨g, hreply, hrows, hupdated⟩ := S.update t updateColumns_sublist keyNames_sublist htext
  rw [hbound] at hreply hupdated
  refine ⟨hreply, ?_, ?_⟩
  · rw [hrows]
    exact countRows_map ho.key hupdated
  · intro r hr hhas
    rw [hrows] at hr
    obtain ⟨x, hx, rfl⟩ := Multiset.mem_map.mp hr
    have hx := hupdated x hx
    split at hx
    · exact hx.set
    · next hnot =>
      rw [hx] at hhas
      exact (hnot hhas).elim

/-- An update of an object over a store. -/
theorem of_updates (hkey : m.table.hasPrimaryKey = true) (ho : S.Identified o)
    (hupdates : Updates m o xs w) (hgives : h.Gives t xs t') :
    w = accepted .update (countRows S.same m.keyNames (m.table.stored o) (S.rows t)) o ∧
      S.AfterUpdate o (S.rows t) (S.rows t') := by
  cases hupdates with
  | unready command =>
    obtain ⟨row, hrow⟩ := ho.row
    obtain ⟨c, hc⟩ := exists_objectCommand hrow
    rw [Mapping.update_eq hkey, hc] at command
    exact nomatch command
  | notUpdated command err =>
    obtain ⟨hreply, -⟩ := S.of_update (t := t) hkey ho command
    have hgiven := (Handler.gives_cons.mp hgives).1
    rw [hreply] at hgiven
    exact nomatch hgiven
  | updated command n =>
    obtain ⟨hreply, hafter⟩ := S.of_update (t := t) hkey ho command
    obtain ⟨hgiven, hend⟩ := Handler.gives_cons.mp hgives
    obtain rfl := Handler.gives_nil.mp hend
    rw [hreply] at hgiven
    obtain rfl := Except.ok.inj hgiven
    exact ⟨rfl, hafter⟩

/-- What a table and an object are to be like to be saved over a store. -/
structure Fit (e : EntityType) (m : Mapping) (o : Object) : Prop where
  names : m.columnNames.Nodup
  /-- a column of the key is written by inserts, or it is the identity -/
  keys : ∀ f ∈ m.table.primaryKey,
    f ∈ m.insertColumns true ∨ m.table.identityField? = some f
  /-- an identity can be read back -/
  query : m.table.identityField?.isSome = true → m.dialect.lastIdentity.isSome = true
  whole : o.values.length = m.table.scalarFields.length

/-- A row that holds what an insert writes holds the key, with the identity if that belongs to it. -/
theorem Fit.holds {r : Row} {values : String → Value} (hfit : Fit e m o)
    (hcolumns : r.Holds ((m.insertColumns true).map Field.name) values)
    (hidentity : ∀ f, m.table.identityField? = some f → f.name ∈ m.keyNames →
      r.get? f.name = some (values f.name)) : r.Holds m.keyNames values := by
  intro k hk
  obtain ⟨f, hf, rfl⟩ := List.mem_map.mp hk
  rcases hfit.keys f hf with hsaved | hidentity'
  · exact hcolumns f.name (List.mem_map_of_mem hsaved)
  · exact hidentity f hidentity' hk

/-- Where no identity is read back there is none. -/
theorem Fit.identity_eq_none (hfit : Fit e m o) (hback : readBack? m true = none) :
    m.table.identityField? = none := by
  cases hidentity : m.table.identityField? with
  | none => rfl
  | some f =>
    obtain ⟨last, hlast⟩ := Option.isSome_iff_exists.mp (hfit.query (by rw [hidentity]; rfl))
    rw [readBack?_eq_some.mpr ⟨rfl, hidentity, hlast⟩] at hback
    exact nomatch hback

/-- An insert that reads no identity back. -/
theorem of_execute (hfit : Fit e m o) (hback : readBack? m true = none)
    (hcommand : objectCommand m (.ok (m.insert true)) o' = .ok c) :
    ∃ r : Row, r.Holds m.keyNames (m.table.stored o') ∧
      Takes S.same m.keyNames (S.rows t) r (S.rows (h m.table.backend (.execute c) t).2)
        (h m.table.backend (.execute c) t).1.isOk := by
  obtain ⟨htext, -, hbound⟩ := objectCommand_ok hcommand
  have htext := (Except.ok.inj htext).symm.trans (Mapping.insert_eq true)
  obtain ⟨r, hholds, htakes⟩ := S.insert t insertColumns_sublist htext
  rw [hbound] at hholds
  refine ⟨r, hfit.holds hholds fun f hf => ?_, htakes⟩
  rw [hfit.identity_eq_none hback] at hf
  exact nomatch hf

/-- An insert that reads the identity back, if the backend takes the row: the object that takes the
identity has the key of the row. -/
theorem of_identified {f : Field} {last : String} {v : Value} (hfit : Fit e m o)
    (hback : readBack? m true = some (f, last))
    (hcommand : objectCommand m (.ok (m.insert true)) o = .ok c)
    (hreply : (h m.table.backend (.insertIdentity c last) t).1 = .ok v)
    (hassigned : assignIdentity m.table f o v = .ok o') :
    (∃ row, m.table.toRow o' = .ok row) ∧ ∃ r : Row, r.Holds m.keyNames (m.table.stored o') ∧
      Takes S.same m.keyNames (S.rows t) r
        (S.rows (h m.table.backend (.insertIdentity c last) t).2)
        (h m.table.backend (.insertIdentity c last) t).1.isOk := by
  obtain ⟨htext, ⟨row, hrow⟩, hbound⟩ := objectCommand_ok hcommand
  have htext := (Except.ok.inj htext).symm.trans (Mapping.insert_eq true)
  have hidentity := (readBack?_eq_some.mp hback).2.1
  have hwithout := identity_not_mem hfit.names hidentity
  obtain ⟨r, d, hd, hpresent, hholds, hget, -, htakes, hgiven⟩ :=
    S.insertIdentity t last hidentity insertColumns_sublist hwithout htext
  obtain rfl := hgiven v hreply
  rw [assignIdentity_toValue hd hpresent] at hassigned
  obtain rfl := (Except.ok.inj hassigned).symm
  have hstored := stored_setValue hfit.names hidentity hfit.whole d
  refine ⟨toRow_isOk_congr (o := o) rfl hrow, r, hfit.holds ?_ ?_, htakes⟩
  · intro k hk
    rw [hholds k hk, hstored, if_neg fun heq : k = f.name => hwithout (heq ▸ hk), hbound]
  · intro g hg _
    obtain rfl : f = g := Option.some.inj (hidentity.symm.trans hg)
    rw [hget, hstored, if_pos rfl]

/-- An insert that reads the identity back, if there is a row with the key: then the identity does
not belong to the key, for it would have been fresh. -/
theorem of_rejected {f : Field} {last : String} {err : BackendError} (hfit : Fit e m o)
    (hback : readBack? m true = some (f, last))
    (hcommand : objectCommand m (.ok (m.insert true)) o = .ok c)
    (hreply : (h m.table.backend (.insertIdentity c last) t).1 = .error err) :
    ∃ r : Row, r.Holds m.keyNames (m.table.stored o) ∧
      Takes S.same m.keyNames (S.rows t) r
        (S.rows (h m.table.backend (.insertIdentity c last) t).2)
        (h m.table.backend (.insertIdentity c last) t).1.isOk := by
  obtain ⟨htext, -, hbound⟩ := objectCommand_ok hcommand
  have htext := (Except.ok.inj htext).symm.trans (Mapping.insert_eq true)
  have hidentity := (readBack?_eq_some.mp hback).2.1
  obtain ⟨r, d, -, -, hholds, hget, hfresh, htakes, -⟩ :=
    S.insertIdentity t last hidentity insertColumns_sublist
      (identity_not_mem hfit.names hidentity) htext
  refine ⟨r, hfit.holds (hbound ▸ hholds) fun g hg hkey => ?_, htakes⟩
  obtain rfl : f = g := Option.some.inj (hidentity.symm.trans hg)
  rw [hreply] at htakes
  -- the row that is there already has the same key, so its identity is the one that is fresh
  generalize S.rows (h m.table.backend (.insertIdentity c last) t).2 = after at htakes
  cases htakes with
  | rejected hx old =>
    obtain ⟨v, hv, hsame⟩ := exists_of_hasValues old hkey
    rw [hget, Option.getD_some, hfresh _ hx v hv] at hsame
    exact nomatch hsame

/-- An insert of an object over a store puts a row with its key into the table. -/
theorem of_inserts (hfit : Fit e m o) (hinserts : Inserts e m true o xs (.ok outcome, o'))
    (hgives : h.Gives t xs t') :
    (∃ row, m.table.toRow o' = .ok row) ∧ ∃ (r : Row) (accepted : Bool),
      r.Holds m.keyNames (m.table.stored o') ∧
        Takes S.same m.keyNames (S.rows t) r (S.rows t') accepted := by
  generalize hw : ((.ok outcome, o') : Written) = w at hinserts
  cases hinserts with
  | unready => exact nomatch congrArg Prod.fst hw
  | misread => exact nomatch congrArg Prod.fst hw
  | notInserted command err =>
    obtain rfl : o' = keyed e m o := congrArg Prod.snd hw
    refine ⟨(objectCommand_ok command).2.1, ?_⟩
    cases hback : readBack? m true with
    | none =>
      rw [insertCall, hback] at hgives
      obtain ⟨-, hend⟩ := Handler.gives_cons.mp hgives
      obtain rfl := Handler.gives_nil.mp hend
      obtain ⟨r, hholds, htakes⟩ := S.of_execute hfit hback command
      exact ⟨r, _, hholds, htakes⟩
    | some identity =>
      obtain ⟨f, last⟩ := identity
      rw [insertCall, hback] at hgives
      have hkeyed : keyed e m o = o := keyed_of_identity (readBack?_eq_some.mp hback).2.1
      rw [hkeyed] at command ⊢
      obtain ⟨hreply, hend⟩ := Handler.gives_cons.mp hgives
      obtain rfl := Handler.gives_nil.mp hend
      obtain ⟨r, hholds, htakes⟩ := S.of_rejected hfit hback command hreply
      exact ⟨r, _, hholds, htakes⟩
  | inserted command plain n =>
    obtain rfl : o' = keyed e m o := congrArg Prod.snd hw
    obtain ⟨-, hend⟩ := Handler.gives_cons.mp hgives
    obtain rfl := Handler.gives_nil.mp hend
    obtain ⟨r, hholds, htakes⟩ := S.of_execute hfit plain command
    exact ⟨(objectCommand_ok command).2.1, r, _, hholds, htakes⟩
  | @identified c f last v assigned command identity hassigned =>
    obtain rfl : o' = assigned := congrArg Prod.snd hw
    obtain ⟨hreply, hend⟩ := Handler.gives_cons.mp hgives
    obtain rfl := Handler.gives_nil.mp hend
    obtain ⟨hrow, r, hholds, htakes⟩ := S.of_identified hfit identity command hreply hassigned
    exact ⟨hrow, r, _, hholds, htakes⟩

/-- What a store says of the key of an object. -/
theorem of_check (hcheck : objectCommand m m.existenceCheck o = .ok check) :
    ∃ v, (h m.table.backend (.scalar check) t).1 = .ok v ∧
      (isStored v = true ↔ 0 < countRows S.same m.keyNames (m.table.stored o) (S.rows t)) ∧
      S.rows (h m.table.backend (.scalar check) t).2 = S.rows t := by
  obtain ⟨htext, -, hbound⟩ := objectCommand_ok hcheck
  have hkey := Mapping.hasPrimaryKey_of_existenceCheck htext
  have htext := Except.ok.inj (htext.symm.trans (Mapping.existenceCheck_eq hkey))
  obtain ⟨v, hreply, hcount, hrows⟩ := S.count t keyNames_sublist htext
  refine ⟨v, hreply, ?_, hrows⟩
  rw [isStored, hcount, hbound, Option.any_some, decide_eq_true_iff, nearestInt64_pos,
    Int.natCast_pos]

/-- **One row has the key of an object that was saved**, as the object is then. -/
theorem countRows_of_saves (hfit : Fit e m o)
    (hunique : ∀ values, countRows S.same m.keyNames values (S.rows t) ≤ 1)
    (hcheck : objectCommand m m.existenceCheck o = .ok check)
    (hself : ∀ k ∈ m.keyNames, S.same (m.table.stored o' k) (m.table.stored o' k) = true)
    (hsaves : Saves e m {} check o xs (.ok outcome, o')) (hgives : h.Gives t xs t') :
    S.Identified o' ∧ countRows S.same m.keyNames (m.table.stored o') (S.rows t') = 1 := by
  obtain ⟨found, hreply, hstored, hrows⟩ := S.of_check (t := t) hcheck
  obtain ⟨htext, hrow, -⟩ := objectCommand_ok hcheck
  generalize hw : ((.ok outcome, o') : Written) = w at hsaves
  cases hsaves with
  | notChecked err =>
    have hgiven := (Handler.gives_cons.mp hgives).1
    rw [hreply] at hgiven
    exact nomatch hgiven
  | kept stored keep => exact nomatch keep
  | update stored keep hupdates =>
    -- the row was there before, and no other has its key
    obtain ⟨hgiven, hrest⟩ := Handler.gives_cons.mp hgives
    rw [hreply] at hgiven
    obtain rfl := Except.ok.inj hgiven
    obtain rfl : o' = o := (congrArg Prod.snd hw).trans hupdates.object
    have ho : S.Identified o' := ⟨hrow, hself⟩
    obtain ⟨-, hafter⟩ := S.of_updates (Mapping.hasPrimaryKey_of_existenceCheck htext) ho hupdates hrest
    refine ⟨ho, hafter.count.trans ?_⟩
    rw [hrows]
    exact Nat.le_antisymm (hunique _) (hstored.mp stored)
  | insert new hinserts =>
    obtain ⟨-, hrest⟩ := Handler.gives_cons.mp hgives
    subst hw
    obtain ⟨hrow', r, accepted, hholds, htakes⟩ := S.of_inserts hfit hinserts hrest
    rw [hrows] at htakes
    exact ⟨⟨hrow', hself⟩, countRows_of_takes htakes hholds hself (hunique _)⟩

/-- **A save of an object whose key one row has updates that row.** -/
theorem save_stored {s : Session} (hm : s.target e.table = .ok m)
    (hkey : m.table.hasPrimaryKey = true) (ho : S.Identified o)
    (hone : countRows S.same m.keyNames (m.table.stored o) (S.rows t) = 1) :
    ∃ t' events, (s.save e {} o).run h t = (accepted .update 1 o, t', events) ∧
      S.AfterUpdate o (S.rows t) (S.rows t') := by
  obtain ⟨row, hrow⟩ := ho.row
  rcases hrun : (s.save e {} o).run h t with ⟨w, t', events⟩
  obtain ⟨hgoes, hgives⟩ := goes_of_run hrun
  obtain ⟨c, hc, hconnects⟩ := goes_save_of_row hm hkey hrow hgoes
  obtain ⟨ys, u, u', hsaves, hinside, hu, hu'⟩ := S.of_connects rfl hconnects hgives
  obtain ⟨found, hreply, hstored, hrows⟩ := S.of_check (t := u) hc
  have hfound : isStored found = true := hstored.mpr (by rw [hu, hone]; exact Nat.one_pos)
  cases hsaves with
  | notChecked err =>
    have hgiven := (Handler.gives_cons.mp hinside).1
    rw [hreply] at hgiven
    exact nomatch hgiven
  | kept stored keep => exact nomatch keep
  | insert new =>
    have hgiven := (Handler.gives_cons.mp hinside).1
    rw [hreply] at hgiven
    obtain rfl := Except.ok.inj hgiven
    rw [hfound] at new
    exact nomatch new
  | update stored keep hupdates =>
    obtain ⟨-, hrest⟩ := Handler.gives_cons.mp hinside
    obtain ⟨rfl, hafter⟩ := S.of_updates hkey ho hupdates hrest
    rw [hrows, hu] at hafter
    refine ⟨t', events, ?_, hu' ▸ hafter⟩
    rw [hrows, hu, hone]
    rfl

end Store

/-- **Saving twice.** Over a store in which no two rows have one key, let a save of an object end
with an outcome, and let the key that the object has then be made of values that can be compared. A
second save of the object updates one row. It is the one row with the object's key, and it has the
values of the object: in the columns that belong to no key as they are, and in those of the key
values that equal them. -/
theorem save_twice {s : Session} {st st₁ : σ} {events : List Event} (S : Store h m)
    (hm : s.target e.table = .ok m) (hnames : (m.table.scalarFields.map Field.name).Nodup)
    (hkeys : ∀ f ∈ m.table.primaryKey,
      (f.options.ignoreForSave = false ∧ f.isAutomatic = false) ∨ m.table.identityField? = some f)
    (hquery : m.table.identityField?.isSome = true → m.dialect.lastIdentity.isSome = true)
    (hwhole : o.values.length = m.table.scalarFields.length)
    (hunique : ∀ values, countRows S.same m.keyNames values (S.rows st) ≤ 1)
    (hfirst : (s.save e {} o).run h st = ((.ok outcome, o'), st₁, events))
    (hcomparable : ∀ f ∈ m.table.primaryKey, (m.table.stored o' f.name).isComparable = true) :
    ∃ st₂ events₂, (s.save e {} o').run h st₁ =
        ((.ok { status := .ok, affected := 1, kind := .update, message := none, data := some o' },
          o'), st₂, events₂) ∧
      countRows S.same m.keyNames (m.table.stored o') (S.rows st₂) = 1 ∧
      ∀ r ∈ S.rows st₂, hasValues S.same m.keyNames (m.table.stored o') r = true →
        ∀ f ∈ m.table.scalarFields, f.options.ignoreForSave = false → f.isAutomatic = false →
          ∃ v, r.get? f.name = some v ∧ (v = m.table.stored o' f.name ∨
            f.options.primaryKey = true ∧ S.same v (m.table.stored o' f.name) = true) := by
  have hfit : Store.Fit e m o := by
    refine ⟨hnames, fun f hf => ?_, hquery, hwhole⟩
    exact (hkeys f hf).imp_left fun ⟨hsaved, hautomatic⟩ =>
      Mapping.mem_insertColumns.mpr ⟨List.mem_of_mem_filter hf, hsaved, hautomatic⟩
  have hself : ∀ k ∈ m.keyNames, S.same (m.table.stored o' k) (m.table.stored o' k) = true := by
    intro k hk
    obtain ⟨f, hf, rfl⟩ := List.mem_map.mp hk
    exact S.same_self _ (hcomparable f hf)
  obtain ⟨hgoes, hgives⟩ := goes_of_run hfirst
  obtain ⟨m', check, hm', hcheck, hconnects⟩ := goes_save (by simp) hgoes
  obtain rfl : m = m' := Except.ok.inj (hm.symm.trans hm')
  obtain ⟨ys, u, u', hsaves, hinside, hu, hu'⟩ := S.of_connects rfl hconnects hgives
  obtain ⟨ho, hone⟩ := S.countRows_of_saves hfit (hu ▸ hunique) hcheck hself hsaves hinside
  rw [← hu'] at hone
  have hkey := Mapping.hasPrimaryKey_of_existenceCheck (objectCommand_ok hcheck).1
  obtain ⟨st₂, events₂, hsecond, hcount, hset⟩ := S.save_stored hm hkey ho hone
  refine ⟨st₂, events₂, hsecond, hcount.trans hone, ?_⟩
  intro r hr hhas f hf hsaved hautomatic
  cases hprimary : f.options.primaryKey with
  | true =>
    have hmem : f.name ∈ m.keyNames :=
      List.mem_map_of_mem (List.mem_filter.mpr ⟨hf, hprimary⟩)
    obtain ⟨v, hv, hsame⟩ := exists_of_hasValues hhas hmem
    exact ⟨v, hv, .inr ⟨rfl, hsame⟩⟩
  | false =>
    have hmem := mem_updateColumns (Mapping.mem_insertColumns.mpr ⟨hf, hsaved, hautomatic⟩) hprimary
    exact ⟨_, hset r hr hhas f.name (List.mem_map_of_mem hmem), .inl rfl⟩

/-! ## Visitors -/

namespace Visitors

/-- Visitors with a code that the backend assigns. -/
def table : Table where
  entity := "Visitor"
  tableName := "visitors"
  fields := [.ofType "code" { scalar := .text } { primaryKey := true, automatic := .identity },
    .ofType "name" { scalar := .text }]

def mapping : Mapping := ⟨⟨[table]⟩, table, .of .sqlite⟩

def session : Session where
  catalog := ⟨[table]⟩
  backends := ⟨[(defaultBackend, .of .sqlite)]⟩

/-- A visitor without a code. -/
def visitor : Object where
  typeId := "Visitor"
  values := [.text "", .text "Ann"]
  children := []

/-- The length of the code in a row. -/
def codeLength (r : Row) : Nat :=
  match r.get? "code" with
  | some (.text s) => s.length
  | _ => 0

/-- The length of the longest code. -/
def longest : List Row → Nat
  | [] => 0
  | r :: rows => max (codeLength r) (longest rows)

/-- A code that is longer than all in the rows. -/
def nextCode (rows : List Row) : Datum :=
  .text (String.ofList (List.replicate (longest rows + 1) 'x'))

theorem codeLength_le {r : Row} {rows : List Row} (h : r ∈ rows) : codeLength r ≤ longest rows := by
  induction rows with
  | nil => exact nomatch h
  | cons x rows ih =>
    rw [longest]
    rcases List.mem_cons.mp h with rfl | h
    · exact Nat.le_max_left _ _
    · exact (ih h).trans (Nat.le_max_right _ _)

theorem freshIdentity_nextCode : FreshIdentity mapping nextCode := by
  intro f hf rows
  obtain rfl : (.ofType "code" { scalar := .text } { primaryKey := true, automatic := .identity } :
    Field) = f := Option.some.inj hf
  refine ⟨⟨_, rfl, .inr trivial⟩, nofun, fun x hx hcode => ?_⟩
  have hcode : x.get? "code" = some (nextCode rows).toValue := hcode
  have hlength : codeLength x = longest rows + 1 := by
    rw [codeLength, hcode]
    simp [nextCode, Datum.toValue]
  have hle := codeLength_le hx
  omega

end Visitors

/-- A visitor who is saved twice gets a code and is stored once. -/
theorem save_twice_visitors :
    ∃ outcome o' rows events rows' events',
      (Visitors.session.save ⟨Visitors.table, id⟩ {} Visitors.visitor).run
        (listAnswer Visitors.mapping Visitors.nextCode) [] = ((.ok outcome, o'), rows, events) ∧
      (Visitors.session.save ⟨Visitors.table, id⟩ {} o').run
        (listAnswer Visitors.mapping Visitors.nextCode) rows =
          (accepted .update 1 o', rows', events') ∧
      countRows sameStored ["code"] (Visitors.table.stored o') rows' = 1 := by
  let store := listStore (m := Visitors.mapping) (by decide +kernel) Visitors.freshIdentity_nextCode
  have hok : ((Visitors.session.save ⟨Visitors.table, id⟩ {} Visitors.visitor).run
      (listAnswer Visitors.mapping Visitors.nextCode) []).1.1.isOk = true := by decide +kernel
  have hkey : ∀ f ∈ Visitors.table.primaryKey, (Visitors.table.stored
      ((Visitors.session.save ⟨Visitors.table, id⟩ {} Visitors.visitor).run
        (listAnswer Visitors.mapping Visitors.nextCode) []).1.2 f.name).isComparable = true := by
    decide +kernel
  rcases hfirst : (Visitors.session.save ⟨Visitors.table, id⟩ {} Visitors.visitor).run
    (listAnswer Visitors.mapping Visitors.nextCode) [] with ⟨⟨result, o'⟩, rows, events⟩
  rw [hfirst] at hok hkey
  cases result with
  | error err => exact nomatch hok
  | ok outcome =>
    obtain ⟨rows', events', hsecond, hone, -⟩ := save_twice store rfl (by decide) (by decide)
      (by decide) rfl (by simp [store, listStore, countRows]) hfirst hkey
    exact ⟨outcome, o', rows, events, rows', events', rfl, hsecond, hone⟩

end EntityMapper
