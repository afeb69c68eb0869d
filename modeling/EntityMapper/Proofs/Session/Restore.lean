import EntityMapper.Proofs.Graph.Identity
import EntityMapper.Proofs.Session.Rebuild
import EntityMapper.Proofs.Session.Store

/-!
# What a rebuild restores

A rebuild that succeeds inserts one row for each object that the backup made, and rows make one
object where they have one key. So rows are restored one by one only where each has a key of its
own; rows with a repeated key become the first of them, and rows without a usable key are gone. A
restored object takes its keys like a new one where no identity is assigned, so its key is the one
that was stored only where the object leaves that alone.

* `goes_alterTable_ok` — the commands of a rebuild that succeeds
* `alterTable_restored` — which rows are restored
* `alterTable_keys` — which keys they are restored with
-/

namespace EntityMapper

open Program Session

variable {σ : Type} {h : Handler σ} {s : Session} {e : EntityType} {m : Mapping} {t : Table}
  {st st' : σ} {events : List Event} {n : Nat} {row : Row} {rows : List Row} {o p : Object}
  {xs : List Exchange}

/-! ## A rebuild that succeeds -/

/-- The exchanges of a rebuild whose commands were all accepted, after the reply to the backup. -/
def Session.rebuilt (m : Mapping) (reply : Except BackendError (List Row)) (sent : List (Command × Int))
    (closed : Except BackendError Unit) : List Exchange :=
  connected m.table.backend (⟨m.table.backend, .reader (backupCommand m), reply⟩ ::
    sent.map fun x => ⟨m.table.backend, .execute x.1, .ok x.2⟩) closed

/-- Commands that were all accepted, with the numbers of rows that they affected. -/
theorem exists_accepted {sent : List Sent} (haccepted : ∀ x ∈ sent, x.Accepted) :
    ∃ taken : List (Command × Int), sent = taken.map fun x => (x.1, .ok x.2) := by
  induction sent with
  | nil => exact ⟨[], rfl⟩
  | cons x sent ih =>
    obtain ⟨n, hn⟩ := haccepted x List.mem_cons_self
    obtain ⟨taken, rfl⟩ := ih fun y hy => haccepted y (List.mem_cons_of_mem _ hy)
    exact ⟨(x.1, n) :: taken, by rw [List.map_cons, ← hn]⟩

/-- The commands of a rebuild that succeeds. -/
theorem goes_alterTable_ok (hgoes : (s.alterTable e).Goes xs (.ok n)) :
    ∃ m reply objects existed sent closed, s.target e.table = .ok m ∧
      backedUp s.catalog m reply = .ok (objects, existed) ∧ xs = rebuilt m reply sent closed ∧
      sent.map (fun x => .ok x.1) = rebuildCommands e m objects existed ∧ n = objects.length := by
  rcases goes_alterTable hgoes with ⟨err, -, -, hr⟩ | ⟨m, hm, hconnects⟩
  · exact nomatch hr
  generalize hr : (Except.ok n : Except MapperError Nat) = r at hconnects
  cases hconnects with
  | notConnected err => exact nomatch hr
  | notOpened err => exact nomatch hr
  | opened hrebuilds closed =>
    subst hr
    generalize hr : (Except.ok n : Except MapperError Nat) = r at hrebuilds
    cases hrebuilds with
    | notBackedUp backup => exact nomatch hr
    | @backedUp reply objects existed sent r backup isPrefix stopped counted =>
      obtain ⟨hn, hlength, haccepted⟩ := (counted n).mp hr.symm
      obtain ⟨taken, rfl⟩ := exists_accepted haccepted
      refine ⟨m, reply, objects, existed, taken, closed, hm, backup, ?_, ?_, hn⟩
      · rw [rebuilt, List.map_map]
        rfl
      · have hall := isPrefix.eq_of_length (by rw [List.length_map, hlength])
        rwa [List.map_map] at hall

/-- A table is read where its rows are objects, and it is missing otherwise. -/
theorem backedUp_eq_ok {c : Catalog} {reply : Except BackendError (List Row)} {objects : List Object}
    {existed : Bool} (hbackup : backedUp c m reply = .ok (objects, existed)) :
    (∃ rows, reply = .ok rows ∧ existed = true ∧ materialize c m.table rows = .ok objects) ∨
      ∃ err, reply = .error err ∧ isMissingTable err = true ∧ existed = false ∧ objects = [] := by
  unfold backedUp at hbackup
  cases reply with
  | ok rows =>
    obtain ⟨objects', hobjects, heq⟩ := map_eq_ok.mp hbackup
    obtain ⟨rfl, rfl⟩ := Prod.mk.inj heq
    exact .inl ⟨rows, rfl, rfl, hobjects⟩
  | error err =>
    dsimp only at hbackup
    split at hbackup
    · next hmissing =>
      obtain ⟨rfl, rfl⟩ := Prod.mk.inj (Except.ok.inj hbackup)
      exact .inr ⟨err, rfl, hmissing, rfl, rfl⟩
    · exact nomatch hbackup

/-! ## Restored rows -/

/-- A command restores an object that is another one but for its children. -/
def Restores (e : EntityType) (m : Mapping) (p : Object) (c : Command) : Prop :=
  ∃ o : Object, o.Completes p ∧ restoreCommand e m o = .ok c

/-- Commands that were made of objects, one of each. -/
theorem forall₂_restores {ps objects : List Object} {inserts : List Command}
    (hobjects : List.Forall₂ (fun p o => o.Completes p) ps objects)
    (hinserts : inserts.map .ok = objects.map (restoreCommand e m)) :
    List.Forall₂ (Restores e m) ps inserts := by
  induction hobjects generalizing inserts with
  | nil =>
    obtain rfl := List.map_eq_nil_iff.mp hinserts
    exact .nil
  | @cons p o ps objects ho _ ih =>
    obtain ⟨c, inserts, rfl, hc, hinserts⟩ := List.map_eq_cons_iff.mp hinserts
    exact .cons ⟨o, ho, hc.symm⟩ (ih hinserts)

/-- What was sent for a table that has been read: it is dropped and created, and each object is
restored. -/
theorem exists_inserts {objects : List Object} {sent : List (Command × Int)}
    (hsent : sent.map (fun x => .ok x.1) = rebuildCommands e m objects true) {ps : List Object}
    (hobjects : List.Forall₂ (fun p o => o.Completes p) ps objects) :
    ∃ inserts, sent.map Prod.fst = m.command m.dropTable :: m.command m.createTable :: inserts ∧
      List.Forall₂ (Restores e m) ps inserts := by
  -- every command was made, so the definitions come first and then one command for each object
  have hcommands : (sent.map Prod.fst).map Except.ok = .ok (m.command m.dropTable) ::
      .ok (m.command m.createTable) :: objects.map (restoreCommand e m) := by
    rw [List.map_map]
    exact hsent
  generalize sent.map Prod.fst = commands at hcommands ⊢
  obtain ⟨drop, commands, rfl, hdrop, hcommands⟩ := List.map_eq_cons_iff.mp hcommands
  obtain ⟨create, inserts, rfl, hcreate, hinserts⟩ := List.map_eq_cons_iff.mp hcommands
  obtain rfl := Except.ok.inj hdrop
  obtain rfl := Except.ok.inj hcreate
  exact ⟨inserts, rfl, forall₂_restores hobjects hinserts⟩

/-- **Which rows are restored.** A rebuild that succeeds has either found no table, and then it
created one, or it has read rows. Then it inserted one row for each group of them, in the order in
which the groups are first seen, and the result is the number of groups. That is the number of rows
that were read just if every row has a root of its own. -/
theorem alterTable_restored (hrun : (s.alterTable e).run h st = (.ok n, st', events)) :
    ∃ m reply sent closed, s.target e.table = .ok m ∧
      exchanges events = rebuilt m reply sent closed ∧
      ((∃ err, reply = .error err ∧ isMissingTable err = true ∧ n = 0 ∧
          sent.map Prod.fst = [m.command m.createTable]) ∨
        ∃ rows inserts, reply = .ok rows ∧
          sent.map Prod.fst = m.command m.dropTable :: m.command m.createTable :: inserts ∧
          List.Forall₂ (fun g c => Restores e m (m.table.seenFirst g) c) (m.table.rootGroups rows)
            inserts ∧
          n = inserts.length ∧ n ≤ rows.length ∧ (n = rows.length ↔ m.table.RootsApart rows)) := by
  obtain ⟨m, reply, objects, existed, sent, closed, hm, hbackup, hxs, hsent, rfl⟩ :=
    goes_alterTable_ok (goes_of_run hrun).1
  refine ⟨m, reply, sent, closed, hm, hxs, ?_⟩
  rcases backedUp_eq_ok hbackup with ⟨rows, rfl, rfl, hobjects⟩ | ⟨err, rfl, hmissing, rfl, rfl⟩
  · right
    have hroots := materialize_roots hobjects
    obtain ⟨inserts, hfirst, hinserts⟩ :=
      exists_inserts hsent (List.forall₂_map_left_iff (f := m.table.seenFirst).mpr hroots)
    have hlength : objects.length = (m.table.rootGroups rows).length := hroots.length_eq.symm
    rw [List.forall₂_map_left_iff] at hinserts
    refine ⟨rows, inserts, rfl, hfirst, hinserts, ?_, ?_, ?_⟩
    · exact hlength.trans hinserts.length_eq
    · exact hlength ▸ length_rootGroups_le m.table rows
    · rw [hlength]
      exact length_rootGroups_eq_iff
  · left
    refine ⟨err, rfl, hmissing, rfl, ?_⟩
    have hcommands : (sent.map Prod.fst).map (Except.ok (ε := MapperError)) =
        [m.command m.createTable].map .ok := by
      rw [List.map_map]
      exact hsent
    exact List.map_injective_iff.mpr (fun _ _ => Except.ok.inj) hcommands

/-! ## Keys of restored rows -/

/-- In each column of a table a row has a value of the column's type. -/
def Table.Typed (t : Table) (row : Row) : Prop :=
  ∀ f ∈ t.scalarFields, ∃ d, f.Holds d ∧ row.get? f.name = some d.toValue

/-- A row with values of the columns' types and no null in its key has a key that can be read. -/
theorem Table.Typed.keyed (htyped : t.Typed row)
    (hpresent : ∀ f ∈ t.primaryKey, row.get? f.name ≠ some .null) : t.Keyed row := by
  intro f hf
  obtain ⟨d, hholds, hd⟩ := htyped f (mem_scalarFields hf)
  refine ⟨d.toValue, hd, fun hnull => hpresent f hf (by rw [hd, hnull]), ?_⟩
  rw [hholds.read_toValue]
  rfl

/-- Rows whose keys are not null and show different texts have roots of their own. -/
theorem rootsApart_of_typed (htyped : ∀ row ∈ rows, t.Typed row)
    (hpresent : ∀ row ∈ rows, ∀ f ∈ t.primaryKey, row.get? f.name ≠ some .null)
    (hdistinct : (rows.map t.keyTextsOf).Nodup) : t.RootsApart rows := by
  intro hkey
  have hkeyed : ∀ row ∈ rows, t.Keyed row :=
    fun row hrow => (htyped row hrow).keyed (hpresent row hrow)
  refine ⟨fun row hrow => (hkeyed row hrow).opens hkey, ?_⟩
  refine (List.pairwise_map.mp hdistinct).imp_of_mem fun hr hs hne => ?_
  rw [Bool.eq_false_iff]
  exact fun hsame => hne (((hkeyed _ hr).sameObject_iff (hkeyed _ hs) hkey).mp hsame)

/-- What an object stores that is seen in a row: the values of the row. -/
theorem stored_of_typed (htyped : t.Typed row) (ho : o.Completes (t.seen (.ofRow row))) {f : Field}
    (hf : f ∈ t.scalarFields) : row.get? f.name = some (t.stored o f.name) := by
  -- the first column of the name shows the same value of the row
  obtain ⟨g, hfind⟩ : ∃ g, t.scalarFields.find? (fun g => g.name == f.name) = some g :=
    Option.isSome_iff_exists.mp (List.find?_isSome.mpr ⟨f, hf, beq_self_eq_true _⟩)
  have hname : g.name = f.name := by simpa using List.find?_some hfind
  obtain ⟨d, hholds, hd⟩ := htyped g (List.mem_of_find?_eq_some hfind)
  have hseen : g.seenIn (.ofRow row) = d := by
    unfold Field.seenIn
    rw [cell?_ofRow, hd]
    simp only [hholds.read_toValue]
  have hvalue : t.value? o f.name = some d := by
    unfold Table.value?
    rw [Table.entries_of_completes ho, List.find?_map]
    show (((t.scalarFields.find? fun g => g.name == f.name).map _).map _) = _
    rw [hfind, Option.map_some, Option.map_some, hseen]
  rw [← hname, hd, hname, Table.stored, hvalue]
  rfl

/-- **Which keys rows are restored with.** Let a rebuild succeed, and let it have read rows whose
values are of the types of their columns, with keys that are not null and show different texts. Then
one row was inserted for each row that was read, in this order. What it binds to a key is the key
that the object has after it took its keys; before that it had the key of the row. So the key of the
row is restored where an identity is assigned, or where the object leaves its key alone. -/
theorem alterTable_keys (hrun : (s.alterTable e).run h st = (.ok n, st', events)) :
    ∃ m reply sent closed, s.target e.table = .ok m ∧
      exchanges events = rebuilt m reply sent closed ∧
      ∀ rows, reply = .ok rows → (∀ row ∈ rows, m.table.Typed row) →
        (∀ row ∈ rows, ∀ f ∈ m.table.primaryKey, row.get? f.name ≠ some .null) →
        (rows.map m.table.keyTextsOf).Nodup →
        ∃ inserts,
          sent.map Prod.fst = m.command m.dropTable :: m.command m.createTable :: inserts ∧
          List.Forall₂ (fun row c => ∃ o : Object, o.Completes (m.table.seen (.ofRow row)) ∧
            c.text = m.insert false ∧ ∀ k ∈ m.keyNames,
              row.get? k = some (m.table.stored o k) ∧
              c.bound k = m.table.stored (keyed e m o) k) rows inserts := by
  obtain ⟨m, reply, objects, existed, sent, closed, hm, hbackup, hxs, hsent, rfl⟩ :=
    goes_alterTable_ok (goes_of_run hrun).1
  refine ⟨m, reply, sent, closed, hm, hxs, ?_⟩
  rintro rows rfl htyped hpresent hdistinct
  rcases backedUp_eq_ok hbackup with ⟨rows', heq, rfl, hobjects⟩ | ⟨err, heq, -⟩
  · obtain rfl := Except.ok.inj heq
    have hroots := materialize_roots hobjects
    rw [rootGroups_of_apart (rootsApart_of_typed htyped hpresent hdistinct),
      List.forall₂_map_left_iff] at hroots
    obtain ⟨inserts, hfirst, hinserts⟩ := exists_inserts hsent
      (List.forall₂_map_left_iff (f := fun row => m.table.seen (.ofRow row)).mpr hroots)
    refine ⟨inserts, hfirst, ?_⟩
    rw [List.forall₂_map_left_iff] at hinserts
    have hmem := (List.forall₂_and_left _ _).mpr ⟨fun row hrow => hrow, hinserts⟩
    refine hmem.imp fun row c hc => ?_
    obtain ⟨hrow, o, ho, hcommand⟩ := hc
    obtain ⟨htext, -, hbound⟩ := objectCommand_ok hcommand
    refine ⟨o, ho, (Except.ok.inj htext).symm, fun k hk => ?_⟩
    obtain ⟨f, hf, rfl⟩ := List.mem_map.mp hk
    exact ⟨stored_of_typed (htyped row hrow) ho (mem_scalarFields hf), by rw [hbound]⟩
  · exact nomatch heq

/-! ## Profiles -/

namespace Profiles

/-- Profiles with the number of a user. -/
def table : Table where
  entity := "Profile"
  tableName := "profiles"
  fields := [.ofType "id" { scalar := .int .int64 } { primaryKey := true },
    .ofType "user_id" { scalar := .int .int64 }]

/-- A profile without a number takes one from its user. -/
def profile : EntityType where
  table
  assignKeys o :=
    match o.values with
    | [.int 0, .int user] => { o with values := [.int (user * 100), .int user] }
    | _ => o

def session : Session where
  catalog := ⟨[table]⟩
  backends := ⟨[(defaultBackend, .of .sqlite)]⟩

/-- The row of a profile. -/
def numbered (number user : Int64) : Row := ⟨[("id", .int number), ("user_id", .int user)]⟩

/-- A backend that has some rows and accepts every command. -/
def answer : Handler (List Row)
  | _, .connect, rows => (.ok (), rows)
  | _, .open, rows => (.ok (), rows)
  | _, .close, rows => (.ok (), rows)
  | _, .execute _, rows => (.ok 1, rows)
  | _, .scalar _, rows => (.ok .null, rows)
  | _, .reader _, rows => (.ok rows, rows)
  | _, .insertIdentity _ _, rows => (.ok .null, rows)
  | _, .tableExists _, rows => (.ok true, rows)

end Profiles

/-- Of two profiles with one number the first one is restored. -/
theorem alterTable_restored_profiles :
    ∃ events m inserts,
      (Profiles.session.alterTable Profiles.profile).run Profiles.answer
          [Profiles.numbered 1 4, Profiles.numbered 1 5] =
        (.ok 1, [Profiles.numbered 1 4, Profiles.numbered 1 5], events) ∧
      Profiles.session.target Profiles.table = .ok m ∧
      List.Forall₂ (fun g c => Restores Profiles.profile m (m.table.seenFirst g) c)
        (m.table.rootGroups [Profiles.numbered 1 4, Profiles.numbered 1 5]) inserts ∧
      inserts.length = 1 := by
  have hrun : (Profiles.session.alterTable Profiles.profile).run Profiles.answer
      [Profiles.numbered 1 4, Profiles.numbered 1 5] =
        (.ok 1, [Profiles.numbered 1 4, Profiles.numbered 1 5], _) := rfl
  obtain ⟨m, reply, sent, closed, hm, hxs, hrestored⟩ := alterTable_restored hrun
  obtain rfl := Except.ok.inj hm
  have hthird := congrArg (fun xs : List Exchange => xs[2]?) hxs
  obtain ⟨-, -, hreply⟩ := Exchange.mk.inj (Option.some.inj hthird)
  obtain rfl := eq_of_heq hreply
  rcases hrestored with ⟨err, herr, -⟩ | ⟨rows, inserts, hrows, -, hinserts, hn, -⟩
  · exact nomatch herr
  · obtain rfl := Except.ok.inj hrows
    exact ⟨_, _, inserts, hrun, rfl, hinserts, hn.symm⟩

/-- A profile that is stored with the number zero is restored with another one. -/
theorem alterTable_keys_profiles :
    ∃ events m reply sent closed insert,
      (Profiles.session.alterTable Profiles.profile).run Profiles.answer [Profiles.numbered 0 4] =
        (.ok 1, [Profiles.numbered 0 4], events) ∧
      exchanges events = rebuilt m reply sent closed ∧
      sent.map Prod.fst = [m.command m.dropTable, m.command m.createTable, insert] ∧
      (Profiles.numbered 0 4).get? "id" = some (.int 0) ∧ insert.bound "id" = .int 400 := by
  have hrun : (Profiles.session.alterTable Profiles.profile).run Profiles.answer
      [Profiles.numbered 0 4] = (.ok 1, [Profiles.numbered 0 4], _) := rfl
  obtain ⟨m, reply, sent, closed, hm, hxs, hkeys⟩ := alterTable_keys hrun
  obtain rfl := Except.ok.inj hm
  have hthird := congrArg (fun xs : List Exchange => xs[2]?) hxs
  obtain ⟨-, -, hreply⟩ := Exchange.mk.inj (Option.some.inj hthird)
  have htyped : Profiles.table.Typed (Profiles.numbered 0 4) := by
    intro f hf
    rcases List.mem_pair.mp hf with rfl | rfl
    · exact ⟨.int 0, ⟨_, rfl, .inr ⟨by decide, by decide⟩⟩, by decide⟩
    · exact ⟨.int 4, ⟨_, rfl, .inr ⟨by decide, by decide⟩⟩, by decide⟩
  obtain ⟨inserts, hsent, hinserts⟩ := hkeys [Profiles.numbered 0 4] (eq_of_heq hreply).symm
    (fun row hrow => List.mem_singleton.mp hrow ▸ htyped) (by decide) (by decide)
  obtain ⟨c, _, ⟨o, ho, -, hkey⟩, hnone, rfl⟩ := List.forall₂_cons_left_iff.mp hinserts
  obtain rfl := List.forall₂_nil_left_iff.mp hnone
  have hbound := (hkey "id" (by decide)).2
  refine ⟨_, _, _, _, _, c, hrun, hxs, hsent, by decide, ?_⟩
  rw [hbound, ho]
  rfl

end EntityMapper
