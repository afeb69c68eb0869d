import EntityMapper.Proofs.Session.Accepted
import EntityMapper.Proofs.Session.Filtered
import EntityMapper.Proofs.Session.Notices
import EntityMapper.Proofs.Session.Store

/-!
# What mistakes in the mapping leave behind

A write that ends with a mistake in the mapping has sent no command. A deletion makes its command
before anything else and leaves nothing at all. A save makes the command that looks for the key after
its observer was told of the save, and an insert and an update make theirs once their connection is
open: where there is no command they leave that behind.

* `Writes.of_fatal` — no command was made for a write over an open connection
* `Remains` — what is left behind
* `remains_of_fatal` — nothing else is, and no command is ever sent
* `traced_audit` — an observer is told of an update without a key, and a connection is opened for it
-/

namespace EntityMapper.Session

open Program

variable {s : Session} {e : EntityType} {m : Mapping} {options : SaveOptions} {mode : WriteMode}
  {ignoreAutomatic : Bool} {check : Command} {o o' : Object} {xs : List Exchange} {w : Written}
  {err : MapperError}

/-! ## Objects without a command -/

/-- A table has a key, and the object is of its type. -/
def Identifiable (t : Table) (o : Object) : Prop := t.hasPrimaryKey = true ∧ t.owns o = true

/-- There is no command for an object only where its table has no key or where it is of another type. -/
theorem not_identifiable_of_command {sql : Except SchemaError String} {text : String}
    (hsql : m.table.hasPrimaryKey = true → sql = .ok text)
    (h : objectCommand m sql o = .error err) : ¬ Identifiable m.table o := by
  rintro ⟨hkey, howns⟩
  have hrow : m.table.toRow o = .ok _ := if_pos howns
  obtain ⟨c, hc⟩ : ∃ c, objectCommand m (.ok text) o = .ok c := exists_objectCommand hrow
  rw [hsql hkey, hc] at h
  cases h

/-- Where there is a command to look for the key, there is a key, and the object is of the type. -/
theorem identifiable_of_command (h : objectCommand m m.existenceCheck o = .ok check) :
    Identifiable m.table o := by
  obtain ⟨htext, ⟨row, hrow⟩, -⟩ := objectCommand_ok h
  have hkey := Mapping.hasPrimaryKey_of_existenceCheck htext
  refine ⟨hkey, ?_⟩
  by_contra howns
  unfold Table.toRow at hrow
  rw [if_neg howns] at hrow
  split at hrow
  · cases hrow
  · next hnone =>
    -- a table without columns has no key
    rw [Table.hasPrimaryKey, Table.primaryKey, List.head?_eq_none_iff.mp hnone] at hkey
    cases hkey

/-- An insert has a command for every object of the type. -/
theorem not_owns_of_insert
    (h : objectCommand m (.ok (m.insert ignoreAutomatic)) o = .error err) :
    m.table.owns o = false := by
  by_contra howns
  rw [Bool.not_eq_false] at howns
  have hrow : m.table.toRow o = .ok _ := if_pos howns
  obtain ⟨c, hc⟩ : ∃ c, objectCommand m (.ok (m.insert ignoreAutomatic)) o = .ok c :=
    exists_objectCommand hrow
  rw [hc] at h
  cases h

/-- Taking its keys leaves an object of its type. -/
theorem typeId_keyed (hkeys : ∀ o, (e.assignKeys o).typeId = o.typeId) (o : Object) :
    (keyed e m o).typeId = o.typeId := by
  unfold keyed
  split
  · exact hkeys o
  · rfl

/-! ## Mistakes over an open connection -/

theorem Inserts.of_fatal (hkeys : ∀ o, (e.assignKeys o).typeId = o.typeId)
    (h : Inserts e m ignoreAutomatic o xs w) (herr : w.1 = .error err) (hfatal : err.isFatal = true) :
    xs = [] ∧ m.table.owns o = false := by
  cases h with
  | unready command =>
    have howns : m.table.owns (keyed e m o) = m.table.owns o := by
      rw [Table.owns, typeId_keyed hkeys, Table.owns]
    exact ⟨rfl, howns ▸ not_owns_of_insert command⟩
  | notInserted => cases herr
  | inserted => cases herr
  | identified => cases herr
  | misread =>
    obtain rfl := Except.error.inj herr
    cases hfatal

theorem Updates.of_fatal (h : Updates m o xs w) (herr : w.1 = .error err) :
    xs = [] ∧ ¬ Identifiable m.table o := by
  cases h with
  | unready command => exact ⟨rfl, not_identifiable_of_command Mapping.update_eq command⟩
  | notUpdated => cases herr
  | updated => cases herr

/-- Where there is a command to look for the key, there is one for what follows. -/
theorem Saves.not_fatal (hkeys : ∀ o, (e.assignKeys o).typeId = o.typeId)
    (hcheck : objectCommand m m.existenceCheck o = .ok check) (h : Saves e m options check o xs w)
    (herr : w.1 = .error err) : err.isFatal = false := by
  have hidentifiable := identifiable_of_command hcheck
  by_contra hfatal
  rw [Bool.not_eq_false] at hfatal
  cases h with
  | notChecked => cases herr
  | kept => cases herr
  | update _ _ h => exact (h.of_fatal herr).2 hidentifiable
  | insert _ h =>
    have howns := (h.of_fatal hkeys herr hfatal).2
    rw [hidentifiable.2] at howns
    cases howns

/-- **A write over an open connection that ends with a mistake in the mapping** exchanged nothing.
It is an insert of an object of another type, or an update without a key. -/
theorem Writes.of_fatal {found : Option Command} (hkeys : ∀ o, (e.assignKeys o).typeId = o.typeId)
    (hcheck : checkCommand m mode o = .ok found) (h : Writes e m options o mode found xs w)
    (herr : w.1 = .error err) (hfatal : err.isFatal = true) :
    xs = [] ∧ (mode = .insert ∧ m.table.owns o = false ∨
      mode = .update ∧ ¬ Identifiable m.table o) := by
  cases h with
  | save h =>
    obtain ⟨c, hc, hfound⟩ := checkCommand_save hcheck
    obtain rfl := Option.some.inj hfound
    rw [h.not_fatal hkeys hc herr] at hfatal
    cases hfatal
  | insert h =>
    obtain ⟨rfl, howns⟩ := h.of_fatal hkeys herr hfatal
    exact ⟨rfl, .inl ⟨rfl, howns⟩⟩
  | update h =>
    obtain ⟨rfl, hkeyless⟩ := h.of_fatal herr
    exact ⟨rfl, .inr ⟨rfl, hkeyless⟩⟩

/-- Only a save makes a command before its connection, and that looks for the key. -/
theorem not_identifiable_of_checkCommand (h : checkCommand m mode o = .error err) :
    mode = .save ∧ ¬ Identifiable m.table o := by
  unfold checkCommand at h
  split at h
  · refine ⟨rfl, ?_⟩
    cases hc : objectCommand m m.existenceCheck o with
    | error cause => exact not_identifiable_of_command Mapping.existenceCheck_eq hc
    | ok c =>
      rw [hc] at h
      cases h
  · cases h

/-! ## What is left behind -/

/-- What an observer is told before a write, if it wants to be. -/
def opening (options : SaveOptions) (o : Object) : List Deed :=
  (noticeIf (options.observed && options.fire.firesBefore)
    (.around .beforeSave 0 .unknown o)).map .told

/-- A connection that is opened and closed, with nothing in between. -/
def idle (backend : String) (closed : Except BackendError Unit) : List Deed :=
  (connected backend [] closed).map .exchanged

/-- The operation that writes an object in a mode. -/
def WriteMode.operation (options : SaveOptions) : WriteMode → WriteOperation
  | .save => .save options
  | .insert => .insert options
  | .update => .update options

/-- What is left behind by an operation that ends with a mistake in the mapping. -/
inductive Remains (s : Session) (t : Table) (o : Object) : WriteOperation → List Event → Prop
  /-- a deletion makes its command before anything else -/
  | delete {options : DeleteOptions} {events : List Event} (nothing : deeds events = []) :
      Remains s t o (.delete options) events
  /-- so does a deletion of many -/
  | deleteAll {condition : Option Expr} {events : List Event} (nothing : deeds events = []) :
      Remains s t o (.deleteAll condition) events
  /-- there is no backend for the table, or there is a rule for no field -/
  | unready {mode : WriteMode} {options : SaveOptions} {events : List Event} {err : SchemaError}
      (cause : s.target t = .error err ∨ options.validate = true ∧ t.validate o = .error err)
      (nothing : deeds events = []) : Remains s t o (mode.operation options) events
  /-- there is no command to look for the key, after the observer was told -/
  | save {options : SaveOptions} {events : List Event} (keyless : ¬ Identifiable t o)
      (told : deeds events = opening options o) : Remains s t o (.save options) events
  /-- the object is of another type, which is seen over an open connection -/
  | insert {options : SaveOptions} {events : List Event} {closed : Except BackendError Unit}
      (foreign : t.owns o = false)
      (opened : deeds events = opening options o ++ idle t.backend closed) :
      Remains s t o (.insert options) events
  /-- there is no command for the update, which is seen over an open connection -/
  | update {options : SaveOptions} {events : List Event} {closed : Except BackendError Unit}
      (keyless : ¬ Identifiable t o)
      (opened : deeds events = opening options o ++ idle t.backend closed) :
      Remains s t o (.update options) events

variable {σ : Type} {h : Handler σ} {st st' : σ} {events : List Event} {op : WriteOperation}

/-- What is left behind holds no command. -/
theorem Remains.sent_eq_nil {t : Table} (h : Remains s t o op events) :
    sent (exchanges events) = [] := by
  have hopening (options : SaveOptions) : (opening options o).filterMap Deed.exchange? = [] := by
    unfold opening noticeIf
    split <;> rfl
  have hidle (backend : String) (closed : Except BackendError Unit) :
      (idle backend closed).filterMap Deed.exchange? = connected backend [] closed := rfl
  rw [← filterMap_deeds]
  cases h with
  | delete nothing =>
    rw [nothing]
    rfl
  | deleteAll nothing =>
    rw [nothing]
    rfl
  | unready _ nothing =>
    rw [nothing]
    rfl
  | save _ told =>
    rw [told, hopening]
    rfl
  | insert _ opened =>
    rw [opened, List.filterMap_append, hopening, hidle]
    exact sent_connected _ _ _
  | update _ opened =>
    rw [opened, List.filterMap_append, hopening, hidle]
    exact sent_connected _ _ _

/-- What a write leaves behind. -/
theorem remains_of_write (hkeys : ∀ o, (e.assignKeys o).typeId = o.typeId)
    (hrun : (s.write e mode options o).run h st = ((.error err, o'), st', events))
    (hfatal : err.isFatal = true) : Remains s e.table o (mode.operation options) events := by
  cases htarget : s.target e.table with
  | error cause =>
    rw [write, htarget] at hrun
    obtain ⟨-, -, rfl⟩ := run_pure_cases hrun
    exact .unready (.inl htarget) rfl
  | ok m =>
    have htable : m.table = e.table := target_eq_ok htarget
    have hgoes := (goes_of_run hrun).1
    generalize hw : (Except.error err, o') = w at hrun hgoes
    cases run_write hrun with
    | unready cause nothing => exact .unready cause nothing
    | rejected => cases hw
    | performed passed closes around =>
      subst hw
      cases closes
      unfold Around at around
      rw [List.map_nil, List.append_nil] at around
      rcases goes_write hgoes with ⟨hnone, hnocommand⟩ | ⟨m', found, hm', hcheck, hconnects⟩
      · -- nothing was exchanged: the save had no command to look for the key
        rcases hnocommand with ⟨hvalidate, hrefused⟩ | ⟨-, hcommand⟩
        · exact absurd (passed hvalidate) hrefused
        · obtain ⟨cause, hcause⟩ := hcommand m htarget
          obtain ⟨rfl, hkeyless⟩ := not_identifiable_of_checkCommand hcause
          refine .save (htable ▸ hkeyless) ?_
          rw [around, hnone]
          exact List.append_nil _
      · obtain rfl : m = m' := Except.ok.inj (htarget.symm.trans hm')
        generalize hw : (Except.error err, o') = w at hconnects
        generalize exchanges events = xs at around hconnects
        cases hconnects with
        | notConnected => cases hw
        | notOpened => cases hw
        | opened hwrites closed =>
          obtain ⟨rfl, hmode⟩ :=
            hwrites.of_fatal hkeys hcheck (congrArg Prod.fst hw).symm hfatal
          rw [htable] at hmode around
          obtain ⟨rfl, hforeign⟩ | ⟨rfl, hkeyless⟩ := hmode
          · exact .insert hforeign around
          · exact .update hkeyless around

/-- Neither a deletion of many nor its end is told to an observer. -/
theorem quiet_deleteAll {t : Table} {condition : Option Expr} : (s.deleteAll t condition).Quiet := by
  unfold deleteAll prepared
  split
  · exact only_done
  refine only_spanned (fun _ => rfl) ?_
  split
  · exact only_pure
  · exact Only.bind quiet_sendWrite fun r =>
      only_capture (fun _ => rfl) (fun _ => rfl) fun _ => only_pure

/-- **What mistakes in the mapping leave behind.** Whoever replies, an operation that changes rows
and ends with a schema error or an unsupported expression has sent no command. A deletion has called
nothing and told nobody, and so have the others where there is no backend for the table or a rule
for no field. Otherwise the table has no key or the object is of another type: then a save has told
its observer, and an insert and an update have told it and opened a connection, which they closed. -/
theorem remains_of_fatal {σ : Type} {h : Handler σ} {st st' : σ} {events : List Event}
    {op : WriteOperation} (hkeys : ∀ o, (e.assignKeys o).typeId = o.typeId)
    (hrun : (op.perform s e o).run h st = (.error err, st', events)) (hfatal : err.isFatal = true) :
    Remains s e.table o op events ∧ sent (exchanges events) = [] := by
  suffices hremains : Remains s e.table o op events from ⟨hremains, hremains.sent_eq_nil⟩
  have hwritten {mode : WriteMode} {options : SaveOptions}
      (hrun : Program.run h (do return (← s.write e mode options o).1) st =
        (.error err, st', events)) : Remains s e.table o (mode.operation options) events := by
    obtain ⟨⟨result, o'⟩, st₁, before, after, hwrite, hend, rfl⟩ := run_bind_cases hrun
    obtain ⟨hresult, -, rfl⟩ := run_pure_cases hend
    obtain rfl : Except.error err = result := hresult
    rw [List.append_nil]
    exact remains_of_write hkeys hwrite hfatal
  cases op with
  | save options => exact hwritten hrun
  | insert options => exact hwritten hrun
  | update options => exact hwritten hrun
  | delete options =>
    rcases run_delete hrun with ⟨hnothing, -⟩ | ⟨⟨outcome, houtcome⟩, -⟩
    · exact .delete hnothing
    · cases houtcome
  | deleteAll condition =>
    refine .deleteAll ?_
    rw [quiet_deleteAll.deeds_eq hrun, goes_deleteAll_error (goes_of_run hrun).1]
    rfl

/-! ## Audits -/

namespace Audit

/-- The entries of an audit have no key. -/
def table : Table where
  entity := "AuditEntry"
  tableName := "audit"
  fields := [.ofType "message" { scalar := .text }]

def session : Session where
  catalog := ⟨[table]⟩
  backends := ⟨[(defaultBackend, .of .sqlite)]⟩

def entry : Object where
  typeId := "AuditEntry"
  values := [.text "x"]
  children := []

end Audit

/-- No command is sent for the update of an entry. -/
theorem remains_of_fatal_audit :
    ∃ err events, ((WriteOperation.update { observed := true }).perform Audit.session
        ⟨Audit.table, id⟩ Audit.entry).run (Guests.answer .null) () = (.error err, (), events) ∧
      err.isFatal = true ∧
      Remains Audit.session Audit.table Audit.entry (.update { observed := true }) events ∧
      sent (exchanges events) = [] := by
  have hrun : ((WriteOperation.update { observed := true }).perform Audit.session
      ⟨Audit.table, id⟩ Audit.entry).run (Guests.answer .null) () = (.error _, (), _) := rfl
  exact ⟨_, _, hrun, rfl, remains_of_fatal (fun _ => rfl) hrun rfl⟩

/-- The observer is told of the update and of the save of an entry, and a connection is opened for the
update. A deletion of the entry leaves nothing. -/
theorem traced_audit :
    (∃ events, ((WriteOperation.update { observed := true }).perform Audit.session
        ⟨Audit.table, id⟩ Audit.entry).run (Guests.answer .null) () =
          (.error (.schema (.missingPrimaryKey "AuditEntry" "update")), (), events) ∧
      deeds events = [.told (.around .beforeSave 0 .unknown Audit.entry),
        .exchanged ⟨"default", .connect, .ok ()⟩, .exchanged ⟨"default", .open, .ok ()⟩,
        .exchanged ⟨"default", .close, .ok ()⟩]) ∧
    (∃ events, ((WriteOperation.save { observed := true }).perform Audit.session
        ⟨Audit.table, id⟩ Audit.entry).run (Guests.answer .null) () =
          (.error (.schema (.missingPrimaryKey "AuditEntry" "existence check")), (), events) ∧
      deeds events = [.told (.around .beforeSave 0 .unknown Audit.entry)]) ∧
    ∃ events, ((WriteOperation.delete { observed := true }).perform Audit.session
        ⟨Audit.table, id⟩ Audit.entry).run (Guests.answer .null) () =
          (.error (.schema (.missingPrimaryKey "AuditEntry" "delete")), (), events) ∧
      deeds events = [] := by
  exact ⟨⟨_, rfl, rfl⟩, ⟨_, rfl, rfl⟩, ⟨_, rfl, rfl⟩⟩

end EntityMapper.Session
