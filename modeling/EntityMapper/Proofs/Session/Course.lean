import EntityMapper.Proofs.Session.Exchange
import EntityMapper.Session.Write

/-!
# The course of a write

What a write exchanges with its backend, command by command, together with the outcome that it
tells and the object as it is then. A refusal by the backend ends a write with a failed outcome for
the step that was tried; only what the mapper itself cannot do is an error.

* `Inserts`, `Updates`, `Saves` — the courses over an open connection
* `goes_write` — every write goes so, in each of its three modes
* `save_course` — the course of a save that ends with an outcome
-/

namespace EntityMapper.Session

open Program

variable {s : Session} {e : EntityType} {m : Mapping} {options : SaveOptions} {mode : WriteMode}
  {ignoreAutomatic : Bool} {check : Command} {o : Object} {xs : List Exchange} {w : Written}

/-! ## Courses over an open connection -/

/-- The object that an insert writes. Where there is no identity to assign, the object takes its
keys first. -/
def keyed (e : EntityType) (m : Mapping) (o : Object) : Object :=
  if m.table.identityField?.isNone then e.assignKeys o else o

/-- The identity that an insert reads back, with the query for it. -/
def readBack? (m : Mapping) (ignoreAutomatic : Bool) : Option (Field × String) :=
  match (if ignoreAutomatic then m.table.identityField? else none), m.dialect.lastIdentity with
  | some f, some last => some (f, last)
  | _, _ => none

/-- The call that hands an insert to a connection. -/
def insertCall (m : Mapping) (ignoreAutomatic : Bool) (c : Command) : Call :=
  (readBack? m ignoreAutomatic).elim (.execute c) fun (_, last) => .insertIdentity c last

/-- What a write results in when the backend refuses one of its steps. -/
def refused (step : StatementKind) (err : BackendError) (o : Object) : Written :=
  (.ok { status := .fail, affected := -1, kind := step, message := some err.display, data := none },
    o)

/-- What a write results in when the backend accepts it. -/
def accepted (kind : StatementKind) (affected : Int) (o : Object) : Written :=
  (.ok { status := .ok, affected, kind, message := none, data := some o }, o)

/-- The insert of an object. -/
inductive Inserts (e : EntityType) (m : Mapping) (ignoreAutomatic : Bool) (o : Object) :
    List Exchange → Written → Prop
  /-- there is no command for the object -/
  | unready {err : SchemaError}
      (command : objectCommand m (.ok (m.insert ignoreAutomatic)) (keyed e m o) =
        .error (.schema err)) :
      Inserts e m ignoreAutomatic o [] (.error (.schema err), keyed e m o)
  /-- the backend refuses the row -/
  | notInserted {c : Command}
      (command : objectCommand m (.ok (m.insert ignoreAutomatic)) (keyed e m o) = .ok c)
      (err : BackendError) :
      Inserts e m ignoreAutomatic o
        [⟨m.table.backend, insertCall m ignoreAutomatic c, .error err⟩]
        (refused .insert (err.within (m.context .insert)) (keyed e m o))
  /-- the backend accepts the row, and no identity is read back -/
  | inserted {c : Command}
      (command : objectCommand m (.ok (m.insert ignoreAutomatic)) (keyed e m o) = .ok c)
      (plain : readBack? m ignoreAutomatic = none) (n : Int) :
      Inserts e m ignoreAutomatic o [⟨m.table.backend, .execute c, .ok n⟩]
        (accepted .insert n (keyed e m o))
  /-- the backend accepts the row, and the object takes the identity that comes back -/
  | identified {c : Command} {f : Field} {last : String} {v : Value} {o' : Object}
      (command : objectCommand m (.ok (m.insert ignoreAutomatic)) o = .ok c)
      (identity : readBack? m ignoreAutomatic = some (f, last))
      (assigned : assignIdentity m.table f o v = .ok o') :
      Inserts e m ignoreAutomatic o [⟨m.table.backend, .insertIdentity c last, .ok v⟩]
        (accepted .insert 1 o')
  /-- the backend accepts the row, and the identity that comes back means nothing to its field -/
  | misread {c : Command} {f : Field} {last : String} {v : Value} {cause : CoercionError}
      (command : objectCommand m (.ok (m.insert ignoreAutomatic)) o = .ok c)
      (identity : readBack? m ignoreAutomatic = some (f, last))
      (present : v ≠ .null) (unreadable : f.read v = .error cause) :
      Inserts e m ignoreAutomatic o [⟨m.table.backend, .insertIdentity c last, .ok v⟩]
        (.error (.coercion ⟨m.table.entity, f.name, f.valueType, v.type, cause⟩), o)

/-- The update of an object. -/
inductive Updates (m : Mapping) (o : Object) : List Exchange → Written → Prop
  /-- there is no command for the object -/
  | unready {err : SchemaError} (command : objectCommand m m.update o = .error (.schema err)) :
      Updates m o [] (.error (.schema err), o)
  /-- the backend refuses the update -/
  | notUpdated {c : Command} (command : objectCommand m m.update o = .ok c) (err : BackendError) :
      Updates m o [⟨m.table.backend, .execute c, .error err⟩]
        (refused .update (err.within (m.context .update)) o)
  /-- the backend accepts the update -/
  | updated {c : Command} (command : objectCommand m m.update o = .ok c) (n : Int) :
      Updates m o [⟨m.table.backend, .execute c, .ok n⟩] (accepted .update n o)

/-- Whether a value reads as a positive count. -/
def isStored (found : Value) : Bool := found.asCount.any (0 < ·)

/-- The save of an object, after the command that looks for its key. -/
inductive Saves (e : EntityType) (m : Mapping) (options : SaveOptions) (check : Command)
    (o : Object) : List Exchange → Written → Prop
  /-- the backend refuses to look -/
  | notChecked (err : BackendError) :
      Saves e m options check o [⟨m.table.backend, .scalar check, .error err⟩]
        (refused .existenceCheck (err.within (m.context .existenceCheck)) o)
  /-- the key is stored, and its row is to be left alone -/
  | kept {found : Value} (stored : isStored found = true) (keep : options.keepExisting = true) :
      Saves e m options check o [⟨m.table.backend, .scalar check, .ok found⟩]
        (accepted .none (-1) o)
  /-- the key is stored, and its row is updated -/
  | update {found : Value} (stored : isStored found = true) (keep : options.keepExisting = false)
      {xs : List Exchange} {w : Written} (h : Updates m o xs w) :
      Saves e m options check o (⟨m.table.backend, .scalar check, .ok found⟩ :: xs) w
  /-- the key is new, and a row is inserted -/
  | insert {found : Value} (new : isStored found = false) {xs : List Exchange} {w : Written}
      (h : Inserts e m options.ignoreAutomatic o xs w) :
      Saves e m options check o (⟨m.table.backend, .scalar check, .ok found⟩ :: xs) w

/-- A write in each of its modes, after the existence check that a save makes. -/
inductive Writes (e : EntityType) (m : Mapping) (options : SaveOptions) (o : Object) :
    WriteMode → Option Command → List Exchange → Written → Prop
  | save {check : Command} {xs : List Exchange} {w : Written}
      (h : Saves e m options check o xs w) : Writes e m options o .save (some check) xs w
  | insert {xs : List Exchange} {w : Written} (h : Inserts e m options.ignoreAutomatic o xs w) :
      Writes e m options o .insert none xs w
  | update {xs : List Exchange} {w : Written} (h : Updates m o xs w) :
      Writes e m options o .update none xs w

/-! ## Commands and attempts -/

/-- Where there is no command for an object, that is a mistake in the mapping. -/
theorem objectCommand_error {sql : Except SchemaError String} {err : MapperError}
    (h : objectCommand m sql o = .error err) : ∃ cause, err = .schema cause := by
  unfold objectCommand at h
  cases sql with
  | error cause => exact ⟨cause, (Except.error.inj h).symm⟩
  | ok sql =>
    cases hrow : m.table.toRow o with
    | error cause =>
      rw [hrow] at h
      exact ⟨cause, (Except.error.inj h).symm⟩
    | ok row =>
      rw [hrow] at h
      exact nomatch h

/-- An identity that cannot be assigned is there and means nothing to its field. -/
theorem assignIdentity_error {t : Table} {f : Field} {v : Value} {err : MapperError}
    (h : assignIdentity t f o v = .error err) :
    v ≠ .null ∧ ∃ cause, f.read v = .error cause ∧
      err = .coercion ⟨t.entity, f.name, f.valueType, v.type, cause⟩ := by
  unfold assignIdentity at h
  split at h
  · exact nomatch h
  · next hnull =>
    refine ⟨fun hv => hnull (Value.isNull_iff.mpr hv), ?_⟩
    split at h
    · exact nomatch h
    · next cause hread => exact ⟨cause, hread, (Except.error.inj h).symm⟩

/-- What comes of an attempt: a refusal becomes an outcome, and an accepted write carries its
object. -/
def Attempt.written (a : Attempt) : Written :=
  ((captured a.step a.result).map fun outcome =>
    if outcome.isOk then outcome.withData a.object else outcome, a.object)

theorem written_backend (step : StatementKind) (err : BackendError) (o : Object) :
    (Attempt.mk o step (.error (.backend err))).written = refused step err o := rfl

/-! ## Identities -/

theorem readBack?_eq_some {f : Field} {last : String} :
    readBack? m ignoreAutomatic = some (f, last) ↔
      ignoreAutomatic = true ∧ m.table.identityField? = some f ∧
        m.dialect.lastIdentity = some last := by
  unfold readBack?
  cases ignoreAutomatic with
  | false => simp
  | true =>
    cases m.table.identityField? with
    | none => simp
    | some g => cases m.dialect.lastIdentity <;> simp

theorem readBack?_eq_none (h : ∀ f last,
    (if ignoreAutomatic = true then m.table.identityField? else none) = some f →
      m.dialect.lastIdentity = some last → False) : readBack? m ignoreAutomatic = none := by
  unfold readBack?
  split
  · next f last hf hlast => exact (h f last hf hlast).elim
  · rfl

/-- A table without an identity has none to read back. -/
theorem readBack?_of_none (ignoreAutomatic : Bool) (h : m.table.identityField? = none) :
    readBack? m ignoreAutomatic = none := by
  simp [readBack?, h]

/-- An object whose identity is assigned does not take its keys. -/
theorem keyed_of_identity {f : Field} (h : m.table.identityField? = some f) : keyed e m o = o := by
  simp [keyed, h]

theorem keyed_of_none (h : m.table.identityField? = none) : keyed e m o = e.assignKeys o := by
  simp [keyed, h]

/-! ## The steps of a write -/

/-- An insert whose identity is read back, once there is a command. -/
theorem inserts_of_identity {c : Command} {f : Field} {last : String}
    {a : Object × Except MapperError Int}
    (hcommand : objectCommand m (.ok (m.insert ignoreAutomatic)) o = .ok c)
    (hback : readBack? m ignoreAutomatic = some (f, last))
    (h : Goes (do
      match ← s.send m .insert c (.insertIdentity c last) with
      | .error err => return (o, .error (.backend err))
      | .ok generated =>
        match assignIdentity m.table f o generated with
        | .ok o => return (o, .ok 1)
        | .error err => return (o, .error err)) xs a) :
    Inserts e m ignoreAutomatic o xs (Attempt.mk a.1 .insert (a.2.map (.ok .insert))).written := by
  have hkeyed : keyed e m o = o := keyed_of_identity (readBack?_eq_some.mp hback).2.1
  rw [goes_bind] at h
  obtain ⟨_, _, zs, hsend, h, rfl⟩ := h
  obtain ⟨reply, rfl, rfl⟩ := goes_send hsend
  cases reply with
  | error err =>
    obtain ⟨rfl, rfl⟩ := goes_pure.mp h
    have hrefused := Inserts.notInserted (hkeyed.symm ▸ hcommand) err
    rwa [insertCall, hback, hkeyed] at hrefused
  | ok v =>
    dsimp only [Except.mapError] at h
    cases hassign : assignIdentity m.table f o v with
    | ok o' =>
      rw [hassign] at h
      obtain ⟨rfl, rfl⟩ := goes_pure.mp h
      exact .identified hcommand hback hassign
    | error err =>
      rw [hassign] at h
      obtain ⟨rfl, rfl⟩ := goes_pure.mp h
      obtain ⟨hpresent, cause, hread, rfl⟩ := assignIdentity_error hassign
      exact .misread hcommand hback hpresent hread

/-- An insert whose number of rows the backend tells, once there is a command. -/
theorem inserts_of_execute {c : Command} {a : Object × Except MapperError Int}
    (hcommand : objectCommand m (.ok (m.insert ignoreAutomatic)) (keyed e m o) = .ok c)
    (hback : readBack? m ignoreAutomatic = none)
    (h : Goes (do return (keyed e m o, (← s.send m .insert c (.execute c)).mapError .backend)) xs a) :
    Inserts e m ignoreAutomatic o xs (Attempt.mk a.1 .insert (a.2.map (.ok .insert))).written := by
  rw [goes_bind] at h
  obtain ⟨_, _, zs, hsend, h, rfl⟩ := h
  obtain ⟨reply, rfl, rfl⟩ := goes_send hsend
  obtain ⟨rfl, rfl⟩ := goes_pure.mp h
  cases reply with
  | error err =>
    have hrefused := Inserts.notInserted hcommand err
    rwa [insertCall, hback] at hrefused
  | ok n => exact .inserted hcommand hback n

theorem goes_insertStep {a : Attempt} (h : (s.insertStep e m options o).Goes xs a) :
    Inserts e m options.ignoreAutomatic o xs a.written := by
  unfold insertStep at h
  rw [goes_bind] at h
  obtain ⟨ys, ⟨o', r⟩, zs, hinsert, h, rfl⟩ := h
  obtain ⟨rfl, rfl⟩ := goes_pure.mp h
  rw [List.append_nil]
  unfold insertObject at hinsert
  dsimp only at hinsert
  split at hinsert
  · next err hcommand =>
    obtain ⟨rfl, heq⟩ := goes_pure.mp hinsert
    obtain ⟨rfl, rfl⟩ := Prod.mk.inj heq
    obtain ⟨cause, rfl⟩ := objectCommand_error hcommand
    exact .unready hcommand
  · next c hcommand =>
    split at hinsert
    · next f last hf hlast =>
      have hidentity : options.ignoreAutomatic = true ∧ m.table.identityField? = some f := by
        simpa using hf
      simp only [hidentity.2, Option.isNone_some, Bool.false_eq_true, if_false] at hcommand hinsert
      exact inserts_of_identity hcommand
        (readBack?_eq_some.mpr ⟨hidentity.1, hidentity.2, hlast⟩) hinsert
    · next hnone => exact inserts_of_execute hcommand (readBack?_eq_none hnone) hinsert

theorem goes_updateStep {a : Attempt} (h : (s.updateStep m o).Goes xs a) :
    Updates m o xs a.written := by
  unfold updateStep at h
  cases hcommand : objectCommand m m.update o with
  | error err =>
    rw [hcommand] at h
    obtain ⟨rfl, rfl⟩ := goes_pure.mp h
    obtain ⟨cause, rfl⟩ := objectCommand_error hcommand
    exact .unready hcommand
  | ok c =>
    rw [hcommand] at h
    dsimp only at h
    rw [goes_bind] at h
    obtain ⟨_, _, zs, hsend, h, rfl⟩ := h
    obtain ⟨reply, rfl, rfl⟩ := goes_send hsend
    obtain ⟨rfl, rfl⟩ := goes_pure.mp h
    cases reply with
    | error err => exact .notUpdated hcommand err
    | ok n => exact .updated hcommand n

/-- A save over an open connection. -/
theorem goes_saveSteps {a : Attempt}
    (h : (s.writeSteps e m options .save (some check) o).Goes xs a) :
    Saves e m options check o xs a.written := by
  unfold writeSteps at h
  dsimp only at h
  rw [goes_bind] at h
  obtain ⟨_, _, zs, hsend, h, rfl⟩ := h
  obtain ⟨reply, rfl, rfl⟩ := goes_send hsend
  cases reply with
  | error err =>
    obtain ⟨rfl, rfl⟩ := goes_pure.mp h
    exact .notChecked err
  | ok found =>
    change Goes (if !isStored found then _ else if options.keepExisting && true then _ else _) _ _ at h
    cases hstored : isStored found with
    | false =>
      rw [hstored] at h
      exact .insert hstored (goes_insertStep h)
    | true =>
      rw [hstored] at h
      cases hkeep : options.keepExisting with
      | true =>
        rw [hkeep] at h
        obtain ⟨rfl, rfl⟩ := goes_pure.mp h
        exact .kept hstored hkeep
      | false =>
        rw [hkeep] at h
        exact .update hstored hkeep (goes_updateStep h)

/-- A save makes the command of its existence check. -/
theorem checkCommand_save {check : Option Command} (h : checkCommand m .save o = .ok check) :
    ∃ c, objectCommand m m.existenceCheck o = .ok c ∧ check = some c := by
  unfold checkCommand at h
  cases hc : objectCommand m m.existenceCheck o with
  | error err =>
    rw [hc] at h
    exact nomatch h
  | ok c =>
    rw [hc] at h
    exact ⟨c, rfl, (Except.ok.inj h).symm⟩

theorem checkCommand_error {err : MapperError} (h : checkCommand m mode o = .error err) :
    ∃ cause, err = .schema cause := by
  unfold checkCommand at h
  split at h
  · cases hc : objectCommand m m.existenceCheck o with
    | error err' =>
      rw [hc] at h
      obtain rfl := Except.error.inj h
      exact objectCommand_error hc
    | ok c =>
      rw [hc] at h
      exact nomatch h
  · exact nomatch h

theorem goes_writeSteps {check : Option Command} {a : Attempt}
    (hcheck : checkCommand m mode o = .ok check)
    (h : (s.writeSteps e m options mode check o).Goes xs a) :
    Writes e m options o mode check xs a.written := by
  cases mode with
  | save =>
    obtain ⟨c, -, rfl⟩ := checkCommand_save hcheck
    exact .save (goes_saveSteps h)
  | insert =>
    obtain rfl := Except.ok.inj hcheck
    exact .insert (goes_insertStep h)
  | update =>
    obtain rfl := Except.ok.inj hcheck
    exact .update (goes_updateStep h)

/-! ## Whole writes -/

/-- What the rules say, if they are asked: there is an error or they refuse the object, or they
pass. -/
theorem goes_rules {r : Except MapperError (Option (Outcome Object))}
    (h : (if options.validate then checkRules m options o else pure (.ok none)).Goes xs r) :
    xs = [] ∧ ((options.validate = true ∧ m.table.validate o ≠ .ok [] ∧
      ((∃ err, r = .error err) ∨ ∃ rejected, r = .ok (some rejected))) ∨ r = .ok none) := by
  split at h
  · next hvalidate =>
    unfold checkRules at h
    split at h
    · next hrules =>
      obtain ⟨rfl, rfl⟩ := goes_pure.mp h
      exact ⟨rfl, .inl ⟨hvalidate, by rw [hrules]; exact nofun, .inl ⟨_, rfl⟩⟩⟩
    · obtain ⟨rfl, rfl⟩ := goes_pure.mp h
      exact ⟨rfl, .inr rfl⟩
    · next failures hfailed hfailures =>
      rw [goes_bind_silent goes_take, goes_bind_silent goes_takeIf] at h
      obtain ⟨rfl, rfl⟩ := goes_pure.mp h
      refine ⟨rfl, .inl ⟨hvalidate, ?_, .inr ⟨_, rfl⟩⟩⟩
      rw [hfailures]
      exact fun heq => hfailed (Except.ok.inj heq)
  · obtain ⟨rfl, rfl⟩ := goes_pure.mp h
    exact ⟨rfl, .inr rfl⟩

/-- A write that no rule refuses. Nothing is exchanged where there is no command to look for the
key; otherwise the write goes over a connection of its own. -/
theorem goes_writeNotified (h : (s.writeNotified e m options mode o).Goes xs w) :
    (xs = [] ∧ ∃ err, checkCommand m mode o = .error err ∧ w.1 = .error err) ∨
      ∃ check, checkCommand m mode o = .ok check ∧
        Connects m.table.backend (fun err => refused mode.firstStep err o)
          (Writes e m options o mode check) xs w := by
  unfold writeNotified at h
  rw [goes_bind_silent goes_takeIf, goes_bind] at h
  obtain ⟨xs, a, zs, hwrite, h, rfl⟩ := h
  rw [goes_bind] at h
  obtain ⟨us, r, vs, hcapture, h, rfl⟩ := h
  obtain ⟨rfl, rfl⟩ := goes_capture goes_takeIf hcapture
  -- what follows the attempt is noted and not exchanged
  obtain ⟨rfl, rfl⟩ : vs = [] ∧ w = a.written := by
    unfold Attempt.written
    cases hr : captured a.step a.result with
    | error err =>
      rw [hr] at h
      exact goes_pure.mp h
    | ok outcome =>
      rw [hr] at h
      dsimp only [Except.map] at h ⊢
      split at h
      · next hok =>
        rw [goes_bind_silent goes_takeIf, goes_pure] at h
        rwa [if_pos hok]
      · next hok =>
        rw [if_neg hok]
        exact goes_pure.mp h
  rw [List.nil_append, List.append_nil]
  unfold writeObject at hwrite
  cases hcheck : checkCommand m mode o with
  | error err =>
    rw [hcheck] at hwrite
    obtain ⟨rfl, rfl⟩ := goes_done.mp hwrite
    obtain ⟨cause, rfl⟩ := checkCommand_error hcheck
    exact .inl ⟨rfl, _, rfl, rfl⟩
  | ok check =>
    rw [hcheck] at hwrite
    refine .inr ⟨check, rfl, ?_⟩
    exact (goes_withConnection hwrite).map (fun err => written_backend _ err o)
      (goes_writeSteps hcheck)

theorem target_eq_ok {t : Table} (h : s.target t = .ok m) : m.table = t := by
  unfold target at h
  cases hd : s.backends.find t.backend with
  | error err =>
    rw [hd] at h
    exact nomatch h
  | ok d =>
    rw [hd] at h
    exact congrArg Mapping.table (Except.ok.inj h).symm

/-- **Every write goes so.** Either nothing is exchanged, for a rule that refuses the object or for
an error that leaves no command to start with, or the write goes over a connection of its own. -/
theorem goes_write (h : (s.write e mode options o).Goes xs w) :
    (xs = [] ∧ (options.validate = true ∧ e.table.validate o ≠ .ok [] ∨
      (∃ err, w.1 = .error err) ∧
        ∀ m, s.target e.table = .ok m → ∃ err, checkCommand m mode o = .error err)) ∨
    ∃ m check, s.target e.table = .ok m ∧ checkCommand m mode o = .ok check ∧
      Connects m.table.backend (fun err => refused mode.firstStep err o)
        (Writes e m options o mode check) xs w := by
  unfold write at h
  cases htarget : s.target e.table with
  | error err =>
    rw [htarget] at h
    obtain ⟨rfl, rfl⟩ := goes_done.mp h
    exact .inl ⟨rfl, .inr ⟨⟨_, rfl⟩, nofun⟩⟩
  | ok m =>
    rw [htarget] at h
    dsimp only at h
    rw [goes_spanned, goes_bind] at h
    obtain ⟨ys, r, zs, hrules, h, rfl⟩ := h
    obtain ⟨rfl, hr⟩ := goes_rules hrules
    rw [List.nil_append]
    have htable : m.table = e.table := target_eq_ok htarget
    obtain ⟨hvalidate, hrefused, ⟨err, rfl⟩ | ⟨rejected, rfl⟩⟩ | rfl := hr
    · obtain ⟨rfl, rfl⟩ := goes_pure.mp h
      exact .inl ⟨rfl, .inl ⟨hvalidate, htable ▸ hrefused⟩⟩
    · obtain ⟨rfl, rfl⟩ := goes_pure.mp h
      exact .inl ⟨rfl, .inl ⟨hvalidate, htable ▸ hrefused⟩⟩
    · rcases goes_writeNotified h with ⟨rfl, err, hcheck, herr⟩ | ⟨check, hcheck, hconnects⟩
      · refine .inl ⟨rfl, .inr ⟨⟨err, herr⟩, ?_⟩⟩
        rintro m' hm
        obtain rfl := Except.ok.inj hm
        exact ⟨err, hcheck⟩
      · exact .inr ⟨m, check, rfl, hcheck, hconnects⟩

/-- A save that no rule refuses and that ends with an outcome. -/
theorem goes_save {outcome : Outcome Object} {o' : Object}
    (hrules : options.validate = true → e.table.validate o = .ok [])
    (h : (s.save e options o).Goes xs (.ok outcome, o')) :
    ∃ m check, s.target e.table = .ok m ∧ objectCommand m m.existenceCheck o = .ok check ∧
      Connects m.table.backend (fun err => refused .existenceCheck err o)
        (Saves e m options check o) xs (.ok outcome, o') := by
  rcases goes_write h with ⟨-, ⟨hvalidate, hrefused⟩ | ⟨⟨err, herr⟩, -⟩⟩ | ⟨m, check, hm, hcheck, hcourse⟩
  · exact (hrefused (hrules hvalidate)).elim
  · exact nomatch herr
  · obtain ⟨c, hc, rfl⟩ := checkCommand_save hcheck
    refine ⟨m, c, hm, hc, hcourse.map (g := id) (fun err => rfl) fun hwrites => ?_⟩
    cases hwrites with
    | save hsaves => exact hsaves

/-- **The course of a save that ends with an outcome.** Where no rule refuses the object, the save
looks for the key first, and then there is one command at most: an insert if the count is not
positive, and an update if it is and stored rows are not to be left alone. The outcome tells which
of them was accepted, with its rows and with the object that the caller has then, or for which step
the backend refused. The exchanges are the replies of the handler that the save is run by. -/
theorem save_course {σ : Type} {h : Handler σ} {st st' : σ} {events : List Event}
    {outcome : Outcome Object} {o' : Object}
    (hrules : options.validate = true → e.table.validate o = .ok [])
    (hrun : (s.save e options o).run h st = ((.ok outcome, o'), st', events)) :
    ∃ m check, s.target e.table = .ok m ∧ objectCommand m m.existenceCheck o = .ok check ∧
      Connects m.table.backend (fun err => refused .existenceCheck err o)
        (Saves e m options check o) (exchanges events) (.ok outcome, o') ∧
      h.Gives st (exchanges events) st' := by
  obtain ⟨hgoes, hgives⟩ := goes_of_run hrun
  obtain ⟨m, check, hm, hcheck, hcourse⟩ := goes_save hrules hgoes
  exact ⟨m, check, hm, hcheck, hcourse, hgives⟩

/-! ## Guests -/

namespace Guests

/-- Guests with a small number that the backend assigns. -/
def table : Table where
  entity := "Guest"
  tableName := "guests"
  fields := [.ofType "id" { scalar := .int .uint8 } { primaryKey := true, automatic := .identity },
    .ofType "name" { scalar := .text }]

def session : Session where
  catalog := ⟨[table]⟩
  backends := ⟨[(defaultBackend, .of .sqlite)]⟩

/-- A guest with a number. -/
def guest (number : Int) : Object where
  typeId := "Guest"
  values := [.int number, .text "Ann"]
  children := []

/-- A backend that has no rows and gives each inserted row the same identity. -/
def answer (identity : Value) : Handler Unit
  | _, .connect, _ => (.ok (), ())
  | _, .open, _ => (.ok (), ())
  | _, .close, _ => (.ok (), ())
  | _, .execute _, _ => (.ok 0, ())
  | _, .scalar _, _ => (.ok (.int 0), ())
  | _, .reader _, _ => (.ok [], ())
  | _, .insertIdentity _ _, _ => (.ok identity, ())
  | _, .tableExists _, _ => (.ok true, ())

end Guests

/-- A new guest is inserted and gets the number 7. -/
theorem save_course_guests :
    ∃ events m check, (Guests.session.save ⟨Guests.table, id⟩ {} (Guests.guest 0)).run
        (Guests.answer (.int 7)) () = (accepted .insert 1 (Guests.guest 7), (), events) ∧
      Connects m.table.backend (fun err => refused .existenceCheck err (Guests.guest 0))
        (Saves ⟨Guests.table, id⟩ m {} check (Guests.guest 0)) (exchanges events)
        (accepted .insert 1 (Guests.guest 7)) := by
  have hrun : (Guests.session.save ⟨Guests.table, id⟩ {} (Guests.guest 0)).run
      (Guests.answer (.int 7)) () = (accepted .insert 1 (Guests.guest 7), (), _) := rfl
  obtain ⟨m, check, -, -, hcourse, -⟩ := save_course (by simp) hrun
  exact ⟨_, m, check, hrun, hcourse⟩

end EntityMapper.Session
