import EntityMapper.Proofs.Session.Bound
import EntityMapper.Proofs.Session.Notices
import EntityMapper.Proofs.Session.SaveTwice

/-!
# What a write changes in its object

The object that a caller gives to a write is changed in two ways at most. An insert that is tried
lets it take its keys, where no identity is assigned to it, and an insert that is accepted puts the
identity that comes back into its field. All else stays, whatever fails before or after.

* `InsertTried`, `IdentityReturned` — the exchanges that change an object
* `Object.AltersOnly` — an object with another value in one column
* `Changes` — what exchanges change in an object
* `Inserts.changes`, `Updates.changes`, `Saves.changes` — by the courses of a write
* `write_changes` — every write that ends with an outcome
-/

namespace EntityMapper

open Session Program

/-! ## Exchanges that change an object -/

/-- A call hands over a statement. -/
def Call.Hands (c : Call) (sql : String) : Prop := ∃ d, c.command? = some d ∧ d.text = sql

namespace Session

/-- The insert of an object was handed over, whatever the reply. -/
def InsertTried (m : Mapping) (ignoreAutomatic : Bool) (xs : List Exchange) : Prop :=
  ∃ x ∈ xs, x.call.Hands (m.insert ignoreAutomatic)

/-- The backend accepted an insert and handed back a value for the identity. -/
def IdentityReturned (m : Mapping) (ignoreAutomatic : Bool) (xs : List Exchange) (v : Value) :
    Prop :=
  ignoreAutomatic = true ∧ v ≠ .null ∧ ∃ last c, m.dialect.lastIdentity = some last ∧
    ⟨m.table.backend, .insertIdentity c last, .ok v⟩ ∈ xs

end Session

/-- An object is another one, but for the value of the column of a place. -/
structure Object.AltersOnly (place : Nat) (d : Datum) (o o' : Object) : Prop where
  typeId : o'.typeId = o.typeId
  held : o'.values[place]? = some d
  others : ∀ i, i ≠ place → o'.values[i]? = o.values[i]?
  children : o'.children = o.children
  unmapped : o'.unmapped = o.unmapped

/-- No existence check reads like an insert. -/
theorem RowStatement.count_sql_ne_insert (d : Dialect) (table : String)
    (keys columns : List String) :
    (RowStatement.count keys).sql d table ≠ (RowStatement.insert columns).sql d table := by
  unfold sql
  intro heq
  have hhead := congrArg (fun s : String => s.toList.head?) heq
  simp [String.toList_append] at hhead

theorem Object.altersOnly_setValue {o : Object} {place : Nat} (h : place < o.values.length)
    (d : Datum) : o.AltersOnly place d (o.setValue place d) where
  typeId := rfl
  held := by simp [setValue, h]
  others := fun i hi => by simp [setValue, hi.symm]
  children := rfl
  unmapped := rfl

namespace Session

variable {σ : Type} {s : Session} {e : EntityType} {m : Mapping} {mode : WriteMode}
  {options : SaveOptions} {ignoreAutomatic : Bool} {check : Command} {o o' : Object}
  {xs ys : List Exchange} {outcome : Outcome Object} {h : Handler σ} {st st' : σ} {v : Value}
  {events : List Event}

/-- What the exchanges of a write change in its object. -/
structure Changes (e : EntityType) (m : Mapping) (ignoreAutomatic : Bool) (o : Object)
    (xs : List Exchange) (o' : Object) : Prop where
  /-- without an insert nothing changes -/
  untried : ¬ InsertTried m ignoreAutomatic xs → o' = o
  /-- an insert without an identity lets the object take its keys, once -/
  keyed : m.table.identityField? = none → InsertTried m ignoreAutomatic xs → o' = e.assignKeys o
  /-- where there is an identity nothing changes, unless a value for it comes back -/
  unreturned : m.table.identityField?.isSome = true →
    (∀ v, ¬ IdentityReturned m ignoreAutomatic xs v) → o' = o
  /-- a value that comes back is read into the first identity column, and nothing else changes -/
  returned : ∀ f v, m.table.identityField? = some f → IdentityReturned m ignoreAutomatic xs v →
    ∃ d, f.read v = .ok d ∧
      o.AltersOnly (m.table.scalarFields.findIdx Field.isIdentity) d o'

/-! ## Courses of a write -/

/-- Without an exchange nothing changes. -/
theorem changes_nil : Changes e m ignoreAutomatic o [] o where
  untried := fun _ => rfl
  keyed := fun _ ⟨_, hx, _⟩ => absurd hx List.not_mem_nil
  unreturned := fun _ _ => rfl
  returned := fun _ _ _ ⟨_, _, _, _, _, hx⟩ => absurd hx List.not_mem_nil

/-- Further exchanges that do neither change nothing. -/
theorem Changes.congr (htried : InsertTried m ignoreAutomatic ys ↔ InsertTried m ignoreAutomatic xs)
    (hreturned : ∀ v, IdentityReturned m ignoreAutomatic ys v ↔
      IdentityReturned m ignoreAutomatic xs v) (h : Changes e m ignoreAutomatic o xs o') :
    Changes e m ignoreAutomatic o ys o' where
  untried := fun hnot => h.untried fun hx => hnot (htried.mpr hx)
  keyed := fun hnone hy => h.keyed hnone (htried.mp hy)
  unreturned := fun hsome hnot => h.unreturned hsome fun v hv => hnot v ((hreturned v).mpr hv)
  returned := fun f v hf hv => h.returned f v hf ((hreturned v).mp hv)

theorem insertTried_cons {x : Exchange} : InsertTried m ignoreAutomatic (x :: xs) ↔
    x.call.Hands (m.insert ignoreAutomatic) ∨ InsertTried m ignoreAutomatic xs := by
  simp [InsertTried]

/-- One more exchange that does not hand over an insert. -/
theorem Changes.cons {x : Exchange} (hhands : ¬ x.call.Hands (m.insert ignoreAutomatic))
    (hx : ∀ c last, x.call ≠ .insertIdentity c last) (h : Changes e m ignoreAutomatic o xs o') :
    Changes e m ignoreAutomatic o (x :: xs) o' := by
  refine h.congr (by simp [insertTried_cons, hhands]) fun v => ?_
  unfold IdentityReturned
  refine and_congr_right fun _ => and_congr_right fun _ => ?_
  refine exists_congr fun last => exists_congr fun c => and_congr_right fun _ => ?_
  rw [List.mem_cons]
  refine or_iff_right ?_
  rintro rfl
  exact hx c last rfl

@[simp] theorem hands_execute {c : Command} {sql : String} :
    (Call.execute c).Hands sql ↔ c.text = sql := by
  simp [Call.Hands, Call.command?]

@[simp] theorem hands_scalar {c : Command} {sql : String} :
    (Call.scalar c).Hands sql ↔ c.text = sql := by
  simp [Call.Hands, Call.command?]

@[simp] theorem hands_insertCall {c : Command} {sql : String} :
    (insertCall m ignoreAutomatic c).Hands sql ↔ c.text = sql := by
  unfold insertCall
  cases readBack? m ignoreAutomatic <;> simp [Call.Hands, Call.command?]

/-- The one exchange of an insert tries it. -/
theorem insertTried_singleton {c : Command} {x : Exchange}
    (hcommand : objectCommand m (.ok (m.insert ignoreAutomatic)) o = .ok c)
    (hx : x.call = insertCall m ignoreAutomatic c) : InsertTried m ignoreAutomatic [x] := by
  refine ⟨x, List.mem_singleton_self x, ?_⟩
  rw [hx, hands_insertCall]
  exact (Except.ok.inj (objectCommand_ok hcommand).1).symm

/-- What an identity that came back tells of the mapping and of the exchanges. -/
theorem IdentityReturned.readBack {f : Field} (hf : m.table.identityField? = some f)
    (hv : IdentityReturned m ignoreAutomatic xs v) :
    ∃ c last, readBack? m ignoreAutomatic = some (f, last) ∧ v ≠ .null ∧
      ⟨m.table.backend, .insertIdentity c last, .ok v⟩ ∈ xs := by
  obtain ⟨hignore, hpresent, last, c, hlast, hx⟩ := hv
  exact ⟨c, last, readBack?_eq_some.mpr ⟨hignore, hf, hlast⟩, hpresent, hx⟩

/-- An insert without an identity that comes back leaves the object with its keys. -/
theorem changes_keyed {c : Command} {x : Exchange}
    (hcommand : objectCommand m (.ok (m.insert ignoreAutomatic)) (keyed e m o) = .ok c)
    (hx : x.call = insertCall m ignoreAutomatic c)
    (hnone : ∀ f v, m.table.identityField? = some f → ¬ IdentityReturned m ignoreAutomatic [x] v) :
    Changes e m ignoreAutomatic o [x] (keyed e m o) where
  untried := fun hnot => absurd (insertTried_singleton hcommand hx) hnot
  keyed := fun hidentity _ => keyed_of_none hidentity
  unreturned := fun hidentity _ => by
    obtain ⟨f, hf⟩ := Option.isSome_iff_exists.mp hidentity
    exact keyed_of_identity hf
  returned := fun f v hf hv => absurd hv (hnone f v hf)

/-- The identity that comes back is put into its column. -/
theorem alters_of_assignIdentity {f : Field} (hfills : m.table.Fills o)
    (hf : m.table.identityField? = some f) (hpresent : v ≠ .null)
    (hassign : assignIdentity m.table f o v = .ok o') :
    ∃ d, f.read v = .ok d ∧
      o.AltersOnly (m.table.scalarFields.findIdx Field.isIdentity) d o' := by
  have hnull : v.isNull = false := by
    rw [Bool.eq_false_iff, ne_eq, Value.isNull_iff]
    exact hpresent
  have hplace : m.table.scalarFields.findIdx Field.isIdentity < o.values.length := by
    rw [hfills, List.findIdx_lt_length]
    exact ⟨f, List.mem_of_find?_eq_some hf, List.find?_some hf⟩
  unfold assignIdentity at hassign
  rw [hnull, if_neg Bool.false_ne_true] at hassign
  cases hread : f.read v with
  | error err =>
    rw [hread] at hassign
    cases hassign
  | ok d =>
    rw [hread] at hassign
    obtain rfl := Except.ok.inj hassign
    exact ⟨d, rfl, Object.altersOnly_setValue hplace d⟩

/-- What an insert changes in its object. -/
theorem Inserts.changes {w : Written} (hfills : m.table.Fills o)
    (h : Inserts e m ignoreAutomatic o xs w) (hok : w.1 = .ok outcome) :
    Changes e m ignoreAutomatic o xs w.2 := by
  cases h with
  | unready => cases hok
  | misread => cases hok
  | notInserted command err =>
    refine changes_keyed command rfl fun f v hf hv => ?_
    obtain ⟨c, last, -, -, hx⟩ := hv.readBack hf
    -- the one reply is a refusal
    have hreply := congrArg (fun x : Exchange => x.reply.isOk) (List.mem_singleton.mp hx)
    cases hreply
  | inserted command plain n =>
    refine changes_keyed command (by simp [insertCall, plain]) fun f v hf hv => ?_
    obtain ⟨c, last, hback, -⟩ := hv.readBack hf
    rw [plain] at hback
    cases hback
  | @identified c f last v o' command identity assigned =>
    obtain ⟨hignore, hf, hlast⟩ := readBack?_eq_some.mp identity
    have hreturned : v ≠ .null → IdentityReturned m ignoreAutomatic
        [⟨m.table.backend, .insertIdentity c last, .ok v⟩] v :=
      fun hpresent => ⟨hignore, hpresent, last, c, hlast, List.mem_singleton_self _⟩
    refine ⟨fun hnot => ?_, fun hnone => ?_, fun _ hnot => ?_, fun f' v' hf' hv' => ?_⟩
    · exact absurd (insertTried_singleton command (by simp [insertCall, identity])) hnot
    · rw [hf] at hnone
      cases hnone
    · have hnull : v = .null := by
        by_contra hpresent
        exact hnot v (hreturned hpresent)
      rw [hnull] at assigned
      exact (Except.ok.inj assigned).symm
    · obtain rfl : f = f' := Option.some.inj (hf.symm.trans hf')
      obtain ⟨c', last', -, hpresent, hx⟩ := hv'.readBack hf
      cases List.mem_singleton.mp hx
      exact alters_of_assignIdentity hfills hf hpresent assigned

/-- An update changes nothing in its object. -/
theorem Updates.changes {w : Written} (h : Updates m o xs w) (hok : w.1 = .ok outcome) :
    Changes e m ignoreAutomatic o xs w.2 := by
  rw [h.object]
  have hcommand : ∀ {c : Command} {reply}, objectCommand m m.update o = .ok c →
      Changes e m ignoreAutomatic o [⟨m.table.backend, .execute c, reply⟩] o := by
    intro c reply hc
    have htext := (objectCommand_ok hc).1
    have hkey : m.table.hasPrimaryKey = true := by
      by_contra hnot
      simp [Mapping.update, Table.requirePrimaryKey, hnot] at htext
    rw [Mapping.update_eq hkey] at htext
    refine Changes.cons ?_ (by simp) changes_nil
    rw [hands_execute, ← Except.ok.inj htext, m.insert_eq]
    exact RowStatement.update_sql_ne_insert _ _ _ _ _
  cases h with
  | unready => cases hok
  | notUpdated command err => exact hcommand command
  | updated command n => exact hcommand command

/-- What a save changes in its object. -/
theorem Saves.changes {w : Written} (hfills : m.table.Fills o)
    (hcheck : objectCommand m m.existenceCheck o = .ok check)
    (h : Saves e m options check o xs w) (hok : w.1 = .ok outcome) :
    Changes e m options.ignoreAutomatic o xs w.2 := by
  -- the check is no insert, so what follows it decides
  have hfirst : ∀ {ys o' reply}, Changes e m options.ignoreAutomatic o ys o' →
      Changes e m options.ignoreAutomatic o (⟨m.table.backend, .scalar check, reply⟩ :: ys) o' := by
    intro ys o' reply hchanges
    have htext := (objectCommand_ok hcheck).1
    rw [Mapping.existenceCheck_eq (Mapping.hasPrimaryKey_of_existenceCheck htext)] at htext
    refine Changes.cons ?_ (by simp) hchanges
    rw [hands_scalar, ← Except.ok.inj htext, m.insert_eq]
    exact RowStatement.count_sql_ne_insert _ _ _ _
  cases h with
  | notChecked err => exact hfirst changes_nil
  | kept stored keep => exact hfirst changes_nil
  | update stored keep h => exact hfirst (h.changes hok)
  | insert new h => exact hfirst (h.changes hfills hok)

/-- What a write over an open connection changes in its object. -/
theorem Writes.changes {w : Written} {found : Option Command} (hfills : m.table.Fills o)
    (hcheck : checkCommand m mode o = .ok found) (h : Writes e m options o mode found xs w)
    (hok : w.1 = .ok outcome) : Changes e m options.ignoreAutomatic o xs w.2 := by
  cases h with
  | save h =>
    obtain ⟨c, hc, heq⟩ := checkCommand_save hcheck
    obtain rfl := Option.some.inj heq
    exact h.changes hfills hc hok
  | insert h => exact h.changes hfills hok
  | update h => exact h.changes hok

/-- Opening and closing a connection hands over no insert, and brings nothing back. -/
theorem Changes.connected {backend : String} {closed : Except BackendError Unit}
    (h : Changes e m ignoreAutomatic o xs o') :
    Changes e m ignoreAutomatic o (connected backend xs closed) o' := by
  refine h.congr ?_ fun v => ?_
  · simp [InsertTried, EntityMapper.connected, Call.Hands, Call.command?]
  · simp [IdentityReturned, EntityMapper.connected]

/-! ## Whole writes -/

/-- A write that ends with an outcome has a mapping. -/
theorem exists_target_of_write
    (hrun : (s.write e mode options o).run h st = ((.ok outcome, o'), st', events)) :
    ∃ m, s.target e.table = .ok m := by
  cases hm : s.target e.table with
  | ok m => exact ⟨m, rfl⟩
  | error err =>
    unfold write at hrun
    rw [hm] at hrun
    cases (run_pure_cases hrun).1

/-- A course over a connection changes what its body changes. -/
theorem changes_of_connects {w : Written} {found : Option Command} (hfills : m.table.Fills o)
    (hcheck : checkCommand m mode o = .ok found)
    (h : Connects m.table.backend (fun err => refused mode.firstStep err o)
      (Writes e m options o mode found) xs w) (hok : w.1 = .ok outcome) :
    Changes e m options.ignoreAutomatic o xs w.2 := by
  have hhands : ∀ {c : Call} {sql : String}, c.command? = none → ¬ c.Hands sql := by
    rintro c sql hnone ⟨d, hd, -⟩
    rw [hnone] at hd
    cases hd
  cases h with
  | notConnected err => exact changes_nil.cons (hhands rfl) (by simp)
  | notOpened err => exact (changes_nil.cons (hhands rfl) (by simp)).cons (hhands rfl) (by simp)
  | opened h closed => exact (h.changes hfills hcheck hok).connected

/-- **What a write changes in its object.** Let a write in any of its modes end with an outcome,
whatever its options are and whoever replies. The object afterwards is the object before,

* except that it has taken its keys, once, if an insert was handed over and the table has no
  identity,
* and except that the first identity column holds what came back for it, as its field reads it, if
  the table has an identity, inserts leave it to the backend, the dialect can ask for it, and the
  insert was accepted and brought back a value other than null; every other column, the objects of
  the associations and what is not mapped are as they were. -/
theorem write_changes (s : Session) (e : EntityType) (mode : WriteMode) (options : SaveOptions)
    (h : Handler σ) (hfills : e.table.Fills o)
    (hrun : (s.write e mode options o).run h st = ((.ok outcome, o'), st', events)) :
    ∃ m, s.target e.table = .ok m ∧
      Changes e m options.ignoreAutomatic o (exchanges events) o' := by
  obtain ⟨m, hm⟩ := exists_target_of_write hrun
  refine ⟨m, hm, ?_⟩
  cases run_write hrun with
  | rejected validates refused nonempty told =>
    rw [exchanges_of_told told]
    exact changes_nil
  | performed passed closes around =>
    rcases goes_write (goes_of_run hrun).1 with
      ⟨-, ⟨hvalidate, hrefused⟩ | ⟨⟨err, herr⟩, -⟩⟩ | ⟨m', check, hm', hcheck, hcourse⟩
    · exact absurd (passed hvalidate) hrefused
    · cases herr
    · obtain rfl : m = m' := Except.ok.inj (hm.symm.trans hm')
      rw [← target_eq_ok hm] at hfills
      exact changes_of_connects hfills hcheck hcourse rfl

/-! ## Tickets -/

namespace Tickets

/-- Tickets that take their code before they are inserted. -/
def type : EntityType where
  table :=
    { entity := "Ticket"
      tableName := "tickets"
      fields := [.ofType "code" { scalar := .text } { primaryKey := true },
        .ofType "seat" { scalar := .text }] }
  assignKeys o := o.setValue 0 (.text "T1")

def session : Session where
  catalog := ⟨[type.table]⟩
  backends := ⟨[(defaultBackend, .of .sqlite)]⟩

def ticket (code : String) : Object where
  typeId := "Ticket"
  values := [.text code, .text "A7"]
  children := []

end Tickets

/-- A guest that is saved gets the number 7 that comes back, and is the same otherwise. A ticket that
is inserted takes its code. -/
theorem write_changes_guests :
    (∃ events, (Guests.session.write ⟨Guests.table, id⟩ .save {} (Guests.guest 0)).run
        (Guests.answer (.int 7)) () = (accepted .insert 1 (Guests.guest 7), (), events) ∧
      (Guests.guest 0).AltersOnly 0 (.int 7) (Guests.guest 7)) ∧
    ∃ events m, (Tickets.session.write Tickets.type .insert {} (Tickets.ticket "")).run
        (Guests.answer .null) () = (accepted .insert 0 (Tickets.ticket "T1"), (), events) ∧
      Tickets.session.target Tickets.type.table = .ok m ∧
      Changes Tickets.type m true (Tickets.ticket "") (exchanges events) (Tickets.ticket "T1") := by
  have hguest : Guests.table.Fills (Guests.guest 0) := rfl
  have hticket : Tickets.type.table.Fills (Tickets.ticket "") := rfl
  constructor
  · have hrun : (Guests.session.write ⟨Guests.table, id⟩ .save {} (Guests.guest 0)).run
        (Guests.answer (.int 7)) () = (accepted .insert 1 (Guests.guest 7), (), _) := rfl
    obtain ⟨m, hm, hchanges⟩ :=
      write_changes Guests.session ⟨Guests.table, id⟩ .save {} _ hguest hrun
    obtain rfl := Except.ok.inj hm
    -- the identity comes back in the exchange after the check
    obtain ⟨d, hd, halters⟩ := hchanges.returned _ (.int 7) rfl
      ⟨rfl, by decide, "select last_insert_rowid()", _, rfl, .tail _ (.tail _ (.tail _ (.head _)))⟩
    obtain rfl : .int 7 = d := Except.ok.inj hd
    exact ⟨_, hrun, halters⟩
  · have hrun : (Tickets.session.write Tickets.type .insert {} (Tickets.ticket "")).run
        (Guests.answer .null) () = (accepted .insert 0 (Tickets.ticket "T1"), (), _) := rfl
    obtain ⟨m, hm, hchanges⟩ := write_changes Tickets.session Tickets.type .insert {} _ hticket hrun
    exact ⟨_, m, hrun, hm, hchanges⟩

end Session

end EntityMapper
