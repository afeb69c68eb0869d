import EntityMapper.Proofs.Session.Course

/-!
# Errors of writes

A write that ends with an error has written nothing, with one exception: where an insert reads the
identity back, the backend has accepted the row before the identity is seen to mean nothing to its
field.

* `acceptedWrites` — the writes that the backend accepted
* `goes_delete_error`, `goes_deleteAll_error` — a deletion with an error has exchanged nothing
* `acceptedWrites_of_error` — what has been written where an operation ends with an error
* `acceptedWrites_guests` — an identity out of the bounds of its field, after its row was accepted
-/

namespace EntityMapper.Session

open Program

variable {s : Session} {e : EntityType} {m : Mapping} {options : SaveOptions}
  {ignoreAutomatic : Bool} {check : Command} {o o' : Object} {xs ys : List Exchange} {w : Written}
  {err : MapperError}

/-! ## Accepted writes -/

/-- Whether a backend accepted a command that changes rows. -/
def isAcceptedWrite : Exchange → Bool
  | ⟨_, .execute _, .ok _⟩ => true
  | ⟨_, .insertIdentity _ _, .ok _⟩ => true
  | _ => false

/-- The commands that change rows, of those that a backend accepted. -/
def acceptedWrites (xs : List Exchange) : List Exchange := xs.filter isAcceptedWrite

/-- Opening and closing a connection writes nothing. -/
theorem acceptedWrites_connected (backend : String) (closed : Except BackendError Unit) :
    acceptedWrites (connected backend ys closed) = acceptedWrites ys := by
  have hopened : acceptedWrites (connected backend ys closed) =
      acceptedWrites (ys ++ [⟨backend, .close, closed⟩]) := rfl
  have hclosed : acceptedWrites [⟨backend, .close, closed⟩] = [] := by cases closed <;> rfl
  unfold acceptedWrites at hopened hclosed ⊢
  rw [hopened, List.filter_append, hclosed, List.append_nil]

/-! ## Errors of one object -/

/-- The backend accepted an insert, and the identity that came back means nothing to its field. -/
inductive Misreads (m : Mapping) (ignoreAutomatic : Bool) : List Exchange → MapperError → Prop
  | mk {c : Command} {f : Field} {last : String} {v : Value} {cause : CoercionError}
      (wanted : ignoreAutomatic = true) (identity : m.table.identityField? = some f)
      (query : m.dialect.lastIdentity = some last) (present : v ≠ .null)
      (unreadable : f.read v = .error cause) :
      Misreads m ignoreAutomatic [⟨m.table.backend, .insertIdentity c last, .ok v⟩]
        (.coercion ⟨m.table.entity, f.name, f.valueType, v.type, cause⟩)

theorem Inserts.error (h : Inserts e m ignoreAutomatic o xs w) (herr : w.1 = .error err) :
    acceptedWrites xs = [] ∨ Misreads m ignoreAutomatic (acceptedWrites xs) err := by
  cases h with
  | unready => exact .inl rfl
  | notInserted => exact nomatch herr
  | inserted => exact nomatch herr
  | identified => exact nomatch herr
  | misread command identity present unreadable =>
    obtain ⟨hwanted, hidentity, hquery⟩ := readBack?_eq_some.mp identity
    obtain rfl := Except.error.inj herr
    exact .inr (.mk hwanted hidentity hquery present unreadable)

theorem Updates.error (h : Updates m o xs w) (herr : w.1 = .error err) : xs = [] := by
  cases h with
  | unready => rfl
  | notUpdated => exact nomatch herr
  | updated => exact nomatch herr

theorem Saves.error (h : Saves e m options check o xs w) (herr : w.1 = .error err) :
    acceptedWrites xs = [] ∨ Misreads m options.ignoreAutomatic (acceptedWrites xs) err := by
  cases h with
  | notChecked => exact nomatch herr
  | kept => exact nomatch herr
  | update _ _ h =>
    obtain rfl := h.error herr
    exact .inl rfl
  | insert _ h => exact h.error herr

theorem Writes.error {mode : WriteMode} {check : Option Command}
    (h : Writes e m options o mode check xs w) (herr : w.1 = .error err) :
    acceptedWrites xs = [] ∨
      mode ≠ .update ∧ Misreads m options.ignoreAutomatic (acceptedWrites xs) err := by
  cases h with
  | save h => exact (h.error herr).imp_right fun hmisread => ⟨nofun, hmisread⟩
  | insert h => exact (h.error herr).imp_right fun hmisread => ⟨nofun, hmisread⟩
  | update h =>
    obtain rfl := h.error herr
    exact .inl rfl

/-- What a write with an error has written. -/
theorem goes_write_error {mode : WriteMode} (h : (s.write e mode options o).Goes xs (.error err, o')) :
    acceptedWrites xs = [] ∨ ∃ m, s.target e.table = .ok m ∧ mode ≠ .update ∧
      Misreads m options.ignoreAutomatic (acceptedWrites xs) err := by
  rcases goes_write h with ⟨rfl, -⟩ | ⟨m, check, hm, -, hconnects⟩
  · exact .inl rfl
  · generalize hw : (Except.error err, o') = w at hconnects
    cases hconnects with
    | notConnected => exact nomatch hw
    | notOpened => exact nomatch hw
    | opened h closed =>
      rw [acceptedWrites_connected]
      exact (h.error (congrArg Prod.fst hw).symm).imp_right fun hmisread => ⟨m, hm, hmisread⟩

/-! ## Errors of deletions -/

/-- A write of its own that is captured is no error. -/
theorem goes_sendWrite {α : Type} {kind step : StatementKind} {c : Command}
    {r : Except MapperError (Outcome α)} (h : (s.sendWrite m kind c).Goes xs r) :
    captured step r ≠ .error err := by
  unfold sendWrite at h
  rw [goes_bind] at h
  obtain ⟨ys, reply, zs, -, h, -⟩ := h
  obtain ⟨-, rfl⟩ := goes_pure.mp h
  cases reply <;> exact nofun

/-- A deletion with an error has exchanged nothing. -/
theorem goes_delete_error {t : Table} {options : DeleteOptions}
    (h : (s.delete t options o).Goes xs (.error err)) : xs = [] := by
  unfold delete at h
  replace h := goes_prepared h
  rcases h with ⟨-, -, rfl, -⟩ | ⟨m, -, h⟩
  · rfl
  · rw [goes_spanned] at h
    split at h
    · exact (goes_pure.mp h).1
    · rw [goes_bind_silent goes_takeIf, goes_bind] at h
      obtain ⟨ys, r, zs, hsend, h, rfl⟩ := h
      rw [goes_bind] at h
      obtain ⟨us, r', vs, hcapture, h, rfl⟩ := h
      obtain ⟨-, rfl⟩ := goes_capture goes_takeIf hcapture
      cases hr : captured .delete r with
      | error err => exact (goes_sendWrite hsend hr).elim
      | ok outcome =>
        rw [hr] at h
        dsimp only at h
        rw [goes_bind_silent goes_takeIf, goes_pure] at h
        exact nomatch h.2

/-- A deletion of many with an error has exchanged nothing. -/
theorem goes_deleteAll_error {t : Table} {condition : Option Expr}
    (h : (s.deleteAll t condition).Goes xs (.error err)) : xs = [] := by
  unfold deleteAll at h
  replace h := goes_prepared h
  rcases h with ⟨-, -, rfl, -⟩ | ⟨m, -, h⟩
  · rfl
  · rw [goes_spanned] at h
    split at h
    · exact (goes_pure.mp h).1
    · rw [goes_bind] at h
      obtain ⟨ys, r, zs, hsend, hcapture, rfl⟩ := h
      obtain ⟨-, hr⟩ := goes_capture (by simp) hcapture
      exact (goes_sendWrite hsend hr.symm).elim

/-! ## Errors of operations -/

/-- The operations that change rows, as an object of an entity type is given to them. -/
inductive WriteOperation
  | save (options : SaveOptions)
  | insert (options : SaveOptions)
  | update (options : SaveOptions)
  | delete (options : DeleteOptions)
  | deleteAll (condition : Option Expr)

namespace WriteOperation

/-- What an operation does, up to its outcome. -/
def perform (s : Session) (e : EntityType) (o : Object) :
    WriteOperation → Program (Except MapperError (Outcome Object))
  | .save options => do return (← s.save e options o).1
  | .insert options => do return (← s.insert e options o).1
  | .update options => do return (← s.update e options o).1
  | .delete options => s.delete e.table options o
  | .deleteAll condition => s.deleteAll e.table condition

/-- Whether an operation inserts rows and reads back what the backend assigns to them. -/
def readsBack : WriteOperation → Bool
  | .save options => options.ignoreAutomatic
  | .insert options => options.ignoreAutomatic
  | _ => false

end WriteOperation

theorem goes_perform_write {mode : WriteMode}
    (h : Goes (do return (← s.write e mode options o).1) xs (.error err)) :
    acceptedWrites xs = [] ∨ ∃ m, s.target e.table = .ok m ∧ mode ≠ .update ∧
      Misreads m options.ignoreAutomatic (acceptedWrites xs) err := by
  rw [goes_bind] at h
  obtain ⟨ys, ⟨result, o'⟩, zs, hwrite, h, rfl⟩ := h
  obtain ⟨rfl, rfl⟩ := goes_pure.mp h
  rw [List.append_nil]
  exact goes_write_error hwrite

/-- **What has been written where an operation ends with an error.** Nothing, unless the operation
inserts rows and reads their identities back: then the backend may have accepted one row and given
it an identity that means nothing to its field, and that is the error. -/
theorem acceptedWrites_of_error {σ : Type} {h : Handler σ} {st st' : σ} {events : List Event}
    {op : WriteOperation} (hrun : (op.perform s e o).run h st = (.error err, st', events)) :
    acceptedWrites (exchanges events) = [] ∨ ∃ m, s.target e.table = .ok m ∧
      Misreads m op.readsBack (acceptedWrites (exchanges events)) err := by
  obtain ⟨hgoes, -⟩ := goes_of_run hrun
  cases op with
  | save options =>
    exact (goes_perform_write hgoes).imp_right fun ⟨m, hm, _, hmisread⟩ => ⟨m, hm, hmisread⟩
  | insert options =>
    exact (goes_perform_write hgoes).imp_right fun ⟨m, hm, _, hmisread⟩ => ⟨m, hm, hmisread⟩
  | update options =>
    exact (goes_perform_write hgoes).imp_right fun ⟨m, _, hmode, _⟩ => (hmode rfl).elim
  | delete options => exact .inl (congrArg acceptedWrites (goes_delete_error hgoes))
  | deleteAll condition => exact .inl (congrArg acceptedWrites (goes_deleteAll_error hgoes))

/-- The inserted guest is stored, and the number 300 that it was given is out of the bounds of its
field. -/
theorem acceptedWrites_of_error_guests :
    ∃ err events, ((WriteOperation.insert {}).perform Guests.session ⟨Guests.table, id⟩
        (Guests.guest 0)).run (Guests.answer (.int 300)) () = (.error err, (), events) ∧
      ∃ m, Guests.session.target Guests.table = .ok m ∧
        Misreads m true (acceptedWrites (exchanges events)) err := by
  have hrun : ((WriteOperation.insert {}).perform Guests.session ⟨Guests.table, id⟩
      (Guests.guest 0)).run (Guests.answer (.int 300)) () = (.error _, (), _) := rfl
  refine ⟨_, _, hrun, ?_⟩
  rcases acceptedWrites_of_error hrun with hnone | hmisread
  · exact nomatch hnone
  · exact hmisread

/-- A save that ends with an error may have written a row. -/
theorem acceptedWrites_guests :
    ∃ events, ((WriteOperation.save {}).perform Guests.session ⟨Guests.table, id⟩
        (Guests.guest 0)).run (Guests.answer (.int 300)) () =
          (.error (.coercion ⟨"Guest", "id", .int, .int, .outOfRange "300" "u8"⟩), (), events) ∧
      acceptedWrites (exchanges events) ≠ [] := by
  refine ⟨_, rfl, ?_⟩
  exact nofun

end EntityMapper.Session
