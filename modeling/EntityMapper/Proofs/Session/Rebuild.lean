import EntityMapper.Proofs.Session.Exchange
import EntityMapper.Proofs.Session.Course
import EntityMapper.Session.Define

/-!
# The course of a rebuild

A table is rebuilt over one connection: its rows are read, and only once all of them are objects is
it dropped, created and filled again. Nothing is sent after the first command that fails; a read
that fails for want of the table is no such command, and then the table is only created.

* `Sends` — commands that are sent one after the other, up to the first that fails
* `backedUp` — what the reply to the backup leaves to be restored
* `Rebuilds` — the course of a rebuild over an open connection
* `alterTable_course` — every rebuild goes so
-/

namespace EntityMapper.Session

open Program

variable {s : Session} {e : EntityType} {m : Mapping} {o : Object} {xs : List Exchange}

/-! ## Commands one after the other -/

/-- A command that was sent, with the reply to it. -/
abbrev Sent := Command × Except BackendError Int

/-- A command that was sent, as an exchange. -/
def Sent.exchange (backend : String) (x : Sent) : Exchange := ⟨backend, .execute x.1, x.2⟩

/-- Whether the backend accepted a command. -/
def Sent.Accepted (x : Sent) : Prop := ∃ n, x.2 = .ok n

/-- Commands are sent one after the other until one cannot be made or is refused; whether all of
them were accepted. -/
inductive Sends : List (Except MapperError Command) → List Sent → Bool → Prop
  /-- there is nothing left to send -/
  | nil : Sends [] [] true
  /-- the next command cannot be made -/
  | unready {err : MapperError} {commands : List (Except MapperError Command)} :
      Sends (.error err :: commands) [] false
  /-- the backend refuses the next command -/
  | refused {c : Command} {err : BackendError} {commands : List (Except MapperError Command)} :
      Sends (.ok c :: commands) [(c, .error err)] false
  /-- the backend accepts the next command, and the others follow -/
  | accepted {c : Command} {n : Int} {commands : List (Except MapperError Command)}
      {sent : List Sent} {all : Bool} (h : Sends commands sent all) :
      Sends (.ok c :: commands) ((c, .ok n) :: sent) all

namespace Sends

variable {commands more : List (Except MapperError Command)} {sent others : List Sent} {all : Bool}

/-- What is sent is a beginning of what there is to send. -/
theorem isPrefix (h : Sends commands sent all) : sent.map (fun x => .ok x.1) <+: commands := by
  induction h with
  | nil => exact List.prefix_rfl
  | unready => exact List.nil_prefix
  | refused => exact List.cons_prefix_cons.mpr ⟨rfl, List.nil_prefix⟩
  | accepted h ih => exact List.cons_prefix_cons.mpr ⟨rfl, ih⟩

/-- Only the last command that is sent can be a refused one. -/
theorem accepted_of_mem_dropLast (h : Sends commands sent all) {x : Sent} (hx : x ∈ sent.dropLast) :
    x.Accepted := by
  induction h with
  | nil => exact absurd hx List.not_mem_nil
  | unready => exact absurd hx List.not_mem_nil
  | refused => exact absurd hx List.not_mem_nil
  | @accepted c n commands sent all h ih =>
    cases sent with
    | nil => exact absurd hx List.not_mem_nil
    | cons y sent =>
      rw [List.dropLast_cons_cons] at hx
      rcases List.mem_cons.mp hx with rfl | hx
      · exact ⟨n, rfl⟩
      · exact ih hx

/-- Everything was accepted just if everything was sent and no command of it refused. -/
theorem all_iff (h : Sends commands sent all) :
    all = true ↔ sent.length = commands.length ∧ ∀ x ∈ sent, x.Accepted := by
  induction h with
  | nil => simp
  | unready => simp
  | refused => simp [Sent.Accepted]
  | accepted h ih => simpa [Sent.Accepted] using ih

/-- Commands after others that were all accepted. -/
theorem append (h : Sends commands sent true) (hmore : Sends more others all) :
    Sends (commands ++ more) (sent ++ others) all := by
  generalize hall : true = finished at h
  induction h with
  | nil => exact hmore
  | unready => exact nomatch hall
  | refused => exact nomatch hall
  | accepted h ih => exact .accepted (ih hall)

/-- Commands after others of which one failed are not sent. -/
theorem append_failed (h : Sends commands sent false) : Sends (commands ++ more) sent false := by
  generalize hall : false = finished at h ⊢
  induction h with
  | nil => exact nomatch hall
  | unready => exact .unready
  | refused => exact .refused
  | accepted h ih => exact .accepted (ih hall)

end Sends

/-! ## The parts of a rebuild -/

/-- The command that reads what is stored. -/
def backupCommand (m : Mapping) : Command := m.command s!"select * from {m.table.name}"

/-- What the reply to the backup leaves to be restored, and whether there is a table to be dropped:
the objects that the rows make, or nothing where there is no table yet. -/
def backedUp (c : Catalog) (m : Mapping) :
    Except BackendError (List Row) → Except MapperError (List Object × Bool)
  | .ok rows => (materialize c m.table rows).map fun objects => (objects, true)
  | .error err =>
    if isMissingTable err then .ok ([], false) else .error (.backend (err.within (m.context .select)))

/-- The commands that define the table anew. -/
def definitions (m : Mapping) (existed : Bool) : List Command :=
  (if existed then [m.command m.dropTable] else []) ++ [m.command m.createTable]

/-- The command that restores an object, with the automatic columns among the others. -/
def restoreCommand (e : EntityType) (m : Mapping) (o : Object) : Except MapperError Command :=
  objectCommand m (.ok (m.insert false)) (keyed e m o)

/-- The commands that follow the backup. -/
def rebuildCommands (e : EntityType) (m : Mapping) (objects : List Object) (existed : Bool) :
    List (Except MapperError Command) :=
  (definitions m existed).map .ok ++ objects.map (restoreCommand e m)

/-- The course of a rebuild over an open connection. -/
inductive Rebuilds (c : Catalog) (e : EntityType) (m : Mapping) :
    List Exchange → Except MapperError Nat → Prop
  /-- the rows cannot be read, or they are no objects: only the backup was sent -/
  | notBackedUp {reply : Except BackendError (List Row)} {err : MapperError}
      (backup : backedUp c m reply = .error err) :
      Rebuilds c e m [⟨m.table.backend, .reader (backupCommand m), reply⟩] (.error err)
  /-- the commands follow one after the other, up to the first that fails; the objects are counted
  where none does -/
  | backedUp {reply : Except BackendError (List Row)} {objects : List Object} {existed : Bool}
      {sent : List Sent} {r : Except MapperError Nat}
      (backup : backedUp c m reply = .ok (objects, existed))
      (isPrefix : sent.map (fun x => .ok x.1) <+: rebuildCommands e m objects existed)
      (stopped : ∀ x ∈ sent.dropLast, x.Accepted)
      (counted : ∀ n, r = .ok n ↔ n = objects.length ∧
        sent.length = (rebuildCommands e m objects existed).length ∧ ∀ x ∈ sent, x.Accepted) :
      Rebuilds c e m (⟨m.table.backend, .reader (backupCommand m), reply⟩ ::
        sent.map (Sent.exchange m.table.backend)) r

/-! ## Every rebuild goes so -/

/-- The backup is one exchange, and what is left of it depends on the reply alone. -/
theorem goes_backUp {r : Except MapperError (List Object × Bool)} (h : (s.backUp m).Goes xs r) :
    ∃ reply, xs = [⟨m.table.backend, .reader (backupCommand m), reply⟩] ∧
      r = backedUp s.catalog m reply := by
  unfold backUp at h
  dsimp only at h
  rw [goes_bind_silent goes_announce, goes_bind] at h
  obtain ⟨_, reply, ys, hreply, h, rfl⟩ := h
  obtain rfl := goes_ask.mp hreply
  refine ⟨reply, ?_⟩
  suffices ys = [] ∧ r = backedUp s.catalog m reply by
    obtain ⟨rfl, hr⟩ := this
    exact ⟨rfl, hr⟩
  cases reply with
  | ok rows => exact goes_pure.mp h
  | error err =>
    dsimp only [backedUp] at h ⊢
    split at h
    · next hmissing =>
      rw [if_pos hmissing]
      exact goes_pure.mp h
    · next hpresent =>
      rw [if_neg hpresent]
      exact goes_pure.mp h

/-- Statements are sent one after the other. -/
theorem goes_sendAll {statements : List (StatementKind × String)} {last : StatementKind}
    {affected : Int} {r : StatementKind × Except BackendError Int}
    (h : (s.sendAll m last affected statements).Goes xs r) :
    ∃ sent, Sends (statements.map fun x => .ok (m.command x.2)) sent r.2.isOk ∧
      xs = sent.map (Sent.exchange m.table.backend) := by
  induction statements generalizing last affected xs with
  | nil =>
    obtain ⟨rfl, rfl⟩ := goes_done.mp h
    exact ⟨[], .nil, rfl⟩
  | cons statement statements ih =>
    obtain ⟨kind, sql⟩ := statement
    unfold sendAll at h
    rw [goes_bind] at h
    obtain ⟨_, _, ys, hsend, h, rfl⟩ := h
    obtain ⟨reply, rfl, rfl⟩ := goes_send hsend
    cases reply with
    | error err =>
      obtain ⟨rfl, rfl⟩ := goes_pure.mp h
      exact ⟨[(m.command sql, .error err)], .refused, rfl⟩
    | ok n =>
      obtain ⟨sent, hsends, rfl⟩ := ih h
      exact ⟨(m.command sql, .ok n) :: sent, .accepted hsends, rfl⟩

/-- An object is restored with one exchange, if there is a command for it. -/
theorem goes_insertObject {a : Object × Except MapperError Int}
    (h : (s.insertObject e m false o).Goes xs a) :
    (∃ err, restoreCommand e m o = .error err ∧ xs = [] ∧ a.2 = .error err) ∨
      ∃ c reply, restoreCommand e m o = .ok c ∧ xs = [Sent.exchange m.table.backend (c, reply)] ∧
        a.2.isOk = reply.isOk := by
  unfold insertObject at h
  cases hcommand : restoreCommand e m o with
  | error err =>
    unfold restoreCommand keyed at hcommand
    dsimp only at h
    rw [hcommand] at h
    obtain ⟨rfl, rfl⟩ := goes_pure.mp h
    exact .inl ⟨err, rfl, rfl, rfl⟩
  | ok c =>
    unfold restoreCommand keyed at hcommand
    dsimp only at h
    rw [hcommand, if_neg Bool.false_ne_true] at h
    dsimp only at h
    rw [goes_bind] at h
    obtain ⟨_, _, ys, hsend, h, rfl⟩ := h
    obtain ⟨reply, rfl, rfl⟩ := goes_send hsend
    obtain ⟨rfl, rfl⟩ := goes_pure.mp h
    exact .inr ⟨c, reply, rfl, rfl, by cases reply <;> rfl⟩

/-- Objects are restored one after the other. -/
theorem goes_restore {objects : List Object} {r : Except MapperError Unit}
    (h : (s.restore e m objects).Goes xs r) :
    ∃ sent, Sends (objects.map (restoreCommand e m)) sent r.isOk ∧
      xs = sent.map (Sent.exchange m.table.backend) := by
  induction objects generalizing xs with
  | nil =>
    obtain ⟨rfl, rfl⟩ := goes_done.mp h
    exact ⟨[], .nil, rfl⟩
  | cons o objects ih =>
    unfold restore at h
    rw [goes_bind] at h
    obtain ⟨_, ⟨o', a⟩, ys, hinsert, h, rfl⟩ := h
    rw [List.map_cons]
    rcases goes_insertObject hinsert with ⟨err, hcommand, rfl, rfl⟩ | ⟨c, reply, hcommand, rfl, ha⟩
    · obtain ⟨rfl, rfl⟩ := goes_pure.mp h
      rw [hcommand]
      exact ⟨[], .unready, rfl⟩
    · rw [hcommand]
      dsimp only at ha
      cases a with
      | error err =>
        obtain ⟨rfl, rfl⟩ := goes_pure.mp h
        cases reply with
        | ok n => exact nomatch ha
        | error err => exact ⟨[(c, .error err)], .refused, rfl⟩
      | ok affected =>
        obtain ⟨sent, hsends, rfl⟩ := ih h
        cases reply with
        | error err => exact nomatch ha
        | ok n => exact ⟨(c, .ok n) :: sent, .accepted hsends, rfl⟩

/-- The commands after the backup are sent one after the other, and the objects are counted. -/
theorem goes_rebuild {r : Except MapperError Nat} (h : (s.rebuild e m).Goes xs r) :
    Rebuilds s.catalog e m xs r := by
  unfold rebuild at h
  rw [goes_bind] at h
  obtain ⟨_, _, ys, hbackup, h, rfl⟩ := h
  obtain ⟨reply, rfl, rfl⟩ := goes_backUp hbackup
  cases hreply : backedUp s.catalog m reply with
  | error err =>
    rw [hreply] at h
    obtain ⟨rfl, rfl⟩ := goes_pure.mp h
    exact .notBackedUp hreply
  | ok backup =>
    obtain ⟨objects, existed⟩ := backup
    rw [hreply] at h
    dsimp only at h
    rw [goes_bind] at h
    obtain ⟨_, ⟨last, defined⟩, zs, hdefine, h, rfl⟩ := h
    obtain ⟨sent, hsends, rfl⟩ := goes_sendAll hdefine
    have hdefinitions : ((if existed then [(StatementKind.dropTable, m.dropTable)] else []) ++
        [(StatementKind.createTable, m.createTable)]).map (fun x => Except.ok (m.command x.2)) =
        ((definitions m existed).map .ok : List (Except MapperError Command)) := by
      cases existed <;> rfl
    rw [hdefinitions] at hsends
    suffices ∃ others all, Sends (rebuildCommands e m objects existed) (sent ++ others) all ∧
        zs = others.map (Sent.exchange m.table.backend) ∧
        ∀ n, r = .ok n ↔ n = objects.length ∧ all = true by
      obtain ⟨others, all, hsends, rfl, hcounted⟩ := this
      rw [← List.map_append]
      exact .backedUp hreply hsends.isPrefix (fun x => hsends.accepted_of_mem_dropLast)
        fun n => (hcounted n).trans (and_congr_right fun _ => hsends.all_iff)
    cases defined with
    | error err =>
      obtain ⟨rfl, rfl⟩ := goes_pure.mp h
      exact ⟨[], false, (List.append_nil sent).symm ▸ hsends.append_failed, rfl, by simp⟩
    | ok affected =>
      dsimp only at h
      rw [goes_bind] at h
      obtain ⟨_, restored, us, hrestore, h, rfl⟩ := h
      obtain ⟨others, hothers, rfl⟩ := goes_restore hrestore
      refine ⟨others, restored.isOk, hsends.append hothers, ?_⟩
      cases restored with
      | error err =>
        obtain ⟨rfl, rfl⟩ := goes_pure.mp h
        exact ⟨List.append_nil _, by simp [Except.isOk, Except.toBool]⟩
      | ok _ =>
        rw [goes_bind_silent goes_take, goes_pure] at h
        obtain ⟨rfl, rfl⟩ := h
        exact ⟨List.append_nil _, by simp [Except.isOk, Except.toBool, eq_comm]⟩

theorem goes_alterTable {r : Except MapperError Nat} (h : (s.alterTable e).Goes xs r) :
    (∃ err, s.target e.table = .error err ∧ xs = [] ∧ r = .error (.schema err)) ∨
      ∃ m, s.target e.table = .ok m ∧
        Connects m.table.backend (fun err => .error (.backend err)) (Rebuilds s.catalog e m) xs r := by
  unfold alterTable at h
  cases hm : s.target e.table with
  | error err =>
    rw [hm] at h
    obtain ⟨hxs, hr⟩ := goes_done.mp h
    exact .inl ⟨err, rfl, hxs, hr⟩
  | ok m =>
    rw [hm] at h
    change (spanned _ _ _ _).Goes xs r at h
    rw [goes_spanned] at h
    exact .inr ⟨m, rfl, (goes_withConnection h).map (g := id) (fun err => rfl) goes_rebuild⟩

/-- **The course of a rebuild.** Over a connection of its own, the table is read first. Where that
fails, except for want of the table, or where its rows are no objects, nothing else is sent and the
result is the error. Otherwise the commands that define the table and restore the objects follow in
this order, each only after the one before it was accepted; the table is dropped only where it was
read. The result is a number just if all of them were sent and accepted, and then it is the number
of the objects. -/
theorem alterTable_course {σ : Type} {h : Handler σ} {st st' : σ} {events : List Event}
    {r : Except MapperError Nat} (hrun : (s.alterTable e).run h st = (r, st', events)) :
    (∃ err, s.target e.table = .error err ∧ exchanges events = [] ∧ r = .error (.schema err)) ∨
      ∃ m, s.target e.table = .ok m ∧
        Connects m.table.backend (fun err => .error (.backend err)) (Rebuilds s.catalog e m)
          (exchanges events) r :=
  goes_alterTable (goes_of_run hrun).1

/-! ## Guests -/

namespace Guests

/-- A backend that has two guests and takes so many commands before it refuses one. -/
def stored : Handler Nat
  | _, .connect, n => (.ok (), n)
  | _, .open, n => (.ok (), n)
  | _, .close, n => (.ok (), n)
  | _, .execute _, 0 => (.error ⟨"execute", "disk full"⟩, 0)
  | _, .execute _, n + 1 => (.ok 1, n)
  | _, .scalar _, n => (.ok .null, n)
  | _, .reader _, n =>
    (.ok [⟨[("id", .int 1), ("name", .text "Ann")]⟩, ⟨[("id", .int 2), ("name", .text "Ben")]⟩], n)
  | _, .insertIdentity _ _, n => (.ok .null, n)
  | _, .tableExists _, n => (.ok true, n)

end Guests

/-- The table is dropped and created and the first guest restored, and then the backend refuses the
second one. -/
theorem alterTable_course_guests :
    ∃ err events m, (Guests.session.alterTable ⟨Guests.table, id⟩).run Guests.stored 3 =
        (.error err, 0, events) ∧ (exchanges events).length = 8 ∧
      Guests.session.target Guests.table = .ok m ∧
      Connects m.table.backend (fun err => .error (.backend err))
        (Rebuilds Guests.session.catalog ⟨Guests.table, id⟩ m) (exchanges events) (.error err) := by
  have hrun : (Guests.session.alterTable ⟨Guests.table, id⟩).run Guests.stored 3 =
      (.error _, 0, _) := rfl
  rcases alterTable_course hrun with ⟨err, htarget, -⟩ | ⟨m, hm, hcourse⟩
  · exact nomatch htarget
  · exact ⟨_, _, m, hrun, rfl, hm, hcourse⟩

end EntityMapper.Session
