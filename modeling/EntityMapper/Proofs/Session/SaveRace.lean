import EntityMapper.Proofs.Session.Accepted
import EntityMapper.Proofs.Session.Interleaving
import EntityMapper.Proofs.Session.SaveTwice

/-!
# Saves that race for a key

A save looks for its key and then inserts or updates, and between the two commands others can write.
Over a store that takes no second row with a key this does no harm: where two saves both find no
row, the insert of one is taken and that of the other is refused, and a save that has found the row
updates it, for rows do not go away.

* `SaveStep` — the next command of a save, after what it has exchanged before
* `Race` — what holds of the store and of all that was exchanged, at every point
* `save_race` — what saves leave that run side by side
-/

namespace EntityMapper

open Program Session

variable {ι σ : Type} {h : Handler σ} {m : Mapping} {s : Session} {e : EntityType} {o : Object}
  {check : Command} {before xs ys : List Exchange} {x : Exchange} {w : Written}

/-! ## The next command of a save -/

/-- The next command of a save, after what it has exchanged before. An update comes only after a
reply that the key is stored. -/
inductive SaveStep (e : EntityType) (m : Mapping) (o : Object) (before : List Exchange) :
    Exchange → Prop
  | connect (reply : Except BackendError Unit) :
      SaveStep e m o before ⟨m.table.backend, .connect, reply⟩
  | opening (reply : Except BackendError Unit) :
      SaveStep e m o before ⟨m.table.backend, .open, reply⟩
  | closing (reply : Except BackendError Unit) :
      SaveStep e m o before ⟨m.table.backend, .close, reply⟩
  | check {c : Command} (command : objectCommand m m.existenceCheck o = .ok c)
      (reply : Except BackendError Value) :
      SaveStep e m o before ⟨m.table.backend, .scalar c, reply⟩
  | insert {c : Command}
      (command : objectCommand m (.ok (m.insert true)) (e.assignKeys o) = .ok c)
      (reply : Except BackendError Int) : SaveStep e m o before ⟨m.table.backend, .execute c, reply⟩
  | update {c check : Command} {found : Value} (command : objectCommand m m.update o = .ok c)
      (looked : ⟨m.table.backend, .scalar check, .ok found⟩ ∈ before)
      (stored : isStored found = true) (reply : Except BackendError Int) :
      SaveStep e m o before ⟨m.table.backend, .execute c, reply⟩

theorem SaveStep.mono {more : List Exchange} (hstep : SaveStep e m o before x)
    (hsub : before ⊆ more) : SaveStep e m o more x := by
  cases hstep with
  | connect reply => exact .connect reply
  | opening reply => exact .opening reply
  | closing reply => exact .closing reply
  | check command reply => exact .check command reply
  | insert command reply => exact .insert command reply
  | update command looked stored reply => exact .update command (hsub looked) stored reply

/-- The exchange after others is the first one, or it is one of those that follow that. -/
theorem next_of_cons {y : Exchange} {rest : List Exchange} (h : before ++ x :: ys = y :: rest) :
    x = y ∨ (∃ more, before = y :: more) ∧ x ∈ rest := by
  rcases List.append_eq_cons_iff.mp h with ⟨-, hx⟩ | ⟨more, hbefore, hrest⟩
  · exact .inl (List.cons.inj hx).1
  · exact .inr ⟨⟨more, hbefore⟩, hrest ▸ List.mem_append_right more List.mem_cons_self⟩

theorem Session.Updates.step (hupdates : Updates m o xs w) (hx : x ∈ xs) :
    ∃ c reply, objectCommand m m.update o = .ok c ∧ x = ⟨m.table.backend, .execute c, reply⟩ := by
  cases hupdates with
  | unready => exact absurd hx List.not_mem_nil
  | notUpdated command err => exact ⟨_, _, command, List.mem_singleton.mp hx⟩
  | updated command n => exact ⟨_, _, command, List.mem_singleton.mp hx⟩

theorem Session.Inserts.step (hidentity : m.table.identityField? = none)
    (hinserts : Inserts e m true o xs w) (hx : x ∈ xs) :
    ∃ c reply, objectCommand m (.ok (m.insert true)) (e.assignKeys o) = .ok c ∧
      x = ⟨m.table.backend, .execute c, reply⟩ := by
  have hback := readBack?_of_none true hidentity
  rw [← keyed_of_none hidentity]
  cases hinserts with
  | unready => exact absurd hx List.not_mem_nil
  | notInserted command err =>
    have hx := List.mem_singleton.mp hx
    rw [insertCall, hback] at hx
    exact ⟨_, _, command, hx⟩
  | inserted command plain n => exact ⟨_, _, command, List.mem_singleton.mp hx⟩
  | identified command identity assigned =>
    rw [hback] at identity
    cases identity
  | misread command identity present unreadable =>
    rw [hback] at identity
    cases identity

/-- A command of a save over an open connection. -/
theorem Session.Saves.step (hidentity : m.table.identityField? = none)
    (hcheck : objectCommand m m.existenceCheck o = .ok check)
    (hsaves : Saves e m {} check o (before ++ x :: ys) w) : SaveStep e m o before x := by
  generalize hxs : before ++ x :: ys = xs at hsaves
  cases hsaves with
  | notChecked err =>
    rcases next_of_cons hxs with rfl | ⟨-, hx⟩
    · exact .check hcheck _
    · exact absurd hx List.not_mem_nil
  | kept stored keep => exact nomatch keep
  | update stored keep hupdates =>
    rcases next_of_cons hxs with rfl | ⟨⟨more, rfl⟩, hx⟩
    · exact .check hcheck _
    · obtain ⟨c, reply, command, rfl⟩ := hupdates.step hx
      exact .update command List.mem_cons_self stored reply
  | insert new hinserts =>
    rcases next_of_cons hxs with rfl | ⟨-, hx⟩
    · exact .check hcheck _
    · obtain ⟨c, reply, command, rfl⟩ := hinserts.step hidentity hx
      exact .insert command reply

/-- **The next command of a save.** -/
theorem step_of_connects {failed : BackendError → Written}
    (hidentity : m.table.identityField? = none)
    (hcheck : objectCommand m m.existenceCheck o = .ok check)
    (hconnects : Connects m.table.backend failed (Saves e m {} check o) (before ++ x :: ys) w) :
    SaveStep e m o before x := by
  have hmem : x ∈ before ++ x :: ys := List.mem_append_right before List.mem_cons_self
  generalize hxs : before ++ x :: ys = xs at hconnects hmem
  cases hconnects with
  | notConnected err =>
    rw [List.mem_singleton.mp hmem]
    exact .connect _
  | notOpened err =>
    rcases List.mem_pair.mp hmem with rfl | rfl
    · exact .connect _
    · exact .opening _
  | @opened body _ hsaves closed =>
    rcases next_of_connected hxs with rfl | rfl | rfl | ⟨inside, more, rfl, rfl⟩
    · exact .connect _
    · exact .opening _
    · exact .closing _
    · refine (hsaves.step hidentity hcheck).mono fun y hy => ?_
      exact List.mem_cons_of_mem _ (List.mem_cons_of_mem _ hy)

/-! ## What is known of the table and the key -/

/-- An object of a table with the values of a key. -/
structure HasKey (t : Table) (k : String → Value) (o : Object) : Prop where
  owned : t.owns o = true
  key : ∀ f ∈ t.primaryKey, t.stored o f.name = k f.name

/-- A table without an identity whose key is saved, and values of the key that can be compared. -/
structure Contended (m : Mapping) (k : String → Value) : Prop where
  identity : m.table.identityField? = none
  key : m.table.hasPrimaryKey = true
  saved : ∀ f ∈ m.table.primaryKey, f.options.ignoreForSave = false ∧ f.isAutomatic = false
  comparable : ∀ f ∈ m.table.primaryKey, (k f.name).isComparable = true

variable {k : String → Value} {sql : String}

theorem HasKey.exists_row (ho : HasKey m.table k o) : ∃ row, m.table.toRow o = .ok row := by
  unfold Table.toRow
  rw [if_pos ho.owned]
  exact ⟨_, rfl⟩

theorem HasKey.eq (ho : HasKey m.table k o) {name : String} (hname : name ∈ m.keyNames) :
    m.table.stored o name = k name := by
  obtain ⟨f, hf, rfl⟩ := List.mem_map.mp hname
  exact ho.key f hf

namespace Contended

/-- An insert writes the columns of the key. -/
theorem keyNames_subset (hm : Contended m k) :
    m.keyNames ⊆ (m.insertColumns true).map Field.name := by
  refine List.map_subset _ fun f hf => ?_
  exact Mapping.mem_insertColumns.mpr ⟨List.mem_of_mem_filter hf, hm.saved f hf⟩

/-- An insert writes the columns that an update writes. -/
theorem updateColumns_subset (hm : Contended m k) :
    m.updateColumns.map Field.name ⊆ (m.insertColumns true).map Field.name := by
  refine List.map_subset _ fun f hf => Mapping.mem_insertColumns.mpr ?_
  unfold Mapping.updateColumns at hf
  dsimp only at hf
  split at hf
  · exact ⟨List.mem_of_mem_filter hf, hm.saved f hf⟩
  · obtain ⟨hscalar, hcolumn⟩ := List.mem_filter.mp hf
    simp only [Bool.and_eq_true, Bool.not_eq_true'] at hcolumn
    exact ⟨hscalar, hcolumn.1.1, hcolumn.2⟩

theorem same_self (hm : Contended m k) (S : Store h m) {name : String} (hname : name ∈ m.keyNames) :
    S.same (k name) (k name) = true := by
  obtain ⟨f, hf, rfl⟩ := List.mem_map.mp hname
  exact S.same_self _ (hm.comparable f hf)

/-- An object with the key has one that can be compared. -/
theorem identified (hm : Contended m k) (S : Store h m) (ho : HasKey m.table k o) :
    S.Identified o := by
  refine ⟨ho.exists_row, fun name hname => ?_⟩
  rw [ho.eq hname]
  exact hm.same_self S hname

/-- No update reads like the insert. -/
theorem ne_insert (hm : Contended m k) (hupdate : m.update = .ok sql) : sql ≠ m.insert true := by
  rw [Mapping.update_eq hm.key] at hupdate
  obtain rfl := Except.ok.inj hupdate
  rw [Mapping.insert_eq]
  exact RowStatement.update_sql_ne_insert _ _ _ _ _

end Contended

/-! ## What was exchanged -/

/-- Whether a backend took the row of an insert that reads no identity back. -/
def isAcceptedInsert (m : Mapping) : Exchange → Bool
  | ⟨_, .execute c, .ok _⟩ => c.text == m.insert true
  | _ => false

/-- How many inserts were accepted. -/
def acceptedInserts (m : Mapping) (trace : List (ι × Exchange)) : Nat :=
  trace.countP fun x => isAcceptedInsert m x.2

/-- The last write that was accepted, with the party that has made it. -/
def lastWrite? (trace : List (ι × Exchange)) : Option (ι × Exchange) :=
  (trace.filter fun x => isAcceptedWrite x.2).getLast?

/-- What an exchange tells of a key that no command removes, by whether it is stored now: only an
insert is refused, and whatever has been written since, the key is stored. -/
def Tells (m : Mapping) (stored : Prop) : Exchange → Prop
  | ⟨_, .connect, reply⟩ => reply.isOk = true
  | ⟨_, .open, reply⟩ => reply.isOk = true
  | ⟨_, .scalar _, reply⟩ => ∃ found, reply = .ok found ∧ (isStored found = true → stored)
  | ⟨_, .execute c, reply⟩ => stored ∧ (reply.isOk = true ∨ c.text = m.insert true)
  | _ => True

theorem Tells.imp {stored stored' : Prop} (himp : stored → stored') (htells : Tells m stored x) :
    Tells m stored' x := by
  obtain ⟨backend, call, reply⟩ := x
  cases call with
  | scalar c =>
    obtain ⟨found, hfound, hstored⟩ := htells
    exact ⟨found, hfound, himp ∘ hstored⟩
  | execute c => exact htells.imp_left himp
  | _ => exact htells

variable {trace : List (ι × Exchange)} {i : ι}

theorem acceptedInserts_append : acceptedInserts m (trace ++ [(i, x)]) =
    acceptedInserts m trace + if isAcceptedInsert m x then 1 else 0 := by
  unfold acceptedInserts
  rw [List.countP_append, List.countP_singleton]

theorem lastWrite?_append : lastWrite? (trace ++ [(i, x)]) =
    if isAcceptedWrite x then some (i, x) else lastWrite? trace := by
  unfold lastWrite?
  rw [List.filter_append]
  cases hwrite : isAcceptedWrite x <;> simp [hwrite]

/-- An accepted insert is an accepted write. -/
theorem isAcceptedInsert_of_not_write (hwrite : isAcceptedWrite x = false) :
    isAcceptedInsert m x = false := by
  unfold isAcceptedInsert
  split
  · exact nomatch hwrite
  · rfl

/-! ## The invariant -/

/-- How many rows of a store have the values of a key. -/
def Store.countKey (S : Store h m) (k : String → Value) (st : σ) : Nat :=
  countRows S.same m.keyNames k (S.rows st)

/-- Every row with a key has values in the columns that updates write. -/
def Store.Shows (S : Store h m) (k values : String → Value) (st : σ) : Prop :=
  ∀ r ∈ S.rows st, hasValues S.same m.keyNames k r = true →
    r.Holds (m.updateColumns.map Field.name) values

/-- An accepted write of an object, with the values that it writes. -/
inductive Wrote (e : EntityType) (m : Mapping) (o : Object) : Exchange → (String → Value) → Prop
  | inserted {c : Command} (n : Int)
      (command : objectCommand m (.ok (m.insert true)) (e.assignKeys o) = .ok c) :
      Wrote e m o ⟨m.table.backend, .execute c, .ok n⟩ (m.table.stored (e.assignKeys o))
  | updated {c : Command} (n : Int) (command : objectCommand m m.update o = .ok c) :
      Wrote e m o ⟨m.table.backend, .execute c, .ok n⟩ (m.table.stored o)

/-- What holds at every point of the rows and of all that was exchanged, where so many rows with
the key were there at the start. -/
structure Race (S : Store h m) (e : EntityType) (k : String → Value) (objects : ι → Object)
    (start : Nat) (st : σ) (trace : List (ι × Exchange)) : Prop where
  /-- a row with the key was there, or an insert has put it there -/
  count : S.countKey k st = start + acceptedInserts m trace
  unique : S.countKey k st ≤ 1
  tells : ∀ x ∈ trace, Tells m (S.countKey k st = 1) x.2
  last : ∀ {i x}, lastWrite? trace = some (i, x) →
    ∃ values, Wrote e m (objects i) x values ∧ S.Shows k values st

namespace Race

variable {S : Store h m} {objects : ι → Object} {start : Nat} {st st' : σ}

theorem refl (hstart : S.countKey k st ≤ 1) : Race S e k objects (S.countKey k st) st [] where
  count := rfl
  unique := hstart
  tells _ hx := absurd hx List.not_mem_nil
  last hlast := nomatch hlast

/-- A command that writes nothing. -/
theorem quiet (hrace : Race S e k objects start st trace) (hrows : S.rows st' = S.rows st)
    (hwrite : isAcceptedWrite x = false) (htells : Tells m (S.countKey k st = 1) x) :
    Race S e k objects start st' (trace ++ [(i, x)]) := by
  have hcount : S.countKey k st' = S.countKey k st := by
    rw [Store.countKey, hrows]
    rfl
  constructor
  · rw [hcount, acceptedInserts_append, isAcceptedInsert_of_not_write hwrite]
    exact hrace.count
  · rw [hcount]
    exact hrace.unique
  · rw [hcount]
    intro y hy
    rcases List.mem_append.mp hy with hy | hy
    · exact hrace.tells y hy
    · rw [List.mem_singleton.mp hy]
      exact htells
  · intro j y hy
    rw [lastWrite?_append, hwrite] at hy
    obtain ⟨values, hwrote, hshows⟩ := hrace.last hy
    refine ⟨values, hwrote, ?_⟩
    unfold Store.Shows
    rwa [hrows]

/-- A write that is accepted, after which one row has the key. -/
theorem written {values : String → Value} (hrace : Race S e k objects start st trace)
    (hone : S.countKey k st' = 1) (hinserts : 1 = start + acceptedInserts m (trace ++ [(i, x)]))
    (hwrite : isAcceptedWrite x = true) (htells : Tells m True x)
    (hwrote : Wrote e m (objects i) x values) (hshows : S.Shows k values st') :
    Race S e k objects start st' (trace ++ [(i, x)]) := by
  constructor
  · rw [hone, hinserts]
  · rw [hone]
  · intro y hy
    rcases List.mem_append.mp hy with hy | hy
    · exact (hrace.tells y hy).imp fun _ => hone
    · rw [List.mem_singleton.mp hy]
      exact htells.imp fun _ => hone
  · intro j y hy
    rw [lastWrite?_append, if_pos hwrite] at hy
    obtain ⟨rfl, rfl⟩ := Prod.mk.inj (Option.some.inj hy)
    exact ⟨values, hwrote, hshows⟩

/-- An insert is taken where no row has the key, and otherwise it changes nothing. -/
theorem insert {c : Command} {reply : Except BackendError Int} (hm : Contended m k)
    (hrace : Race S e k objects start st trace) (ho : HasKey m.table k (e.assignKeys (objects i)))
    (hcommand : objectCommand m (.ok (m.insert true)) (e.assignKeys (objects i)) = .ok c)
    (hreply : (h m.table.backend (.execute c) st).1 = reply) :
    Race S e k objects start (h m.table.backend (.execute c) st).2
      (trace ++ [(i, ⟨m.table.backend, .execute c, reply⟩)]) := by
  obtain ⟨htext, -, hbound⟩ := objectCommand_ok hcommand
  have htext := (Except.ok.inj htext).symm
  obtain ⟨r, hholds, htakes⟩ :=
    S.insert st insertColumns_sublist (htext.trans (Mapping.insert_eq true))
  rw [hreply] at htakes
  rw [hbound] at hholds
  have hkey : r.Holds m.keyNames k := by
    intro name hname
    rw [hholds name (hm.keyNames_subset hname), ho.eq hname]
  cases reply with
  | error err =>
    obtain ⟨hrows, hpositive⟩ := countRows_of_rejected htakes hkey
    exact hrace.quiet hrows rfl ⟨Nat.le_antisymm hrace.unique hpositive, .inr htext⟩
  | ok n =>
    obtain ⟨hrows, hnone, hone⟩ :=
      countRows_of_taken htakes hkey fun name hname => hm.same_self S hname
    have hinsert : isAcceptedInsert m ⟨m.table.backend, .execute c, .ok n⟩ = true :=
      beq_iff_eq.mpr htext
    refine hrace.written hone ?_ rfl ⟨trivial, .inl rfl⟩ (.inserted n hcommand) ?_
    · rw [acceptedInserts_append, if_pos hinsert, ← Nat.add_assoc, ← hrace.count, Store.countKey,
        hnone]
    · -- the row that was put there is the only one with the key
      intro r' hr' hhas
      rw [hrows] at hr'
      rcases Multiset.mem_cons.mp hr' with rfl | hr'
      · exact fun name hname => hholds name (hm.updateColumns_subset hname)
      · exact (Multiset.countP_eq_zero.mp hnone r' hr' hhas).elim

/-- An update of an object whose key is stored. -/
theorem update {c : Command} {reply : Except BackendError Int} (hm : Contended m k)
    (hrace : Race S e k objects start st trace) (ho : HasKey m.table k (objects i))
    (hstored : S.countKey k st = 1) (hcommand : objectCommand m m.update (objects i) = .ok c)
    (hreply : (h m.table.backend (.execute c) st).1 = reply) :
    Race S e k objects start (h m.table.backend (.execute c) st).2
      (trace ++ [(i, ⟨m.table.backend, .execute c, reply⟩)]) := by
  obtain ⟨hupdate, -, -⟩ := objectCommand_ok hcommand
  obtain ⟨haccepted, hafter⟩ := S.of_update hm.key (hm.identified S ho) hcommand (t := st)
  obtain rfl := hreply.symm.trans haccepted
  have hkey : ∀ rows, countRows S.same m.keyNames (m.table.stored (objects i)) rows =
      countRows S.same m.keyNames k rows := countRows_congr fun name hname => ho.eq hname
  have hcount := hafter.count
  rw [hkey, hkey] at hcount
  have hnot : isAcceptedInsert m ⟨m.table.backend, .execute c, .ok
      (countRows S.same m.keyNames (m.table.stored (objects i)) (S.rows st) : Int)⟩ = false :=
    beq_eq_false_iff_ne.mpr (hm.ne_insert hupdate)
  refine hrace.written (hcount.trans hstored) ?_ rfl ⟨trivial, .inl rfl⟩ (.updated _ hcommand) ?_
  · rw [acceptedInserts_append, hnot, ← hstored]
    exact hrace.count
  · intro r hr hhas
    refine hafter.set r hr ?_
    rwa [hasValues_congr fun name hname => ho.eq hname]

/-- **Every command of a save keeps the invariant.** -/
theorem step [DecidableEq ι] (hm : Contended m k) (hrace : Race S e k objects start st trace)
    (ho : HasKey m.table k (objects i)) (hkeyed : HasKey m.table k (e.assignKeys (objects i)))
    (hreply : (h x.backend x.call st).1 = x.reply)
    (hstep : SaveStep e m (objects i) (past i trace) x) :
    Race S e k objects start (h x.backend x.call st).2 (trace ++ [(i, x)]) := by
  cases hstep with
  | connect reply =>
    obtain ⟨hconnect, hrows⟩ := S.connect st
    exact hrace.quiet hrows rfl (congrArg Except.isOk (hreply.symm.trans hconnect))
  | opening reply =>
    obtain ⟨hopening, hrows⟩ := S.opening st
    exact hrace.quiet hrows rfl (congrArg Except.isOk (hreply.symm.trans hopening))
  | closing reply => exact hrace.quiet (S.closing st) rfl trivial
  | check hcheck reply =>
    obtain ⟨found, hfound, hstored, hrows⟩ := S.of_check hcheck (t := st)
    refine hrace.quiet hrows rfl ⟨found, hreply.symm.trans hfound, fun hpositive => ?_⟩
    have hpositive := hstored.mp hpositive
    rw [countRows_congr fun name hname => ho.eq hname] at hpositive
    exact Nat.le_antisymm hrace.unique hpositive
  | insert hcommand reply => exact hrace.insert hm hkeyed hcommand hreply
  | update hcommand looked stored reply =>
    obtain ⟨found, hfound, hstored⟩ := hrace.tells _ (mem_past.mp looked)
    obtain rfl := Except.ok.inj hfound
    exact hrace.update hm ho (hstored stored) hcommand hreply

end Race

/-! ## Finished saves -/

/-- How saves that race can end: with an insert or an update that was accepted, or with an insert
that was refused. -/
def Raced : Written → Prop
  | (.ok outcome, _) => (outcome.status, outcome.kind) ∈
      [(OutcomeStatus.ok, StatementKind.insert), (.ok, .update), (.fail, .insert)]
  | (.error _, _) => False

theorem Session.Updates.raced {stored : Prop} (hm : Contended m k) (ho : HasKey m.table k o)
    (htells : ∀ x ∈ xs, Tells m stored x) (hupdates : Updates m o xs w) : stored ∧ Raced w := by
  cases hupdates with
  | unready command =>
    obtain ⟨row, hrow⟩ := ho.exists_row
    obtain ⟨c, hc⟩ := exists_objectCommand hrow
    rw [Mapping.update_eq hm.key, hc] at command
    exact nomatch command
  | notUpdated command err =>
    obtain ⟨-, haccepted | hinsert⟩ := htells _ List.mem_cons_self
    · exact nomatch haccepted
    · exact (hm.ne_insert (objectCommand_ok command).1 hinsert).elim
  | updated command n =>
    obtain ⟨hstored, -⟩ := htells _ List.mem_cons_self
    exact ⟨hstored, by simp [Raced, accepted]⟩

theorem Session.Inserts.raced {stored : Prop} (hm : Contended m k)
    (hkeyed : HasKey m.table k (e.assignKeys o)) (htells : ∀ x ∈ xs, Tells m stored x)
    (hinserts : Inserts e m true o xs w) : stored ∧ Raced w := by
  have hback := readBack?_of_none true hm.identity
  cases hinserts with
  | unready command =>
    obtain ⟨row, hrow⟩ := hkeyed.exists_row
    obtain ⟨c, hc⟩ := exists_objectCommand hrow
    rw [keyed_of_none hm.identity, hc] at command
    exact nomatch command
  | notInserted command err =>
    have htell := htells _ List.mem_cons_self
    rw [insertCall, hback] at htell
    exact ⟨htell.1, by simp [Raced, refused]⟩
  | inserted command plain n =>
    obtain ⟨hstored, -⟩ := htells _ List.mem_cons_self
    exact ⟨hstored, by simp [Raced, accepted]⟩
  | identified command identity assigned =>
    rw [hback] at identity
    cases identity
  | misread command identity present unreadable =>
    rw [hback] at identity
    cases identity

/-- A save of which every reply tells whether the key is stored ends well, and the key is stored. -/
theorem raced_of_connects {failed : BackendError → Written} {stored : Prop} (hm : Contended m k)
    (ho : HasKey m.table k o) (hkeyed : HasKey m.table k (e.assignKeys o))
    (htells : ∀ x ∈ xs, Tells m stored x)
    (hconnects : Connects m.table.backend failed (Saves e m {} check o) xs w) :
    stored ∧ Raced w := by
  cases hconnects with
  | notConnected err => exact nomatch htells _ List.mem_cons_self
  | notOpened err => exact nomatch htells _ (List.mem_cons_of_mem _ List.mem_cons_self)
  | @opened body _ hsaves closed =>
    have htells : ∀ x ∈ body, Tells m stored x := fun x hx =>
      htells x (List.mem_cons_of_mem _ (List.mem_cons_of_mem _ (List.mem_append_left _ hx)))
    cases hsaves with
    | notChecked err =>
      obtain ⟨found, hfound, -⟩ := htells _ List.mem_cons_self
      exact nomatch hfound
    | kept found keep => exact nomatch keep
    | update found keep hupdates =>
      exact hupdates.raced hm ho fun x hx => htells x (List.mem_cons_of_mem _ hx)
    | insert new hinserts =>
      exact hinserts.raced hm hkeyed fun x hx => htells x (List.mem_cons_of_mem _ hx)

/-! ## The race -/

/-- **Saves that race for a key.** Let many save objects with one key, command by command in any
order, over a store in which one row at most has the key. At every point one row at most has it. A
save that is done has inserted or updated, or its insert was refused. One insert at most is ever
accepted, and exactly one is if no row had the key and a save is done. The columns that updates
write hold what the last accepted write has put there. -/
theorem save_race [DecidableEq ι] {s : Session} {objects : ι → Object} {st : σ} (S : Store h m)
    (htarget : s.target e.table = .ok m) (hm : Contended m k)
    (hkeys : ∀ i, HasKey m.table k (objects i))
    (hassigned : ∀ i, HasKey m.table k (e.assignKeys (objects i)))
    (hstart : S.countKey k st ≤ 1) (schedule : List ι) :
    let now := (Company.start (fun i => s.save e {} (objects i)) st).run h schedule
    S.countKey k now.state ≤ 1 ∧
      (∀ i w, now.programs i = .done w → Raced w) ∧
      acceptedInserts m now.trace ≤ 1 ∧
      (S.countKey k st = 0 → (∃ i w, now.programs i = .done w) →
        acceptedInserts m now.trace = 1) ∧
      ∀ i x, lastWrite? now.trace = some (i, x) →
        ∃ values, Wrote e m (objects i) x values ∧ S.Shows k values now.state := by
  intro now
  have hconnects : ∀ {i xs w}, (s.save e {} (objects i)).Goes xs w →
      ∃ check, objectCommand m m.existenceCheck (objects i) = .ok check ∧
        Connects m.table.backend (fun err => refused .existenceCheck err (objects i))
          (Saves e m {} check (objects i)) xs w := by
    intro i xs w hgoes
    obtain ⟨row, hrow⟩ := (hkeys i).exists_row
    exact goes_save_of_row htarget hm.key hrow hgoes
  have hrace : Race S e k objects (S.countKey k st) now.state now.trace := by
    refine Company.run_invariant (.refl hstart) ?_ schedule
    intro st' trace i x ys w hrace hreply hgoes
    obtain ⟨check, hcheck, hsave⟩ := hconnects hgoes
    exact hrace.step hm (hkeys i) (hassigned i) hreply (step_of_connects hm.identity hcheck hsave)
  have hdone : ∀ {i w}, now.programs i = .done w → S.countKey k now.state = 1 ∧ Raced w := by
    intro i w hdone
    obtain ⟨check, -, hsave⟩ := hconnects (Company.goes_done schedule hdone)
    exact raced_of_connects hm (hkeys i) (hassigned i)
      (fun x hx => hrace.tells _ (mem_past.mp hx)) hsave
  have hcount := hrace.count
  refine ⟨hrace.unique, fun i w hi => (hdone hi).2, ?_, ?_, fun i x hlast => hrace.last hlast⟩
  · have hunique := hrace.unique
    omega
  · rintro hnone ⟨i, w, hi⟩
    have hone := (hdone hi).1
    omega

/-! ## Seats -/

namespace Seats

/-- Seats with the number that is printed on them. -/
def table : Table where
  entity := "Seat"
  tableName := "seats"
  fields := [.ofType "number" { scalar := .int .int32 } { primaryKey := true },
    .ofType "name" { scalar := .text }]

def mapping : Mapping := ⟨⟨[table]⟩, table, .of .sqlite⟩

def session : Session where
  catalog := ⟨[table]⟩
  backends := ⟨[(defaultBackend, .of .sqlite)]⟩

/-- The seventh seat, for Ann or for Bob. -/
def seat (forAnn : Bool) : Object where
  typeId := "Seat"
  values := [.int 7, .text (if forAnn then "Ann" else "Bob")]
  children := []

/-- The key of the seventh seat. -/
def seventh (_ : String) : Value := .int 7

theorem hasKey_seat (forAnn : Bool) : HasKey table seventh (seat forAnn) := by
  cases forAnn <;> exact ⟨rfl, by decide +kernel⟩

/-- A list of seats, none of them with an identity. -/
def answer : Handler (List Row) := listAnswer mapping fun _ => .text ""

theorem freshIdentity : FreshIdentity mapping fun _ => .text "" := fun f hf => by
  have hnone : mapping.table.identityField? = none := rfl
  rw [hnone] at hf
  cases hf

def store : Store answer mapping := listStore (by decide +kernel) freshIdentity

/-- Ann looks for the seat, then Bob goes through the whole of his save, and then Ann goes on. -/
def turns : List Bool :=
  List.replicate 6 true ++ List.replicate 10 false ++ List.replicate 10 true

/-- How the saves of Ann and Bob have ended. -/
def ended : Company Bool (List Row) Written :=
  (Company.start (fun forAnn => session.save ⟨table, id⟩ {} (seat forAnn)) []).run answer turns

end Seats

/-- Two who both have found the seat free: one insert is accepted, the save of the other is done as
well, and the seat has one row. -/
theorem save_race_seats : Seats.store.countKey Seats.seventh Seats.ended.state ≤ 1 ∧
    acceptedInserts Seats.mapping Seats.ended.trace = 1 ∧
    ∃ w, Seats.ended.programs true = .done w ∧ w.1.toOption.map Outcome.status = some .fail ∧
      Raced w := by
  have hfree : Seats.store.countKey Seats.seventh [] = 0 := rfl
  obtain ⟨hunique, hraced, -, hinserts, -⟩ := save_race (s := Seats.session)
    (e := ⟨Seats.table, id⟩) Seats.store rfl ⟨rfl, rfl, by decide, by decide⟩ Seats.hasKey_seat
    Seats.hasKey_seat (hfree ▸ Nat.zero_le 1) Seats.turns
  have hdone : Seats.ended.programs true = .done _ := rfl
  exact ⟨hunique, hinserts hfree ⟨true, _, hdone⟩, _, hdone, rfl, hraced true _ hdone⟩

end EntityMapper
