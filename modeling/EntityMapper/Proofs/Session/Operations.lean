import EntityMapper.Proofs.Session.Commands
import EntityMapper.Proofs.Session.Meets
import EntityMapper.Proofs.Session.Rebuild

/-!
# The commands of every operation

Whatever the replies are, an operation of a session hands over no commands but the ones that are
made for it: of a predicate, of an object, or of names alone.

* `Operation` — the operations of a session on an entity type
* `Operation.Issues` — the commands of an operation, with where their values come from
* `issues_of_run` — each command of a run is one of its operation
-/

namespace EntityMapper.Session

open Program

/-! ## Operations -/

/-- The operations on an entity type that send commands of their own making. -/
inductive Operation
  | query (condition : Option Expr)
  | load (condition : Expr)
  | reload (o : Object)
  | existsWhere (condition : Expr)
  | existsObject (o : Object)
  | write (mode : WriteMode) (options : SaveOptions) (o : Object)
  | delete (options : DeleteOptions) (o : Object)
  | deleteAll (condition : Option Expr)
  | createTable
  | dropTable
  | truncate (recreate : Bool)
  | alterTable

/-- A program without its result. -/
def silently {α : Type} (p : Program α) : Program Unit := do
  let _ ← p
  return ()

namespace Operation

/-- What an operation does. -/
def perform (s : Session) (e : EntityType) : Operation → Program Unit
  | .query condition => silently (s.query e.table condition)
  | .load condition => silently (s.load e.table condition)
  | .reload o => silently (s.reload e.table o)
  | .existsWhere condition => silently (s.existsWhere e.table condition)
  | .existsObject o => silently (s.existsObject e.table o)
  | .write mode options o => silently (s.write e mode options o)
  | .delete options o => silently (s.delete e.table options o)
  | .deleteAll condition => silently (s.deleteAll e.table condition)
  | .createTable => silently (s.createTable e.table)
  | .dropTable => silently (s.dropTable e.table)
  | .truncate recreate => silently (s.truncate e.table recreate)
  | .alterTable => silently (s.alterTable e)

/-- The object that is given to an operation, if one is. -/
def object? : Operation → Option Object
  | .reload o => some o
  | .existsObject o => some o
  | .write _ _ o => some o
  | .delete _ o => some o
  | _ => none

/-- The statements of names alone that an operation sends. -/
def definitions (m : Mapping) : Operation → List String
  | .createTable => [m.createTable]
  | .dropTable => [m.dropTable]
  | .truncate recreate => if recreate then [m.dropTable, m.createTable] else [m.truncate]
  | .alterTable => [m.dropTable, m.createTable]
  | _ => []

/-- Where the values of a command come from. -/
inductive Source
  | predicate (p : CompiledPredicate)
  | object (o : Object)
  | nothing

/-- The source that a predicate is, if there is one. -/
def Source.ofPredicate? : Option CompiledPredicate → Source
  | some p => .predicate p
  | none => .nothing

/-- The commands of an operation, each in the call that hands it over and with the source of its
values. -/
inductive Issues (e : EntityType) (m : Mapping) : Operation → Call → Source → Prop
  | query {condition : Option Expr} {c : Command} {p : Option CompiledPredicate}
      (command : queryCommand m condition = .ok c)
      (predicate : m.compile? (some m.rootAlias) condition = .ok p) :
      Issues e m (.query condition) (.reader c) (.ofPredicate? p)
  | load {condition : Expr} {c : Command} {p : Option CompiledPredicate}
      (command : queryCommand m (some condition) = .ok c)
      (predicate : m.compile? (some m.rootAlias) (some condition) = .ok p) :
      Issues e m (.load condition) (.reader c) (.ofPredicate? p)
  | existsWhere {condition : Expr} {c : Command} {p : CompiledPredicate}
      (command : countCommand m condition = .ok c)
      (predicate : m.compile (some m.rootAlias) condition = .ok p) :
      Issues e m (.existsWhere condition) (.scalar c) (.predicate p)
  | deleteAll {condition : Option Expr} {c : Command} {p : Option CompiledPredicate}
      (command : deleteAllCommand m condition = .ok c)
      (predicate : m.compile? none condition = .ok p) :
      Issues e m (.deleteAll condition) (.execute c) (.ofPredicate? p)
  | reload {o : Object} {c : Command} (command : objectCommand m m.reload o = .ok c) :
      Issues e m (.reload o) (.reader c) (.object o)
  | existsObject {o : Object} {c : Command} (command : objectCommand m m.existenceCheck o = .ok c) :
      Issues e m (.existsObject o) (.scalar c) (.object o)
  /-- a save looks for the key of the object -/
  | check {options : SaveOptions} {o : Object} {c : Command}
      (command : objectCommand m m.existenceCheck o = .ok c) :
      Issues e m (.write .save options o) (.scalar c) (.object o)
  /-- an object is inserted as it is once it has taken its keys -/
  | insert {mode : WriteMode} {options : SaveOptions} {o : Object} {c : Command}
      (inserts : mode ≠ .update)
      (command : objectCommand m (.ok (m.insert options.ignoreAutomatic)) (keyed e m o) = .ok c) :
      Issues e m (.write mode options o) (insertCall m options.ignoreAutomatic c)
        (.object (keyed e m o))
  | update {mode : WriteMode} {options : SaveOptions} {o : Object} {c : Command}
      (updates : mode ≠ .insert) (command : objectCommand m m.update o = .ok c) :
      Issues e m (.write mode options o) (.execute c) (.object o)
  | delete {options : DeleteOptions} {o : Object} {c : Command}
      (command : objectCommand m m.delete o = .ok c) :
      Issues e m (.delete options o) (.execute c) (.object o)
  | definition {op : Operation} {sql : String} (statement : sql ∈ op.definitions m) :
      Issues e m op (.execute (m.command sql)) .nothing
  /-- a rebuild reads all rows -/
  | backUp : Issues e m .alterTable (.reader (backupCommand m)) .nothing
  /-- a rebuild restores the objects of the rows that it has read -/
  | restore {rows : List Row} {objects : List Object} {o : Object} {c : Command}
      (backedUp : materialize m.catalog m.table rows = .ok objects) (member : o ∈ objects)
      (command : restoreCommand e m o = .ok c) :
      Issues e m .alterTable (.execute c) (.object (keyed e m o))

end Operation

/-! ## Parts of operations -/

theorem target_catalog {s : Session} {t : Table} {m : Mapping} (h : s.target t = .ok m) :
    m.catalog = s.catalog := by
  unfold target at h
  obtain ⟨d, -, h⟩ := exists_of_bind_eq_ok h
  exact congrArg Mapping.catalog (Except.ok.inj h).symm

variable {s : Session} {e : EntityType} {m : Mapping} {t : Table} {kind : StatementKind}
  {c : Command} {o : Object} {P : Call → Prop}

/-- The calls of a class that hand over no command: those that open and close a connection. -/
structure Opens (P : Call → Prop) : Prop where
  connect : P .connect
  opens : P .open
  close : P .close

theorem meets_silently {α : Type} {p : Program α} (h : p.Meets P fun _ => True) :
    (silently p).Meets P fun _ => True := by
  rw [silently, meets_bind]
  exact h.mono fun _ _ => trivial

/-- One command over a connection of its own. -/
theorem meets_connected (hP : Opens P) {call : Call} (hcall : P call) :
    (withConnection m.table.backend .error (s.send m kind c call)).Meets P fun _ => True :=
  meets_withConnection hP.connect hP.opens hP.close (fun _ => trivial)
    (meets_send hcall fun _ => trivial)

theorem meets_read (hP : Opens P) (hcall : P (.reader c)) :
    (s.read m kind c).Meets P fun _ => True := by
  rw [read, meets_spanned, meets_bind]
  refine (meets_connected hP hcall).mono fun rows _ => ?_
  cases rows with
  | error err => trivial
  | ok rows =>
    dsimp only
    split
    · trivial
    · rw [meets_bind, meets_take]
      trivial

theorem meets_query (hP : Opens P) {condition : Option Expr}
    (h : ∀ m, s.target t = .ok m → ∀ c, queryCommand m condition = .ok c → P (.reader c)) :
    (s.query t condition).Meets P fun _ => True :=
  meets_prepared (fun _ => trivial) fun m hm =>
    meets_prepared (fun _ => trivial) fun c hc => meets_read hP (h m (mapError_eq_ok hm) c hc)

theorem meets_count (hP : Opens P) (hcall : P (.scalar c)) :
    (s.count m c).Meets P fun _ => True := by
  rw [count, meets_spanned, meets_bind]
  exact (meets_connected hP hcall).mono fun _ _ => trivial

theorem meets_sendWrite {α : Type} (hP : Opens P) (hcall : P (.execute c)) :
    (s.sendWrite (α := α) m kind c).Meets P fun _ => True := by
  rw [sendWrite, meets_bind]
  exact (meets_connected hP hcall).mono fun _ _ => trivial

theorem meets_sendAll {statements : List (StatementKind × String)} {last : StatementKind}
    {affected : Int} (h : ∀ x ∈ statements, P (.execute (m.command x.2))) :
    (s.sendAll m last affected statements).Meets P fun _ => True := by
  induction statements generalizing last affected with
  | nil => trivial
  | cons x rest ih =>
    obtain ⟨kind, sql⟩ := x
    rw [sendAll, meets_bind]
    refine meets_send (h _ List.mem_cons_self) fun reply => ?_
    cases reply with
    | error err => trivial
    | ok n => exact ih fun y hy => h y (List.mem_cons_of_mem _ hy)

theorem meets_define (hP : Opens P) {statements : Mapping → List (StatementKind × String)}
    (h : ∀ m, s.target t = .ok m → ∀ x ∈ statements m, P (.execute (m.command x.2))) :
    (s.define t statements).Meets P fun _ => True := by
  refine meets_prepared (fun _ => trivial) fun m hm => ?_
  rw [meets_spanned, meets_bind]
  refine (meets_withConnection hP.connect hP.opens hP.close (fun _ => trivial)
    (meets_sendAll (h m (mapError_eq_ok hm)))).mono fun r _ => ?_
  obtain ⟨last, r⟩ := r
  exact meets_capture (fun _ => trivial) fun _ => trivial

/-! ## Writes -/

theorem meets_insertObject {ignoreAutomatic : Bool}
    (h : ∀ c, objectCommand m (.ok (m.insert ignoreAutomatic)) (keyed e m o) = .ok c →
      P (insertCall m ignoreAutomatic c)) :
    (s.insertObject e m ignoreAutomatic o).Meets P fun _ => True := by
  have hkeyed : (if m.table.identityField?.isNone then e.assignKeys o else o) = keyed e m o := rfl
  unfold insertObject
  dsimp only
  rw [hkeyed]
  split
  · trivial
  · next c hc =>
    have hcall := h c hc
    unfold insertCall readBack? at hcall
    split
    · next f last hf hlast =>
      rw [hf, hlast] at hcall
      rw [meets_bind]
      refine meets_send hcall fun reply => ?_
      cases reply with
      | error err => trivial
      | ok v =>
        dsimp only
        split <;> trivial
    · next hnone =>
      rw [meets_bind]
      refine meets_send ?_ fun reply => trivial
      split at hcall
      · next f last hf hlast => exact absurd hlast (hnone f last hf)
      · exact hcall

theorem meets_insertStep {options : SaveOptions}
    (h : ∀ c, objectCommand m (.ok (m.insert options.ignoreAutomatic)) (keyed e m o) = .ok c →
      P (insertCall m options.ignoreAutomatic c)) :
    (s.insertStep e m options o).Meets P fun _ => True := by
  rw [insertStep, meets_bind]
  exact (meets_insertObject h).mono fun _ _ => trivial

theorem meets_updateStep (h : ∀ c, objectCommand m m.update o = .ok c → P (.execute c)) :
    (s.updateStep m o).Meets P fun _ => True := by
  unfold updateStep
  split
  · trivial
  · next c hc =>
    rw [meets_bind]
    exact meets_send (h c hc) fun _ => trivial

/-- The calls that a write may make over an open connection. -/
structure Allows (P : Call → Prop) (e : EntityType) (m : Mapping) (options : SaveOptions)
    (mode : WriteMode) (o : Object) : Prop where
  check : mode = .save → ∀ c, objectCommand m m.existenceCheck o = .ok c → P (.scalar c)
  insert : mode ≠ .update →
    ∀ c, objectCommand m (.ok (m.insert options.ignoreAutomatic)) (keyed e m o) = .ok c →
      P (insertCall m options.ignoreAutomatic c)
  update : mode ≠ .insert → ∀ c, objectCommand m m.update o = .ok c → P (.execute c)

theorem meets_writeSteps {options : SaveOptions} {mode : WriteMode} {check : Option Command}
    (h : Allows P e m options mode o) (hcheck : checkCommand m mode o = .ok check) :
    (s.writeSteps e m options mode check o).Meets P fun _ => True := by
  cases mode with
  | save =>
    obtain ⟨c, hc, rfl⟩ := checkCommand_save hcheck
    unfold writeSteps
    rw [meets_bind]
    refine meets_send (h.check rfl c hc) fun reply => ?_
    cases reply with
    | error err => trivial
    | ok found =>
      dsimp only [Except.mapError]
      split
      · exact meets_insertStep (h.insert nofun)
      · split
        · trivial
        · exact meets_updateStep (h.update nofun)
  | insert =>
    obtain rfl := Except.ok.inj hcheck
    exact meets_insertStep (h.insert nofun)
  | update =>
    obtain rfl := Except.ok.inj hcheck
    exact meets_updateStep (h.update nofun)

theorem meets_writeNotified (hP : Opens P) {options : SaveOptions} {mode : WriteMode}
    (h : Allows P e m options mode o) :
    (s.writeNotified e m options mode o).Meets P fun _ => True := by
  have hwrite : (s.writeObject e m options mode o).Meets P fun _ => True := by
    unfold writeObject
    split
    · trivial
    · next check hcheck =>
      exact meets_withConnection hP.connect hP.opens hP.close (fun _ => trivial)
        (meets_writeSteps h hcheck)
  unfold writeNotified
  simp only [meets_bind, meets_takeIf]
  refine hwrite.mono fun a _ => meets_capture (fun _ => meets_takeIf.mpr trivial) fun r => ?_
  cases r with
  | error err => trivial
  | ok outcome =>
    dsimp only
    split
    · rw [meets_bind, meets_takeIf]
      trivial
    · trivial

theorem meets_write (hP : Opens P) {options : SaveOptions} {mode : WriteMode}
    (h : ∀ m, s.target e.table = .ok m → Allows P e m options mode o) :
    (s.write e mode options o).Meets P fun _ => True := by
  unfold write
  split
  · trivial
  · next m hm =>
    rw [meets_spanned, meets_bind]
    have hrules : (if options.validate then checkRules m options o else pure (.ok none)).Meets P
        fun _ => True := by
      split
      · unfold checkRules
        split
        · trivial
        · trivial
        · simp only [meets_bind, meets_take, meets_takeIf]
          trivial
      · trivial
    refine hrules.mono fun r _ => ?_
    split
    · trivial
    · trivial
    · exact meets_writeNotified hP (h m hm)

theorem meets_delete (hP : Opens P) {options : DeleteOptions}
    (h : ∀ m, s.target t = .ok m → ∀ c, objectCommand m m.delete o = .ok c → P (.execute c)) :
    (s.delete t options o).Meets P fun _ => True := by
  refine meets_prepared (fun _ => trivial) fun m hm => ?_
  rw [meets_spanned]
  split
  · trivial
  · next c hc =>
    simp only [meets_bind, meets_takeIf]
    refine (meets_sendWrite hP (h m (mapError_eq_ok hm) c hc)).mono fun r _ =>
      meets_capture (fun _ => meets_takeIf.mpr trivial) fun r => ?_
    cases r with
    | error err => trivial
    | ok outcome =>
      dsimp only
      rw [meets_bind, meets_takeIf]
      trivial

theorem meets_deleteAll (hP : Opens P) {condition : Option Expr}
    (h : ∀ m, s.target t = .ok m → ∀ c, deleteAllCommand m condition = .ok c → P (.execute c)) :
    (s.deleteAll t condition).Meets P fun _ => True := by
  refine meets_prepared (fun _ => trivial) fun m hm => ?_
  rw [meets_spanned]
  split
  · trivial
  · next c hc =>
    rw [meets_bind]
    exact (meets_sendWrite hP (h m (mapError_eq_ok hm) c hc)).mono fun r _ =>
      meets_capture (fun _ => trivial) fun _ => trivial

/-! ## Rebuilding -/

theorem meets_restore {objects : List Object}
    (h : ∀ o ∈ objects, ∀ c, restoreCommand e m o = .ok c → P (.execute c)) :
    (s.restore e m objects).Meets P fun _ => True := by
  induction objects with
  | nil => trivial
  | cons o rest ih =>
    rw [restore, meets_bind]
    have hinsert : (s.insertObject e m false o).Meets P fun _ => True :=
      meets_insertObject fun c hc => h o List.mem_cons_self c hc
    refine hinsert.mono fun r _ => ?_
    split
    · trivial
    · exact ih fun p hp => h p (List.mem_cons_of_mem _ hp)

/-- The backup leaves the objects of the rows that it has read, or none. -/
theorem meets_backUp (h : P (.reader (backupCommand m))) :
    (s.backUp m).Meets P fun r => ∀ objects existed, r = .ok (objects, existed) →
      objects = [] ∨ ∃ rows, materialize s.catalog m.table rows = .ok objects := by
  unfold backUp
  simp only [meets_bind, meets_announce]
  refine meets_ask.mpr ⟨h, fun reply => ?_⟩
  cases reply with
  | ok rows =>
    rintro objects existed heq
    obtain ⟨read, hread, heq⟩ := map_eq_ok.mp heq
    obtain ⟨rfl, rfl⟩ := Prod.mk.inj heq
    exact .inr ⟨rows, hread⟩
  | error err =>
    dsimp only
    split
    · rintro objects existed heq
      obtain ⟨rfl, rfl⟩ := Prod.mk.inj (Except.ok.inj heq)
      exact .inl rfl
    · intro _ _ heq
      cases heq

theorem meets_alterTable (hP : Opens P)
    (h : ∀ m, s.target e.table = .ok m → P (.reader (backupCommand m)) ∧
      P (.execute (m.command m.dropTable)) ∧ P (.execute (m.command m.createTable)) ∧
      ∀ rows objects, materialize s.catalog m.table rows = .ok objects → ∀ o ∈ objects,
        ∀ c, restoreCommand e m o = .ok c → P (.execute c)) :
    (s.alterTable e).Meets P fun _ => True := by
  refine meets_prepared (fun _ => trivial) fun m hm => ?_
  obtain ⟨hbackUp, hdrop, hcreate, hrestore⟩ := h m (mapError_eq_ok hm)
  rw [meets_spanned]
  refine meets_withConnection hP.connect hP.opens hP.close (fun _ => trivial) ?_
  rw [rebuild, meets_bind]
  refine (meets_backUp hbackUp).mono fun r hr => ?_
  cases r with
  | error err => trivial
  | ok backup =>
    obtain ⟨objects, existed⟩ := backup
    have hobjects : ∀ o ∈ objects, ∀ c, restoreCommand e m o = .ok c → P (.execute c) := by
      rcases hr objects existed rfl with rfl | ⟨rows, hrows⟩
      · exact fun o ho => absurd ho List.not_mem_nil
      · exact hrestore rows objects hrows
    dsimp only
    rw [meets_bind]
    refine (meets_sendAll fun x hx => ?_).mono fun r _ => ?_
    · rcases List.mem_append.mp hx with hx | hx
      · split at hx
        · obtain rfl := List.mem_singleton.mp hx
          exact hdrop
        · exact absurd hx List.not_mem_nil
      · obtain rfl := List.mem_singleton.mp hx
        exact hcreate
    · obtain ⟨last, r⟩ := r
      cases r with
      | error err => trivial
      | ok n =>
        dsimp only
        rw [meets_bind]
        refine (meets_restore hobjects).mono fun r _ => ?_
        cases r with
        | error err => trivial
        | ok _ =>
          dsimp only
          rw [meets_bind, meets_take]
          trivial

/-! ## Every operation -/

/-- A call hands over no command, or one of the operation. -/
def Operation.IssuedBy (s : Session) (e : EntityType) (op : Operation) (call : Call) : Prop :=
  call.command? = none ∨ ∃ m source, s.target e.table = .ok m ∧ op.Issues e m call source

theorem Operation.opens (s : Session) (e : EntityType) (op : Operation) :
    Opens (op.IssuedBy s e) := ⟨.inl rfl, .inl rfl, .inl rfl⟩

/-- **Every operation hands over only its own commands**, whatever the replies are. -/
theorem meets_operation (s : Session) (e : EntityType) (op : Operation) :
    (op.perform s e).Meets (op.IssuedBy s e) fun _ => True := by
  have hP := op.opens s e
  cases op with
  | query condition =>
    refine meets_silently (meets_query hP fun m hm c hc => ?_)
    obtain ⟨p, -, hp, -⟩ := queryCommand_ok hc
    exact .inr ⟨m, _, hm, .query hc hp⟩
  | load condition =>
    refine meets_silently ?_
    rw [load, meets_bind]
    refine (meets_query hP fun m hm c hc => ?_).mono fun _ _ => trivial
    obtain ⟨p, -, hp, -⟩ := queryCommand_ok hc
    exact .inr ⟨m, _, hm, .load hc hp⟩
  | reload o =>
    refine meets_silently (meets_prepared (fun _ => trivial) fun m hm => ?_)
    refine meets_prepared (fun _ => trivial) fun c hc => ?_
    rw [meets_bind]
    exact (meets_read hP (.inr ⟨m, _, mapError_eq_ok hm, .reload hc⟩)).mono fun _ _ => trivial
  | existsWhere condition =>
    refine meets_silently (meets_prepared (fun _ => trivial) fun m hm => ?_)
    refine meets_prepared (fun _ => trivial) fun c hc => meets_count hP ?_
    obtain ⟨p, -, hp, -⟩ := countCommand_ok hc
    exact .inr ⟨m, _, mapError_eq_ok hm, .existsWhere hc hp⟩
  | existsObject o =>
    refine meets_silently (meets_prepared (fun _ => trivial) fun m hm => ?_)
    refine meets_prepared (fun _ => trivial) fun c hc => meets_count hP ?_
    exact .inr ⟨m, _, mapError_eq_ok hm, .existsObject hc⟩
  | write mode options o =>
    refine meets_silently (meets_write hP fun m hm => ⟨?_, ?_, ?_⟩)
    · rintro rfl c hc
      exact .inr ⟨m, _, hm, .check hc⟩
    · exact fun hmode c hc => .inr ⟨m, _, hm, .insert hmode hc⟩
    · exact fun hmode c hc => .inr ⟨m, _, hm, .update hmode hc⟩
  | delete options o =>
    exact meets_silently (meets_delete hP fun m hm c hc => .inr ⟨m, _, hm, .delete hc⟩)
  | deleteAll condition =>
    refine meets_silently (meets_deleteAll hP fun m hm c hc => ?_)
    obtain ⟨p, hp, -⟩ := deleteAllCommand_ok hc
    exact .inr ⟨m, _, hm, .deleteAll hc hp⟩
  | createTable =>
    refine meets_silently (meets_define hP fun m hm x hx => ?_)
    obtain rfl := List.mem_singleton.mp hx
    exact .inr ⟨m, _, hm, .definition (List.mem_singleton_self _)⟩
  | dropTable =>
    refine meets_silently (meets_define hP fun m hm x hx => ?_)
    obtain rfl := List.mem_singleton.mp hx
    exact .inr ⟨m, _, hm, .definition (List.mem_singleton_self _)⟩
  | truncate recreate =>
    refine meets_silently (meets_define hP fun m hm x hx => .inr ⟨m, _, hm, .definition ?_⟩)
    cases recreate with
    | false =>
      obtain rfl := List.mem_singleton.mp hx
      exact List.mem_singleton_self _
    | true => exact List.mem_map_of_mem (f := Prod.snd) hx
  | alterTable =>
    refine meets_silently (meets_alterTable hP fun m hm => ?_)
    have hcatalog : m.catalog = s.catalog := target_catalog hm
    refine ⟨.inr ⟨m, _, hm, .backUp⟩, ?_, ?_, ?_⟩
    · exact .inr ⟨m, _, hm, .definition (by simp [Operation.definitions])⟩
    · exact .inr ⟨m, _, hm, .definition (by simp [Operation.definitions])⟩
    · exact fun rows objects hrows o ho c hc =>
        .inr ⟨m, _, hm, .restore (hcatalog ▸ hrows) ho hc⟩

/-- In each run an operation hands over only its own commands. -/
theorem issues_of_run {σ : Type} {h : Handler σ} {st st' : σ} {op : Operation} {events : List Event}
    {x : Exchange} (hrun : (op.perform s e).run h st = ((), st', events))
    (hx : x ∈ exchanges events) {c : Command} (hc : x.call.command? = some c) :
    ∃ m source, s.target e.table = .ok m ∧ op.Issues e m x.call source := by
  rcases (meets_of_run (meets_operation s e op) hrun).1 x hx with hnone | hissued
  · rw [hnone] at hc
    cases hc
  · exact hissued

end EntityMapper.Session
