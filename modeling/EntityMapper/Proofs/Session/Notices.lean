import EntityMapper.Proofs.Session.Course
import EntityMapper.Proofs.Session.Deeds
import EntityMapper.Proofs.Session.Meets

/-!
# What an observer is told of a write

An observer is told that the rules refuse an object and then nothing else, or it is told of the write
before anything is called and once more when everything was called: that it went well, or that it
failed. Whether there is an observer, and what it wants to be told, changes nothing else.

* `Closes`, `Reported` — what an observer is told at the end of a write, and of all of it
* `run_write`, `run_delete` — every write and every deletion is reported so
* `unheard_write`, `unheard_delete` — without their notices they are the same for every observer
* `outcome_reported` — those that end with an outcome, and the same write with another observer
-/

namespace EntityMapper

namespace Session

open Program

variable {σ : Type} {s : Session} {e : EntityType} {m : Mapping} {t : Table} {o : Object}
  {mode : WriteMode} {options : SaveOptions} {w : Written} {h : Handler σ} {st st' : σ}
  {events : List Event}

/-! ## Results that are accepted -/

/-- An outcome that an attempt comes to by itself is that of an accepted write. -/
def Attempt.Sound (a : Attempt) : Prop := ∀ outcome, a.result = .ok outcome → outcome.status = .ok

theorem sound_map (o : Object) (kind : StatementKind) (r : Except MapperError Int) :
    (Attempt.mk o kind (r.map (.ok kind))).Sound := by
  intro outcome houtcome
  cases r with
  | error err => cases houtcome
  | ok n =>
    obtain rfl := Except.ok.inj houtcome
    rfl

theorem sound_error (o : Object) (kind : StatementKind) (err : MapperError) :
    (Attempt.mk o kind (.error err)).Sound := by
  intro outcome houtcome
  cases houtcome

theorem meets_insertStep_sound :
    (s.insertStep e m options o).Meets (fun _ => True) Attempt.Sound := by
  rw [insertStep, meets_bind]
  exact meets_of_forall (fun _ => trivial) fun r => sound_map r.1 .insert r.2

theorem meets_updateStep_sound : (s.updateStep m o).Meets (fun _ => True) Attempt.Sound := by
  unfold updateStep
  split
  · exact sound_error o .update _
  · rw [meets_bind]
    exact meets_of_forall (fun _ => trivial) fun r => sound_map o .update _

theorem meets_writeObject_sound :
    (s.writeObject e m options mode o).Meets (fun _ => True) Attempt.Sound := by
  unfold writeObject
  split
  · exact sound_error o _ _
  · refine meets_withConnection trivial trivial trivial (fun err => sound_error o _ _) ?_
    unfold writeSteps
    split
    · rw [meets_bind]
      refine meets_of_forall (fun _ => trivial) fun r => ?_
      cases r with
      | error err => exact sound_error o _ _
      | ok found =>
        dsimp only
        split
        · exact meets_insertStep_sound
        · split
          · exact sound_map o .none (.ok (-1))
          · exact meets_updateStep_sound
    · exact meets_updateStep_sound
    · exact meets_insertStep_sound

/-! ## What an observer is told at the end -/

/-- What an observer is told at the end of a write. -/
inductive Closes (observed after : Bool) (moment : Moment) : Written → List Notice → Prop
  /-- an error is no outcome -/
  | error {err : MapperError} {o : Object} : Closes observed after moment (.error err, o) []
  /-- the write went well, with the rows and the kind of the outcome -/
  | ok {outcome : Outcome Object} {o : Object} (status : outcome.status = .ok) :
      Closes observed after moment (.ok outcome, o)
        (noticeIf (observed && after) (.around moment outcome.affected outcome.kind o))
  /-- the write failed, with the kind and the message of the outcome -/
  | fail {outcome : Outcome Object} {message : String} {o : Object}
      (status : outcome.status = .fail) (text : outcome.message = some message) :
      Closes observed after moment (.ok outcome, o)
        (noticeIf observed (.operationFailed outcome.kind message o))

/-- What is exchanged comes after some notices and before others. -/
def Around (opening closing : List Notice) (events : List Event) : Prop :=
  deeds events = opening.map .told ++ (exchanges events).map .exchanged ++ closing.map .told

/-- A refusal is told as it is captured; nothing else is. -/
theorem run_capture_cases {entity : String} {kind : StatementKind} {observed : Bool}
    {result r : Except MapperError (Outcome Object)}
    (hrun : (capture entity kind result fun message =>
      takeIf observed (.notice (.operationFailed kind message o))).run h st = (r, st', events)) :
    st' = st ∧ exchanges events = [] ∧
      ((∃ err, result = .error (.backend err) ∧ r = .ok (.fail kind err.display) ∧
        deeds events = (noticeIf observed (.operationFailed kind err.display o)).map .told) ∨
      (∀ err, result ≠ .error (.backend err)) ∧ r = result ∧ deeds events = []) := by
  unfold capture at hrun
  split at hrun
  · next err =>
    obtain ⟨_, st₁, _, _, hlog, hmore, rfl⟩ := run_bind_cases hrun
    obtain ⟨rfl, rfl⟩ := run_take_cases hlog
    obtain ⟨_, st₂, _, _, hmetric, hlast, rfl⟩ := run_bind_cases hmore
    obtain ⟨rfl, rfl⟩ := run_take_cases hmetric
    obtain ⟨_, st₃, _, _, htold, hresult, rfl⟩ := run_bind_cases hlast
    obtain ⟨rfl, hexchanges, hdeeds⟩ := run_takeIf_cases htold
    obtain ⟨rfl, rfl, rfl⟩ := run_pure_cases hresult
    refine ⟨rfl, ?_, .inl ⟨err, rfl, rfl, ?_⟩⟩
    · rw [List.append_nil]
      exact hexchanges
    · rw [List.append_nil]
      exact hdeeds
  · next hresult =>
    obtain ⟨rfl, rfl, rfl⟩ := run_pure_cases hrun
    exact ⟨rfl, rfl, .inr ⟨hresult, rfl, rfl⟩⟩

theorem quiet_writeObject : (s.writeObject e m options mode o).Quiet := by
  unfold writeObject
  split
  · exact only_done
  · exact quiet_withConnection serves_writeSteps.quiet

/-- What is told of a write that no rule refuses. -/
theorem run_writeNotified (hrun : (s.writeNotified e m options mode o).run h st = (w, st', events)) :
    ∃ closing, Closes options.observed options.fire.firesAfter .afterSave w closing ∧
      Around (noticeIf (options.observed && options.fire.firesBefore)
        (.around .beforeSave 0 .unknown o)) closing events := by
  unfold writeNotified at hrun
  obtain ⟨_, st₁, opened, _, hopens, hmore, rfl⟩ := run_bind_cases hrun
  obtain ⟨rfl, hopened, hopening⟩ := run_takeIf_cases hopens
  obtain ⟨a, st₂, written, _, hwrites, hlast, rfl⟩ := run_bind_cases hmore
  obtain ⟨r, st₃, captured, closed, hcaptures, hend, rfl⟩ := run_bind_cases hlast
  have hsound := (meets_of_run meets_writeObject_sound hwrites).2
  have hwritten := quiet_writeObject.deeds_eq hwrites
  obtain ⟨rfl, hcaptured, hcases⟩ := run_capture_cases hcaptures
  -- what follows the attempt is told and not exchanged
  suffices hclosing : ∃ closing, Closes options.observed options.fire.firesAfter .afterSave w closing ∧
      exchanges closed = [] ∧ deeds captured ++ deeds closed = closing.map .told by
    obtain ⟨closing, hcloses, hexchanges, hdeeds⟩ := hclosing
    refine ⟨closing, hcloses, ?_⟩
    simp only [Around, deeds_append, exchanges_append, hopened, hopening, hwritten, hcaptured,
      hexchanges, hdeeds, List.nil_append, List.append_nil, List.append_assoc]
  obtain ⟨err, -, rfl, hdeeds⟩ | ⟨hnot, rfl, hdeeds⟩ := hcases
  · obtain ⟨rfl, rfl, rfl⟩ := run_pure_cases hend
    exact ⟨_, .fail rfl rfl, rfl, by rw [hdeeds, deeds_nil, List.append_nil]; rfl⟩
  · cases hresult : a.result with
    | error err =>
      rw [hresult] at hend
      obtain ⟨rfl, rfl, rfl⟩ := run_pure_cases hend
      exact ⟨_, .error, rfl, by rw [hdeeds]; rfl⟩
    | ok outcome =>
      have hstatus := hsound outcome hresult
      have hok : outcome.isOk = true := by
        rw [Outcome.isOk, hstatus]
        rfl
      rw [hresult] at hend
      simp only [hok, if_true] at hend
      obtain ⟨_, st₄, told, _, htells, hdone, rfl⟩ := run_bind_cases hend
      obtain ⟨rfl, hexchanges, htold⟩ := run_takeIf_cases htells
      obtain ⟨rfl, rfl, rfl⟩ := run_pure_cases hdone
      have hcloses : Closes options.observed options.fire.firesAfter .afterSave
          (.ok (outcome.withData a.object), a.object) _ := .ok hstatus
      refine ⟨_, hcloses, ?_, ?_⟩
      · rw [List.append_nil, hexchanges]
      · rw [List.append_nil, hdeeds, htold]
        rfl

/-- A span around a body is told to no observer. -/
theorem run_spanned_cases {α : Type} {kind : OperationKind} {entity : String} {rows : α → Nat}
    {body : Program α} {a : α} (hrun : (spanned kind entity rows body).run h st = (a, st', events)) :
    ∃ inside, body.run h st = (a, st', inside) ∧ deeds events = deeds inside ∧
      exchanges events = exchanges inside := by
  obtain ⟨_, st₁, _, _, hstart, hmore, rfl⟩ := run_bind_cases hrun
  obtain ⟨rfl, rfl⟩ := run_take_cases hstart
  obtain ⟨b, st₂, inside, _, hbody, hlast, rfl⟩ := run_bind_cases hmore
  obtain ⟨_, st₃, _, _, hfinish, hend, rfl⟩ := run_bind_cases hlast
  obtain ⟨rfl, rfl⟩ := run_take_cases hfinish
  obtain ⟨rfl, rfl, rfl⟩ := run_pure_cases hend
  refine ⟨inside, hbody, ?_, ?_⟩
  · rw [deeds_append, deeds_append]
    exact List.append_nil _
  · rw [exchanges_append, exchanges_append]
    exact List.append_nil _

/-! ## Whole writes -/

/-- What an observer is told of a write, and when. -/
inductive Reported (s : Session) (e : EntityType) (options : SaveOptions) (o : Object) :
    Written → List Event → Prop
  /-- there is no backend for the table, or there is a rule for no field -/
  | unready {err : SchemaError} {events : List Event}
      (cause : s.target e.table = .error err ∨
        options.validate = true ∧ e.table.validate o = .error err)
      (nothing : deeds events = []) : Reported s e options o (.error (.schema err), o) events
  /-- the rules refuse the object, and nothing is called -/
  | rejected {failures : List ValidationFailure} {events : List Event}
      (validates : options.validate = true) (refused : e.table.validate o = .ok failures)
      (nonempty : failures ≠ [])
      (told : deeds events =
        (noticeIf options.observed (.validationFailed failures o)).map .told) :
      Reported s e options o
        (.ok (.fail .none ("; ".intercalate (failures.map ValidationFailure.message))), o) events
  /-- the rules pass, and everything is called between the notice before the write and the one at its
  end -/
  | performed {w : Written} {closing : List Notice} {events : List Event}
      (passed : options.validate = true → e.table.validate o = .ok [])
      (closes : Closes options.observed options.fire.firesAfter .afterSave w closing)
      (around : Around (noticeIf (options.observed && options.fire.firesBefore)
        (.around .beforeSave 0 .unknown o)) closing events) : Reported s e options o w events

/-- What the rules say of an object, if they are asked, and what is told of it. -/
theorem run_rules_cases {r : Except MapperError (Option (Outcome Object))}
    (hrun : (if options.validate then checkRules m options o else pure (.ok none)).run h st =
      (r, st', events)) :
    st' = st ∧ exchanges events = [] ∧
      ((∃ err, options.validate = true ∧ m.table.validate o = .error err ∧
        r = .error (.schema err) ∧ deeds events = []) ∨
      (∃ failures, options.validate = true ∧ m.table.validate o = .ok failures ∧ failures ≠ [] ∧
        r = .ok (some (.fail .none
          ("; ".intercalate (failures.map ValidationFailure.message)))) ∧
        deeds events = (noticeIf options.observed (.validationFailed failures o)).map .told) ∨
      (options.validate = true → m.table.validate o = .ok []) ∧ r = .ok none ∧ deeds events = []) := by
  split at hrun
  · next hvalidate =>
    unfold checkRules at hrun
    split at hrun
    · next err hrules =>
      obtain ⟨rfl, rfl, rfl⟩ := run_pure_cases hrun
      exact ⟨rfl, rfl, .inl ⟨err, hvalidate, hrules, rfl, rfl⟩⟩
    · next hpassed =>
      obtain ⟨rfl, rfl, rfl⟩ := run_pure_cases hrun
      exact ⟨rfl, rfl, .inr (.inr ⟨fun _ => hpassed, rfl, rfl⟩)⟩
    · next failures hfailures hrefused =>
      obtain ⟨_, st₁, _, _, hmetric, hmore, rfl⟩ := run_bind_cases hrun
      obtain ⟨rfl, rfl⟩ := run_take_cases hmetric
      obtain ⟨_, st₂, _, _, htells, hend, rfl⟩ := run_bind_cases hmore
      obtain ⟨rfl, hexchanges, htold⟩ := run_takeIf_cases htells
      obtain ⟨rfl, rfl, rfl⟩ := run_pure_cases hend
      refine ⟨rfl, ?_, .inr (.inl ⟨failures, hvalidate, hrefused, fun hnil => ?_, rfl, ?_⟩)⟩
      · rw [List.append_nil]
        exact hexchanges
      · exact hfailures hnil
      · rw [List.append_nil]
        exact htold
  · next hvalidate =>
    obtain ⟨rfl, rfl, rfl⟩ := run_pure_cases hrun
    exact ⟨rfl, rfl, .inr (.inr ⟨fun hvalidates => absurd hvalidates hvalidate, rfl, rfl⟩)⟩

/-- **Every write is reported so.** -/
theorem run_write (hrun : (s.write e mode options o).run h st = (w, st', events)) :
    Reported s e options o w events := by
  unfold write at hrun
  cases htarget : s.target e.table with
  | error err =>
    rw [htarget] at hrun
    obtain ⟨rfl, rfl, rfl⟩ := run_pure_cases hrun
    exact .unready (.inl htarget) rfl
  | ok m =>
    have htable : m.table = e.table := target_eq_ok htarget
    rw [htarget] at hrun
    obtain ⟨inside, hbody, hdeeds, hexchanges⟩ := run_spanned_cases hrun
    obtain ⟨r, st₁, asked, rest, hrules, hmore, rfl⟩ := run_bind_cases hbody
    obtain ⟨rfl, hasked, hcases⟩ := run_rules_cases hrules
    rw [deeds_append] at hdeeds
    rw [exchanges_append, hasked, List.nil_append] at hexchanges
    obtain ⟨err, hvalidates, hcause, rfl, hnothing⟩ |
      ⟨failures, hvalidates, hrefused, hne, rfl, htold⟩ | ⟨hpassed, rfl, hnothing⟩ := hcases
    · obtain ⟨rfl, rfl, rfl⟩ := run_pure_cases hmore
      rw [htable] at hcause
      exact .unready (.inr ⟨hvalidates, hcause⟩) (hdeeds.trans (by rw [hnothing]; rfl))
    · obtain ⟨rfl, rfl, rfl⟩ := run_pure_cases hmore
      rw [htable] at hrefused
      exact .rejected hvalidates hrefused hne
        (hdeeds.trans (by rw [htold, deeds_nil, List.append_nil]))
    · obtain ⟨closing, hcloses, haround⟩ := run_writeNotified hmore
      rw [htable] at hpassed
      refine .performed hpassed hcloses ?_
      rw [Around, hdeeds, hnothing, List.nil_append, hexchanges]
      exact haround

/-! ## Deletions -/

/-- What comes of one write of its own: the backend accepts it or refuses it. -/
theorem meets_sendWrite_cases {kind : StatementKind} {c : Command} :
    (s.sendWrite (α := Object) m kind c).Meets (fun _ => True) fun r =>
      (∃ n, r = .ok (.ok kind n)) ∨ ∃ err, r = .error (.backend err) := by
  rw [sendWrite, meets_bind]
  refine meets_of_forall (fun _ => trivial) fun reply => ?_
  cases reply with
  | error err => exact .inr ⟨err, rfl⟩
  | ok n => exact .inl ⟨n, rfl⟩

theorem quiet_sendWrite {α : Type} {kind : StatementKind} {c : Command} :
    (s.sendWrite (α := α) m kind c).Quiet :=
  Only.bind (quiet_withConnection (serves_send rfl).quiet) fun _ => only_pure

/-- **Every deletion is reported so.** It ends with an error that nothing precedes, or with an
outcome. -/
theorem run_delete {options : DeleteOptions} {r : Except MapperError (Outcome Object)}
    (hrun : (s.delete t options o).run h st = (r, st', events)) :
    (deeds events = [] ∧ ∃ err, r = .error err) ∨ (∃ outcome, r = .ok outcome) ∧
      ∃ closing, Closes options.observed options.fireAfter .afterDelete (r, o) closing ∧
        Around (noticeIf (options.observed && options.fireBefore)
          (.around .beforeDelete 0 .delete o)) closing events := by
  unfold delete prepared at hrun
  split at hrun
  · next err _ =>
    obtain ⟨rfl, rfl, rfl⟩ := run_pure_cases hrun
    exact .inl ⟨rfl, err, rfl⟩
  obtain ⟨inside, hbody, hdeeds, hexchanges⟩ := run_spanned_cases hrun
  split at hbody
  · next err _ =>
    obtain ⟨rfl, rfl, rfl⟩ := run_pure_cases hbody
    exact .inl ⟨hdeeds, err, rfl⟩
  obtain ⟨_, st₁, opened, _, hopens, hmore, rfl⟩ := run_bind_cases hbody
  obtain ⟨rfl, hopened, hopening⟩ := run_takeIf_cases hopens
  obtain ⟨result, st₂, deleted, _, hdeletes, hlast, rfl⟩ := run_bind_cases hmore
  obtain ⟨captured, st₃, refused, closed, hcaptures, hend, rfl⟩ := run_bind_cases hlast
  have hresult := (meets_of_run meets_sendWrite_cases hdeletes).2
  have hdeleted := quiet_sendWrite.deeds_eq hdeletes
  obtain ⟨rfl, hrefused, hcases⟩ := run_capture_cases hcaptures
  -- what follows the deletion is told and not exchanged
  suffices hclosing : (∃ outcome, r = .ok outcome) ∧ ∃ closing,
      Closes options.observed options.fireAfter .afterDelete (r, o) closing ∧
        exchanges closed = [] ∧ deeds refused ++ deeds closed = closing.map .told by
    obtain ⟨houtcome, closing, hcloses, hclosed, htold⟩ := hclosing
    refine .inr ⟨houtcome, closing, hcloses, ?_⟩
    simp only [Around, hdeeds, hexchanges, deeds_append, exchanges_append, hopened, hopening,
      hdeleted, hrefused, hclosed, htold, List.nil_append, List.append_nil, List.append_assoc]
  obtain ⟨err, -, rfl, htold⟩ | ⟨hnot, rfl, htold⟩ := hcases
  · obtain ⟨_, st₄, _, _, htells, hdone, rfl⟩ := run_bind_cases hend
    obtain ⟨rfl, rfl, rfl⟩ := run_pure_cases htells
    obtain ⟨rfl, rfl, rfl⟩ := run_pure_cases hdone
    exact ⟨⟨_, rfl⟩, _, .fail rfl rfl, rfl, by rw [htold]; exact List.append_nil _⟩
  · obtain ⟨n, rfl⟩ | ⟨err, rfl⟩ := hresult
    · obtain ⟨_, st₄, told, _, htells, hdone, rfl⟩ := run_bind_cases hend
      obtain ⟨rfl, hclosed, hclosing⟩ := run_takeIf_cases htells
      obtain ⟨rfl, rfl, rfl⟩ := run_pure_cases hdone
      refine ⟨⟨_, rfl⟩, _, .ok rfl, ?_, ?_⟩
      · rw [List.append_nil, hclosed]
      · rw [List.append_nil, htold, hclosing]
        rfl
    · exact absurd rfl (hnot err)

/-! ## Other observers -/

theorem unheard_spanned {α : Type} {kind : OperationKind} {entity : String} {rows : α → Nat}
    {body body' : Program α} (hbody : body.unheard = body'.unheard) :
    (spanned kind entity rows body).unheard = (spanned kind entity rows body').unheard :=
  unheard_bind_congr rfl fun _ => unheard_bind_congr hbody fun _ => rfl

theorem unheard_capture {α : Type} {entity : String} {kind : StatementKind}
    {result : Except MapperError (Outcome α)} {onFail onFail' : String → Program Unit}
    (honFail : ∀ message, (onFail message).unheard = (onFail' message).unheard) :
    (capture entity kind result onFail).unheard = (capture entity kind result onFail').unheard := by
  unfold capture
  split
  · exact unheard_bind_congr rfl fun _ => unheard_bind_congr rfl fun _ =>
      unheard_bind_congr (honFail _) fun _ => rfl
  · rfl

theorem unheard_takeIf_congr {wanted wanted' : Bool} {n n' : Notice} :
    (takeIf wanted (.notice n)).unheard = (takeIf wanted' (.notice n')).unheard := by
  rw [unheard_takeIf, unheard_takeIf]

theorem unheard_checkRules (fire : Fire) (observed : Bool) :
    (checkRules m { options with fire, observed } o).unheard = (checkRules m options o).unheard := by
  unfold checkRules
  split
  · rfl
  · rfl
  · exact unheard_bind_congr rfl fun _ => unheard_bind_congr unheard_takeIf_congr fun _ => rfl

theorem unheard_writeNotified (fire : Fire) (observed : Bool) :
    (s.writeNotified e m { options with fire, observed } mode o).unheard =
      (s.writeNotified e m options mode o).unheard := by
  refine unheard_bind_congr unheard_takeIf_congr fun _ => unheard_bind_congr rfl fun a =>
    unheard_bind_congr (unheard_capture fun _ => unheard_takeIf_congr) fun r => ?_
  split
  · rfl
  · split
    · exact unheard_bind_congr unheard_takeIf_congr fun _ => rfl
    · rfl

/-- Without its notices a write is the same for every observer. -/
theorem unheard_write (fire : Fire) (observed : Bool) :
    (s.write e mode { options with fire, observed } o).unheard =
      (s.write e mode options o).unheard := by
  unfold write
  split
  · rfl
  · refine unheard_spanned (unheard_bind_congr ?_ fun r => ?_)
    · dsimp only
      split
      · exact unheard_checkRules fire observed
      · rfl
    · split
      · rfl
      · rfl
      · exact unheard_writeNotified fire observed

/-- Without its notices a deletion is the same for every observer. -/
theorem unheard_delete (options options' : DeleteOptions) :
    (s.delete t options' o).unheard = (s.delete t options o).unheard := by
  unfold delete prepared
  split
  · rfl
  refine unheard_spanned ?_
  split
  · rfl
  refine unheard_bind_congr unheard_takeIf_congr fun _ => unheard_bind_congr rfl fun _ =>
    unheard_bind_congr (unheard_capture fun _ => unheard_takeIf_congr) fun r => ?_
  split
  · exact unheard_bind_congr unheard_takeIf_congr fun _ => rfl
  · rfl

/-- **What an observer is told of a write that ends with an outcome.** Whoever replies:

* of a write in any of its modes that the rules refuse it is told the failures, and nothing is called;
  of any other it is told before everything that is called, if it wants to be, and after it: that the
  write went well, if it wants to be, with the rows and the kind of the outcome, or that it failed,
  with its kind and its message,
* of a deletion it is told in the same way,
* and with another observer, or none, the same happens but for what is told: the same commands and
  replies, the same outcome and the same object. -/
theorem outcome_reported (s : Session) (e : EntityType) (o : Object) (h : Handler σ) (st : σ) :
    (∀ mode options outcome o' st' events,
      (s.write e mode options o).run h st = ((.ok outcome, o'), st', events) →
        Reported s e options o (.ok outcome, o') events ∧
        ∀ fire observed, ∃ events', (s.write e mode { options with fire, observed } o).run h st =
          ((.ok outcome, o'), st', events') ∧ unheardEvents events' = unheardEvents events) ∧
    (∀ options outcome st' events,
      (s.delete e.table options o).run h st = (.ok outcome, st', events) →
        (∃ closing, Closes options.observed options.fireAfter .afterDelete (.ok outcome, o) closing ∧
          Around (noticeIf (options.observed && options.fireBefore)
            (.around .beforeDelete 0 .delete o)) closing events) ∧
        ∀ options', ∃ events', (s.delete e.table options' o).run h st =
          (.ok outcome, st', events') ∧ unheardEvents events' = unheardEvents events) := by
  refine ⟨fun mode options outcome o' st' events hrun => ⟨run_write hrun, fun fire observed => ?_⟩,
    fun options outcome st' events hrun => ⟨?_, fun options' => ?_⟩⟩
  · exact run_of_unheard_eq (unheard_write fire observed) hrun
  · rcases run_delete hrun with ⟨-, err, herr⟩ | ⟨-, hclosing⟩
    · cases herr
    · exact hclosing
  · exact run_of_unheard_eq (unheard_delete options options') hrun

/-- An observer is told before a guest is inserted and after it, with the number 7, and before the
guest is deleted and after it. Nobody else is told anything, and the same is done. -/
theorem outcome_reported_guests :
    (∃ events closing events', (Guests.session.write ⟨Guests.table, id⟩ .save { observed := true }
        (Guests.guest 0)).run (Guests.answer (.int 7)) () =
          (accepted .insert 1 (Guests.guest 7), (), events) ∧
      Closes true true .afterSave (accepted .insert 1 (Guests.guest 7)) closing ∧
      Around [.around .beforeSave 0 .unknown (Guests.guest 0)] closing events ∧
      (Guests.session.write ⟨Guests.table, id⟩ .save { fire := .none, observed := false }
        (Guests.guest 0)).run (Guests.answer (.int 7)) () =
          (accepted .insert 1 (Guests.guest 7), (), events') ∧
      unheardEvents events' = unheardEvents events) ∧
    ∃ outcome events closing, (Guests.session.delete Guests.table { observed := true }
        (Guests.guest 7)).run (Guests.answer .null) () = (.ok outcome, (), events) ∧
      Closes true true .afterDelete (.ok outcome, Guests.guest 7) closing ∧
      Around [.around .beforeDelete 0 .delete (Guests.guest 7)] closing events := by
  constructor
  · have hrun : (Guests.session.write ⟨Guests.table, id⟩ .save { observed := true }
        (Guests.guest 0)).run (Guests.answer (.int 7)) () =
          (accepted .insert 1 (Guests.guest 7), (), _) := rfl
    obtain ⟨hreported, hothers⟩ := (outcome_reported Guests.session ⟨Guests.table, id⟩
      (Guests.guest 0) (Guests.answer (.int 7)) ()).1 _ _ _ _ _ _ hrun
    obtain ⟨events', hrun', hevents⟩ := hothers .none false
    cases hreported with
    | performed passed closes around => exact ⟨_, _, events', hrun, closes, around, hrun', hevents⟩
  · obtain ⟨⟨closing, hcloses, haround⟩, -⟩ := (outcome_reported Guests.session ⟨Guests.table, id⟩
      (Guests.guest 7) (Guests.answer .null) ()).2 { observed := true } _ _ _ rfl
    exact ⟨_, _, closing, rfl, hcloses, haround⟩

end Session

end EntityMapper
