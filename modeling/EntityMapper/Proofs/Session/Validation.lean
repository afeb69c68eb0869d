import EntityMapper.Proofs.Session.Bound
import EntityMapper.Proofs.Session.Notices

/-!
# Rules as a gate

The rules of a table are asked before anything else is done, and all they decide is whether there is
a write. One that they let pass is the write without rules, call by call and notice by notice. One
that they refuse ends with the messages of the rules that refuse it, and nothing is called.

* `Table.validate_eq` — what the rules find, by the values that are stored in their columns
* `write_of_met` — an object that meets every rule is written as it is without them
* `run_of_refused` — an object that does not is not written
* `write_gated` — the rules are a gate and nothing else
-/

namespace EntityMapper

open Session Program

variable {t : Table} {o : Object} {r : Rule}

/-! ## What the rules find -/

/-- Each rule is about a column of the table. -/
def Table.RulesNameColumns (t : Table) : Prop :=
  ∀ r ∈ t.rules, ∃ f, t.field? r.field = some f ∧ f.isScalar = true

/-- An object of a table: it has the entity type and a value for each column. -/
structure Table.Has (t : Table) (o : Object) : Prop where
  owns : t.owns o = true
  fills : t.Fills o

/-- A rule refuses what an object stores in its column. -/
def Table.refuses (t : Table) (o : Object) (r : Rule) : Bool := !r.accepts (t.stored o r.field)

/-- The failure of a rule. -/
def Rule.failure (r : Rule) : ValidationFailure := ⟨r.field, r.message⟩

/-- An object has a value in each column. -/
theorem Table.Fills.value? (h : t.Fills o) {f : Field} (hf : f ∈ t.scalarFields) :
    ∃ d, t.value? o f.name = some d := by
  have hname : f.name ∈ (t.entries o).map fun e => e.1.name := by
    rw [h.map_entries]
    exact List.mem_map_of_mem hf
  obtain ⟨e, he, heq⟩ := List.mem_map.mp hname
  cases hfind : (t.entries o).find? fun e => e.1.name == f.name with
  | none => simpa [heq] using List.find?_eq_none.mp hfind e he
  | some e => exact ⟨e.2, by simp [Table.value?, hfind]⟩

/-- A rule finds the value that is stored in its column. -/
theorem Table.Has.check_eq (h : t.Has o) {f : Field} (hf : t.field? r.field = some f)
    (hscalar : f.isScalar = true) :
    t.check o r = .ok (if t.refuses o r then some r.failure else none) := by
  have hname : f.name = r.field := by simpa using List.find?_some hf
  have hmem : f ∈ t.scalarFields := List.mem_filter.mpr ⟨List.mem_of_find?_eq_some hf, hscalar⟩
  obtain ⟨d, hd⟩ := h.fills.value? hmem
  have hread : t.readField o f = .ok (t.stored o r.field) := by
    simp [readField, stored, hscalar, h.owns, hd, ← hname]
  unfold check
  rw [hf]
  show (t.readField o f >>= _) = _
  rw [hread]
  show Except.ok _ = Except.ok _
  by_cases haccepts : r.accepts (t.stored o r.field) = true
  · simp [refuses, haccepts]
  · simp [refuses, haccepts, Rule.failure]

/-- **What the rules find**: the failures of the rules that refuse what is stored in their columns,
in the order in which they are declared. -/
theorem Table.Has.validate_eq (h : t.Has o) (hrules : t.RulesNameColumns) :
    t.validate o = .ok ((t.rules.filter (t.refuses o)).map Rule.failure) := by
  have hcheck : t.rules.mapM (t.check o) =
      .ok (t.rules.map fun r => if t.refuses o r then some r.failure else none) := by
    refine mapM_eq_ok_map fun r hr => ?_
    obtain ⟨f, hf, hscalar⟩ := hrules r hr
    exact h.check_eq hf hscalar
  unfold validate
  rw [hcheck]
  show Except.ok _ = Except.ok _
  congr 1
  induction t.rules with
  | nil => rfl
  | cons r rest ih =>
    by_cases hr : t.refuses o r = true
    · simpa [hr] using ih
    · simpa [hr] using ih

/-! ## Writes behind the gate -/

namespace Session

variable {σ : Type} {s : Session} {e : EntityType} {m : Mapping} {mode : WriteMode}
  {options : SaveOptions} {h : Handler σ} {st : σ}

/-- The rules that refuse an object. -/
def refusals (t : Table) (o : Object) : List Rule := t.rules.filter (t.refuses o)

theorem refusals_eq_nil : refusals t o = [] ↔
    ∀ r ∈ t.rules, r.accepts (t.stored o r.field) = true := by
  simp [refusals, Table.refuses]

/-- What a write results in when rules refuse the object: the object as it was, and a failure with
the messages of the rules. -/
def rejectedBy (rules : List Rule) (o : Object) : Written :=
  (.ok { status := .fail, affected := -1, kind := .none,
         message := some ("; ".intercalate (rules.map Rule.message)), data := none }, o)

/-- An object that meets every rule is written as it is without them. -/
theorem write_of_met (ho : e.table.Has o) (hrules : e.table.RulesNameColumns)
    (hmet : refusals e.table o = []) :
    s.write e mode { options with validate := true } o =
      s.write e mode { options with validate := false } o := by
  unfold write
  cases hm : s.target e.table with
  | error err => rfl
  | ok m =>
    have htable : m.table = e.table := target_eq_ok hm
    have hvalid : m.table.validate o = .ok [] := by
      rw [htable, ho.validate_eq hrules]
      simp [show e.table.rules.filter (e.table.refuses o) = [] from hmet]
    have hgate : checkRules m { options with validate := true } o = pure (.ok none) := by
      unfold checkRules
      rw [hvalid]
    simp only [hgate]
    rfl

/-- An object that does not meet every rule is not written: nothing is called, and an observer is
told of nothing but the failures. -/
theorem run_of_refused (mode : WriteMode) (options : SaveOptions) (h : Handler σ) (st : σ)
    (hm : s.target e.table = .ok m) (ho : e.table.Has o)
    (hrules : e.table.RulesNameColumns) (hrefused : refusals e.table o ≠ [])
    (hvalidate : options.validate = true) :
    ∃ events, (s.write e mode options o).run h st =
        (rejectedBy (refusals e.table o) o, st, events) ∧ deeds events = (noticeIf options.observed
        (.validationFailed ((refusals e.table o).map Rule.failure) o)).map .told := by
  have hvalid := ho.validate_eq hrules
  have hne : (refusals e.table o).map Rule.failure ≠ [] := by simpa using hrefused
  rcases hrun : (s.write e mode options o).run h st with ⟨w, st', events⟩
  have hreported := run_write hrun
  cases hreported with
  | unready cause nothing =>
    rcases cause with hcause | ⟨-, hcause⟩
    · rw [hm] at hcause
      cases hcause
    · rw [hvalid] at hcause
      cases hcause
  | performed passed closes around =>
    have hnil := passed hvalidate
    rw [hvalid] at hnil
    exact absurd (Except.ok.inj hnil) hne
  | rejected validates refused nonempty told =>
    rw [hvalid] at refused
    obtain rfl := Except.ok.inj refused
    -- without an exchange the handler stays in its state
    have hgives := (goes_of_run hrun).2
    rw [exchanges_of_told told, Handler.gives_nil] at hgives
    have hmessages : ((refusals e.table o).map Rule.failure).map ValidationFailure.message =
        (refusals e.table o).map Rule.message := by
      rw [List.map_map]
      rfl
    refine ⟨events, ?_, told⟩
    rw [hgives]
    show ((Except.ok (Outcome.fail .none ("; ".intercalate
      (((refusals e.table o).map Rule.failure).map ValidationFailure.message))), o), st, events) = _
    rw [hmessages]
    rfl

/-- **The rules are a gate and nothing else.** Let the backend of a table be registered, and let
each rule be about a column. Whoever replies, a write in any of its modes that asks the rules

* does all that it does without them, with the same replies, notices and result, and leaves the same
  object, if every rule accepts what the object stores in its column,
* calls nothing and leaves the object as it was if one of them refuses it; then it fails with the
  messages of just the rules that do, in the order in which they are declared, and nothing but this
  is told. -/
theorem write_gated (s : Session) (e : EntityType) (mode : WriteMode) (options : SaveOptions)
    {o : Object} (h : Handler σ) (st : σ)
    (hbackend : (s.backends.dialect? e.table.backend).isSome = true)
    (hrules : e.table.RulesNameColumns) (ho : e.table.Has o) :
    ((∀ r ∈ e.table.rules, r.accepts (e.table.stored o r.field) = true) →
      (s.write e mode { options with validate := true } o).run h st =
        (s.write e mode { options with validate := false } o).run h st) ∧
    ((∃ r ∈ e.table.rules, r.accepts (e.table.stored o r.field) = false) →
      ∃ events, (s.write e mode { options with validate := true } o).run h st =
          (rejectedBy (refusals e.table o) o, st, events) ∧ exchanges events = [] ∧
        deeds events = (noticeIf options.observed
          (.validationFailed ((refusals e.table o).map Rule.failure) o)).map .told) := by
  constructor
  · intro hmet
    rw [write_of_met ho hrules (refusals_eq_nil.mpr hmet)]
  · rintro ⟨r, hr, hrefuses⟩
    obtain ⟨d, hd⟩ := Option.isSome_iff_exists.mp hbackend
    have hm : s.target e.table = .ok ⟨s.catalog, e.table, d⟩ := by
      rw [target, Backends.find, hd]
      rfl
    have hrefused : refusals e.table o ≠ [] := by
      intro hnil
      rw [refusals_eq_nil.mp hnil r hr] at hrefuses
      cases hrefuses
    obtain ⟨events, hrun, htold⟩ :=
      run_of_refused mode { options with validate := true } h st hm ho hrules hrefused rfl
    exact ⟨events, hrun, exchanges_of_told htold, htold⟩

/-! ## Members -/

namespace Members

/-- Members with a short name. -/
def table : Table where
  entity := "Member"
  tableName := "members"
  fields := [.ofType "id" { scalar := .int .uint8 } { primaryKey := true },
    .ofType "name" { scalar := .text }]
  rules := [.required "name", .maxLength "name" 3]

def session : Session where
  catalog := ⟨[table]⟩
  backends := ⟨[(defaultBackend, .of .sqlite)]⟩

def member (name : String) : Object where
  typeId := "Member"
  values := [.int 1, .text name]
  children := []

theorem rulesNameColumns : table.RulesNameColumns := by
  intro r hr
  have hfield : r.field = "name" := by
    simp only [table, List.mem_cons, List.not_mem_nil, or_false] at hr
    rcases hr with rfl | rfl
    · rfl
    · rfl
  exact ⟨.ofType "name" { scalar := .text }, by rw [hfield]; decide, rfl⟩

end Members

/-- Ann is saved as without the rules. A name of four blanks breaks both rules, and nothing is
called. -/
theorem write_gated_members :
    (Members.session.write ⟨Members.table, id⟩ .save { validate := true } (Members.member "Ann")).run
        (Guests.answer .null) () =
      (Members.session.write ⟨Members.table, id⟩ .save { validate := false }
        (Members.member "Ann")).run (Guests.answer .null) () ∧
    ∃ events, (Members.session.write ⟨Members.table, id⟩ .save { validate := true }
        (Members.member "    ")).run (Guests.answer .null) () =
      ((.ok { status := .fail, affected := -1, kind := .none,
              message := some "name is required; name must be at most 3 characters",
              data := none }, Members.member "    "), (), events) ∧ exchanges events = [] := by
  have hann := write_gated Members.session ⟨Members.table, id⟩ .save {} (Guests.answer .null) ()
    (by decide) Members.rulesNameColumns (o := Members.member "Ann") ⟨by decide, rfl⟩
  have hblank := write_gated Members.session ⟨Members.table, id⟩ .save {} (Guests.answer .null) ()
    (by decide) Members.rulesNameColumns (o := Members.member "    ") ⟨by decide, rfl⟩
  refine ⟨hann.1 ?_, ?_⟩
  · decide
  · obtain ⟨events, hrun, hnone, -⟩ := hblank.2 ⟨.required "name", by simp [Members.table], by decide⟩
    exact ⟨events, hrun, hnone⟩

end Session

end EntityMapper
