import EntityMapper.Proofs.Session.Bound
import EntityMapper.Proofs.Session.Existence
import EntityMapper.Proofs.Statement.Substitution
import EntityMapper.Session.Define

/-!
# A trace previews a command

A session can show the statement of a kind with its values in place, without a backend. The
operations put their commands together on their own, and yet what is shown for the arguments of an
operation is what the operation sends, with the object as it is when it is sent. A look for rows that
meet a condition is the exception: the check of a key is shown for it.

* `traceOf` — the trace of a command that is made for a table
* `Operation.Previewed` — the operations with a command of their own, and what is shown for them
* `Operation.Previewed.trace_eq`, `Operation.Previewed.sends` — what is shown and what is sent
* `trace_previews` — the two are the same for every run
-/

namespace EntityMapper

/-- The object that an insert writes: one that has taken its keys, if there is no identity to
assign. -/
def EntityType.keyed (e : EntityType) (o : Object) : Object :=
  if e.table.identityField?.isNone then e.assignKeys o else o

namespace Session

open Program

variable {s : Session} {e : EntityType} {m : Mapping} {t : Table} {o : Object} {c : Command}
  {kind : StatementKind} {condition : Expr} {p : Option Expr} {xs : List Exchange}

/-! ## What is shown -/

/-- The trace of a command that is made for a table. -/
def traceOf (s : Session) (t : Table) (command : Mapping → Except MapperError Command) :
    Except MapperError (Option String) := do
  let m ← (s.target t).mapError .schema
  return some ((← command m).trace m.dialect)

theorem statementTrace_select :
    s.statementTrace t .select p none = s.traceOf t fun m => queryCommand m p := by
  unfold statementTrace traceOf queryCommand
  cases s.target t with
  | error err => rfl
  | ok m =>
    show (m.compile? (some m.rootAlias) p >>= _) = (m.compile? (some m.rootAlias) p >>= _) >>= _
    cases m.compile? (some m.rootAlias) p with
    | error err => rfl
    | ok q =>
      show ((some <$> m.selectWhere q).mapError MapperError.schema >>= _) =
        ((m.selectWhere q).mapError MapperError.schema >>= _) >>= _
      cases m.selectWhere q <;> rfl

theorem statementTrace_deleteAll :
    s.statementTrace t .deleteAll p none = s.traceOf t fun m => deleteAllCommand m p := by
  unfold statementTrace traceOf deleteAllCommand
  cases s.target t with
  | error err => rfl
  | ok m =>
    show (m.compile? none p >>= _) = (m.compile? none p >>= _) >>= _
    cases m.compile? none p <;> rfl

/-- The statement of an object, for a kind whose statement does not depend on a condition. -/
theorem statementTrace_object {sql : Mapping → Except SchemaError String}
    (hrender : ∀ m, m.render kind none = some <$> sql m) :
    s.statementTrace t kind none (some o) = s.traceOf t fun m => objectCommand m (sql m) o := by
  unfold statementTrace traceOf objectCommand
  cases htarget : s.target t with
  | error err => rfl
  | ok m =>
    obtain rfl := target_eq_ok htarget
    show ((m.render kind none).mapError MapperError.schema >>= _) =
      ((sql m).mapError MapperError.schema >>= _) >>= _
    rw [hrender]
    cases sql m with
    | error err => rfl
    | ok text =>
      show ((m.table.toRow o).mapError MapperError.schema >>= _) =
        ((m.table.toRow o).mapError MapperError.schema >>= _) >>= _
      cases m.table.toRow o <;> rfl

/-- What is shown for a condition and the check of a key: the check, whatever the condition is. -/
theorem statementTrace_existenceCheck :
    s.statementTrace t .existenceCheck (some condition) none = s.traceOf t fun m => do
      let p ← m.compile (some m.rootAlias) condition
      return (m.command (← m.existenceCheck.mapError .schema)).withPredicate p := by
  unfold statementTrace traceOf
  cases s.target t with
  | error err => rfl
  | ok m =>
    show ((m.compile (some m.rootAlias) condition).map some >>= _) =
      (m.compile (some m.rootAlias) condition >>= _) >>= _
    cases m.compile (some m.rootAlias) condition with
    | error err => rfl
    | ok q =>
      show ((some <$> m.existenceCheck).mapError MapperError.schema >>= _) =
        (m.existenceCheck.mapError MapperError.schema >>= _) >>= _
      cases m.existenceCheck <;> rfl

theorem traceOf_eq_ok {command : Mapping → Except MapperError Command} {shown : Option String}
    (h : s.traceOf t command = .ok shown) :
    ∃ m c, s.target t = .ok m ∧ command m = .ok c ∧ shown = some (c.trace m.dialect) := by
  unfold traceOf at h
  obtain ⟨m, hm, h⟩ := exists_of_bind_eq_ok h
  obtain ⟨c, hc, h⟩ := exists_of_bind_eq_ok h
  exact ⟨m, c, mapError_eq_ok hm, hc, (Except.ok.inj h).symm⟩

theorem traceOf_of_command {command : Mapping → Except MapperError Command}
    (hm : s.target t = .ok m) (hc : command m = .ok c) :
    s.traceOf t command = .ok (some (c.trace m.dialect)) := by
  simp only [traceOf, hm, Except.mapError, Bind.bind, Except.bind, hc]
  rfl

/-! ## What is sent -/

variable {σ : Type} {h : Handler σ} {st st' : σ}

/-- The command that is made for a table is sent where there is one and a connection is opened, and
nothing else is. -/
inductive SendsOnly (h : Handler σ) (s : Session) (t : Table)
    (command : Mapping → Except MapperError Command) (st : σ) (xs : List Exchange) : Prop
  | nothing (silent : sent xs = [])
      (cause : ∀ m c, s.target t = .ok m → command m = .ok c →
        ∃ err, connecting h t.backend st = .error err)
  | once {m : Mapping} {c : Command} (target : s.target t = .ok m) (made : command m = .ok c)
      (sends : sent xs = [c])

section Sends

variable {α : Type} {command : Mapping → Except MapperError Command}

/-- One command over a connection of its own. -/
theorem sendsOnly_of_connected {call : Call} {r : Except BackendError call.Reply}
    (hm : s.target t = .ok m) (hc : command m = .ok c) (hcall : call.command? = some c)
    (hgoes : (withConnection m.table.backend .error (s.send m kind c call)).Goes xs r)
    (hgives : h.Gives st xs st') : SendsOnly h s t command st xs := by
  rcases sent_of_connecting hcall hgoes hgives with ⟨err, herr, -, hsent⟩ | ⟨-, hsent⟩
  · rw [target_eq_ok hm] at herr
    exact .nothing hsent fun _ _ _ _ => ⟨err, herr⟩
  · exact .once hm hc hsent

/-- Where there is no command, nothing is exchanged. -/
theorem sendsOnly_of_error {err : MapperError} (hm : s.target t = .ok m)
    (hc : command m = .error err) : SendsOnly h s t command st [] := by
  refine .nothing rfl fun m' c hm' hc' => ?_
  obtain rfl := Except.ok.inj (hm.symm.trans hm')
  cases hc.symm.trans hc'

/-- Nor is it where there is no mapping to make the command for. -/
theorem sendsOnly_of_targeted {body : Mapping → Program (Except MapperError α)}
    {r : Except MapperError α}
    (hbody : ∀ m, s.target t = .ok m → (body m).Goes xs r → SendsOnly h s t command st xs)
    (hgoes : (prepared ((s.target t).mapError .schema) body).Goes xs r) :
    SendsOnly h s t command st xs := by
  rcases goes_prepared hgoes with ⟨err, herr, rfl, -⟩ | ⟨m, hm, hgoes⟩
  · refine .nothing rfl fun m c hm _ => ?_
    rw [hm] at herr
    cases herr
  · exact hbody m (mapError_eq_ok hm) hgoes

/-- What is prepared before its connection is opened. -/
theorem sendsOnly_of_prepared {body : Mapping → Command → Program (Except MapperError α)}
    {r : Except MapperError α}
    (hbody : ∀ m c, s.target t = .ok m → command m = .ok c → (body m c).Goes xs r →
      SendsOnly h s t command st xs)
    (hgoes : (prepared ((s.target t).mapError .schema) fun m =>
      prepared (command m) fun c => body m c).Goes xs r) : SendsOnly h s t command st xs := by
  refine sendsOnly_of_targeted (fun m hm hgoes => ?_) hgoes
  rcases goes_prepared hgoes with ⟨err, herr, rfl, -⟩ | ⟨c, hc, hgoes⟩
  · exact sendsOnly_of_error hm herr
  · exact hbody m c hm hc hgoes

end Sends

theorem goes_silently {α : Type} {q : Program α} (hgoes : (silently q).Goes xs ()) :
    ∃ a, q.Goes xs a := by
  unfold silently at hgoes
  rw [goes_bind] at hgoes
  obtain ⟨ys, a, zs, hq, hpure, rfl⟩ := hgoes
  obtain ⟨rfl, -⟩ := goes_pure.mp hpure
  exact ⟨a, by rwa [List.append_nil]⟩

/-- An insert over an open connection sends its command, if there is one. -/
theorem Inserts.sent {ignoreAutomatic : Bool} {w : Written}
    (hcourse : Inserts e m ignoreAutomatic o xs w) :
    (∃ err, objectCommand m (.ok (m.insert ignoreAutomatic)) (keyed e m o) = .error err) ∧
        sent xs = [] ∨
      ∃ c, objectCommand m (.ok (m.insert ignoreAutomatic)) (keyed e m o) = .ok c ∧
        sent xs = [c] := by
  cases hcourse with
  | unready command => exact .inl ⟨⟨_, command⟩, rfl⟩
  | @notInserted c command err =>
    refine .inr ⟨c, command, ?_⟩
    rw [sent, List.filterMap_cons, command?_insertCall]
    rfl
  | inserted command => exact .inr ⟨_, command, rfl⟩
  | identified command identity =>
    rw [keyed_of_identity (readBack?_eq_some.mp identity).2.1]
    exact .inr ⟨_, command, rfl⟩
  | misread command identity =>
    rw [keyed_of_identity (readBack?_eq_some.mp identity).2.1]
    exact .inr ⟨_, command, rfl⟩

/-- So does an update. -/
theorem Updates.sent {w : Written} (hcourse : Updates m o xs w) :
    (∃ err, objectCommand m m.update o = .error err) ∧ sent xs = [] ∨
      ∃ c, objectCommand m m.update o = .ok c ∧ sent xs = [c] := by
  cases hcourse with
  | unready command => exact .inl ⟨⟨_, command⟩, rfl⟩
  | notUpdated command err => exact .inr ⟨_, command, rfl⟩
  | updated command n => exact .inr ⟨_, command, rfl⟩

/-- A write of its own goes over a connection of its own. -/
theorem sendsOnly_of_sendWrite {α : Type} {command : Mapping → Except MapperError Command}
    {r : Except MapperError (Outcome α)} (hm : s.target t = .ok m) (hc : command m = .ok c)
    (hgoes : (s.sendWrite m kind c).Goes xs r) (hgives : h.Gives st xs st') :
    SendsOnly h s t command st xs := by
  unfold sendWrite at hgoes
  rw [goes_bind] at hgoes
  obtain ⟨ys, reply, zs, hreply, hpure, rfl⟩ := hgoes
  obtain ⟨rfl, -⟩ := goes_pure.mp hpure
  rw [List.append_nil] at hgives ⊢
  exact sendsOnly_of_connected hm hc rfl hreply hgives

theorem sendsOnly_of_delete {options : DeleteOptions} {r : Except MapperError (Outcome Object)}
    (hgoes : (s.delete t options o).Goes xs r) (hgives : h.Gives st xs st') :
    SendsOnly h s t (fun m => objectCommand m m.delete o) st xs := by
  unfold delete at hgoes
  refine sendsOnly_of_targeted (fun m hm hbody => ?_) hgoes
  rw [goes_spanned] at hbody
  split at hbody
  · next err hc =>
    obtain ⟨rfl, -⟩ := goes_pure.mp hbody
    exact sendsOnly_of_error hm hc
  · next c hc =>
    rw [goes_bind_silent goes_takeIf, goes_bind] at hbody
    obtain ⟨ys, sentResult, zs, hsend, hbody, rfl⟩ := hbody
    rw [goes_bind] at hbody
    obtain ⟨us, captured, vs, hcapture, hbody, rfl⟩ := hbody
    obtain ⟨rfl, rfl⟩ := goes_capture goes_takeIf hcapture
    -- what follows the deletion is noted and not exchanged
    obtain rfl : vs = [] := by
      split at hbody
      · rw [goes_bind_silent goes_takeIf, goes_pure] at hbody
        exact hbody.1
      · exact (goes_pure.mp hbody).1
    rw [List.append_nil, List.append_nil] at hgives ⊢
    exact sendsOnly_of_sendWrite hm hc hsend hgives

theorem sendsOnly_of_deleteAll {r : Except MapperError (Outcome Object)}
    (hgoes : (s.deleteAll t p).Goes xs r) (hgives : h.Gives st xs st') :
    SendsOnly h s t (fun m => deleteAllCommand m p) st xs := by
  unfold deleteAll at hgoes
  refine sendsOnly_of_targeted (fun m hm hbody => ?_) hgoes
  rw [goes_spanned] at hbody
  split at hbody
  · next err hc =>
    obtain ⟨rfl, -⟩ := goes_pure.mp hbody
    exact sendsOnly_of_error hm hc
  · next c hc =>
    rw [goes_bind] at hbody
    obtain ⟨ys, sentResult, zs, hsend, hcapture, rfl⟩ := hbody
    obtain ⟨rfl, -⟩ := goes_capture (by simp) hcapture
    rw [List.append_nil] at hgives ⊢
    exact sendsOnly_of_sendWrite hm hc hsend hgives

/-- A write that looks for no key and asks no rules. -/
theorem sendsOnly_of_write {options : SaveOptions} {mode : WriteMode} {w : Written}
    {command : Mapping → Except MapperError Command} (hmode : mode ≠ .save)
    (hvalidate : options.validate = false)
    (hwrites : ∀ m ys w, s.target e.table = .ok m → Writes e m options o mode none ys w →
      (∃ err, command m = .error err) ∧ sent ys = [] ∨ ∃ c, command m = .ok c ∧ sent ys = [c])
    (hgoes : (s.write e mode options o).Goes xs w) (hgives : h.Gives st xs st') :
    SendsOnly h s e.table command st xs := by
  have hnone : ∀ m, checkCommand m mode o = .ok none := by
    intro m
    cases mode with
    | save => exact absurd rfl hmode
    | insert => rfl
    | update => rfl
  rcases goes_write hgoes with ⟨rfl, ⟨hrules, -⟩ | ⟨-, herror⟩⟩ | ⟨m, check, hm, hcheck, hconnects⟩
  · rw [hvalidate] at hrules
    cases hrules
  · refine .nothing rfl fun m c hm _ => ?_
    obtain ⟨err, herr⟩ := herror m hm
    cases (hnone m).symm.trans herr
  obtain rfl := Except.ok.inj ((hnone m).symm.trans hcheck)
  rcases connects_of_connecting hconnects hgives with
    ⟨err, herr, -, hsent⟩ | ⟨-, ys, closed, rfl, hbody⟩
  · rw [target_eq_ok hm] at herr
    exact .nothing hsent fun _ _ _ _ => ⟨err, herr⟩
  rcases hwrites m ys w hm hbody with ⟨⟨err, herr⟩, hsent⟩ | ⟨c, hc, hsent⟩
  · refine .nothing (by rw [sent_connected, hsent]) fun m' c hm' hc => ?_
    obtain rfl := Except.ok.inj (hm.symm.trans hm')
    cases herr.symm.trans hc
  · exact .once hm hc (by rw [sent_connected, hsent])

/-! ## Operations -/

/-- The operations with default options that send a command of their own, each with the kind, the
condition and the object that its trace is given, and with the command. -/
inductive Operation.Previewed (e : EntityType) : Operation → StatementKind → Option Expr →
    Option Object → (Mapping → Except MapperError Command) → Prop
  | query (p : Option Expr) :
      Previewed e (.query p) .select p none fun m => queryCommand m p
  | reload (o : Object) :
      Previewed e (.reload o) .reload none (some o) fun m => objectCommand m m.reload o
  | existsObject (o : Object) :
      Previewed e (.existsObject o) .existenceCheck none (some o) fun m =>
        objectCommand m m.existenceCheck o
  /-- an insert is shown for the object that has taken its keys -/
  | insert (o : Object) :
      Previewed e (.write .insert {} o) .insert none (some (e.keyed o)) fun m =>
        objectCommand m (.ok (m.insert true)) (e.keyed o)
  | update (o : Object) :
      Previewed e (.write .update {} o) .update none (some o) fun m => objectCommand m m.update o
  | delete (o : Object) :
      Previewed e (.delete {} o) .delete none (some o) fun m => objectCommand m m.delete o
  | deleteAll (p : Option Expr) :
      Previewed e (.deleteAll p) .deleteAll p none fun m => deleteAllCommand m p

variable {op : Operation} {given : Option Object} {command : Mapping → Except MapperError Command}

/-- What is shown is the trace of the command. -/
theorem Operation.Previewed.trace_eq (hop : op.Previewed e kind p given command) :
    s.statementTrace t kind p given = s.traceOf t command := by
  cases hop with
  | query => exact statementTrace_select
  | reload => exact statementTrace_object fun m => rfl
  | existsObject => exact statementTrace_object fun m => rfl
  | insert => exact statementTrace_object fun m => rfl
  | update => exact statementTrace_object fun m => rfl
  | delete => exact statementTrace_object fun m => rfl
  | deleteAll => exact statementTrace_deleteAll

/-- What is sent is the command. -/
theorem Operation.Previewed.sends (hop : op.Previewed e kind p given command)
    (hgoes : (op.perform s e).Goes xs ()) (hgives : h.Gives st xs st') :
    SendsOnly h s e.table command st xs := by
  cases hop with
  | query p =>
    obtain ⟨r, hgoes⟩ := goes_silently hgoes
    refine sendsOnly_of_prepared (fun m c hm hc hgoes => ?_) hgoes
    obtain ⟨rows, hrows, -⟩ := goes_read hgoes
    exact sendsOnly_of_connected hm hc rfl hrows hgives
  | reload o =>
    obtain ⟨r, hgoes⟩ := goes_silently hgoes
    refine sendsOnly_of_prepared (fun m c hm hc hgoes => ?_) hgoes
    rw [goes_bind] at hgoes
    obtain ⟨ys, objects, zs, hread, hpure, rfl⟩ := hgoes
    obtain ⟨rfl, -⟩ := goes_pure.mp hpure
    rw [List.append_nil] at hgives ⊢
    obtain ⟨rows, hrows, -⟩ := goes_read hread
    exact sendsOnly_of_connected hm hc rfl hrows hgives
  | existsObject o =>
    obtain ⟨r, hgoes⟩ := goes_silently hgoes
    refine sendsOnly_of_prepared (fun m c hm hc hgoes => ?_) hgoes
    obtain ⟨found, hfound, -⟩ := goes_count hgoes
    exact sendsOnly_of_connected hm hc rfl hfound hgives
  | insert o =>
    obtain ⟨w, hgoes⟩ := goes_silently hgoes
    refine sendsOnly_of_write (by decide) rfl (fun m ys w hm hwrites => ?_) hgoes hgives
    cases hwrites with
    | insert hinserts =>
      have hkeyed : keyed e m o = e.keyed o := by rw [keyed, target_eq_ok hm, EntityType.keyed]
      rw [← hkeyed]
      exact hinserts.sent
  | update o =>
    obtain ⟨w, hgoes⟩ := goes_silently hgoes
    refine sendsOnly_of_write (by decide) rfl (fun m ys w hm hwrites => ?_) hgoes hgives
    cases hwrites with
    | update hupdates => exact hupdates.sent
  | delete o =>
    obtain ⟨r, hgoes⟩ := goes_silently hgoes
    exact sendsOnly_of_delete hgoes hgives
  | deleteAll p =>
    obtain ⟨r, hgoes⟩ := goes_silently hgoes
    exact sendsOnly_of_deleteAll hgoes hgives

/-! ## Looks for rows -/

/-- A text without markers at the front of a command stays at the front of its trace. -/
theorem exists_trace_append {d : Dialect} (hd : d.Marks) {front rest : String} (hfront : IsPlain front)
    (htext : c.text = front ++ rest) : ∃ more, (c.trace d).toList = front.toList ++ more := by
  rw [Command.trace, String.toList_ofList, htext, String.toList_append,
    substitute_append (hd.not_mem hfront)]
  exact ⟨_, rfl⟩

theorem existenceCheck_front {sql : String} (h : m.existenceCheck = .ok sql) :
    ∃ rest, sql = "select count(0) as tt " ++ rest := by
  unfold Mapping.existenceCheck at h
  obtain ⟨-, -, h⟩ := exists_of_bind_eq_ok h
  have hfront : "select count(0) as " ++ Mapping.countAlias ++ " from " =
    "select count(0) as tt " ++ "from " := by decide +kernel
  refine ⟨"from " ++ (m.table.name ++ ("\nwhere " ++ m.keyCondition none)), ?_⟩
  rw [← Except.ok.inj h, hfront, String.append_assoc, String.append_assoc, String.append_assoc]

theorem countAll_front (m : Mapping) (j : JoinTree) :
    m.countAll j = "select count(0) as tt\n" ++ m.source j := by
  have hfront : "select count(0) as " ++ Mapping.countAlias ++ "\n" = "select count(0) as tt\n" := by
    decide +kernel
  rw [← hfront]
  exact Eq.refl (m.countAll j)

theorem countCommand_front (h : countCommand m condition = .ok c) :
    ∃ rest, c.text = "select count(0) as tt\n" ++ rest := by
  obtain ⟨q, j, -, -, htext, -⟩ := countCommand_filtered h
  refine ⟨m.source j ++ ("\nwhere " ++ q.text), ?_⟩
  rw [htext, countAll_front, String.append_assoc, String.append_assoc]

/-- **What is shown for a condition and the check of a key is never what looks for the rows** that
meet the condition. -/
theorem trace_existsWhere_ne {text : String} (hm : s.target t = .ok m) (hd : m.dialect.Marks)
    (hc : countCommand m condition = .ok c)
    (hshown : s.statementTrace t .existenceCheck (some condition) none = .ok (some text)) :
    (∃ q sql, m.compile (some m.rootAlias) condition = .ok q ∧ m.existenceCheck = .ok sql ∧
      text = ((m.command sql).withPredicate q).trace m.dialect) ∧ text ≠ c.trace m.dialect := by
  rw [statementTrace_existenceCheck] at hshown
  obtain ⟨m', d, hm', hmade, htext⟩ := traceOf_eq_ok hshown
  obtain rfl := Except.ok.inj (hm.symm.trans hm')
  obtain rfl := Option.some.inj htext
  obtain ⟨q, hq, hmade⟩ := exists_of_bind_eq_ok hmade
  obtain ⟨sql, hsql, hmade⟩ := exists_of_bind_eq_ok hmade
  obtain rfl := Except.ok.inj hmade
  have hsql := mapError_eq_ok hsql
  refine ⟨⟨q, sql, hq, hsql, rfl⟩, fun heq => ?_⟩
  -- the two part behind the name of the count
  obtain ⟨rest, hcheck⟩ := existenceCheck_front hsql
  obtain ⟨rest', hcount⟩ := countCommand_front hc
  have htext : ((m.command sql).withPredicate q).text = "select count(0) as tt " ++ rest := by
    rw [Command.withPredicate_text]
    exact hcheck
  obtain ⟨more, hmore⟩ := exists_trace_append hd (by decide) htext
  obtain ⟨more', hmore'⟩ := exists_trace_append hd (by decide) hcount
  have hsame := hmore.symm.trans ((congrArg String.toList heq).trans hmore')
  exact absurd (List.append_inj_left hsame (by decide +kernel)) (by decide +kernel)

/-! ## Runs -/

/-- **A trace previews a command.** In each run of an operation with default options one command is
sent, and its trace is what is shown for the arguments of the operation, or nothing is sent: either
what is shown is an error or there is no connection. For a look for rows that meet a condition the
check of a key is shown, with the parameters of the condition, and never what is sent. -/
theorem trace_previews {σ : Type} (h : Handler σ) (s : Session) (e : EntityType) :
    (∀ {op kind p given command}, Operation.Previewed e op kind p given command →
      ∀ st st' events, (op.perform s e).run h st = ((), st', events) →
        (∃ m c, s.target e.table = .ok m ∧ sent (exchanges events) = [c] ∧
          s.statementTrace e.table kind p given = .ok (some (c.trace m.dialect))) ∨
        sent (exchanges events) = [] ∧ ((∃ err, s.statementTrace e.table kind p given = .error err) ∨
          ∃ err, connecting h e.table.backend st = .error err)) ∧
    (∀ condition st r st' events, (s.existsWhere e.table condition).run h st = (r, st', events) →
      ∀ m c text, s.target e.table = .ok m → m.dialect.Marks → sent (exchanges events) = [c] →
        s.statementTrace e.table .existenceCheck (some condition) none = .ok (some text) →
        (∃ q sql, m.compile (some m.rootAlias) condition = .ok q ∧ m.existenceCheck = .ok sql ∧
          text = ((m.command sql).withPredicate q).trace m.dialect) ∧ text ≠ c.trace m.dialect) := by
  constructor
  · intro op kind p given command hop st st' events hrun
    obtain ⟨hgoes, hgives⟩ := goes_of_run hrun
    rw [hop.trace_eq]
    cases hop.sends hgoes hgives with
    | @once m c hm hc hsent => exact .inl ⟨m, c, hm, hsent, traceOf_of_command hm hc⟩
    | nothing hsent hcause =>
      refine .inr ⟨hsent, ?_⟩
      cases hshown : s.traceOf e.table command with
      | error err => exact .inl ⟨err, rfl⟩
      | ok shown =>
        obtain ⟨m, c, hm, hc, -⟩ := traceOf_eq_ok hshown
        exact .inr (hcause m c hm hc)
  · intro condition st r st' events hrun m c text hm hd hsent hshown
    rcases existsWhere_sent (goes_of_run hrun).1 with ⟨hnone, -⟩ | ⟨m', c', hm', hc, hsent'⟩
    · rw [hnone] at hsent
      cases hsent
    · obtain rfl := Except.ok.inj (hm.symm.trans hm')
      obtain rfl := List.singleton_inj.mp (hsent.symm.trans hsent')
      exact trace_existsWhere_ne hm hd hc hshown

/-- The query for a guest is shown as it is sent, and the look for the guest is not. -/
theorem trace_previews_guests :
    (∃ events c, ∃ m : Mapping, (Operation.perform Guests.session ⟨Guests.table, id⟩
        (.query (some (Guests.numbered 7)))).run (Guests.answer .null) () = ((), (), events) ∧
      sent (exchanges events) = [c] ∧
      Guests.session.statementTrace Guests.table .select (some (Guests.numbered 7)) none =
        .ok (some (c.trace m.dialect))) ∧
    ∃ r events text, (Guests.session.existsWhere Guests.table (Guests.numbered 7)).run
        (Guests.answer .null) () = (r, (), events) ∧
      sent (exchanges events) = [Guests.counting] ∧
      Guests.session.statementTrace Guests.table .existenceCheck (some (Guests.numbered 7)) none =
        .ok (some text) ∧ text ≠ Guests.counting.trace (.of .sqlite) := by
  obtain ⟨hshown, hlook⟩ := trace_previews (Guests.answer .null) Guests.session ⟨Guests.table, id⟩
  constructor
  · rcases hshown (.query (some (Guests.numbered 7))) () () _ rfl with
      ⟨m, c, -, hsent, htrace⟩ | ⟨hnone, -⟩
    · exact ⟨_, c, m, rfl, hsent, htrace⟩
    · exact absurd (congrArg List.length hnone) (by decide +kernel)
  · have htarget : Guests.session.target Guests.table =
      .ok ⟨Guests.session.catalog, Guests.table, .of .sqlite⟩ := rfl
    have htrace : Guests.session.statementTrace Guests.table .existenceCheck
        (some (Guests.numbered 7)) none =
      .ok (some "select count(0) as tt from guests\nwhere id = @id") := by decide +kernel
    have hsent : sent (exchanges ((Guests.session.existsWhere Guests.table
        (Guests.numbered 7)).run (Guests.answer .null) ()).2.2) = [Guests.counting] := by
      decide +kernel
    obtain ⟨-, hne⟩ := hlook (Guests.numbered 7) () _ () _ rfl _ Guests.counting _ htarget
      (Dialect.marks_of .sqlite) hsent htrace
    exact ⟨_, _, _, rfl, hsent, htrace, hne⟩

/-- What is shown for a condition and the check of a key leaves the condition out. -/
theorem existsWhere_not_shown :
    ∃ r events, (Guests.session.existsWhere Guests.table (Guests.numbered 7)).run
        (Guests.answer .null) () = (r, (), events) ∧
      (sent (exchanges events)).map (·.trace (.of .sqlite)) =
        ["select count(0) as tt\nfrom guests\nwhere guests.id = 7"] ∧
      Guests.session.statementTrace Guests.table .existenceCheck (some (Guests.numbered 7)) none =
        .ok (some "select count(0) as tt from guests\nwhere id = @id") :=
  ⟨_, _, rfl, by decide +kernel, by decide +kernel⟩

end Session

end EntityMapper
