import EntityMapper.Proofs.Session.Commands
import EntityMapper.Proofs.Session.Course

/-!
# Filtered statements stay filtered

A statement leaves its condition out where the text of the predicate is empty, so a predicate with
an empty text would delete a whole table. There is none: an operation with a predicate either sends
nothing or sends one command, and that has a condition.

* `sent` — the commands that were handed to a connection
* `goes_read`, `goes_count` — the courses of what reads objects and of what counts rows
* `deleteAll_sent`, `query_sent`, `existsWhere_sent` — what the operations with a predicate send
* `sent_filtered` — each of them sends a condition if it sends anything
-/

namespace EntityMapper.Session

open Program

variable {s : Session} {m : Mapping} {t : Table} {kind : StatementKind} {c : Command} {e : Expr}
  {condition : Option Expr} {xs : List Exchange}

/-! ## What is sent -/

/-- The commands that were handed to a connection, in order. -/
def sent (xs : List Exchange) : List Command := xs.filterMap fun x => x.call.command?

/-- Opening and closing a connection sends nothing. -/
theorem sent_connected (backend : String) (body : List Exchange)
    (closed : Except BackendError Unit) :
    sent (connected backend body closed) = sent body := by
  simp [sent, connected, Call.command?]

/-- One command over a connection of its own is sent unless there is no connection. -/
theorem goes_send_connected {call : Call} {r : Except BackendError call.Reply}
    (hcall : call.command? = some c)
    (h : (withConnection m.table.backend .error (s.send m kind c call)).Goes xs r) :
    (sent xs = [] ∧ ∃ err, r = .error err) ∨ sent xs = [c] := by
  cases goes_withConnection h with
  | notConnected err => exact .inl ⟨rfl, _, rfl⟩
  | notOpened err => exact .inl ⟨rfl, _, rfl⟩
  | opened h closed =>
    obtain ⟨reply, rfl, -⟩ := goes_send h
    exact .inr (by rw [sent_connected, sent, List.filterMap_cons, hcall]; rfl)

/-- A deletion of many rows sends its command, or nothing and fails. -/
theorem deleteAll_sent {r : Except MapperError (Outcome Object)}
    (h : (s.deleteAll t condition).Goes xs r) :
    (xs = [] ∧ ∃ err, r = .error err) ∨ ∃ m c, s.target t = .ok m ∧
      deleteAllCommand m condition = .ok c ∧
      (sent xs = [] ∧ (∀ outcome, r = .ok outcome → outcome.isOk = false) ∨ sent xs = [c]) := by
  unfold deleteAll at h
  replace h := goes_prepared h
  rcases h with ⟨err, -, rfl, rfl⟩ | ⟨m, hm, h⟩
  · exact .inl ⟨rfl, err, rfl⟩
  rw [goes_spanned] at h
  split at h
  · next err _ =>
    obtain ⟨rfl, rfl⟩ := goes_pure.mp h
    exact .inl ⟨rfl, err, rfl⟩
  · next c hcommand =>
    refine .inr ⟨m, c, mapError_eq_ok hm, hcommand, ?_⟩
    rw [goes_bind] at h
    obtain ⟨ys, sentResult, zs, hsend, hcapture, rfl⟩ := h
    obtain ⟨rfl, rfl⟩ := goes_capture (by simp) hcapture
    unfold sendWrite at hsend
    rw [goes_bind] at hsend
    obtain ⟨us, reply, vs, hconnected, hresult, rfl⟩ := hsend
    obtain ⟨rfl, rfl⟩ := goes_pure.mp hresult
    rw [List.append_nil, List.append_nil]
    refine (goes_send_connected rfl hconnected).imp_left fun ⟨hnone, err, herr⟩ => ⟨hnone, ?_⟩
    rintro outcome houtcome
    subst herr
    obtain rfl := Except.ok.inj houtcome
    rfl

/-- What reads objects makes them of the rows that come back. -/
theorem goes_read {r : Except MapperError (List Object)} (h : (s.read m kind c).Goes xs r) :
    ∃ rows, (withConnection m.table.backend .error (s.send m kind c (.reader c))).Goes xs rows ∧
      r = (rows.mapError .backend).bind (materialize s.catalog m.table) := by
  unfold read at h
  rw [goes_spanned, goes_bind] at h
  obtain ⟨ys, rows, zs, hconnected, h, rfl⟩ := h
  -- what is made of the rows is not exchanged
  have hmade : zs = [] ∧ r = (rows.mapError .backend).bind (materialize s.catalog m.table) := by
    cases rows with
    | error err => exact goes_pure.mp h
    | ok rows =>
      dsimp only at h
      split at h
      · next err herr =>
        obtain ⟨rfl, rfl⟩ := goes_pure.mp h
        exact ⟨rfl, herr.symm⟩
      · next objects hobjects =>
        rw [goes_bind_silent goes_take] at h
        obtain ⟨rfl, rfl⟩ := goes_pure.mp h
        exact ⟨rfl, hobjects.symm⟩
  obtain ⟨rfl, hr⟩ := hmade
  exact ⟨rows, by rwa [List.append_nil], hr⟩

/-- What counts rows compares the count that comes back. -/
theorem goes_count {r : Except MapperError Bool} (h : (s.count m c).Goes xs r) :
    ∃ found, (withConnection m.table.backend .error
        (s.send m .existenceCheck c (.scalar c))).Goes xs found ∧
      r = (found.mapError .backend).map isStored := by
  unfold count at h
  rw [goes_spanned, goes_bind] at h
  obtain ⟨ys, found, zs, hconnected, h, rfl⟩ := h
  obtain ⟨rfl, hr⟩ := goes_pure.mp h
  exact ⟨found, by rwa [List.append_nil], hr⟩

/-- What reads objects sends its command, or nothing and fails. -/
theorem read_sent {r : Except MapperError (List Object)} (h : (s.read m kind c).Goes xs r) :
    (sent xs = [] ∧ ∃ err, r = .error err) ∨ sent xs = [c] := by
  obtain ⟨rows, hconnected, rfl⟩ := goes_read h
  refine (goes_send_connected rfl hconnected).imp_left ?_
  rintro ⟨hnone, err, rfl⟩
  exact ⟨hnone, _, rfl⟩

/-- A query sends its command, or nothing and fails. -/
theorem query_sent {r : Except MapperError (List Object)} (h : (s.query t condition).Goes xs r) :
    (sent xs = [] ∧ ∃ err, r = .error err) ∨
      ∃ m c, s.target t = .ok m ∧ queryCommand m condition = .ok c ∧ sent xs = [c] := by
  unfold query at h
  replace h := goes_prepared h
  rcases h with ⟨err, -, rfl, rfl⟩ | ⟨m, hm, h⟩
  · exact .inl ⟨rfl, err, rfl⟩
  replace h := goes_prepared h
  rcases h with ⟨err, -, rfl, rfl⟩ | ⟨c, hc, h⟩
  · exact .inl ⟨rfl, err, rfl⟩
  exact (read_sent h).imp_right fun hsent => ⟨m, c, mapError_eq_ok hm, hc, hsent⟩

/-- A look for a row sends its command, or nothing and fails. -/
theorem existsWhere_sent {r : Except MapperError Bool} (h : (s.existsWhere t e).Goes xs r) :
    (sent xs = [] ∧ ∃ err, r = .error err) ∨
      ∃ m c, s.target t = .ok m ∧ countCommand m e = .ok c ∧ sent xs = [c] := by
  unfold existsWhere at h
  replace h := goes_prepared h
  rcases h with ⟨err, -, rfl, rfl⟩ | ⟨m, hm, h⟩
  · exact .inl ⟨rfl, err, rfl⟩
  replace h := goes_prepared h
  rcases h with ⟨err, -, rfl, rfl⟩ | ⟨c, hc, h⟩
  · exact .inl ⟨rfl, err, rfl⟩
  obtain ⟨found, hconnected, rfl⟩ := goes_count h
  rcases goes_send_connected rfl hconnected with ⟨hnone, err, rfl⟩ | hsent
  · exact .inl ⟨hnone, _, rfl⟩
  · exact .inr ⟨m, c, mapError_eq_ok hm, hc, hsent⟩

/-! ## Conditions are kept -/

/-- A deletion of many rows with a condition on the bare columns of the table. -/
theorem deleteAllCommand_filtered (hnames : ∀ f ∈ m.table.scalarFields, f.name ≠ "")
    (h : deleteAllCommand m (some e) = .ok c) :
    ¬ e.HasChain ∧ ∃ p cond values, m.compile none e = .ok p ∧
      c.text = "delete from " ++ m.table.name ++ "\nwhere " ++ p.text ∧ p.text ≠ "" ∧
      Scope.condition ⟨m.catalog, m.table, none⟩ e [] = .ok (cond, values) ∧
      cond.Unqualified m.table ∧
      p.text = cond.text fun i => m.dialect.placeholder (parameterName "" i) := by
  obtain ⟨q, hq, rfl⟩ := deleteAllCommand_ok h
  obtain ⟨p, rfl, hp⟩ := Mapping.compile?_some hq
  obtain ⟨hchain, hne, cond, values, hcond, hunqualified, htext⟩ :=
    compile_unqualified rfl hnames hp
  refine ⟨hchain, p, cond, values, hp, ?_, hne, hcond, hunqualified, htext⟩
  rw [Command.withPredicate?_text]
  exact Mapping.filtered_some hne _

theorem queryCommand_filtered (h : queryCommand m (some e) = .ok c) :
    ∃ p sql, m.compile (some m.rootAlias) e = .ok p ∧ m.select = .ok sql ∧
      c.text = sql ++ "\nwhere " ++ p.text ∧ p.text ≠ "" := by
  obtain ⟨q, sql, hq, hsql, rfl⟩ := queryCommand_ok h
  obtain ⟨p, rfl, hp⟩ := Mapping.compile?_some hq
  have hne : p.text ≠ "" := compile_qualified rfl hp
  refine ⟨p, sql, hp, hsql, ?_, hne⟩
  rw [Command.withPredicate?_text]
  exact Mapping.filtered_some hne sql

theorem countCommand_filtered (h : countCommand m e = .ok c) :
    ∃ p j, m.compile (some m.rootAlias) e = .ok p ∧ m.joinTree = .ok j ∧
      c.text = m.countAll j ++ "\nwhere " ++ p.text ∧ p.text ≠ "" := by
  obtain ⟨p, j, hp, hj, rfl⟩ := countCommand_ok h
  have hne : p.text ≠ "" := compile_qualified rfl hp
  refine ⟨p, j, hp, hj, ?_, hne⟩
  rw [Command.withPredicate_text]
  exact Mapping.filtered_some hne _

/-- **Filtered statements stay filtered.** Whatever expression the predicate is and whoever replies:

* a deletion of many rows sends nothing and fails, or it sends one command, which deletes from the
  table under a condition that is not empty and names only bare columns of the table; with an
  expression that goes through an association nothing is exchanged at all, and there is an error,
* a query and a look for rows send nothing and fail, or they send one command, which has a condition
  that is not empty after the text that they would have without one. -/
theorem sent_filtered {σ : Type} (h : Handler σ) (st : σ) (s : Session) {t : Table}
    (hnames : ∀ f ∈ t.scalarFields, f.name ≠ "") (e : Expr) :
    (∀ r st' events, (s.deleteAll t (some e)).run h st = (r, st', events) →
      (e.HasChain → exchanges events = [] ∧ ∃ err, r = .error err) ∧
      (sent (exchanges events) = [] ∧ (∀ outcome, r = .ok outcome → outcome.isOk = false) ∨
        ∃ m c p cond values, s.target t = .ok m ∧ sent (exchanges events) = [c] ∧
          c.text = "delete from " ++ t.name ++ "\nwhere " ++ p.text ∧ p.text ≠ "" ∧
          m.compile none e = .ok p ∧
          Scope.condition ⟨m.catalog, t, none⟩ e [] = .ok (cond, values) ∧ cond.Unqualified t ∧
          p.text = cond.text fun i => m.dialect.placeholder (parameterName "" i))) ∧
    (∀ r st' events, (s.query t (some e)).run h st = (r, st', events) →
      (sent (exchanges events) = [] ∧ ∃ err, r = .error err) ∨
        ∃ m c p sql, s.target t = .ok m ∧ sent (exchanges events) = [c] ∧ m.select = .ok sql ∧
          c.text = sql ++ "\nwhere " ++ p.text ∧ p.text ≠ "" ∧
          m.compile (some m.rootAlias) e = .ok p) ∧
    (∀ r st' events, (s.existsWhere t e).run h st = (r, st', events) →
      (sent (exchanges events) = [] ∧ ∃ err, r = .error err) ∨
        ∃ m c p j, s.target t = .ok m ∧ sent (exchanges events) = [c] ∧ m.joinTree = .ok j ∧
          c.text = m.countAll j ++ "\nwhere " ++ p.text ∧ p.text ≠ "" ∧
          m.compile (some m.rootAlias) e = .ok p) := by
  refine ⟨fun r st' events hrun => ?_, fun r st' events hrun => ?_, fun r st' events hrun => ?_⟩
  · rcases deleteAll_sent (goes_of_run hrun).1 with ⟨hnone, err, rfl⟩ | ⟨m, c, hm, hc, hsent⟩
    · exact ⟨fun _ => ⟨hnone, err, rfl⟩, .inl ⟨by rw [hnone]; rfl, nofun⟩⟩
    · obtain rfl := target_eq_ok hm
      obtain ⟨hchain, p, cond, values, hp, htext, hne, hcond, hunqualified, hptext⟩ :=
        deleteAllCommand_filtered hnames hc
      refine ⟨fun h => absurd h hchain, hsent.imp_right fun hsent => ?_⟩
      exact ⟨m, c, p, cond, values, hm, hsent, htext, hne, hp, hcond, hunqualified, hptext⟩
  · refine (query_sent (goes_of_run hrun).1).imp_right ?_
    rintro ⟨m, c, hm, hc, hsent⟩
    obtain ⟨p, sql, hp, hsql, htext, hne⟩ := queryCommand_filtered hc
    exact ⟨m, c, p, sql, hm, hsent, hsql, htext, hne, hp⟩
  · refine (existsWhere_sent (goes_of_run hrun).1).imp_right ?_
    rintro ⟨m, c, hm, hc, hsent⟩
    obtain ⟨p, j, hp, hj, htext, hne⟩ := countCommand_filtered hc
    exact ⟨m, c, p, j, hm, hsent, hj, htext, hne, hp⟩

/-- The guests of a number. -/
def Guests.numbered (n : Int64) : Expr := .compare .eq (.member ["id"]) (.constant (.int n))

/-- Guests are deleted, read and looked for by their number, and not without one. -/
theorem sent_filtered_guests :
    (∃ r events m c, ∃ p : CompiledPredicate,
      (Guests.session.deleteAll Guests.table (some (Guests.numbered 7))).run
          (Guests.answer .null) () = (r, (), events) ∧ Guests.session.target Guests.table = .ok m ∧
      sent (exchanges events) = [c] ∧
      c.text = "delete from guests\nwhere " ++ p.text ∧ p.text ≠ "") ∧
    (∃ r events m c sql, ∃ p : CompiledPredicate,
      (Guests.session.query Guests.table (some (Guests.numbered 7))).run (Guests.answer .null) () =
        (r, (), events) ∧ Guests.session.target Guests.table = .ok m ∧
      sent (exchanges events) = [c] ∧ m.select = .ok sql ∧
      c.text = sql ++ "\nwhere " ++ p.text ∧ p.text ≠ "") ∧
    (∃ r events m c j, ∃ p : CompiledPredicate,
      (Guests.session.existsWhere Guests.table (Guests.numbered 7)).run (Guests.answer .null) () =
        (r, (), events) ∧ Guests.session.target Guests.table = .ok m ∧
      sent (exchanges events) = [c] ∧ m.joinTree = .ok j ∧
      c.text = m.countAll j ++ "\nwhere " ++ p.text ∧ p.text ≠ "") := by
  have hnames : ∀ f ∈ Guests.table.scalarFields, f.name ≠ "" := by decide
  obtain ⟨hdelete, hquery, hexists⟩ :=
    sent_filtered (Guests.answer .null) () Guests.session hnames (Guests.numbered 7)
  refine ⟨?_, ?_, ?_⟩
  · rcases (hdelete _ _ _ rfl).2 with ⟨hnone, -⟩ | ⟨m, c, p, -, -, hm, hsent, htext, hne, -⟩
    · exact absurd (congrArg List.length hnone) (by decide +kernel)
    · exact ⟨_, _, m, c, p, rfl, hm, hsent, htext, hne⟩
  · rcases hquery _ _ _ rfl with ⟨hnone, -⟩ | ⟨m, c, p, sql, hm, hsent, hsql, htext, hne, -⟩
    · exact absurd (congrArg List.length hnone) (by decide +kernel)
    · exact ⟨_, _, m, c, sql, p, rfl, hm, hsent, hsql, htext, hne⟩
  · rcases hexists _ _ _ rfl with ⟨hnone, -⟩ | ⟨m, c, p, j, hm, hsent, hj, htext, hne, -⟩
    · exact absurd (congrArg List.length hnone) (by decide +kernel)
    · exact ⟨_, _, m, c, j, p, rfl, hm, hsent, hj, htext, hne⟩

end EntityMapper.Session
