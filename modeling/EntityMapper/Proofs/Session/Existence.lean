import EntityMapper.Proofs.FieldNumbers
import EntityMapper.Proofs.Graph.Identity
import EntityMapper.Proofs.Session.Filtered
import EntityMapper.Proofs.Session.SaveTwice

/-!
# A look for rows and a query for them

A query reads the rows that meet a condition and makes objects of them; a look for rows has them
counted. The two put their statements together apart from each other and decide by different
replies, and yet they agree.

* `Value.IsCount` — the number of rows that the reply to a count tells
* `commands_together` — the commands of the two, or the mistake for which there are none
* `materialize_eq_nil_iff` — when there is an object among those of rows
* `existsWhere_agrees` — the two fail together, and on one number of rows they say the same
-/

namespace EntityMapper

open Session Program

/-! ## Counts -/

/-- The number of rows that the reply to a count tells. Backends disagree on the type of a count: it
is an integer, a truth value, a whole float, or the text of an integer of 64 bits. -/
inductive Value.IsCount : Value → Nat → Prop
  | int {k : Int64} {n : Nat} (h : k.toInt = n) : IsCount (.int k) n
  | bool (b : Bool) : IsCount (.bool b) b.toNat
  | float {x : Double} {n : Nat} (hfinite : x.isFinite = true) (h : x.value = n) :
      IsCount (.float x) n
  | text {s : String} {n : Nat} (h : IsInteger (trim s.toList) n) (hn : n < twoTo 63) :
      IsCount (.text s) n

/-- A count is taken for what it tells. -/
theorem Value.IsCount.isStored_iff {v : Value} {n : Nat} (h : v.IsCount n) :
    isStored v = true ↔ 0 < n := by
  cases h with
  | @int k n h =>
    have hpos : 0 < k ↔ 0 < k.toInt := Int64.lt_iff_toInt_lt
    simp [isStored, asCount, hpos, h]
  | bool b => cases b <;> decide
  | @float x n hfinite h =>
    have hwhole : x.toInt? = some (n : Int) := Double.toInt?_of_value hfinite (by exact_mod_cast h)
    simp [isStored, asCount, hwhole, nearestInt64_pos]
  | @text s n h hn =>
    have hbound : -(twoTo 63 : Int) ≤ n ∧ (n : Int) < twoTo 63 := by omega
    have hfits : int64? n = some (Int64.ofInt n) := if_pos hbound
    have hcount : (Value.text s).asCount = some (Int64.ofInt n) := by
      rw [asCount, readInteger_eq_some.mpr h, Option.bind_some, hfits]
    have hpos : 0 < Int64.ofInt n ↔ (0 : Int) < n := by
      rw [Int64.lt_iff_toInt_lt, int64?_eq_some hfits]
      rfl
    rw [isStored, hcount, Option.any_some, decide_eq_true_iff, hpos, Int.natCast_pos]

/-! ## Objects -/

/-- **Rows whose keys can be read are read into no objects just if there are no rows.** -/
theorem materialize_eq_nil_iff {c : Catalog} {t : Table} {rows : List Row} {objects : List Object}
    (hrows : ∀ row ∈ rows, t.Keyed row) (h : materialize c t rows = .ok objects) :
    objects = [] ↔ rows = [] := by
  have hlength : (t.rootGroups rows).length = objects.length := (materialize_roots h).length_eq
  have hgroups : t.rootGroups rows = [] ↔ rows = [] := by
    cases hkey : t.hasPrimaryKey with
    | false => simp [Table.rootGroups, hkey]
    | true =>
      rw [Table.rootGroups, if_pos hkey, Table.groups]
      cases rows with
      | nil => simp
      | cons row rest =>
        -- the first row opens a group
        rw [List.map_cons, firstSeen_cons_of_opens ((hrows row List.mem_cons_self).opens hkey)]
        simp
  rw [← hgroups, ← List.length_eq_zero_iff, ← List.length_eq_zero_iff, hlength]

/-! ## Commands -/

/-- The rows that meet a condition: the from clause with all joins, and the condition. -/
def Mapping.matching (m : Mapping) (j : JoinTree) (p : CompiledPredicate) : String :=
  m.source j ++ "\nwhere " ++ p.text

namespace Session

variable {σ : Type} {h : Handler σ} {s : Session} {t : Table} {m : Mapping} {e : Expr}
  {q c : Command} {xs ys : List Exchange}

/-- Two commands for the rows that meet an expression: the one selects every column of them, the
other their number. They bind the same, and from the from clause on they are one text. -/
structure SameRows (m : Mapping) (e : Expr) (q c : Command) : Prop where
  bindings : q.bindings = c.bindings
  texts : ∃ j p, m.joinTree = .ok j ∧ m.compile (some m.rootAlias) e = .ok p ∧
    q.text = "select " ++ ", ".intercalate (j.columns.map JoinTree.ResultColumn.sql) ++ "\n" ++
      m.matching j p ∧
    c.text = "select count(0) as " ++ Mapping.countAlias ++ "\n" ++ m.matching j p

/-- **There is no command for the one just if there is none for the other**, and for one reason. -/
theorem commands_together (m : Mapping) (e : Expr) :
    (∃ err, queryCommand m (some e) = .error err ∧ countCommand m e = .error err) ∨
      ∃ q c, queryCommand m (some e) = .ok q ∧ countCommand m e = .ok c ∧ SameRows m e q c := by
  unfold queryCommand countCommand Mapping.selectWhere Mapping.select Mapping.count
  cases hp : m.compile (some m.rootAlias) e with
  | error err =>
    have hp? : m.compile? (some m.rootAlias) (some e) = .error err := congrArg (Except.map some) hp
    rw [hp?]
    exact .inl ⟨err, rfl, rfl⟩
  | ok p =>
    rw [Mapping.compile?_of_compile hp]
    cases hj : m.joinTree with
    | error err => exact .inl ⟨.schema err, rfl, rfl⟩
    | ok j =>
      have hne : p.text ≠ "" := compile_qualified rfl hp
      refine .inr ⟨_, _, rfl, rfl, ?_, j, p, hj, hp, ?_, ?_⟩
      · show (Command.withPredicate _ p).bindings = (Command.withPredicate _ p).bindings
        simp [Command.bindings, Command.withPredicate_eq, Mapping.command]
      · rw [Command.withPredicate?_text]
        show Mapping.filtered _ (some p) = _
        rw [Mapping.filtered_some hne, Mapping.matching]
        simp only [String.append_assoc]
      · rw [Command.withPredicate_text]
        show Mapping.filtered _ (some p) = _
        rw [Mapping.filtered_some hne, Mapping.matching]
        simp only [String.append_assoc]

/-! ## Connections -/

/-- What comes of opening a connection. -/
def connecting (h : Handler σ) (backend : String) (st : σ) : Except BackendError Unit := do
  (h backend .connect st).1.mapError (·.within "connect")
  (h backend .open (h backend .connect st).2).1.mapError (·.within "open")

section Sends

variable {kind : StatementKind} {call : Call} {r : Except BackendError call.Reply} {st st' : σ}

/-- Whether the body of a connection goes is a matter of opening it. -/
theorem connects_of_connecting {α : Type} {backend : String} {failed : BackendError → α}
    {body : List Exchange → α → Prop} {a : α} (hconnects : Connects backend failed body xs a)
    (hgives : h.Gives st xs st') :
    (∃ err, connecting h backend st = .error err ∧ a = failed err ∧ sent xs = []) ∨
      connecting h backend st = .ok () ∧
        ∃ ys closed, xs = connected backend ys closed ∧ body ys a := by
  unfold connecting
  cases hconnects with
  | notConnected err =>
    rw [(Handler.gives_cons.mp hgives).1]
    exact .inl ⟨_, rfl, rfl, rfl⟩
  | notOpened err =>
    obtain ⟨hconnect, hgives⟩ := Handler.gives_cons.mp hgives
    rw [hconnect, (Handler.gives_cons.mp hgives).1]
    exact .inl ⟨_, rfl, rfl, rfl⟩
  | opened hbody closed =>
    obtain ⟨hconnect, hgives⟩ := Handler.gives_cons.mp hgives
    rw [hconnect, (Handler.gives_cons.mp hgives).1]
    exact .inr ⟨rfl, _, closed, rfl, hbody⟩

/-- Whether a command is sent is a matter of opening the connection. -/
theorem sent_of_connecting (hcall : call.command? = some c)
    (hgoes : (withConnection m.table.backend .error (s.send m kind c call)).Goes xs r)
    (hgives : h.Gives st xs st') :
    (∃ err, connecting h m.table.backend st = .error err ∧ r = .error err ∧ sent xs = []) ∨
      connecting h m.table.backend st = .ok () ∧ sent xs = [c] := by
  refine (connects_of_connecting (goes_withConnection hgoes) hgives).imp_right ?_
  rintro ⟨hok, ys, closed, rfl, hbody⟩
  obtain ⟨reply, rfl, -⟩ := goes_send hbody
  refine ⟨hok, ?_⟩
  rw [sent_connected, sent, List.filterMap_cons, hcall]
  rfl

/-- What is sent results in the reply to it. -/
theorem eq_ok_of_mem {reply : call.Reply} (hcall : call.command? = some c)
    (hgoes : (withConnection m.table.backend .error (s.send m kind c call)).Goes xs r)
    (hmem : ⟨m.table.backend, call, .ok reply⟩ ∈ xs) : r = .ok reply := by
  -- the other exchanges of a connection hand over no command
  have hother : ∀ {x : Exchange}, x.call.command? = none →
      ⟨m.table.backend, call, .ok reply⟩ ≠ x := by
    rintro x hx rfl
    exact Option.some_ne_none c (hcall.symm.trans hx)
  cases goes_withConnection hgoes with
  | notConnected err => exact absurd (List.mem_singleton.mp hmem) (hother rfl)
  | notOpened err =>
    rcases List.mem_pair.mp hmem with heq | heq
    · exact absurd heq (hother rfl)
    · exact absurd heq (hother rfl)
  | opened hbody closed =>
    obtain ⟨reply', rfl, rfl⟩ := goes_send hbody
    rw [connected, List.mem_cons, List.mem_cons, List.mem_append, List.mem_singleton,
      List.mem_singleton] at hmem
    rcases hmem with heq | heq | heq | heq
    · exact absurd heq (hother rfl)
    · exact absurd heq (hother rfl)
    · cases heq
      rfl
    · exact absurd heq (hother rfl)

end Sends

/-! ## Agreement -/

section Agreement

variable {st st' st₁ st₂ : σ} {r : Except MapperError (List Object)} {r' : Except MapperError Bool}

theorem query_of_command (hm : s.target t = .ok m) (hq : queryCommand m (some e) = .ok q) :
    s.query t (some e) = s.read m .select q := by
  simp [query, prepared, hm, hq, Except.mapError]

theorem existsWhere_of_command (hm : s.target t = .ok m) (hc : countCommand m e = .ok c) :
    s.existsWhere t e = s.count m c := by
  simp [existsWhere, prepared, hm, hc, Except.mapError]

/-- From one state both commands are sent, or neither is and there is one error. -/
theorem sent_together (hread : (s.read m .select q).Goes xs r) (hcount : (s.count m c).Goes ys r')
    (hxs : h.Gives st xs st₁) (hys : h.Gives st ys st₂) :
    (∃ err, r = .error err ∧ r' = .error err ∧ sent xs = [] ∧ sent ys = []) ∨
      sent xs = [q] ∧ sent ys = [c] := by
  obtain ⟨rows, hrows, rfl⟩ := goes_read hread
  obtain ⟨found, hfound, rfl⟩ := goes_count hcount
  rcases sent_of_connecting rfl hrows hxs with ⟨err, herr, rfl, hnone⟩ | ⟨hok, hsent⟩
  · rcases sent_of_connecting rfl hfound hys with ⟨err', herr', rfl, hnone'⟩ | ⟨hok, -⟩
    · obtain rfl := Except.error.inj (herr.symm.trans herr')
      exact .inl ⟨_, rfl, rfl, hnone, hnone'⟩
    · cases herr.symm.trans hok
  · rcases sent_of_connecting rfl hfound hys with ⟨err, herr, -⟩ | ⟨-, hsent'⟩
    · cases hok.symm.trans herr
    · exact .inr ⟨hsent, hsent'⟩

/-- Where the count is the number of rows, both tell whether there is an object. -/
theorem told_alike (hread : (s.read m .select q).Goes xs r) (hcount : (s.count m c).Goes ys r')
    {rows : List Row} {found : Value} {objects : List Object}
    (hrows : ⟨m.table.backend, .reader q, .ok rows⟩ ∈ xs)
    (hfound : ⟨m.table.backend, .scalar c, .ok found⟩ ∈ ys) (htold : found.IsCount rows.length)
    (hkeyed : ∀ row ∈ rows, m.table.Keyed row)
    (hobjects : materialize s.catalog m.table rows = .ok objects) :
    r = .ok objects ∧ r' = .ok !objects.isEmpty := by
  obtain ⟨reply, hreply, rfl⟩ := goes_read hread
  obtain ⟨reply', hreply', rfl⟩ := goes_count hcount
  obtain rfl := eq_ok_of_mem rfl hreply hrows
  obtain rfl := eq_ok_of_mem rfl hreply' hfound
  have hempty : isStored found = true ↔ ¬ objects.isEmpty = true := by
    rw [htold.isStored_iff, List.isEmpty_iff, materialize_eq_nil_iff hkeyed hobjects,
      List.length_pos_iff]
  refine ⟨hobjects, congrArg Except.ok ?_⟩
  rw [Bool.eq_iff_iff, hempty, Bool.not_eq_true', Bool.not_eq_true]

end Agreement

/-- **A look for rows agrees with a query for them.** Whatever the table and the expression are,

* both end with the same error before anything is exchanged, or there is a command for each, and the
  two bind the same and are one text from the from clause on,
* in whatever state a backend is then, both send their commands to it or neither does; neither does
  where no connection opens, and then they fail with the same error,
* let the backend reply to the one with rows and to the other with their number, in one state or in
  two. If each row has the key columns of the table, with values that are not null and can be read,
  which is any row where there is no key, and if objects are made of the rows, then these are what
  the query results in, and the look for rows says whether there are any. -/
theorem existsWhere_agrees (h : Handler σ) (s : Session) (t : Table) (e : Expr) :
    (∃ err, s.query t (some e) = .done (.error err) ∧ s.existsWhere t e = .done (.error err)) ∨
    ∃ m q c, s.target t = .ok m ∧ queryCommand m (some e) = .ok q ∧ countCommand m e = .ok c ∧
      SameRows m e q c ∧
      (∀ st r st₁ events r' st₂ events', (s.query t (some e)).run h st = (r, st₁, events) →
        (s.existsWhere t e).run h st = (r', st₂, events') →
        (∃ err, r = .error err ∧ r' = .error err ∧
          sent (exchanges events) = [] ∧ sent (exchanges events') = []) ∨
        sent (exchanges events) = [q] ∧ sent (exchanges events') = [c]) ∧
      ∀ st r st₁ events st' r' st₂ events' rows found objects,
        (s.query t (some e)).run h st = (r, st₁, events) →
        (s.existsWhere t e).run h st' = (r', st₂, events') →
        ⟨t.backend, .reader q, .ok rows⟩ ∈ exchanges events →
        ⟨t.backend, .scalar c, .ok found⟩ ∈ exchanges events' → found.IsCount rows.length →
        (∀ row ∈ rows, t.Keyed row) → materialize s.catalog t rows = .ok objects →
        r = .ok objects ∧ r' = .ok !objects.isEmpty := by
  cases hm : s.target t with
  | error err =>
    refine .inl ⟨.schema err, ?_, ?_⟩
    · simp [query, prepared, hm, Except.mapError]
    · simp [existsWhere, prepared, hm, Except.mapError]
  | ok m =>
    obtain rfl := target_eq_ok hm
    rcases commands_together m e with ⟨err, hq, hc⟩ | ⟨q, c, hq, hc, hsame⟩
    · refine .inl ⟨err, ?_, ?_⟩
      · simp [query, prepared, hm, hq, Except.mapError]
      · simp [existsWhere, prepared, hm, hc, Except.mapError]
    · rw [query_of_command hm hq, existsWhere_of_command hm hc]
      refine .inr ⟨m, q, c, rfl, hq, hc, hsame, ?_, ?_⟩
      · intro st r st₁ events r' st₂ events' hrun hrun'
        obtain ⟨hread, hxs⟩ := goes_of_run hrun
        obtain ⟨hcount, hys⟩ := goes_of_run hrun'
        exact sent_together hread hcount hxs hys
      · intro st r st₁ events st' r' st₂ events' rows found objects hrun hrun'
        exact told_alike (goes_of_run hrun).1 (goes_of_run hrun').1

/-! ## Guests -/

/-- A backend that has the same rows for every query. -/
def Guests.host (rows : List Row) : Handler Unit
  | _, .reader _, _ => (.ok rows, ())
  | _, .scalar _, _ => (.ok (.int (.ofNat rows.length)), ())
  | backend, other, st => Guests.answer .null backend other st

/-- A guest with the number 7. -/
def Guests.seventh : Row := ⟨[("id", .int 7), ("name", .text "Ann")]⟩

/-- The query for the guest with the number 7. -/
def Guests.selection : Command where
  object := "guests"
  text := "select guests.id as id, guests.name as name\nfrom guests\nwhere guests.id = @p0"
  parameters := [("p0", .int 7)]

/-- The look for the guest with the number 7. -/
def Guests.counting : Command where
  object := "guests"
  text := "select count(0) as tt\nfrom guests\nwhere guests.id = @p0"
  parameters := [("p0", .int 7)]

/-- The guest with the number 7 is there for both. -/
theorem existsWhere_agrees_guests :
    ∃ events events', (Guests.session.query Guests.table (some (Guests.numbered 7))).run
        (Guests.host [Guests.seventh]) () = (.ok [Guests.guest 7], (), events) ∧
      (Guests.session.existsWhere Guests.table (Guests.numbered 7)).run
        (Guests.host [Guests.seventh]) () = (.ok true, (), events') ∧
      sent (exchanges events) = [Guests.selection] ∧
      sent (exchanges events') = [Guests.counting] := by
  have hm : Guests.session.target Guests.table =
    .ok ⟨Guests.session.catalog, Guests.table, .of .sqlite⟩ := rfl
  have hselection : queryCommand ⟨Guests.session.catalog, Guests.table, .of .sqlite⟩
    (some (Guests.numbered 7)) = .ok Guests.selection := by decide +kernel
  have hcounting : countCommand ⟨Guests.session.catalog, Guests.table, .of .sqlite⟩
    (Guests.numbered 7) = .ok Guests.counting := by decide +kernel
  have hquery := query_of_command hm hselection
  have hexists := existsWhere_of_command hm hcounting
  have hkeyed : ∀ row ∈ [Guests.seventh], Guests.table.Keyed row := by decide +kernel
  have hobjects : materialize Guests.session.catalog Guests.table [Guests.seventh] =
    .ok [Guests.guest 7] := rfl
  rcases existsWhere_agrees (Guests.host [Guests.seventh]) Guests.session Guests.table
    (Guests.numbered 7) with ⟨err, hfailed, -⟩ | ⟨m, q, c, htarget, hq, hc, -, -, hagree⟩
  · cases hquery.symm.trans hfailed
  · obtain rfl := Except.ok.inj (hm.symm.trans htarget)
    obtain rfl := Except.ok.inj (hselection.symm.trans hq)
    obtain rfl := Except.ok.inj (hcounting.symm.trans hc)
    rw [hquery, hexists] at hagree ⊢
    obtain ⟨hresult, hresult'⟩ := hagree () _ _ _ () _ _ _ _ (.int 1) _ rfl rfl
      (List.mem_cons_of_mem _ (List.mem_cons_of_mem _ List.mem_cons_self))
      (List.mem_cons_of_mem _ (List.mem_cons_of_mem _ List.mem_cons_self)) (.int rfl) hkeyed
      hobjects
    exact ⟨_, _, Prod.ext hresult rfl, Prod.ext hresult' rfl, rfl, rfl⟩

end Session

end EntityMapper
