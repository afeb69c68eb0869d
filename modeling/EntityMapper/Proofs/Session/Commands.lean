import EntityMapper.Proofs.Filter.Resolved
import EntityMapper.Session.Write

/-!
# The commands of predicates

What a query, a count and a deletion of many rows are made of: a statement without its condition, a
compiled predicate, and the parameters of that.

* `Command.withPredicate_eq` — the parameters of a predicate, each under its bare name
* `queryCommand_ok`, `countCommand_ok`, `deleteAllCommand_ok` — the commands that there are
-/

namespace EntityMapper

variable {m : Mapping} {e : Expr} {condition : Option Expr} {c : Command}

/-- The parameters of a predicate come after those of the command, each under its bare name. -/
theorem Command.withPredicate_eq (c : Command) (p : CompiledPredicate) :
    c.withPredicate p = { c with
      parameters := c.parameters ++ p.parameters.map fun b => (bareName c.object b.1, b.2) } := by
  unfold withPredicate
  induction p.parameters generalizing c with
  | nil => simp
  | cons b rest ih =>
    rw [List.foldl_cons, ih]
    simp [withParameter]

@[simp] theorem Command.withPredicate_text (c : Command) (p : CompiledPredicate) :
    (c.withPredicate p).text = c.text := by rw [withPredicate_eq]

@[simp] theorem Command.withPredicate?_text (c : Command) (p : Option CompiledPredicate) :
    (c.withPredicate? p).text = c.text := by
  cases p with
  | none => rfl
  | some p => exact c.withPredicate_text p

namespace Mapping

/-- A statement with a condition that is not empty. -/
theorem filtered_some {p : CompiledPredicate} (h : p.text ≠ "") (sql : String) :
    filtered sql (some p) = sql ++ "\nwhere " ++ p.text := by
  have hempty : ¬ p.isEmpty = true := by simpa [CompiledPredicate.isEmpty] using h
  exact if_neg hempty

/-- A predicate that there is compiles to one that there is. -/
theorem compile?_some {rootAlias : Option String} {p : Option CompiledPredicate}
    (h : m.compile? rootAlias (some e) = .ok p) :
    ∃ q, p = some q ∧ m.compile rootAlias e = .ok q := by
  have h : (m.compile rootAlias e).map some = .ok p := h
  obtain ⟨q, hq, rfl⟩ := map_eq_ok.mp h
  exact ⟨q, rfl, hq⟩

theorem compile?_of_compile {rootAlias : Option String} {p : CompiledPredicate}
    (h : m.compile rootAlias e = .ok p) : m.compile? rootAlias (some e) = .ok (some p) :=
  congrArg (Except.map some) h

/-- The count of rows without a condition. -/
def countAll (m : Mapping) (j : JoinTree) : String :=
  "select count(0) as " ++ countAlias ++ "\n" ++ m.source j

end Mapping

namespace Session

/-- The command of a query. -/
theorem queryCommand_ok (h : queryCommand m condition = .ok c) :
    ∃ p sql, m.compile? (some m.rootAlias) condition = .ok p ∧ m.select = .ok sql ∧
      c = (m.command (Mapping.filtered sql p)).withPredicate? p := by
  unfold queryCommand at h
  obtain ⟨p, hp, h⟩ := exists_of_bind_eq_ok h
  obtain ⟨text, htext, h⟩ := exists_of_bind_eq_ok h
  have hselect : m.selectWhere p = .ok text := mapError_eq_ok htext
  unfold Mapping.selectWhere at hselect
  obtain ⟨sql, hsql, hselect⟩ := exists_of_bind_eq_ok hselect
  obtain rfl := Except.ok.inj hselect
  exact ⟨p, sql, hp, hsql, (Except.ok.inj h).symm⟩

/-- The command of a count. -/
theorem countCommand_ok (h : countCommand m e = .ok c) :
    ∃ p j, m.compile (some m.rootAlias) e = .ok p ∧ m.joinTree = .ok j ∧
      c = (m.command (Mapping.filtered (m.countAll j) (some p))).withPredicate p := by
  unfold countCommand at h
  obtain ⟨p, hp, h⟩ := exists_of_bind_eq_ok h
  obtain ⟨text, htext, h⟩ := exists_of_bind_eq_ok h
  have hcount : m.count (some p) = .ok text := mapError_eq_ok htext
  unfold Mapping.count at hcount
  obtain ⟨j, hj, hcount⟩ := exists_of_bind_eq_ok hcount
  obtain rfl := Except.ok.inj hcount
  exact ⟨p, j, hp, hj, (Except.ok.inj h).symm⟩

/-- The command of a deletion of many rows. -/
theorem deleteAllCommand_ok (h : deleteAllCommand m condition = .ok c) :
    ∃ p, m.compile? none condition = .ok p ∧
      c = (m.command (Mapping.filtered ("delete from " ++ m.table.name) p)).withPredicate? p := by
  unfold deleteAllCommand at h
  obtain ⟨p, hp, h⟩ := exists_of_bind_eq_ok h
  refine ⟨p, hp, ?_⟩
  obtain rfl := Except.ok.inj h
  have htext : s!"delete from {m.table.name}" = "delete from " ++ m.table.name := rfl
  rw [Mapping.deleteAll, htext]

end Session

end EntityMapper
