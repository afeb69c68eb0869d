import Mathlib.Data.List.Infix
import EntityMapper.Backend.Embedded
import EntityMapper.Session.Define
import EntityMapper.Session.Write

/-!
# What a created table requires of an insert

A table is created with columns that may be null and columns that may not, and none has a default.
An insert writes the columns that are saved and that the backend does not fill. Which columns are
required and which are written is decided in two places by different flags, and the two do not
agree: the table then refuses each insert, and those of a rebuild too.

* `Mapping.demands_iff` — the columns that are declared so that they may not be null
* `Mapping.demanded_left_out_iff` — an insert leaves out of these what is computed or not saved, and
  an identity that could not be declared as one
* `Pairs.rows_lost` — a table with such a column takes no rows, and loses those that it has
-/

namespace EntityMapper

/-- A text that ends in `back` ends in it within its last part, where that is no shorter. -/
theorem suffix_of_append_eq {s r front back : String} (h : s ++ r = front ++ back)
    (hlength : back.toList.length ≤ r.toList.length) : back.toList <:+ r.toList := by
  have hwhole : back.toList <:+ (s ++ r).toList := by
    rw [h, String.toList_append]
    exact List.suffix_append _ _
  rw [String.toList_append] at hwhole
  exact List.suffix_of_suffix_length_le hwhole (List.suffix_append _ _) hlength

/-! ## The ends of declarations -/

namespace Dialect

/-- What stands behind the name of a column that may be null does not end as if it might not. -/
theorem not_suffix_columnType (d : Dialect) (type : ValueType) :
    9 ≤ (" " ++ d.columnType type ++ " null").toList.length ∧
      ¬ " not null".toList <:+ (" " ++ d.columnType type ++ " null").toList := by
  change 9 ≤ (" " ++ (Dialect.of d.database).columnType type ++ " null").toList.length ∧
    ¬ " not null".toList <:+ (" " ++ (Dialect.of d.database).columnType type ++ " null").toList
  cases d.database <;> cases type <;> decide

/-- Nor does what stands behind the name of an identity column. -/
theorem not_suffix_identityColumn (d : Dialect) :
    9 ≤ (" " ++ d.identityColumn).toList.length ∧
      ¬ " not null".toList <:+ (" " ++ d.identityColumn).toList := by
  change 9 ≤ (" " ++ (Dialect.of d.database).identityColumn).toList.length ∧
    ¬ " not null".toList <:+ (" " ++ (Dialect.of d.database).identityColumn).toList
  cases d.database <;> decide

end Dialect

namespace Mapping

variable {m : Mapping} {f : Field}

/-! ## Columns that may not be null -/

/-- The declaration of a column says that it may not be null. -/
def Demands (m : Mapping) (f : Field) : Prop :=
  ∃ front, m.columnDefinition f = front ++ " not null"

/-- A column is declared as an identity. -/
def DeclaresIdentity (m : Mapping) (f : Field) : Prop :=
  f.isIdentity = true ∧ (m.inlineKey = true ∨ m.dialect.inlineIdentityKey = false)

theorem columnDefinition_identity (h : m.DeclaresIdentity f) :
    m.columnDefinition f = f.name ++ (" " ++ m.dialect.identityColumn) := by
  obtain ⟨hidentity, hplace⟩ := h
  rw [columnDefinition, if_pos (by simpa [hidentity] using hplace), ← String.append_assoc]
  rfl

theorem columnDefinition_plain (h : ¬ m.DeclaresIdentity f) :
    m.columnDefinition f = f.name ++ " " ++ m.dialect.columnType f.valueType ++ " " ++
      if f.isNullable then "null" else "not null" := by
  rw [columnDefinition, if_neg (by simpa [DeclaresIdentity] using h)]
  rfl

/-- The columns that may not be null are those of types that are never absent, apart from an
identity that is declared as one. -/
theorem demands_iff : m.Demands f ↔ f.isNullable = false ∧ ¬ m.DeclaresIdentity f := by
  constructor
  · rintro ⟨front, hfront⟩
    have hplain : ¬ m.DeclaresIdentity f := by
      intro hidentity
      rw [columnDefinition_identity hidentity] at hfront
      obtain ⟨hlength, hends⟩ := m.dialect.not_suffix_identityColumn
      exact hends (suffix_of_append_eq hfront hlength)
    refine ⟨Bool.eq_false_iff.mpr fun hnullable => ?_, hplain⟩
    have htext : m.columnDefinition f =
        f.name ++ (" " ++ m.dialect.columnType f.valueType ++ " null") := by
      rw [columnDefinition_plain hplain, if_pos hnullable]
      simp only [String.append_assoc]
      rfl
    rw [htext] at hfront
    obtain ⟨hlength, hends⟩ := m.dialect.not_suffix_columnType f.valueType
    exact hends (suffix_of_append_eq hfront hlength)
  · rintro ⟨hnullable, hplain⟩
    refine ⟨f.name ++ " " ++ m.dialect.columnType f.valueType, ?_⟩
    rw [columnDefinition_plain hplain, hnullable, String.append_assoc]
    rfl

/-! ## Columns of an insert -/

/-- **What an insert leaves out of what a created table requires.** In every table and dialect an
insert writes no column just if each one is not saved or is filled by the backend. A column that is
declared so that it may not be null is left out just if its type is never absent and it is computed,
or not saved, or an identity that the dialect can declare as the whole key only and that is not the
whole key. -/
theorem demanded_left_out_iff (m : Mapping) :
    (m.insertColumns true = [] ↔
      ∀ f ∈ m.table.scalarFields, f.options.ignoreForSave = true ∨ f.isAutomatic = true) ∧
    ∀ f ∈ m.table.scalarFields, m.Demands f ∧ f ∉ m.insertColumns true ↔
      f.isNullable = false ∧ (f.options.automatic = .computed ∨
        f.options.automatic = .none ∧ f.options.ignoreForSave = true ∨
        f.options.automatic = .identity ∧ m.dialect.inlineIdentityKey = true ∧
          m.inlineKey = false) := by
  constructor
  · rw [List.eq_nil_iff_forall_not_mem]
    refine forall_congr' fun f => ?_
    rw [mem_insertColumns, not_and, not_and_or, Bool.not_eq_false, Bool.not_eq_false]
  · intro f hf
    rw [demands_iff, mem_insertColumns, and_assoc]
    refine and_congr_right fun _ => ?_
    cases hautomatic : f.options.automatic with
    | none => simp [hf, DeclaresIdentity, Field.isIdentity, Field.isAutomatic, hautomatic]
    | computed => simp [DeclaresIdentity, Field.isIdentity, Field.isAutomatic, hautomatic]
    | identity =>
      -- an identity that may not be null was not declared as one
      simp [DeclaresIdentity, Field.isIdentity, Field.isAutomatic, hautomatic, and_comm]

end Mapping

/-! ## A computed column -/

namespace Pairs

/-- Notes under two names, with a text that the backend computes. -/
def table : Table where
  entity := "Pair"
  tableName := "Pairs"
  fields := [.ofType "a" { scalar := .text } { primaryKey := true },
    .ofType "b" { scalar := .text } { primaryKey := true },
    .ofType "note" { scalar := .text },
    .ofType "slug" { scalar := .text } { automatic := .computed }]

def mapping : Mapping := ⟨⟨[table]⟩, table, .of .sqlite⟩

def session : Session where
  catalog := ⟨[table]⟩
  backends := ⟨[(defaultBackend, .of .sqlite)]⟩

/-- A note. -/
def pair : Object where
  typeId := "Pair"
  values := [.text "x", .text "y", .text "n", .text ""]
  children := []

/-- The backend that keeps the notes, in memory. -/
def answer : Program.Handler Embedded := fun _ => Embedded.answer

/-- A statement on the notes over an open connection. -/
def execute (sql : String) (e : Embedded) : Embedded :=
  (Embedded.answer (.execute ⟨"Pairs", sql, [], none⟩) e).2

/-- A table of notes that was made with an optional text, and has a row. -/
def stored : Embedded :=
  execute "insert into Pairs (a, b, note, slug) values ('x', 'y', 'n', 'x-y')" <|
    execute "create table Pairs (a text, b text, note text, slug text)"
      (Embedded.openHandle { location := .memory }).2

/-- How many rows each table has. -/
def counts (e : Embedded) : List (String × Nat) :=
  e.handle.store.tables.map fun t => (t.name, t.rows.length)

end Pairs

open Pairs in
/-- The text is required of each note and never inserted. -/
theorem Mapping.demanded_left_out_slug :
    mapping.Demands (.ofType "slug" { scalar := .text } { automatic := .computed }) ∧
      (.ofType "slug" { scalar := .text } { automatic := .computed } : Field) ∉
        mapping.insertColumns true :=
  ((demanded_left_out_iff mapping).2 _ (by decide)).mpr ⟨rfl, .inl rfl⟩

open Pairs in
/-- The table that is created for notes refuses a note, and a table with a note that is rebuilt
has none afterwards. -/
theorem Pairs.rows_lost :
    let created := ((session.createTable table).run answer { location := .memory }).2.1
    let inserted := (session.insert ⟨table, id⟩ {} pair).run answer created
    let rebuilt := (session.alterTable ⟨table, id⟩).run answer stored
    inserted.1.1.toOption.map (fun o => (o.affected, o.message)) =
        some (-1, some "Insert Pairs: execute: NOT NULL constraint failed: Pairs.slug") ∧
      counts inserted.2.1 = [("Pairs", 0)] ∧
      counts stored = [("Pairs", 1)] ∧ rebuilt.1.isOk = false ∧
      counts rebuilt.2.1 = [("Pairs", 0)] := by
  decide +kernel

end EntityMapper
