import EntityMapper.Proofs.Graph.Growth
import EntityMapper.Proofs.Graph.Reading

/-!
# How deep the reading of a row nests

Tables may refer to each other in circles, and to themselves. The objects of a row can be resolved as
they are met, each by a call that makes a call for every association of what it finds, whether it was
known before or not. Each call is about longer column names than the one that made it, so such calls
end at the longest name of the row, whatever the tables.

* `Graph.resolveRow` — reading a row by calls that nest to a given depth at most
* `resolveRow_eq_addRow` — one more than the length of the longest name is deep enough
-/

namespace EntityMapper

open EntityMapper.Graph (add addBelow keyOf place)
open Occurrence (nested? nestedIn nestedPrefix)

/-- Why a row is not read: calls would nest too deep, or the row is at fault. -/
inductive Stop
  | tooDeep
  | fault (e : MapperError)

/-- The node of an object that is there. -/
def Sighting.node? : Sighting → Option Nat
  | .new n => some n
  | .existing n => some n
  | .absent => none

namespace Graph

/-- Resolves what an object leads to, one association after the other, by a call for each. What is
new becomes a child of its node. -/
def resolveBelow (call : Table → String → Graph → Except Stop (Sighting × Graph)) (c : Catalog)
    (leading : String) (node : Nat) :
    List ((String × Association) × Nat) → Graph → Except Stop Graph
  | [], g => .ok g
  | (a, place) :: rest, g => do
    let (sighting, g) ← call (c.table a.2.target) (nestedPrefix leading a.1) g
    resolveBelow call c leading node rest (g.linkNew node place sighting)

/-- Resolves an object that may be under a prefix: its node is found or added, and then what it leads
to is resolved by calls for the object as the owner. -/
def resolveObject (call : String → Table → String → Graph → Except Stop (Sighting × Graph))
    (c : Catalog) (row : Row) (owner : String) (t : Table) (leading : String)
    (identity? : Option Identity) (g : Graph) : Except Stop (Sighting × Graph) :=
  match identity? with
  | none => .ok (.absent, g)
  | some identity =>
    match g.place (keyOf owner t identity) t (t.rowObject row leading) with
    | .error e => .error (.fault e)
    | .ok (sighting, g) =>
      match sighting.node? with
      | none => .ok (sighting, g)
      | some node => do
        let key := (keyOf owner t identity).getD (nodeText owner t.entity node)
        return (sighting, ← resolveBelow (call key) c leading node t.associations.zipIdx g)

/-- Resolves a nested object by calls that nest to a depth at most, this one included. -/
def resolve (c : Catalog) (row : Row) :
    Nat → String → Table → String → Graph → Except Stop (Sighting × Graph)
  | 0, _, _, _, _ => .error .tooDeep
  | depth + 1, owner, t, leading, g =>
    resolveObject (resolve c row depth) c row owner t leading (t.nestedIdentity? row leading) g

/-- Reads one row by calls that nest below the root to a depth at most. -/
def resolveRow (depth : Nat) (c : Catalog) (t : Table) (g : Graph) (row : Row) : Except Stop Graph :=
  match t.rootIdentity? row with
  | .error e => .error (.fault (.schema e))
  | .ok identity? => do
    let (sighting, g) ← resolveObject (resolve c row depth) c row "" t "" identity? g
    match sighting with
    | .new node => return { g with roots := g.roots ++ [node] }
    | _ => return g

/-- Reads what a row may hold of an object and of all below it. -/
def addSeen (owner : String) (o? : Option Occurrence) (g : Graph) : Except Stop (Sighting × Graph) :=
  match o? with
  | none => .ok (.absent, g)
  | some o => (add owner o g).mapError .fault

end Graph

open EntityMapper.Graph

section Calls

variable {c : Catalog} {row : Row} {t : Table} {leading owner : String}

/-- Calls that read what is seen below an object read all of it. -/
theorem resolveBelow_eq {call : Table → String → Graph → Except Stop (Sighting × Graph)}
    (node : Nat) {below : List ((String × Association) × Nat)}
    (hcall : ∀ x ∈ below, ∀ g, call (c.table x.1.2.target) (nestedPrefix leading x.1.1) g =
      addSeen owner (nested? c row (c.table x.1.2.target) (nestedPrefix leading x.1.1)) g)
    (g : Graph) :
    resolveBelow call c leading node below g =
      (addBelow owner node (below.filterMap fun x =>
        (nested? c row (c.table x.1.2.target) (nestedPrefix leading x.1.1)).map fun o => (x.2, o))
          g).mapError .fault := by
  induction below generalizing g with
  | nil => rfl
  | cons x rest ih =>
    obtain ⟨a, place⟩ := x
    obtain ⟨hfirst, hrest⟩ := List.forall_mem_cons.mp hcall
    rw [resolveBelow, hfirst]
    cases hseen : nested? c row (c.table a.2.target) (nestedPrefix leading a.1) with
    | none =>
      rw [List.filterMap_cons_none (by rw [hseen]; rfl)]
      exact ih hrest g
    | some o =>
      rw [List.filterMap_cons_some (by rw [hseen]; rfl), addBelow, addSeen]
      cases add owner o g with
      | error e => rfl
      | ok s =>
        obtain ⟨sighting, g⟩ := s
        cases sighting with
        | new | existing | absent => exact ih hrest _

/-- An object whose calls read what is seen below it is read with all below it. -/
theorem resolveObject_eq {call : String → Table → String → Graph → Except Stop (Sighting × Graph)}
    (hcall : ∀ owner, ∀ a ∈ t.associations, ∀ g,
      call owner (c.table a.2.target) (nestedPrefix leading a.1) g =
        addSeen owner (nested? c row (c.table a.2.target) (nestedPrefix leading a.1)) g)
    (identity? : Option Identity) (g : Graph) :
    resolveObject call c row owner t leading identity? g =
      addSeen owner (identity?.map fun identity =>
        .mk t identity (t.rowObject row leading) (nestedIn c row t leading)) g := by
  cases identity? with
  | none => rfl
  | some identity =>
    have hbelow (owner : String) (node : Nat) (g : Graph) :
        resolveBelow (call owner) c leading node t.associations.zipIdx g =
          (addBelow owner node (nestedIn c row t leading) g).mapError .fault :=
      resolveBelow_eq node (fun x hx => hcall owner x.1 (List.fst_mem_of_mem_zipIdx hx)) g
    rw [resolveObject, Option.map_some]
    show _ = (add owner _ g).mapError Stop.fault
    rw [add]
    cases g.place (keyOf owner t identity) t (t.rowObject row leading) with
    | error e => rfl
    | ok s =>
      obtain ⟨sighting, g⟩ := s
      cases sighting with
      | absent => rfl
      | new node | existing node =>
        simp only [Sighting.node?, hbelow]
        cases addBelow _ node (nestedIn c row t leading) g with
        | error e => rfl
        | ok g => rfl

/-- Below a prefix, calls that may nest deeper than names are longer read all that is seen. -/
theorem resolve_eq {depth : Nat} (h : View.room ⟨row, leading⟩ < depth) (owner : String) (t : Table)
    (g : Graph) :
    resolve c row depth owner t leading g = addSeen owner (nested? c row t leading) g := by
  induction depth generalizing leading owner t g with
  | zero => exact absurd h (Nat.not_lt_zero _)
  | succ depth ih =>
    rw [resolve, nested?_eq c t ⟨row, leading⟩]
    cases hidentity : t.nestedIdentity? row leading with
    | none => rfl
    | some identity =>
      -- an object is there, so its prefix is not longer than the longest name
      have hroom : 0 < View.room ⟨row, leading⟩ := room_pos_of_nested? (c := c) (t := t) <| by
        rw [nested?_eq, hidentity]
        rfl
      refine resolveObject_eq (fun owner a _ g => ih ?_ owner _ g) _ g
      exact Nat.lt_of_lt_of_le (View.room_through_lt (v := ⟨row, leading⟩) a.1 hroom)
        (Nat.le_of_lt_succ h)

/-- The root of a row is what identifies it with what is seen below it. -/
theorem ofRow_eq {identity? : Option Identity} (h : t.rootIdentity? row = .ok identity?) :
    Occurrence.ofRow c t row = .ok (identity?.map fun identity =>
      .mk t identity (t.rowObject row "") (nestedIn c row t "")) := by
  rw [Occurrence.ofRow, h]
  rfl

end Calls

/-- **Calls nest no deeper than the longest name of a row is long, and once more**: with room for
that many below the root no row is too deep, and more room changes nothing. Each row and all rows are
read as if there were no bound, whatever tables refer to each other and whatever objects are known. -/
theorem resolveRow_eq_addRow (c : Catalog) (t : Table) :
    (∀ (g : Graph) (row : Row) (more : Nat),
      resolveRow (row.longestName + 1 + more) c t g row = (addRow c t g row).mapError Stop.fault) ∧
    ∀ rows : List Row,
      rows.foldlM (fun g row => resolveRow (row.longestName + 1) c t g row) {} =
        (ofRows c t rows).mapError Stop.fault := by
  have hrow (g : Graph) (row : Row) (more : Nat) :
      resolveRow (row.longestName + 1 + more) c t g row =
        (addRow c t g row).mapError Stop.fault := by
    have hcall (owner : String) (a : String × Association) (g : Graph) :
        resolve c row (row.longestName + 1 + more) owner (c.table a.2.target)
            (nestedPrefix "" a.1) g =
          addSeen owner (nested? c row (c.table a.2.target) (nestedPrefix "" a.1)) g := by
      have hroom := View.room_through_lt (v := .ofRow row) a.1 (Nat.succ_pos _)
      exact resolve_eq (Nat.lt_of_lt_of_le hroom (Nat.le_add_right _ more)) owner _ g
    rw [resolveRow, addRow]
    cases hroot : t.rootIdentity? row with
    | error e =>
      rw [Occurrence.ofRow, hroot]
      rfl
    | ok identity? =>
      dsimp only
      rw [resolveObject_eq fun owner a _ g => hcall owner a g, ofRow_eq hroot]
      cases identity? with
      | none => rfl
      | some identity =>
        rw [Option.map_some, addSeen]
        dsimp only
        cases add "" _ g with
        | error e => rfl
        | ok s =>
          obtain ⟨sighting, g⟩ := s
          cases sighting with
          | new | existing | absent => rfl
  refine ⟨hrow, fun rows => ?_⟩
  rw [ofRows, ← foldlM_mapError]
  exact congrArg (fun f => rows.foldlM f {}) (funext fun g => funext fun row => hrow g row 0)

namespace Machine

/-- Parts, which have no key and consist of parts. -/
def part : Table where
  entity := "Part"
  tableName := "parts"
  fields := [.ofType "name" { scalar := .text },
    .ofAssociation "of" ⟨.many, "name", "whole", "Part"⟩]

/-- A row of a part of a part. -/
def row : Row := ⟨[("name", .text "wheel"), ("of_name", .text "spoke")]⟩

end Machine

/-- A part of a part is looked for in what is found, so one level below the root is too little. -/
example :
    (resolveRow 1 ⟨[Machine.part]⟩ Machine.part {} Machine.row matches .error .tooDeep) = true ∧
      (resolveRow 2 ⟨[Machine.part]⟩ Machine.part {} Machine.row).isOk = true ∧
      Machine.row.longestName + 1 = 8 := by
  decide +kernel

end EntityMapper
