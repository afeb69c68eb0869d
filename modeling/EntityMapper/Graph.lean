import EntityMapper.Graph.Occurrence

/-!
# Object graphs from joined rows

An object is identified by its key and by the object that owns it, so a parent that a join repeats
is built once and collects one child for each distinct key. Objects wait in numbered nodes while
rows are read; at the end each is put into its owner, which always has a lower number.
-/

namespace EntityMapper

/-! ## Keys as text -/

/-- A part of a key as text: its length keeps parts from running into each other. -/
def keyPartText : KeyPart → String
  | some s => "|" ++ toString s.utf8ByteSize ++ ":" ++ s
  | none => "|~"

/-- The text that identifies a keyed object below the owner that `owner` identifies. -/
def keyText (owner entity : String) (parts : List KeyPart) : String :=
  owner ++ "/" ++ entity ++ String.join (parts.map keyPartText)

/-- The text that identifies a keyless object, by the number of its node. -/
def nodeText (owner entity : String) (node : Nat) : String :=
  owner ++ "/" ++ entity ++ "#" ++ toString node

/-! ## The graph while rows are read -/

/-- An object that is being built. A child is the place of the association and a node number. -/
structure Node where
  table : Table
  object : Object
  children : List (Nat × Nat) := []

/-- The nodes, the numbers of those that have a key, and the numbers of the roots. -/
structure Graph where
  nodes : List Node := []
  keys : List (String × Nat) := []
  roots : List Nat := []

/-- What became of an object of a row. -/
inductive Sighting
  | new (node : Nat)
  | existing (node : Nat)
  | absent
deriving DecidableEq, Repr

namespace Graph

/-- Adds a node, under its key if it has one. -/
def push (g : Graph) (node : Node) (key : Option String) : Graph :=
  { g with
    nodes := g.nodes ++ [node]
    keys := key.elim g.keys fun k => (k, g.nodes.length) :: g.keys }

/-- Puts a node among the children of another. -/
def link (g : Graph) (owner place child : Nat) : Graph :=
  { g with nodes := g.nodes.modify owner fun n => { n with children := n.children ++ [(place, child)] } }

/-- The key text of an object below an owner, if it has a key. -/
def keyOf (owner : String) (t : Table) : Identity → Option String
  | .keyed parts => some (keyText owner t.entity parts)
  | .keyless => none

/-- Finds the node of an object, or adds one. An object whose key columns cannot hold their values
is not there. -/
def place (g : Graph) (key : Option String) (t : Table)
    (object : Except FieldCoercionError (Option Object)) :
    Except MapperError (Sighting × Graph) :=
  match key.bind fun k => g.keys.lookup k with
  | some node => .ok (.existing node, g)
  | none =>
    match object with
    | .error e => .error (.coercion e)
    | .ok none => .ok (.absent, g)
    | .ok (some o) => .ok (.new g.nodes.length, g.push { table := t, object := o } key)

mutual

/-- Adds what a row holds of an object and of all below it. Objects below are looked at for every
row, also where their owner is known already. -/
def add (owner : String) (o : Occurrence) (g : Graph) : Except MapperError (Sighting × Graph) :=
  match o with
  | .mk t identity object below =>
    match g.place (keyOf owner t identity) t object with
    | .error e => .error e
    | .ok (.absent, g) => .ok (.absent, g)
    | .ok (.new node, g) =>
      (addBelow ((keyOf owner t identity).getD (nodeText owner t.entity node)) node below g).map
        fun g => (.new node, g)
    | .ok (.existing node, g) =>
      (addBelow ((keyOf owner t identity).getD (nodeText owner t.entity node)) node below g).map
        fun g => (.existing node, g)

/-- Adds what a row holds below an object; what is new becomes its child. -/
def addBelow (owner : String) (node : Nat) (below : List (Nat × Occurrence)) (g : Graph) :
    Except MapperError Graph :=
  match below with
  | [] => .ok g
  | (place, o) :: rest =>
    match add owner o g with
    | .error e => .error e
    | .ok (.new child, g) => addBelow owner node rest (g.link node place child)
    | .ok (_, g) => addBelow owner node rest g

end

/-- Reads one row: a root that is new joins the roots. -/
def addRow (c : Catalog) (t : Table) (g : Graph) (row : Row) : Except MapperError Graph :=
  match Occurrence.ofRow c t row with
  | .error e => .error (.schema e)
  | .ok none => .ok g
  | .ok (some o) =>
    match add "" o g with
    | .error e => .error e
    | .ok (.new node, g) => .ok { g with roots := g.roots ++ [node] }
    | .ok (_, g) => .ok g

/-- Reads all rows in order. -/
def ofRows (c : Catalog) (t : Table) (rows : List Row) : Except MapperError Graph :=
  rows.foldlM (addRow c t) {}

/-! ## The objects -/

/-- The failure of an object that was to go where none goes. -/
def misplaced (t : Table) : SchemaError := .accessorMismatch t.entity ""

/-- Adds an object to those of an association: the last one stays where there is room for one. -/
def attach (cardinality : Cardinality) (child : Object) (siblings : List Object) : List Object :=
  match cardinality with
  | .many => siblings ++ [child]
  | .one => [child]

/-- Puts the children of a node into its object; `later` has the objects of the nodes from number
`first` on. -/
def completeNode (n : Node) (first : Nat) (later : List Object) : Except SchemaError Object :=
  n.children.foldlM (fun o (place, child) =>
    match n.table.associations[place]?, (if first ≤ child then later[child - first]? else none) with
    | some a, some c =>
      .ok { o with children := o.children.modify place (attach a.2.cardinality c) }
    | _, _ => .error (misplaced n.table)) n.object

/-- The objects of the nodes from number `first` on, each with its children. -/
def complete (first : Nat) : List Node → Except SchemaError (List Object)
  | [] => .ok []
  | n :: rest => do
    let later ← complete (first + 1) rest
    return (← completeNode n (first + 1) later) :: later

/-- The root objects, in the order in which they were first seen. -/
def assemble (g : Graph) : Except SchemaError (List Object) := do
  let objects ← complete 0 g.nodes
  g.roots.mapM fun node =>
    match objects[node]?, g.nodes[node]? with
    | some o, _ => .ok o
    | none, some n => .error (misplaced n.table)
    | none, none => .error (.accessorMismatch "" "")

end Graph

/-- The objects that joined rows describe, in the order in which they were first seen. -/
def materialize (c : Catalog) (t : Table) (rows : List Row) : Except MapperError (List Object) :=
  match Graph.ofRows c t rows with
  | .error e => .error e
  | .ok g =>
    match g.assemble with
    | .error e => .error (.schema e)
    | .ok objects => .ok objects

end EntityMapper
