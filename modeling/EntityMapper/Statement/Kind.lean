/-!
# Kinds of statement

What a statement does; a write also reports its outcome under this kind.
-/

namespace EntityMapper

/-- What a statement does. -/
inductive StatementKind
  | none
  | insert
  | update
  | delete
  | deleteAll
  | select
  | reload
  | unknown
  | existenceCheck
  | createTable
  | dropTable
deriving DecidableEq, Repr, Inhabited

namespace StatementKind

/-- The name of a kind. -/
def name : StatementKind → String
  | .none => "None"
  | .insert => "Insert"
  | .update => "Update"
  | .delete => "Delete"
  | .deleteAll => "DeleteAll"
  | .select => "Select"
  | .reload => "SelectReload"
  | .unknown => "UnknownStatement"
  | .existenceCheck => "ExistenceCheck"
  | .createTable => "CreateTable"
  | .dropTable => "DropTable"

/-- All kinds. -/
def all : List StatementKind :=
  [.none, .insert, .update, .delete, .deleteAll, .select, .reload, .unknown, .existenceCheck,
   .createTable, .dropTable]

/-- The kind of a name. -/
def ofName? (s : String) : Option StatementKind := all.find? fun k => k.name == s

/-- Whether a statement changes stored rows. -/
def isWrite : StatementKind → Bool
  | .insert => true
  | .update => true
  | .delete => true
  | .deleteAll => true
  | _ => false

end StatementKind

end EntityMapper
