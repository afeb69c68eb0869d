import EntityMapper.Text.Quoted

/-!
# The structure of data as text

How data is shown to someone who looks for a fault: a constructor with its arguments in
parentheses, a record with the names of its fields in braces. A record may hold more than it shows.
-/

namespace EntityMapper

/-- A constructor with its arguments. -/
def appliedText (name : String) (args : List String) : String :=
  name ++ "(" ++ ", ".intercalate args ++ ")"

/-- The fields of a record, each with its name. -/
def fieldTexts (fields : List (String × String)) : List String :=
  fields.map fun f => f.1 ++ ": " ++ f.2

/-- A record with all its fields. -/
def recordText (name : String) (fields : List (String × String)) : String :=
  name ++ " \x7b " ++ ", ".intercalate (fieldTexts fields) ++ " \x7d"

/-- A record with some of its fields. -/
def openRecordText (name : String) (fields : List (String × String)) : String :=
  name ++ " \x7b " ++ ", ".intercalate (fieldTexts fields ++ [".."]) ++ " \x7d"

/-- What may be missing. -/
def optionText : Option String → String
  | none => "None"
  | some s => appliedText "Some" [s]

/-- A truth value. -/
def boolText (b : Bool) : String := if b then "true" else "false"

end EntityMapper
