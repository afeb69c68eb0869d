import EntityMapper.Declaration.Path

/-!
# Attributes of a declaration

How a type is mapped is said by attributes on it and on its fields. An attribute is a group of
items, and an item is a key that may have a value. Each item is one setting; what a list of settings
means does not depend on how they are grouped, and hardly on their order: of two values for one key
the last counts.
-/

namespace EntityMapper

/-! ## Items -/

/-- The value of an item: a text, or a number as it is written. -/
inductive AttributeValue
  | text (s : String)
  | number (literal : String)
deriving DecidableEq, Repr, Inhabited

/-- A key, with its value if it has one. -/
structure AttributeItem where
  key : String
  value : Option AttributeValue := none
deriving DecidableEq, Repr, Inhabited

/-- An attribute: its name, and its items in parentheses if it has any parentheses. -/
structure AttributeGroup where
  name : String
  items : Option (List AttributeItem) := none
deriving DecidableEq, Repr, Inhabited

/-- What an attribute stands on; it is also the name of the attributes that count there. -/
inductive AttributeTarget
  | entity
  | field
deriving DecidableEq, Repr, Inhabited

/-- The name of the attributes that count. -/
def AttributeTarget.name : AttributeTarget → String
  | .entity => "entity"
  | .field => "field"

/-! ## Errors -/

/-- What is wrong with attributes. -/
inductive AttributeError
  | unknownKey (target : AttributeTarget)
  | missingValue
  | notText
  | notInteger
  /-- a key that takes no value has one -/
  | strayValue
  | missingItems (target : AttributeTarget)
  | badPath (fault : PathFault)
  | shownWithoutDatabase
  | severalRoles
  | identityAndComputed
  | columnsWithoutRole
  | flagsWithRole
deriving DecidableEq, Repr, Inhabited

/-- The wording of what is wrong with attributes. -/
def AttributeError.message : AttributeError → String
  | .unknownKey target => s!"unknown {target.name} attribute"
  | .missingValue => "expected `=`"
  | .notText => "expected string literal"
  | .notInteger => "expected integer literal"
  | .strayValue => "expected `,`"
  | .missingItems target => s!"expected attribute arguments in parentheses: #[{target.name}(...)]"
  | .badPath fault => fault.message
  | .shownWithoutDatabase => "prefix_database_name requires database = \"...\""
  | .severalRoles => "choose one of one_to_many, one_to_one, or skip"
  | .identityAndComputed => "a field cannot be both identity and computed"
  | .columnsWithoutRole => "join columns apply to one_to_many and one_to_one fields only"
  | .flagsWithRole => "association fields take only parent_column and child_column"

/-! ## Integer literals -/

/-- The value of a digit in a base. -/
def baseDigit? (base : Nat) (c : Char) : Option Nat :=
  let n :=
    if c.isDigit then c.toNat - '0'.toNat
    else if 'a' ≤ c.toLower ∧ c.toLower ≤ 'f' then 10 + (c.toLower.toNat - 'a'.toNat)
    else base
  if n < base then some n else none

/-- The base of a number and what follows the mark of the base. -/
def baseOf : List Char → Nat × List Char
  | '0' :: 'x' :: r => (16, r)
  | '0' :: 'o' :: r => (8, r)
  | '0' :: 'b' :: r => (2, r)
  | r => (10, r)

/-- Whether an exponent makes a float of a decimal: an `e` and a digit, bars between them or not. -/
def hasExponent : List Char → Bool
  | c :: r => (c == 'e' || c == 'E') && (match r.dropWhile (· == '_') with
    | d :: _ => d.isDigit || d == '+' || d == '-'
    | [] => false)
  | [] => false

/-- The value of an integer literal: digits of its base with bars between them, and perhaps the name
of its type. -/
def integerLiteral? (literal : String) : Option Int :=
  let (negative, cs) := match literal.toList with
    | '-' :: r => (true, r)
    | r => (false, r)
  let (base, cs) := baseOf cs
  let isPart (c : Char) : Bool := c == '_' || (baseDigit? base c).isSome
  let digits := (cs.takeWhile isPart).filterMap (baseDigit? base)
  let rest := cs.dropWhile isPart
  let suffixed := match rest with
    | [] => true
    | c :: r => Lexeme.startsName c && r.all Lexeme.continuesName
  let value := digits.foldl (fun n d => base * n + d) 0
  let starts := base != 10 || (cs.head?.any Char.isDigit)
  if starts && !digits.isEmpty && suffixed && !(base == 10 && hasExponent rest) then
    some (if negative then -(value : Int) else value)
  else none

/-! ## Values -/

namespace AttributeItem

/-- The text that a key is given. -/
def text (i : AttributeItem) : Except AttributeError String :=
  match i.value with
  | none => .error .missingValue
  | some (.text s) => .ok s
  | some (.number _) => .error .notText

/-- The integer that a key is given, as it is written. -/
def integer (i : AttributeItem) : Except AttributeError String :=
  match i.value with
  | none => .error .missingValue
  | some (.text _) => .error .notInteger
  | some (.number literal) =>
    if (integerLiteral? literal).isSome then .ok literal else .error .notInteger

/-- The setting of a key that takes no value. -/
def flag {α : Type} (i : AttributeItem) (setting : α) : Except AttributeError α :=
  if i.value.isSome then .error .strayValue else .ok setting

end AttributeItem

/-- The settings of the attributes that count on a target, in order. The first fault counts. -/
def settingsOf {α : Type} (target : AttributeTarget) (read : AttributeItem → Except AttributeError α)
    (groups : List AttributeGroup) : Except AttributeError (List α) := do
  let settings ← (groups.filter fun g => g.name == target.name).mapM fun g =>
    match g.items with
    | none => .error (.missingItems target)
    | some items => items.mapM read
  return settings.flatten

/-! ## On a type -/

/-- A setting of a type. -/
inductive EntitySetting
  | table (name : String)
  | database (name : String)
  | showDatabase
  | backend (name : String)
  | assignKeys (path : List Lexeme)
deriving DecidableEq, Repr, Inhabited

/-- The setting that an item is. -/
def EntitySetting.ofItem (i : AttributeItem) : Except AttributeError EntitySetting :=
  match i.key with
  | "table" => .table <$> i.text
  | "database" => .database <$> i.text
  | "prefix_database_name" => i.flag .showDatabase
  | "backend" => .backend <$> i.text
  | "assign_keys" => do
    match pathOfText (← i.text) with
    | .ok path => return .assignKeys path
    | .error fault => throw (.badPath fault)
  | _ => .error (.unknownKey .entity)

/-- How a type is mapped. -/
structure EntityAttributes where
  table : Option String := none
  database : Option String := none
  showDatabase : Bool := false
  backend : Option String := none
  assignKeys : Option (List Lexeme) := none
deriving DecidableEq, Repr, Inhabited

namespace EntityAttributes

/-- What a list of settings means. -/
def ofSettings (settings : List EntitySetting) : EntityAttributes where
  table := (settings.filterMap fun | .table n => some n | _ => none).getLast?
  database := (settings.filterMap fun | .database n => some n | _ => none).getLast?
  showDatabase := settings.contains .showDatabase
  backend := (settings.filterMap fun | .backend n => some n | _ => none).getLast?
  assignKeys := (settings.filterMap fun | .assignKeys p => some p | _ => none).getLast?

/-- What the attributes of a type mean. A database that is shown has a name. -/
def ofGroups (groups : List AttributeGroup) : Except AttributeError EntityAttributes := do
  let attributes := ofSettings (← settingsOf .entity EntitySetting.ofItem groups)
  if attributes.showDatabase && attributes.database.isNone then throw .shownWithoutDatabase
  return attributes

end EntityAttributes

/-! ## On a field -/

/-- What a field is to the mapping. -/
inductive FieldRole
  | scalar
  | oneToMany
  | oneToOne
  | skip
deriving DecidableEq, Repr, Inhabited

namespace FieldRole

/-- The name of a role. -/
def name : FieldRole → String
  | .scalar => "Scalar"
  | .oneToMany => "OneToMany"
  | .oneToOne => "OneToOne"
  | .skip => "Skip"

/-- Whether a field leads to other entities. -/
def isAssociation : FieldRole → Bool
  | .oneToMany => true
  | .oneToOne => true
  | _ => false

end FieldRole

/-- A setting of a field. -/
inductive FieldSetting
  | primaryKey
  | identity
  | computed
  | ignore
  | required
  | maxLength (literal : String)
  | role (role : FieldRole)
  | parentColumn (name : String)
  | childColumn (name : String)
deriving DecidableEq, Repr, Inhabited

/-- The setting that an item is. -/
def FieldSetting.ofItem (i : AttributeItem) : Except AttributeError FieldSetting :=
  match i.key with
  | "primary_key" => i.flag .primaryKey
  | "identity" => i.flag .identity
  | "computed" => i.flag .computed
  | "ignore" => i.flag .ignore
  | "required" => i.flag .required
  | "max_length" => .maxLength <$> i.integer
  | "one_to_many" => i.flag (.role .oneToMany)
  | "one_to_one" => i.flag (.role .oneToOne)
  | "skip" => i.flag (.role .skip)
  | "parent_column" => .parentColumn <$> i.text
  | "child_column" => .childColumn <$> i.text
  | _ => .error (.unknownKey .field)

/-- The roles that settings name. -/
def FieldSetting.roles (settings : List FieldSetting) : List FieldRole :=
  settings.filterMap fun | .role r => some r | _ => none

/-- How a field is mapped. -/
structure FieldAttributes where
  role : FieldRole := .scalar
  primaryKey : Bool := false
  identity : Bool := false
  computed : Bool := false
  ignore : Bool := false
  required : Bool := false
  /-- the literal as it is written -/
  maxLength : Option String := none
  parentColumn : Option String := none
  childColumn : Option String := none
deriving DecidableEq, Repr, Inhabited

namespace FieldAttributes

/-- What a list of settings means. -/
def ofSettings (settings : List FieldSetting) : FieldAttributes where
  role := (FieldSetting.roles settings).head?.getD .scalar
  primaryKey := settings.contains .primaryKey
  identity := settings.contains .identity
  computed := settings.contains .computed
  ignore := settings.contains .ignore
  required := settings.contains .required
  maxLength := (settings.filterMap fun | .maxLength l => some l | _ => none).getLast?
  parentColumn := (settings.filterMap fun | .parentColumn n => some n | _ => none).getLast?
  childColumn := (settings.filterMap fun | .childColumn n => some n | _ => none).getLast?

/-- Whether a field names a column that joins tables. -/
def namesJoinColumn (a : FieldAttributes) : Bool := a.parentColumn.isSome || a.childColumn.isSome

/-- Whether a field has what only a column can have. -/
def isColumnLike (a : FieldAttributes) : Bool :=
  a.primaryKey || a.identity || a.computed || a.required || a.maxLength.isSome

/-- What of the attributes does not go together, if anything. -/
def conflict? (a : FieldAttributes) : Option AttributeError :=
  if a.identity && a.computed then some .identityAndComputed
  else if a.role = .scalar && a.namesJoinColumn then some .columnsWithoutRole
  else if a.role.isAssociation && a.isColumnLike then some .flagsWithRole
  else none

/-- What the attributes of a field mean. A field has one role at most, also if it is named twice. -/
def ofGroups (groups : List AttributeGroup) : Except AttributeError FieldAttributes := do
  let settings ← settingsOf .field FieldSetting.ofItem groups
  if 1 < (FieldSetting.roles settings).length then throw .severalRoles
  let attributes := ofSettings settings
  match attributes.conflict? with
  | some e => throw e
  | none => return attributes

end FieldAttributes

end EntityMapper
