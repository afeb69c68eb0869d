import EntityMapper.Backend.Embedded
import EntityMapper.Dialect
import EntityMapper.Document.Grammar
import EntityMapper.Text.Like
import EntityMapper.Text.Split

/-!
# Settings of backends

A named backend is set up by the database that it speaks to and a connection string of
`key=value` pairs with semicolons between them. Settings are kept as JSON.
-/

namespace EntityMapper

/-- The settings of a backend. -/
structure BackendConfig where
  name : String
  database : Database
  connectionString : String
  pooling : Bool := true
deriving DecidableEq, Repr, Inhabited

/-- Why settings cannot be used. -/
inductive ConfigError
  | databaseMismatch (name : String) (found expected : Database)
deriving DecidableEq, Repr

/-- The wording of what is wrong with settings. -/
def ConfigError.message : ConfigError → String
  | .databaseMismatch name found expected =>
    s!"backend '{name}' is configured for {found.name}, not {expected.name}"

namespace BackendConfig

/-- The dialect of the backend. -/
def dialect (c : BackendConfig) : Dialect := .of c.database

/-! ## The connection string -/

/-- Whether two texts are the same up to the case of letters. -/
def sameLetters (a b : List Char) : Bool := a.map foldLetter == b.map foldLetter

/-- The value of the first pair with a key. Keys are compared up to the case of letters and without
the white space around them, and so is the value returned. -/
def value? (c : BackendConfig) (key : String) : Option String :=
  (splitAtEach ';' c.connectionString.toList).findSome? fun pair => do
    let (k, v) ← splitAtFirst? '=' pair
    if sameLetters (trim k) key.toList then some (String.ofList (trim v)) else none

/-- Where an embedded backend with these settings keeps its store. -/
def storeLocation (c : BackendConfig) : Except ConfigError StoreLocation :=
  if c.database = .sqlite then
    let source := (c.value? "data source").getD (trimText c.connectionString)
    .ok (if source = ":memory:" then .memory else .file source)
  else .error (.databaseMismatch c.name c.database .sqlite)

/-! ## JSON -/

/-- A database as JSON: its name, or an object that maps its name to null. -/
def databaseOf? : Document → Option Database
  | .object [(name, .null)] => (Document.textOf? name).bind Database.ofName?
  | v => v.text?.bind Database.ofName?

/-- The names of the settings, in the order in which they are written. -/
def settingNames : List String := ["name", "database_type", "connection_string", "pooling"]

/-- The one member of a name among members; none if there are several. -/
def only? (members : List (String × Document)) (name : String) : Option (Option Document) :=
  match members.filter fun m => m.1 == name with
  | [] => some none
  | [m] => some (some m.2)
  | _ => none

/-- Settings from the values of their names; `pooling` may be left out. -/
def ofValues? (name database connection : Document) (pooling : Option Document) : Option BackendConfig := do
  return {
    name := ← name.text?
    database := ← databaseOf? database
    connectionString := ← connection.text?
    pooling := ← pooling.elim (some true) Document.bool? }

/-- Settings from JSON: an object, whose other members do not matter, or an array in order. -/
def ofDocument? : Document → Option BackendConfig
  | .object members => do
    let members ← members.mapM fun m => do return (← Document.textOf? m.1, m.2)
    let name ← (← only? members "name")
    let database ← (← only? members "database_type")
    let connection ← (← only? members "connection_string")
    ofValues? name database connection (← only? members "pooling")
  | .array [name, database, connection] => ofValues? name database connection none
  | .array [name, database, connection, pooling] => ofValues? name database connection (some pooling)
  | _ => none

/-- Settings from JSON text. -/
def ofText? (text : String) : Option BackendConfig := (Document.ofText? text).bind ofDocument?

/-- A list of settings from JSON text. -/
def listOfText? (text : String) : Option (List BackendConfig) := do
  match ← Document.ofText? text with
  | .array items => items.mapM ofDocument?
  | _ => none

/-- Settings as JSON text, a line each. -/
def toText (c : BackendConfig) : String :=
  let lines := List.zipWith (fun name value => "  " ++ Document.stringText name ++ ": " ++ value) settingNames
    [Document.stringText c.name, Document.stringText c.database.name, Document.stringText c.connectionString,
     if c.pooling then "true" else "false"]
  "\x7b\n" ++ ",\n".intercalate lines ++ "\n\x7d"

end BackendConfig

end EntityMapper
