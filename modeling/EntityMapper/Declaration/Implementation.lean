import EntityMapper.Declaration
import EntityMapper.Text.Record

/-!
# The implementation of a mapping

The source text that a mapping is turned into: what describes the table, what assigns keys, and a
type whose functions are the handles on columns and associations.
-/

namespace EntityMapper

/-- The lexemes of a piece of source text. -/
def phrase (s : String) : List Lexeme := (Lexeme.ofChars? s.toList).getD []

/-- Lexemes in braces. -/
def inBraces (ls : List Lexeme) : List Lexeme := .mark '\x7b' :: ls ++ [.mark '\x7d']

/-- A call of a method, with its arguments. -/
def methodCall (method : String) (arguments : List Lexeme) : List Lexeme :=
  .mark '.' :: .name method :: .mark '(' :: arguments ++ [.mark ')']

/-- A number as it is written, which may have a sign. -/
def numberLexemes (literal : String) : List Lexeme :=
  match literal.toList with
  | '-' :: r => [.mark '-', .literal (String.ofList r)]
  | _ => [.literal literal]

/-- The names of the flags of a column. -/
def FieldAttributes.flags (a : FieldAttributes) : List String :=
  (if a.primaryKey then ["primary_key"] else []) ++ (if a.identity then ["identity"] else []) ++
    (if a.computed then ["computed"] else []) ++ (if a.ignore then ["ignore_for_save"] else [])

/-- The options of a column, with its flags set one by one. -/
def FieldAttributes.implementation (a : FieldAttributes) : List Lexeme :=
  phrase "::tablemap::model::FieldOptions::new()" ++ a.flags.flatMap fun flag => methodCall flag []

namespace MappedField

/-- The literal of a field's name. -/
def nameLiteral (f : MappedField) : Lexeme := .ofString (plainName f.name)

/-- The step that adds a field to its table. -/
def step (f : MappedField) : List Lexeme :=
  match f with
  | .column name _ a =>
    methodCall "scalar" (f.nameLiteral :: .mark ',' :: a.implementation ++ phrase ", |e| &e." ++
      .name name :: phrase ", |e| &mut e." ++ [.name name])
  | .association name c _ parent child =>
    methodCall c.relation (f.nameLiteral :: phrase ", ::tablemap::model::JoinKeys::new(" ++
      .ofString parent :: .mark ',' :: .ofString child :: phrase "), |e| &mut e." ++ [.name name])

/-- The rules that a field adds to its table. -/
def rules (f : MappedField) : List Lexeme :=
  match f with
  | .column _ _ a =>
    (if a.required then
      methodCall "rule" (phrase "::tablemap::model::ValidationRule::required(" ++
        [f.nameLiteral, .mark ')']) else []) ++
      (match a.maxLength with
        | some literal =>
          methodCall "rule" (phrase "::tablemap::model::ValidationRule::max_length(" ++
            f.nameLiteral :: .mark ',' :: numberLexemes literal ++ [.mark ')'])
        | none => [])
  | .association .. => []

/-- The function that is the handle on a field. -/
def handle (owner : String) (f : MappedField) : List Lexeme :=
  let (kind, type) := match f with
    | .column _ type _ => ("Column", type)
    | .association _ _ target .. => ("Association", target)
  phrase "#[must_use] pub fn" ++ .name f.name :: phrase "(&self) -> ::tablemap::query::" ++
    .name kind :: .mark '<' :: .name owner :: .mark ',' :: type ++ [.mark '>'] ++
    inBraces (phrase "::tablemap::query::" ++ .name kind :: phrase "::new(" ++
      [f.nameLiteral, .mark ')'])

end MappedField

namespace Mapped

/-- The calls that say where a table is. -/
def settings (m : Mapped) : List Lexeme :=
  (match m.database with
    | some d => methodCall "database" [.ofString d.name, .mark ',', .name (boolText d.shown)]
    | none => []) ++
    (match m.backend with
      | some name => methodCall "backend" [.ofString name]
      | none => [])

/-- What describes the table. -/
def description (m : Mapped) : List Lexeme :=
  phrase "::tablemap::model::TableDefinition::builder::<Self>(" ++
    [.ofString m.tableName, .mark ')'] ++ m.settings ++ m.fields.flatMap MappedField.step ++
    m.fields.flatMap MappedField.rules ++ methodCall "build" []

/-- The function that assigns keys, if there is one. -/
def keyFunction (m : Mapped) : List Lexeme :=
  match m.assignKeys with
  | some path => phrase "fn assign_keys(&mut self)" ++ inBraces (path ++ phrase "(self);")
  | none => []

/-- The implementation that makes a type an entity type. -/
def entityImplementation (m : Mapped) : List Lexeme :=
  phrase "impl ::tablemap::traits::Entity for" ++ .name m.name :: inBraces (
    phrase "fn describe() -> ::tablemap::model::TableDefinition" ++ inBraces m.description ++
    m.keyFunction)

/-- The name of the type that has the handles. -/
def handlesName (m : Mapped) : String := plainName m.name ++ "Columns"

/-- The comment on the type that has the handles. -/
def handlesComment (m : Mapped) : String := "Typed column handles for [\x60" ++ m.name ++ "\x60]."

/-- The whole implementation. -/
def implementation (m : Mapped) : List Lexeme :=
  let handles : Lexeme := .name m.handlesName
  m.entityImplementation ++
    phrase "#[doc =" ++ .ofString m.handlesComment ::
    phrase "] #[derive(Clone, Copy, Debug, Default)]" ++ m.visibility ++
    .name "struct" :: handles :: .mark ';' :: .name "impl" :: handles :: inBraces (m.fields.flatMap (MappedField.handle m.name)) ++
    .name "impl" :: .name m.name :: inBraces (
      phrase "#[must_use]" ++ m.visibility ++ phrase "const fn columns() ->" ++
        handles :: inBraces [handles])

end Mapped

end EntityMapper
