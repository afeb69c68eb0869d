import EntityMapper.Proofs.Declaration.Source
import EntityMapper.Schema.Table

/-!
# Reading an implementation

The source text of an implementation is read part by part: the calls that build the table of an
entity type, and the functions that give handles. Each part that is written of a mapping is read as
what the mapping has for it, and so is the whole.

* `Expansion.ofLexemes?` — what an implementation says
* `LexemeReader.reads_step`, `LexemeReader.reads_rules` — the calls of a field
* `LexemeReader.reads_handle` — the handle on a field
* `Mapped.ofLexemes?_implementation` — the whole implementation of a mapping
-/

namespace EntityMapper

/-! ## What an implementation says -/

/-- A call of the builder of a table. A step names the field that its closures read and change. -/
inductive BuilderCall
  | database (name : String) (shown : Bool)
  | backend (name : String)
  | scalar (name : String) (options : FieldOptions) (field : String)
  | association (name : String) (cardinality : Cardinality) (parentColumn childColumn : String)
      (field : String)
  | required (name : String)
  /-- the literal as it is written -/
  | maxLength (name literal : String)
deriving DecidableEq, Repr

/-- What a handle is on. -/
inductive HandleKind
  | column
  | association
deriving DecidableEq, Repr

/-- A function that gives a handle: what it is called, and the handle that it makes. -/
structure HandleFunction where
  function : String
  kind : HandleKind
  owner : String
  /-- the type of the column, or the entity type that the association leads to -/
  type : List Lexeme
  name : String
deriving DecidableEq, Repr

/-- What an implementation says: how the table of an entity type is built, and which functions the
type has that its `columns` returns. -/
structure Expansion where
  owner : String
  tableName : String
  calls : List BuilderCall
  handles : List HandleFunction
deriving DecidableEq, Repr

/-! ## Reading -/

/-- The options with a flag set. -/
def FieldOptions.withFlag? (o : FieldOptions) : String → Option FieldOptions
  | "primary_key" => some { o with primaryKey := true }
  | "identity" => some { o with automatic := .identity }
  | "computed" => some { o with automatic := .computed }
  | "ignore_for_save" => some { o with ignoreForSave := true }
  | _ => none

/-- The truth value that a keyword is. -/
def boolOf? : String → Option Bool
  | "true" => some true
  | "false" => some false
  | _ => none

/-- The kind of a handle from the name of its type. -/
def HandleKind.ofName? : String → Option HandleKind
  | "Column" => some .column
  | "Association" => some .association
  | _ => none

namespace LexemeReader

/-- Reads a flag of a column. -/
def flag : LexemeReader String := do
  expect [.mark '.']
  let flag ← name
  expect [.mark '(', .mark ')']
  return flag

/-- Reads the options of a column and the comma behind them. -/
def options : LexemeReader FieldOptions := do
  expect (phrase "::tablemap::model::FieldOptions::new()")
  let flags ← repeated flag [.mark ',']
  liftM (flags.foldlM FieldOptions.withFlag? {})

/-- Reads what adds a column. -/
def scalar : LexemeReader BuilderCall := do
  let column ← string
  expect [.mark ',']
  let options ← options
  expect (phrase "|e| &e.")
  let field ← name
  expect (phrase ", |e| &mut e.")
  expect [.name field]
  return .scalar column options field

/-- Reads what adds an association. -/
def association (c : Cardinality) : LexemeReader BuilderCall := do
  let association ← string
  expect (phrase ", ::tablemap::model::JoinKeys::new(")
  let parent ← string
  expect [.mark ',']
  let child ← string
  expect (phrase "), |e| &mut e.")
  let field ← name
  return .association association c parent child field

/-- Reads what is left of a rule of a column. -/
def ruleArguments (column : String) : String → LexemeReader BuilderCall
  | "required" => return .required column
  | "max_length" => do
    expect [.mark ',']
    let literal ← number
    return .maxLength column literal
  | _ => failure

/-- Reads what adds a rule. -/
def rule : LexemeReader BuilderCall := do
  expect (phrase "::tablemap::model::ValidationRule::")
  let rule ← name
  expect [.mark '(']
  let column ← string
  let call ← ruleArguments column rule
  expect [.mark ')']
  return call

/-- Reads the arguments of a method of the builder. -/
def builderArguments : String → LexemeReader BuilderCall
  | "database" => do
    let database ← string
    expect [.mark ',']
    let shown ← liftM (boolOf? (← name))
    return .database database shown
  | "backend" => return .backend (← string)
  | "scalar" => scalar
  | "one_to_many" => association .many
  | "one_to_one" => association .one
  | "rule" => rule
  | _ => failure

/-- Reads a call of the builder. -/
def builderCall : LexemeReader BuilderCall := do
  expect [.mark '.']
  let method ← name
  expect [.mark '(']
  let call ← builderArguments method
  expect [.mark ')']
  return call

/-- Reads the function that gives a handle. -/
def handle : LexemeReader HandleFunction := do
  expect (phrase "#[must_use] pub fn")
  let function ← name
  expect (phrase "(&self) -> ::tablemap::query::")
  let type ← name
  expect [.mark '<']
  let owner ← name
  expect [.mark ',']
  let target ← argument
  expect (.mark '\x7b' :: phrase "::tablemap::query::" ++ .name type :: phrase "::new(")
  let field ← string
  expect [.mark ')', .mark '\x7d']
  let kind ← liftM (HandleKind.ofName? type)
  return ⟨function, kind, owner, target, field⟩

/-- Reads what is left of a group in braces. -/
def closing : LexemeReader Unit := fun input =>
  (Lexeme.group? ['\x7d'] input).map fun g => ((), g.2)

/-- Reads what describes a table: its name, and the calls that build it. -/
def description : LexemeReader (String × List BuilderCall) := do
  expect (phrase "::tablemap::model::TableDefinition::builder::<Self>(")
  let tableName ← string
  expect [.mark ')']
  let calls ← repeated builderCall (methodCall "build" [])
  return (tableName, calls)

/-- Reads what makes a type an entity type: the name of the type, and what describes its table. -/
def entity : LexemeReader (String × String × List BuilderCall) := do
  expect (phrase "impl ::tablemap::traits::Entity for")
  let owner ← name
  expect (.mark '\x7b' :: phrase "fn describe() -> ::tablemap::model::TableDefinition")
  expect [.mark '\x7b']
  let table ← description
  expect [.mark '\x7d']
  closing
  return (owner, table)

/-- Reads the type that has the handles: its name, and the functions that give them. -/
def handles : LexemeReader (String × List HandleFunction) := do
  expect (phrase "#[doc =")
  let _ ← string
  expect (phrase "] #[derive(Clone, Copy, Debug, Default)]")
  let _ ← visible "struct"
  let type ← name
  expect [.mark ';', .name "impl", .name type, .mark '\x7b']
  let functions ← repeated handle [.mark '\x7d']
  return (type, functions)

/-- Reads the function of a type that returns the one value of another. -/
def columns (owner type : String) : LexemeReader Unit := do
  expect (.name "impl" :: .name owner :: .mark '\x7b' :: phrase "#[must_use]")
  let _ ← visible "const"
  expect (phrase "fn columns() ->")
  expect [.name type, .mark '\x7b', .name type, .mark '\x7d', .mark '\x7d']

/-- Reads an implementation. -/
def expansion : LexemeReader Expansion := do
  let e ← entity
  let h ← handles
  columns e.1 h.1
  return ⟨e.1, e.2.1, e.2.2, h.2⟩

end LexemeReader

/-- What an implementation says, if it says anything. -/
def Expansion.ofLexemes? (ls : List Lexeme) : Option Expansion :=
  match LexemeReader.expansion ls with
  | some (x, []) => some x
  | _ => none

/-! ## What a mapping is turned into -/

/-- The options of a column. -/
def FieldAttributes.options (a : FieldAttributes) : FieldOptions where
  primaryKey := a.primaryKey
  automatic := if a.computed then .computed else if a.identity then .identity else .none
  ignoreForSave := a.ignore

namespace MappedField

/-- The call that adds a field. -/
def call (f : MappedField) : BuilderCall :=
  match f with
  | .column name _ a => .scalar (plainName name) a.options name
  | .association name c _ parent child => .association (plainName name) c parent child name

/-- The calls that add the rules of a field. -/
def ruleCalls (f : MappedField) : List BuilderCall :=
  match f with
  | .column name _ a =>
    (if a.required then [.required (plainName name)] else []) ++
      (a.maxLength.map fun literal => .maxLength (plainName name) literal).toList
  | .association .. => []

/-- The handle on a field. -/
def handleFunction (owner : String) (f : MappedField) : HandleFunction :=
  match f with
  | .column name type _ => ⟨name, .column, owner, type, plainName name⟩
  | .association name _ target .. => ⟨name, .association, owner, target, plainName name⟩

end MappedField

/-- The calls that say where a table is. -/
def Mapped.settingCalls (m : Mapped) : List BuilderCall :=
  (m.database.map fun d => .database d.name d.shown).toList ++ (m.backend.map .backend).toList

/-- What the implementation of a mapping says. -/
def Mapped.expansion (m : Mapped) : Expansion where
  owner := m.name
  tableName := m.tableName
  calls := m.settingCalls ++ m.fields.map MappedField.call ++ m.fields.flatMap MappedField.ruleCalls
  handles := m.fields.map (MappedField.handleFunction m.name)

/-! ## What is read of a mapping -/

namespace LexemeReader

theorem reads_flag (s : String) : Reads flag (methodCall s []) s :=
  (reads_expect [.mark '.']).bind <| (reads_name s).bind <|
    (reads_expect [.mark '(', .mark ')']).bind (.pure s)

theorem foldlM_flags (a : FieldAttributes) :
    a.flags.foldlM FieldOptions.withFlag? {} = some a.options := by
  obtain ⟨_, key, identity, computed, ignore, _, _, _, _⟩ := a
  cases key <;> cases identity <;> cases computed <;> cases ignore <;> rfl

theorem reads_options (a : FieldAttributes) :
    Reads options (a.implementation ++ [.mark ',']) a.options := by
  have hflags : ReadsEach flag [.mark ','] (a.flags.flatMap fun flag => methodCall flag [])
      (a.flags.flatMap fun flag => [flag]) :=
    .flatMap fun s _ => .single (reads_flag s) fun _ => rfl
  rw [List.flatMap_singleton'] at hflags
  exact ((reads_expect _).bind <| hflags.reads.bind <|
    reads_liftM (foldlM_flags a)).of_eq (by simp [FieldAttributes.implementation])

theorem reads_builderCall {method : String} {ls : List Lexeme} {call : BuilderCall}
    (h : Reads (builderArguments method) ls call) :
    Reads builderCall (methodCall method ls) call :=
  ((reads_expect [.mark '.']).bind <| (reads_name method).bind <|
    (reads_expect [.mark '(']).bind <| h.bind <|
    (reads_expect [.mark ')']).bind (.pure call)).of_eq (by simp [methodCall])

/-- A call is none that ends the building. -/
theorem isPrefixOf?_methodCall {method : String} (h : method ≠ "build") (ls rest : List Lexeme) :
    (methodCall "build" []).isPrefixOf? (methodCall method ls ++ rest) = none := by
  have hname : (Lexeme.name "build" == Lexeme.name method) = false :=
    beq_false_of_ne fun hname => h (Lexeme.name.inj hname).symm
  simp [methodCall, List.isPrefixOf?, hname]

theorem reads_step (f : MappedField) : Reads builderCall f.step f.call := by
  cases f with
  | column column type a =>
    -- the comma belongs to what ends the flags
    have hcomma : phrase ", |e| &e." = .mark ',' :: phrase "|e| &e." := by decide +kernel
    refine reads_builderCall (((reads_string (plainName column)).bind <|
      (reads_expect [.mark ',']).bind <| (reads_options a).bind <| (reads_expect _).bind <|
      (reads_name column).bind <| (reads_expect _).bind <| (reads_expect [.name column]).bind <|
      Reads.pure (BuilderCall.scalar (plainName column) a.options column)).of_eq ?_)
    simp [hcomma, MappedField.nameLiteral, MappedField.name]
  | association association c type parent child =>
    have hassociation : Reads (LexemeReader.association c) _ _ :=
      (reads_string (plainName association)).bind <| (reads_expect _).bind <|
      (reads_string parent).bind <| (reads_expect [.mark ',']).bind <|
      (reads_string child).bind <| (reads_expect _).bind <| (reads_name association).bind <|
      Reads.pure (BuilderCall.association (plainName association) c parent child association)
    have harguments : builderArguments c.relation = LexemeReader.association c := by
      cases c <;> rfl
    refine reads_builderCall (harguments ▸ hassociation.of_eq ?_)
    simp [MappedField.nameLiteral, MappedField.name]

theorem isPrefixOf?_step (f : MappedField) (rest : List Lexeme) :
    (methodCall "build" []).isPrefixOf? (f.step ++ rest) = none := by
  cases f with
  | column => exact isPrefixOf?_methodCall (by decide) _ rest
  | association name c =>
    have hrelation : c.relation ≠ "build" := by cases c <;> decide
    exact isPrefixOf?_methodCall hrelation _ rest

theorem reads_rule {rule column : String} {ls : List Lexeme} {call : BuilderCall}
    (h : Reads (ruleArguments column rule) ls call) :
    ReadsEach builderCall (methodCall "build" [])
      (methodCall "rule" (phrase "::tablemap::model::ValidationRule::" ++ .name rule :: .mark '(' ::
        .ofString column :: ls ++ [.mark ')'])) [call] := by
  have hrule : Reads LexemeReader.rule _ call := (reads_expect _).bind <| (reads_name rule).bind <|
    (reads_expect [.mark '(']).bind <| (reads_string column).bind <| h.bind <|
    (reads_expect [.mark ')']).bind (.pure call)
  have harguments : builderArguments "rule" = LexemeReader.rule := rfl
  exact .single (reads_builderCall (harguments ▸ hrule.of_eq (by simp)))
    (isPrefixOf?_methodCall (by decide) _)

theorem reads_rules (f : MappedField) :
    ReadsEach builderCall (methodCall "build" []) f.rules f.ruleCalls := by
  cases f with
  | association => exact .nil
  | column column type a =>
    have hrequired : phrase "::tablemap::model::ValidationRule::required(" =
        phrase "::tablemap::model::ValidationRule::" ++ [.name "required", .mark '('] := by
      decide +kernel
    have hmax : phrase "::tablemap::model::ValidationRule::max_length(" =
        phrase "::tablemap::model::ValidationRule::" ++ [.name "max_length", .mark '('] := by
      decide +kernel
    refine .append ?_ ?_
    · split
      · have hcall : Reads (ruleArguments (plainName column) "required") [] _ := .pure _
        simpa [hrequired, MappedField.nameLiteral, MappedField.name] using reads_rule hcall
      · exact .nil
    · cases a.maxLength with
      | none => exact .nil
      | some literal =>
        have hcall : Reads (ruleArguments (plainName column) "max_length") _ _ :=
          (reads_expect [.mark ',']).bind <| (reads_number literal).bind <|
            Reads.pure (BuilderCall.maxLength (plainName column) literal)
        simpa [hmax, MappedField.nameLiteral, MappedField.name] using reads_rule hcall

theorem isPrefixOf?_handle (owner : String) (f : MappedField) (rest : List Lexeme) :
    [Lexeme.mark '\x7d'].isPrefixOf? (f.handle owner ++ rest) = none := by
  have hphrase : phrase "#[must_use] pub fn" = .mark '#' :: phrase "[must_use] pub fn" := by
    decide +kernel
  have hmark : (Lexeme.mark '\x7d' == Lexeme.mark '#') = false := by decide
  simp [MappedField.handle, hphrase, List.isPrefixOf?, hmark]

/-- The function of a handle is read, whatever type it has between its brackets. -/
theorem reads_handle {owner : String} {f : MappedField}
    (h : Lexeme.IsArgument (f.handleFunction owner).type) :
    Reads handle (f.handle owner) (f.handleFunction owner) := by
  have hhandle (k : HandleKind) (kind : String) (hk : HandleKind.ofName? kind = some k)
      (type : List Lexeme) (htype : Lexeme.IsArgument type) :
      Reads handle _ (HandleFunction.mk f.name k owner type (plainName f.name)) :=
    (reads_expect _).bind <| (reads_name f.name).bind <| (reads_expect _).bind <|
      (reads_name kind).bind <| (reads_expect [.mark '<']).bind <| (reads_name owner).bind <|
      (reads_expect [.mark ',']).bind <| (reads_argument htype).bind <| (reads_expect _).bind <|
      (reads_string (plainName f.name)).bind <| (reads_expect [.mark ')', .mark '\x7d']).bind <|
      (reads_liftM hk).bind <| .pure (HandleFunction.mk f.name k owner type (plainName f.name))
  cases f with
  | column column type a =>
    refine (hhandle .column "Column" rfl type h).of_eq ?_
    simp [MappedField.handle, inBraces, MappedField.nameLiteral]
  | association association c target parent child =>
    refine (hhandle .association "Association" rfl target h).of_eq ?_
    simp [MappedField.handle, inBraces, MappedField.nameLiteral]

/-- The calls that build the table of a mapping are read. -/
theorem reads_calls (m : Mapped) :
    Reads (repeated builderCall (methodCall "build" []))
      (m.settings ++ m.fields.flatMap MappedField.step ++ m.fields.flatMap MappedField.rules ++
        methodCall "build" []) m.expansion.calls := by
  have hsteps : ReadsEach builderCall (methodCall "build" []) (m.fields.flatMap MappedField.step)
      (m.fields.flatMap fun f => [f.call]) :=
    .flatMap fun f _ => .single (reads_step f) (isPrefixOf?_step f)
  have hrules := ReadsEach.flatMap fun f (_ : f ∈ m.fields) => reads_rules f
  rw [← List.map_eq_flatMap] at hsteps
  refine ((ReadsEach.append (.append ?_ ?_) hsteps).append hrules).reads
  · cases m.database with
    | none => exact .nil
    | some d =>
      have hshown : boolOf? (boolText d.shown) = some d.shown := by cases d.shown <;> rfl
      have hdatabase : Reads (builderArguments "database") _ (.database d.name d.shown) :=
        (reads_string d.name).bind <| (reads_expect [.mark ',']).bind <|
          (reads_name (boolText d.shown)).bind <| (reads_liftM hshown).bind
          (.pure (BuilderCall.database d.name d.shown))
      exact .single (reads_builderCall hdatabase) (isPrefixOf?_methodCall (by decide) _)
  · cases m.backend with
    | none => exact .nil
    | some name =>
      have hbackend : Reads (builderArguments "backend") _ (.backend name) :=
        (reads_string name).bind (.pure (BuilderCall.backend name))
      exact .single (reads_builderCall hbackend) (isPrefixOf?_methodCall (by decide) _)

/-- Behind what describes the table at most one function is left, and it is balanced. -/
theorem reads_closing {m : Mapped}
    (h : ∀ path, m.assignKeys = some path → Lexeme.isBalanced [] path = true) :
    Reads closing (m.keyFunction ++ [.mark '\x7d']) () := by
  have hbalanced : Lexeme.isBalanced [] m.keyFunction = true := by
    unfold Mapped.keyFunction
    cases hpath : m.assignKeys with
    | none => rfl
    | some path =>
      have hfront : Lexeme.isBalanced [] (phrase "fn assign_keys(&mut self)") = true := by
        decide +kernel
      have hlast : Lexeme.isBalanced [] (phrase "(self);") = true := by decide +kernel
      have hopened : Lexeme.isBalanced ['\x7d'] [.mark '\x7d'] = true := by decide +kernel
      have hinner := Lexeme.isBalanced_append (h path hpath) hlast
      exact Lexeme.isBalanced_append hfront (Lexeme.isBalanced_append hinner hopened)
  intro rest
  rw [List.append_assoc]
  -- only the brace of the implementation itself is still to be closed
  show (Lexeme.group? ([] ++ ['\x7d']) _).map _ = _
  rw [List.singleton_append, Lexeme.group?_of_isBalanced hbalanced rfl]
  rfl

theorem reads_entity {m : Mapped}
    (h : ∀ path, m.assignKeys = some path → Lexeme.isBalanced [] path = true) :
    Reads entity m.entityImplementation (m.name, m.tableName, m.expansion.calls) := by
  have hdescription : Reads description m.description (m.tableName, m.expansion.calls) :=
    ((reads_expect _).bind <| (reads_string m.tableName).bind <| (reads_expect [.mark ')']).bind <|
      (reads_calls m).bind (.pure (m.tableName, m.expansion.calls))).of_eq
      (by simp [Mapped.description])
  exact ((reads_expect _).bind <| (reads_name m.name).bind <| (reads_expect _).bind <|
    (reads_expect _).bind <| hdescription.bind <| (reads_expect _).bind <|
    (reads_closing h).bind (.pure (m.name, m.tableName, m.expansion.calls))).of_eq
    (by simp [Mapped.entityImplementation, inBraces])

/-- The type that has the handles is read. -/
theorem reads_handles {m : Mapped} (hvisibility : visibility m.visibility = some (m.visibility, []))
    (htypes : ∀ f ∈ m.fields, Lexeme.IsArgument (f.handleFunction m.name).type) :
    Reads handles (phrase "#[doc =" ++ .ofString m.handlesComment ::
      phrase "] #[derive(Clone, Copy, Debug, Default)]" ++ m.visibility ++ .name "struct" ::
      .name m.handlesName :: .mark ';' :: .name "impl" :: .name m.handlesName ::
      inBraces (m.fields.flatMap (MappedField.handle m.name)))
      (m.handlesName, m.expansion.handles) := by
  have hhandles : ReadsEach handle [.mark '\x7d'] (m.fields.flatMap (MappedField.handle m.name))
      (m.fields.flatMap fun f => [f.handleFunction m.name]) :=
    .flatMap fun f hf => .single (reads_handle (htypes f hf)) (isPrefixOf?_handle m.name f)
  rw [← List.map_eq_flatMap] at hhandles
  have hstruct : Reads (visible "struct") _ m.visibility := reads_visible hvisibility (by decide)
  have hall : Reads handles _ (m.handlesName, m.expansion.handles) :=
    (reads_expect _).bind <| (reads_string m.handlesComment).bind <| (reads_expect _).bind <|
    hstruct.bind <| (reads_name m.handlesName).bind <| (reads_expect _).bind <|
    hhandles.reads.bind (.pure (m.handlesName, m.expansion.handles))
  refine hall.of_eq ?_
  simp only [inBraces, List.append_assoc, List.cons_append, List.nil_append, List.append_nil]

theorem reads_columns {v : List Lexeme} (h : visibility v = some (v, [])) (owner type : String) :
    Reads (columns owner type) (.name "impl" :: .name owner :: inBraces (
      phrase "#[must_use]" ++ v ++ phrase "const fn columns() ->" ++
        .name type :: inBraces [.name type])) () := by
  have hphrase : phrase "const fn columns() ->" = .name "const" :: phrase "fn columns() ->" := by
    decide +kernel
  have hconst : Reads (visible "const") _ v := reads_visible h (by decide)
  exact ((reads_expect _).bind <| hconst.bind <| (reads_expect _).bind <|
    reads_expect _).of_eq (by simp [inBraces, hphrase])

/-- An implementation is read. -/
theorem reads_expansion {m : Mapped}
    (hvisibility : visibility m.visibility = some (m.visibility, []))
    (hassign : ∀ path, m.assignKeys = some path → Lexeme.isBalanced [] path = true)
    (htypes : ∀ f ∈ m.fields, Lexeme.IsArgument (f.handleFunction m.name).type) :
    Reads expansion m.implementation m.expansion :=
  ((reads_entity hassign).bind <| (reads_handles hvisibility htypes).bind <|
    (reads_columns hvisibility m.name m.handlesName).bind (.pure m.expansion)).of_eq
    (by simp [Mapped.implementation])

end LexemeReader

/-- **The implementation of a mapping is read as what it is meant to say.** -/
theorem Mapped.ofLexemes?_implementation {m : Mapped}
    (hvisibility : LexemeReader.visibility m.visibility = some (m.visibility, []))
    (hassign : ∀ path, m.assignKeys = some path → Lexeme.isBalanced [] path = true)
    (htypes : ∀ f ∈ m.fields, Lexeme.IsArgument (f.handleFunction m.name).type) :
    Expansion.ofLexemes? m.implementation = some m.expansion := by
  have h := LexemeReader.reads_expansion hvisibility hassign htypes []
  rw [List.append_nil] at h
  rw [Expansion.ofLexemes?, h]

end EntityMapper
