import EntityMapper.Engine.Sql

/-!
# The grammar of SQL

Tokens are read as a statement. The first token that no statement can go on with is at fault; where
the tokens end too early, the input is incomplete. `SqlStatement.ofText` reads a text.
-/

namespace EntityMapper.Engine

namespace Grammar

/-! ## Reading tokens -/

/-- Reads something from the front of the tokens. -/
abbrev Reader := StateT (List Token) (Except SqlError)

/-- Refuses the next token. -/
def refuse {α : Type} : Reader α := do
  match ← get with
  | [] => throw .incomplete
  | t :: _ => throw (.unexpected t)

/-- Takes the next token if it is one that is asked for. -/
def accept (p : Token → Bool) : Reader Bool := do
  match ← get with
  | t :: rest => if p t then set rest; return true else return false
  | [] => return false

/-- Takes the next token, which has to be one that is asked for. -/
def expect (p : Token → Bool) : Reader Unit := do
  if !(← accept p) then refuse

/-- Takes a word if it comes next. -/
def acceptWord (w : String) : Reader Bool := accept (Token.isWord w)

/-- Takes a symbol if it comes next. -/
def acceptSymbol (w : String) : Reader Bool := accept (Token.isSymbol w)

/-- Takes words, which have to come next. -/
def expectWords (ws : List String) : Reader Unit := ws.forM fun w => expect (Token.isWord w)

/-- Takes a symbol, which has to come next. -/
def expectSymbol (w : String) : Reader Unit := expect (Token.isSymbol w)

/-- Reads a name. -/
def name : Reader Located := do
  match ← get with
  | t :: rest => if t.isName then set rest; return ⟨t.content, t.offset⟩ else refuse
  | [] => refuse

/-- Reads an alias, if there is one; behind `as` there has to be one. -/
def label? : Reader (Option String) := do
  let required ← acceptWord "as"
  match ← get with
  | t :: rest =>
    if t.isLabel && (required || !joinWords.any (t.isWord ·)) then set rest; return some t.content
    else if required then refuse else return none
  | [] => if required then refuse else return none

/-- Reads items with commas between them, at most as many as there are tokens. -/
def separated {α : Type} (item : Reader α) : Reader (List α) := do
  let first ← item
  let rec more : Nat → Reader (List α)
    | 0 => return []
    | n + 1 => do
      if ← acceptSymbol "," then return (← item) :: (← more n) else return []
  return first :: (← more (← get).length)

/-- Reads something in parentheses. -/
def enclosed {α : Type} (inner : Reader α) : Reader α := do
  expectSymbol "("
  let a ← inner
  expectSymbol ")"
  return a

/-! ## Expressions -/

/-- An expression over names. -/
abbrev NamedExpr := SqlExpr ColumnName

/-- What stands between or behind operands: a binary operator, or a test with operands of its own. -/
inductive Operation
  | binary (build : NamedExpr → NamedExpr → NamedExpr)
  | test (build : NamedExpr → NamedExpr)
  | list (negated : Bool)

/-- A negation where one is asked for. -/
def negateIf (negated : Bool) (e : NamedExpr) : NamedExpr := if negated then .not e else e

/-- How tightly connectives, equality, order, sums, products and concatenation bind. -/
def operationAt : List Token → Option (Nat × Operation × List Token)
  | [] => none
  | t :: rest =>
    let next (w : String) : Bool := rest.head?.any (Token.isWord w)
    let binary (level : Nat) (build : NamedExpr → NamedExpr → NamedExpr) :=
      some (level, Operation.binary build, rest)
    let comparison (level : Nat) (op : CompareOp) := binary level (.compare op)
    if t.isWord "or" then binary 1 .or
    else if t.isWord "and" then binary 2 .and
    else if t.isWord "is" then
      if next "not" then
        some (4, .binary fun l r => .not (.same l r), rest.drop 1)
      else binary 4 .same
    else if t.isWord "isnull" then some (4, .test fun e => .same e (.literal .null), rest)
    else if t.isWord "notnull" then some (4, .test fun e => .not (.same e (.literal .null)), rest)
    else if t.isWord "like" then binary 4 .like
    else if t.isWord "in" then some (4, .list false, rest)
    else if t.isWord "not" then
      if next "like" then some (4, .binary fun l r => .not (.like l r), rest.drop 1)
      else if next "in" then some (4, .list true, rest.drop 1)
      else if next "null" then some (4, .test fun e => .not (.same e (.literal .null)), rest.drop 1)
      else none
    else if t.kind = .symbol then
      match String.ofList t.text with
      | "=" => comparison 4 .eq
      | "==" => comparison 4 .eq
      | "<>" => comparison 4 .ne
      | "!=" => comparison 4 .ne
      | "<" => comparison 5 .lt
      | "<=" => comparison 5 .lte
      | ">" => comparison 5 .gt
      | ">=" => comparison 5 .gte
      | "+" => binary 8 (.arithmetic .add)
      | "-" => binary 8 (.arithmetic .sub)
      | "*" => binary 9 (.arithmetic .mul)
      | "/" => binary 9 (.arithmetic .div)
      | "||" => binary 10 .concat
      | _ => none
    else none

/-- The value of a numeric token with a sign. -/
def numeric (negative : Bool) (t : Token) : Cell :=
  Cell.ofNumeral { readNumeral t.text with negative }

/-- The type that a name of a type stands for: names, and numbers in parentheses. -/
def typeName : Reader String := do
  let rec words : Nat → Reader (List String)
    | 0 => return []
    | n + 1 => do
      match ← get with
      | t :: rest => if t.isName then set rest; return t.content :: (← words n) else return []
      | [] => return []
  let type ← words (← get).length
  if !type.isEmpty && (← get).head?.any (Token.isSymbol "(") then
    let _ ← enclosed (separated (expect fun t => t.kind == .integer || t.kind == .real))
  return " ".intercalate type

mutual

/-- Reads an expression whose operators bind at least so tightly. -/
def expression : (fuel : Nat) → (least : Nat) → Reader NamedExpr
  | 0, _ => refuse
  | fuel + 1, least => do continued fuel least (← operand fuel)

/-- Reads on behind an operand. -/
def continued : (fuel : Nat) → (least : Nat) → NamedExpr → Reader NamedExpr
  | 0, _, _ => refuse
  | fuel + 1, least, l => do
    match operationAt (← get) with
    | none => return l
    | some (level, op, rest) =>
      if level < least then return l
      else
        set rest
        match op with
        | .binary build => continued fuel least (build l (← expression fuel (level + 1)))
        | .test build => continued fuel least (build l)
        | .list negated =>
          let items ← enclosed (do
            if (← get).head?.any (Token.isSymbol ")") then return []
            else separated (expression fuel 0))
          continued fuel least (negateIf negated (.isIn l items))

/-- Reads an operand with what stands in front of it. -/
def operand : (fuel : Nat) → Reader NamedExpr
  | 0 => refuse
  | fuel + 1 => do
    match ← get with
    | [] => refuse
    | t :: rest =>
      if t.isWord "not" then
        set rest
        return .not (← expression fuel 3)
      else if t.isSymbol "-" then
        set rest
        match rest with
        | n :: after =>
          if n.kind = .integer ∨ n.kind = .real then
            set after
            return .literal (numeric true n)
          else return .negate (← operand fuel)
        | [] => refuse
      else if t.isSymbol "+" then
        set rest
        operand fuel
      else if t.isSymbol "(" then enclosed (expression fuel 0)
      else if t.isWord "cast" && rest.head?.any (Token.isSymbol "(") then
        set rest
        enclosed do
          let e ← expression fuel 0
          expectWords ["as"]
          return .cast e (.ofType (← typeName))
      else if t.isWord "null" then
        set rest
        return .literal .null
      else match t.kind with
        | .integer => set rest; return .literal (numeric false t)
        | .real => set rest; return .literal (numeric false t)
        | .string => set rest; return .literal (.text t.content)
        | .blob =>
          set rest
          return .literal (.blob (hexBytes (t.text.drop 2)))
        | .parameter => set rest; return .parameter t.written
        | _ =>
          let first ← name
          if (← get).head?.any (Token.isSymbol "(") then
            let f := SqlFunction.ofName first.name
            let args ← enclosed (do
              if (← get).head?.any (Token.isSymbol ")") then return []
              else if f = .count ∧ (← acceptSymbol "*") then return [.literal (.int 1)]
              else separated (expression fuel 0))
            return .call f first args
          else if ← acceptSymbol "." then
            let second ← name
            return .column ⟨some first.name, second.name, first.offset⟩
          else return .column ⟨none, first.name, first.offset⟩

end

/-- Reads a whole expression. -/
def expr : Reader NamedExpr := do expression (4 * (← get).length + 4) 0

/-- Reads a condition, if there is one. -/
def condition? (word : String) : Reader (Option NamedExpr) := do
  if ← acceptWord word then some <$> expr else return none

/-! ## Parts of statements -/

/-- Reads the name of a table. -/
def tableName : Reader TableName := do
  let first ← name
  if ← acceptSymbol "." then
    let second ← name
    return ⟨some first.name, second.name, second.offset, first.offset⟩
  else return ⟨none, first.name, first.offset, first.offset⟩

/-- Reads a table with its alias. -/
def source : Reader Source := do
  let table ← tableName
  return ⟨table, (← label?).getD table.name⟩

/-- Reads the start of a join: whether there is one, and whether it keeps rows without a partner. -/
def joinStart? : Reader (Option Bool) := do
  if ← acceptSymbol "," then return some false
  else if ← acceptWord "join" then return some false
  else if ← acceptWord "left" then
    let _ ← acceptWord "outer"
    expectWords ["join"]
    return some true
  else if ← accept (fun t => t.isWord "inner" || t.isWord "cross") then
    expectWords ["join"]
    return some false
  else return none

/-- Reads joins, at most as many as there are tokens. -/
def joins : Nat → Reader (List Joined)
  | 0 => return []
  | n + 1 => do
    match ← joinStart? with
    | none => return []
    | some keeps =>
      let s ← source
      let on ← condition? "on"
      return ⟨s, keeps, on⟩ :: (← joins n)

/-- The part of a text between two bytes, without the white space around it. -/
def textBetween (sql : List Char) (start stop : Nat) : String :=
  let rec cut : Nat → List Char → List Char
    | _, [] => []
    | at_, c :: r =>
      if stop ≤ at_ then [] else if start ≤ at_ then c :: cut (at_ + c.utf8Size) r
      else cut (at_ + c.utf8Size) r
  String.ofList (((cut 0 sql).reverse.dropWhile isSpace).reverse)

/-- Reads an item of a select. -/
def selectItem (sql : List Char) : Reader SelectItem := do
  match ← get with
  | t :: dot :: star :: rest =>
    if t.isName && dot.isSymbol "." && star.isSymbol "*" then
      set rest
      return .allOf t.content
    else ordinary
  | _ => ordinary
where
  /-- Reads an item that is not all of a table. -/
  ordinary : Reader SelectItem := do
    if ← acceptSymbol "*" then return .all
    else
      let start := ((← get).head?.map Token.offset).getD 0
      let e ← expr
      let stop := ((← get).head?.map Token.offset).getD (byteLength sql)
      return .expr e (textBetween sql start stop) (← label?)

/-- Reads a select behind its first word. -/
def selectStatement (sql : List Char) : Reader Select := do
  let items ← separated (selectItem sql)
  let source ← if ← acceptWord "from" then do
      let s ← source
      pure (some (s, ← joins (← get).length))
    else pure none
  return ⟨items, source, ← condition? "where"⟩

/-- Reads names in parentheses. -/
def nameList : Reader (List String) := enclosed (separated (Located.name <$> name))

/-- Reads an insert behind its first words. -/
def insertStatement : Reader SqlStatement := do
  let table ← tableName
  let columns ← if (← get).head?.any (Token.isSymbol "(") then some <$> nameList else pure none
  expectWords ["values"]
  return .insert table columns (← separated (enclosed (separated expr)))

/-- Reads an update behind its first word. -/
def updateStatement : Reader SqlStatement := do
  let table ← tableName
  expectWords ["set"]
  let sets ← separated do
    let column ← name
    expectSymbol "="
    return (column.name, ← expr)
  return .update table sets (← condition? "where")

/-- Reads what a definition says of a column behind its type. -/
def columnConstraints : Nat → ColumnDefinition → Reader ColumnDefinition
  | 0, d => return d
  | n + 1, d => do
    if ← acceptWord "not" then
      expectWords ["null"]
      columnConstraints n { d with notNull := true }
    else if ← acceptWord "null" then columnConstraints n d
    else if ← acceptWord "primary" then
      expectWords ["key"]
      columnConstraints n { d with primaryKey := true, autoincrement := ← acceptWord "autoincrement" }
    else return d

/-- Reads the definition of a column, or of the key. -/
def definition : Reader (ColumnDefinition ⊕ List String) := do
  if ← acceptWord "primary" then
    expectWords ["key"]
    return .inr (← nameList)
  else
    let column ← name
    let type ← typeName
    return .inl (← columnConstraints (← get).length { name := column.name, type })

/-- Reads the creation of a table behind its first words. -/
def createStatement : Reader SqlStatement := do
  let ifMissing ← acceptWord "if"
  if ifMissing then expectWords ["not", "exists"]
  let table ← tableName
  let parts ← enclosed (separated definition)
  return .create table ifMissing (parts.filterMap Sum.getLeft?) (parts.filterMap Sum.getRight?).head?

/-! ## Statements -/

/-- Reads a statement. -/
def statement (sql : List Char) : Reader SqlStatement := do
  if ← acceptWord "select" then return .select (← selectStatement sql)
  else if ← acceptWord "insert" then
    expectWords ["into"]
    insertStatement
  else if ← acceptWord "update" then updateStatement
  else if ← acceptWord "delete" then
    expectWords ["from"]
    return .delete (← tableName) (← condition? "where")
  else if ← acceptWord "create" then
    expectWords ["table"]
    createStatement
  else if ← acceptWord "drop" then
    expectWords ["table"]
    let ifPresent ← acceptWord "if"
    if ifPresent then expectWords ["exists"]
    return .drop (← tableName) ifPresent
  else if ← acceptWord "alter" then
    expectWords ["table"]
    let table ← tableName
    expectWords ["rename", "to"]
    return .rename table (← name).name
  else refuse

end Grammar

/-- The statement that a text starts with. -/
def SqlStatement.ofText (sql : String) : Except SqlError SqlStatement :=
  match statementTokens sql with
  | [] => .ok .empty
  | tokens => do
    let (s, rest) ← Grammar.statement sql.toList tokens
    match rest with
    | [] => return s
    | t :: _ => if t.endsStatement then return s else throw (.unexpected t)

end EntityMapper.Engine
