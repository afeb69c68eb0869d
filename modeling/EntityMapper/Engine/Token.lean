import EntityMapper.Text.Decimal

/-!
# Tokens of SQL

A statement is cut into tokens, each with the byte at which it starts. White space and comments
separate tokens and are dropped. Only the first statement of a text counts: a semicolon ends it.
-/

namespace EntityMapper.Engine

/-- What a token is. -/
inductive TokenKind
  | word
  | quotedName
  | string
  | blob
  | integer
  | real
  | parameter
  | symbol
  /-- a token that belongs to no statement -/
  | unknown
deriving DecidableEq, Repr, Inhabited

/-- A token as it is written, and the byte at which it starts. -/
structure Token where
  kind : TokenKind
  text : List Char
  offset : Nat
deriving DecidableEq, Repr, Inhabited

/-! ## Characters -/

/-- Whether a character can stand in a name; all that is not ASCII can. -/
def isNameChar (c : Char) : Bool := c.isAlphanum || c == '_' || c == '$' || 0x80 ≤ c.toNat

/-- Whether a character separates tokens. -/
def isGap (c : Char) : Bool := c == ' ' || c == '\t' || c == '\n' || c == '\x0c' || c == '\r'

/-- How many characters a quoted token has after its opening quote; a doubled quote is one. -/
def quotedLength (quote : Char) : List Char → Option Nat
  | [] => none
  | c :: r =>
    if c = quote then
      match r with
      | d :: s => if d = quote then (quotedLength quote s).map (· + 2) else some 1
      | [] => some 1
    else (quotedLength quote r).map (· + 1)

/-- What stands between the quotes of a quoted token, of which the opening one is gone. -/
def unquote (quote : Char) : List Char → List Char
  | [] => []
  | c :: r =>
    if c = quote then
      match r with
      | d :: s => if d = quote then quote :: unquote quote s else []
      | [] => []
    else c :: unquote quote r

/-- The symbols of two characters. -/
def longSymbols : List (List Char) :=
  [['<', '='], ['>', '='], ['<', '>'], ['!', '='], ['=', '='], ['|', '|']]

/-- The symbols of one character. -/
def shortSymbols : List Char := ['(', ')', ',', '.', '*', '+', '-', '/', '%', '=', '<', '>', '&', '|', '~', ';']

/-! ## Cutting -/

/-- The kind and length of a number at the front of a text. -/
def numberToken (cs : List Char) : TokenKind × Nat :=
  let (whole, r) := takeDigits none cs
  let (pointed, places, r) := match r with
    | '.' :: s => let (places, s) := takeDigits none s; (1, places.length, s)
    | s => (0, 0, s)
  let power := match r with
    | e :: s =>
      let signs := match s with
        | '+' :: _ => 1
        | '-' :: _ => 1
        | _ => 0
      let ds := (takeDigits none (s.drop signs)).1
      if (e == 'e' || e == 'E') && !ds.isEmpty then 1 + signs + ds.length else 0
    | [] => 0
  let length := whole.length + pointed + places + power
  let junk := ((cs.drop length).takeWhile isNameChar).length
  if junk ≠ 0 then (.unknown, length + junk)
  else (if pointed = 0 ∧ power = 0 then .integer else .real, length)

/-- The kind and length of a quoted token that starts with a quote. -/
def quotedToken (kind : TokenKind) (quote : Char) (cs : List Char) : TokenKind × Nat :=
  match quotedLength quote cs with
  | some n => (kind, n + 1)
  | none => (.unknown, cs.length + 1)

/-- The kind and length of the token at the front of a text. -/
def tokenAt (c : Char) (r : List Char) : TokenKind × Nat :=
  if c = '\'' then quotedToken .string c r
  else if c = '"' || c = '\x60' then quotedToken .quotedName c r
  else if c = '[' then
    match r.findIdx? (· == ']') with
    | some n => (.quotedName, n + 2)
    | none => (.unknown, r.length + 1)
  else if (c = 'x' || c = 'X') && r.head? == some '\'' then
    let ds := (r.drop 1).takeWhile fun d => d.isDigit || ('a' ≤ d.toLower && d.toLower ≤ 'f')
    if ds.length % 2 = 0 ∧ (r.drop (ds.length + 1)).head? = some '\'' then (.blob, ds.length + 3)
    else (.unknown, ds.length + 2)
  else if c.isDigit || (c = '.' && r.head?.any Char.isDigit) then numberToken (c :: r)
  else if c = '@' || c = ':' || c = '$' || c = '#' then
    match (r.takeWhile isNameChar).length with
    | 0 => (.unknown, 1)
    | n => (.parameter, n + 1)
  else if c = '?' then (.parameter, 1 + (takeDigits none r).1.length)
  else if isNameChar c then (.word, 1 + (r.takeWhile isNameChar).length)
  else if longSymbols.contains (c :: r.take 1) then (.symbol, 2)
  else if shortSymbols.contains c then (.symbol, 1)
  else (.unknown, 1)

/-- The length of a comment at the front of a text, if there is one. -/
def commentLength : List Char → Nat
  | '-' :: '-' :: r => 2 + (r.takeWhile (· != '\n')).length
  | '/' :: '*' :: r => 2 + closing r
  | _ => 0
where
  /-- The length up to the end of a comment. -/
  closing : List Char → Nat
    | '*' :: '/' :: _ => 2
    | _ :: r => 1 + closing r
    | [] => 0

/-- The number of bytes of a text. -/
def byteLength (cs : List Char) : Nat := (cs.map Char.utf8Size).foldr (· + ·) 0

/-- The tokens of a text that starts at a byte. -/
def tokensFrom (offset : Nat) : List Char → List Token
  | [] => []
  | c :: r =>
    if isGap c then tokensFrom (offset + 1) r
    else match commentLength (c :: r) with
      | n + 1 =>
        tokensFrom (offset + byteLength ((c :: r).take (n + 1))) (r.drop n)
      | 0 =>
        let (kind, n) := tokenAt c r
        let text := c :: r.take (n - 1)
        ⟨kind, text, offset⟩ :: tokensFrom (offset + byteLength text) (r.drop (n - 1))
termination_by cs => cs.length
decreasing_by all_goals simp; try omega

/-! ## Reading tokens -/

/-- The words that cannot be names. -/
def reservedWords : List String :=
  ["add", "all", "alter", "and", "as", "autoincrement", "between", "case", "check", "collate",
   "commit", "constraint", "create", "default", "deferrable", "delete", "distinct", "drop", "else",
   "escape", "except", "exists", "foreign", "from", "group", "having", "in", "index", "insert",
   "intersect", "into", "is", "isnull", "join", "limit", "not", "notnull", "null", "on", "or",
   "order", "primary", "references", "returning", "select", "set", "table", "then", "to",
   "transaction", "union", "unique", "update", "using", "values", "when", "where"]

/-- The words that start a join; they are no aliases. -/
def joinWords : List String := ["cross", "full", "inner", "left", "natural", "outer", "right"]

namespace Token

/-- Whether a token is a semicolon. -/
def endsStatement (t : Token) : Bool := t.kind == .symbol && t.text == [';']

/-- A token as text. -/
def written (t : Token) : String := String.ofList t.text

/-- What a quoted token says; any other says what is written. -/
def content (t : Token) : String :=
  match t.kind, t.text with
  | .string, q :: r => String.ofList (unquote q r)
  | .quotedName, '[' :: r => String.ofList (r.take (r.length - 1))
  | .quotedName, q :: r => String.ofList (unquote q r)
  | _, cs => String.ofList cs

/-- Whether a token is a word, whatever its case. -/
def isWord (w : String) (t : Token) : Bool :=
  t.kind == .word && t.text.map Char.toLower == w.toList

/-- Whether a token is a symbol. -/
def isSymbol (w : String) (t : Token) : Bool := t.kind == .symbol && t.text == w.toList

/-- Whether a token is a name. -/
def isName (t : Token) : Bool :=
  t.kind == .quotedName || (t.kind == .word && !reservedWords.any (t.isWord ·))

/-- Whether a token can name a table or a column after `as`, or a result. -/
def isLabel (t : Token) : Bool := t.isName || t.kind == .string

end Token

/-- Tokens up to the first semicolon, with it. -/
def throughSemicolon : List Token → List Token
  | [] => []
  | t :: rest => if t.endsStatement then [t] else t :: throughSemicolon rest

/-- The tokens of the first statement in a text. -/
def statementTokens (sql : String) : List Token :=
  throughSemicolon ((tokensFrom 0 sql.toList).dropWhile Token.endsStatement)

end EntityMapper.Engine
