import EntityMapper.Document
import EntityMapper.Text.Hex

/-!
# Reading JSON

A text is one document with white space around it and around its tokens. A string holds no control
characters, a number has no leading zero, and nothing may be left over or left out.
-/

namespace EntityMapper.Document

/-! ## Tokens -/

/-- Whether a character may stand between tokens. -/
def isGap (c : Char) : Bool := c == ' ' || c == '\t' || c == '\n' || c == '\r'

/-- Drops white space at the front. -/
def skipGap (cs : List Char) : List Char := cs.dropWhile isGap

/-- Drops a word at the front, which has to be there. -/
def word? (w cs : List Char) : Option (List Char) :=
  if w.isPrefixOf cs then some (cs.drop w.length) else none

/-- The character that an escape of one letter stands for. -/
def shortEscape? (c : Char) : Option Char :=
  match c with
  | '"' => some '"'
  | '\\' => some '\\'
  | '/' => some '/'
  | 'b' => some '\x08'
  | 'f' => some '\x0c'
  | 'n' => some '\n'
  | 'r' => some '\r'
  | 't' => some '\t'
  | _ => none

/-- The parts of a string behind its opening quote, and what follows the closing one. -/
def stringParts : List Char → Option (List StringPart × List Char)
  | [] => none
  | '"' :: r => some ([], r)
  | '\\' :: 'u' :: a :: b :: c :: d :: r => do
    let n ← hexValues? [a, b, c, d]
    let (parts, rest) ← stringParts r
    return (.unit n :: parts, rest)
  | '\\' :: e :: r => do
    let c ← shortEscape? e
    let (parts, rest) ← stringParts r
    return (.plain c :: parts, rest)
  | c :: r =>
    if c.toNat < 0x20 || c == '\\' then none
    else do
      let (parts, rest) ← stringParts r
      return (.plain c :: parts, rest)

/-- Drops digits, of which there has to be at least one. -/
def someDigits? (cs : List Char) : Option (List Char) :=
  match takeDigits none cs with
  | ([], _) => none
  | (_, r) => some r

/-- Drops a number at the front. -/
def number? (cs : List Char) : Option (List Char) := do
  let cs := match cs with
    | '-' :: r => r
    | r => r
  let (whole, r) := takeDigits none cs
  if whole.isEmpty || (whole.head? == some '0' && 1 < whole.length) then none
  let r ← match r with
    | '.' :: s => someDigits? s
    | s => some s
  match r with
  | e :: s =>
    if e == 'e' || e == 'E' then someDigits? (splitSign s).2 else some (e :: s)
  | [] => some []

/-! ## Documents -/

mutual

/-- A document at the front of a text, and the rest. -/
def value? : (fuel : Nat) → List Char → Option (Document × List Char)
  | 0, _ => none
  | fuel + 1, cs =>
    match skipGap cs with
    | '"' :: r => (stringParts r).map fun (parts, rest) => (.string parts, rest)
    | '[' :: r =>
      match skipGap r with
      | ']' :: rest => some (.array [], rest)
      | r => (items? fuel r).map fun (items, rest) => (.array items, rest)
    | '\x7b' :: r =>
      match skipGap r with
      | '\x7d' :: rest => some (.object [], rest)
      | r => (members? fuel r).map fun (members, rest) => (.object members, rest)
    | 'n' :: r => (word? ['u', 'l', 'l'] r).map fun rest => (.null, rest)
    | 't' :: r => (word? ['r', 'u', 'e'] r).map fun rest => (.bool true, rest)
    | 'f' :: r => (word? ['a', 'l', 's', 'e'] r).map fun rest => (.bool false, rest)
    | r => (number? r).map fun rest => (.number, rest)

/-- The items of an array, and what follows its closing bracket. -/
def items? : (fuel : Nat) → List Char → Option (List Document × List Char)
  | 0, _ => none
  | fuel + 1, cs => do
    let (first, r) ← value? fuel cs
    match skipGap r with
    | ',' :: r =>
      let (others, rest) ← items? fuel r
      return (first :: others, rest)
    | ']' :: rest => return ([first], rest)
    | _ => none

/-- The members of an object, and what follows its closing brace. -/
def members? : (fuel : Nat) → List Char → Option (List (List StringPart × Document) × List Char)
  | 0, _ => none
  | fuel + 1, cs =>
    match skipGap cs with
    | '"' :: r => do
      let (name, r) ← stringParts r
      match skipGap r with
      | ':' :: r =>
        let (v, r) ← value? fuel r
        match skipGap r with
        | ',' :: r =>
          let (others, rest) ← members? fuel r
          return ((name, v) :: others, rest)
        | '\x7d' :: rest => return ([(name, v)], rest)
        | _ => none
      | _ => none
    | _ => none

end

/-- The document that a whole text is. -/
def ofText? (text : String) : Option Document := do
  let (v, rest) ← value? (2 * text.toList.length + 2) text.toList
  if (skipGap rest).isEmpty then some v else none

/-! ## Writing strings -/

/-- A character inside a string. -/
def escapeChar (c : Char) : List Char :=
  match c with
  | '"' => ['\\', '"']
  | '\\' => ['\\', '\\']
  | '\x08' => ['\\', 'b']
  | '\x0c' => ['\\', 'f']
  | '\n' => ['\\', 'n']
  | '\r' => ['\\', 'r']
  | '\t' => ['\\', 't']
  | c =>
    if c.toNat < 0x20 then ['\\', 'u', '0', '0', Nat.digitChar (c.toNat / 16), Nat.digitChar (c.toNat % 16)]
    else [c]

/-- A text as a string. -/
def stringText (s : String) : String :=
  String.ofList ('"' :: s.toList.flatMap escapeChar ++ ['"'])

end EntityMapper.Document
