import EntityMapper.Text.Blank
import EntityMapper.Text.Quoted

/-!
# Lexemes of source text

Declarations are written in source text, and so is the implementation derived from them. A lexeme
is a name, a literal, or a single mark; brackets and punctuation are marks, and so is the quote of a
lifetime. Only the colons of a path and the arrow before a result are two characters that belong
together. White space and comments separate lexemes and are dropped.
-/

namespace EntityMapper

/-- The smallest pieces of source text. -/
inductive Lexeme
  /-- an identifier or a keyword; a raw one keeps its `r#` -/
  | name (text : String)
  | literal (text : String)
  | colons
  | arrow
  | mark (c : Char)
deriving DecidableEq, Repr, Inhabited

namespace Lexeme

/-- A lexeme as it is written; marks never touch each other. -/
def text : Lexeme → String
  | .name s => s
  | .literal s => s
  | .colons => ": :"
  | .arrow => "- >"
  | .mark c => c.toString

/-! ## Characters -/

/-- Whether a name can start with a character; all letters that are not ASCII can start one. -/
def startsName (c : Char) : Bool := c.isAlpha || c == '_' || 0x80 ≤ c.toNat && !isBlank c

/-- Whether a character can stand in a name. -/
def continuesName (c : Char) : Bool := startsName c || c.isDigit

/-- Whether a character separates lexemes: white space and the marks of writing direction. -/
def isGap (c : Char) : Bool := isBlank c || c == '\u200e' || c == '\u200f'

/-- The marks. -/
def marks : List Char :=
  ['(', ')', '[', ']', '\x7b', '\x7d', '~', '!', '@', '#', '$', '%', '^', '&', '*', '-', '=', '+', '|', ';',
   ':', ',', '<', '.', '>', '/', '?']

/-! ## Lengths -/

/-- The length of a name at the front of a text. -/
def nameLength (cs : List Char) : Nat := (cs.takeWhile continuesName).length

/-- The length of what follows a literal without a gap, such as the type of a number. -/
def suffixLength (cs : List Char) : Nat := if cs.head?.any startsName then nameLength cs else 0

/-- The length of digits and the bars between them. -/
def digitsLength (cs : List Char) : Nat := (cs.takeWhile fun c => c.isDigit || c == '_').length

/-- The length of an exponent with its mark: it may have a sign, and has a digit. -/
def exponentLength? : List Char → Option Nat
  | c :: r =>
    let bars := (r.takeWhile (· == '_')).length
    let sign := if (r.drop bars).head?.any (fun d => d == '+' || d == '-') then 1 else 0
    let digits := r.drop (bars + sign)
    if (c == 'e' || c == 'E') && (digits.dropWhile (· == '_')).head?.any Char.isDigit then
      some (1 + bars + sign + digitsLength digits)
    else none
  | [] => none

/-- The length of a number with a point or an exponent. A point before a name or a further point is
none of the number's. -/
def floatLength? (cs : List Char) : Option Nat :=
  let whole := digitsLength cs
  match cs.drop whole with
  | '.' :: r =>
    if r.head?.any (fun c => c == '.' || startsName c) then none
    else
      let places := whole + 1 + digitsLength r
      some (places + (exponentLength? (cs.drop places)).getD 0)
  | r => (exponentLength? r).map (whole + ·)

/-- The length of a number that starts with a digit, with its suffix. -/
def numberLength (cs : List Char) : Nat :=
  match floatLength? cs with
  | some n => n + suffixLength (cs.drop n)
  | none => nameLength cs

/-- The length of a literal up to its closing quote, the opening one being gone. -/
def closingLength? (quote : Char) : List Char → Option Nat
  | [] => none
  | '\\' :: _ :: r => (closingLength? quote r).map (· + 2)
  | c :: r => if c = quote then some 1 else (closingLength? quote r).map (· + 1)

/-- The length of a raw literal up to a quote with so many hashes after it. -/
def rawClosingLength? (hashes : Nat) : List Char → Option Nat
  | [] => none
  | c :: r =>
    if c = '"' ∧ (List.replicate hashes '#').isPrefixOf r then some (1 + hashes)
    else (rawClosingLength? hashes r).map (· + 1)

/-- The length of a raw literal, hashes and quotes included: it has as many hashes behind it as in
front of it. -/
def rawLength? (cs : List Char) : Option Nat :=
  let hashes := (cs.takeWhile (· == '#')).length
  match cs.drop hashes with
  | '"' :: r => (rawClosingLength? hashes r).map (hashes + 1 + ·)
  | _ => none

/-- A quote starts a character if one character or an escape stands before the next quote. -/
def characterLength? : List Char → Option Nat
  | '\\' :: _ :: r => (closingLength? '\'' r).map (· + 2)
  | _ :: '\'' :: _ => some 2
  | _ => none

/-- The length of a literal in quotes; a letter in front says of what kind it is. -/
def quotedLength? : List Char → Option Nat
  | '"' :: r => (closingLength? '"' r).map (· + 1)
  | '\'' :: r => (characterLength? r).map (· + 1)
  | 'b' :: '\'' :: r => (characterLength? r).map (· + 2)
  | 'r' :: r => (rawLength? r).map (· + 1)
  | k :: '"' :: r => if k = 'b' ∨ k = 'c' then (closingLength? '"' r).map (· + 2) else none
  | k :: 'r' :: r => if k = 'b' ∨ k = 'c' then (rawLength? r).map (· + 2) else none
  | _ => none

/-- The length of a literal. -/
def literalLength? (cs : List Char) : Option Nat :=
  if cs.head?.any Char.isDigit then some (numberLength cs)
  else (quotedLength? cs).map fun n => n + suffixLength (cs.drop n)

/-- The length of comments inside each other up to the end of the outermost, `depth` being open. -/
def blockLength? (depth : Nat) : List Char → Option Nat
  | [] => none
  | '/' :: '*' :: r => (blockLength? (depth + 1) r).map (· + 2)
  | '*' :: '/' :: r => if depth ≤ 1 then some 2 else (blockLength? (depth - 1) r).map (· + 2)
  | _ :: r => (blockLength? depth r).map (· + 1)

/-- The length of a comment: to the end of the line, or between its marks. -/
def commentLength? : List Char → Option Nat
  | '/' :: '/' :: r => some (2 + (r.takeWhile (· != '\n')).length)
  | '/' :: '*' :: r => (blockLength? 1 r).map (· + 2)
  | _ => none

/-- The lexeme at the front of a text, with its length. -/
def front? (cs : List Char) : Option (Lexeme × Nat) :=
  let taken (make : String → Lexeme) (n : Nat) : Lexeme × Nat := (make (String.ofList (cs.take n)), n)
  match literalLength? cs with
  | some n => some (taken .literal n)
  | none =>
    match cs with
    | ':' :: ':' :: _ => some (.colons, 2)
    | '-' :: '>' :: _ => some (.arrow, 2)
    | 'r' :: '#' :: r => if r.head?.any startsName then some (taken .name (2 + nameLength r)) else none
    | '\'' :: r => if r.head?.any startsName then some (.mark '\'', 1) else none
    | c :: _ =>
      if startsName c then some (taken .name (nameLength cs))
      else if marks.contains c then some (.mark c, 1)
      else none
    | [] => none

/-! ## Groups -/

/-- The mark that closes the group which a mark opens. -/
def closing? : Char → Option Char
  | '(' => some ')'
  | '[' => some ']'
  | '\x7b' => some '\x7d'
  | _ => none

/-- Whether a mark closes a group. -/
def isClosing (c : Char) : Bool := c == ')' || c == ']' || c == '\x7d'

/-- The closing marks that are due behind a lexeme, the innermost first, those in `opened` being due
in front of it. No other group can be closed than the innermost. -/
def due? (opened : List Char) : Lexeme → Option (List Char)
  | .mark c =>
    match closing? c with
    | some d => some (d :: opened)
    | none =>
      if isClosing c then if opened.head? = some c then some opened.tail else none
      else some opened
  | _ => some opened

/-- Whether every group is closed by its own mark, those in `opened` being due first. -/
def isBalanced (opened : List Char) : List Lexeme → Bool
  | [] => opened.isEmpty
  | l :: r => (due? opened l).any fun opened => isBalanced opened r

/-! ## Reading and writing -/

/-- The lexemes of a text, unless a character of it belongs to none. -/
def ofChars? : List Char → Option (List Lexeme)
  | [] => some []
  | c :: r =>
    if isGap c then ofChars? r
    else
      match commentLength? (c :: r) with
      | some n => ofChars? (r.drop (n - 1))
      | none => do
        let (l, n) ← front? (c :: r)
        return l :: (← ofChars? (r.drop (n - 1)))
termination_by cs => cs.length
decreasing_by all_goals simp; try omega

/-- The lexemes of a text in which groups are closed. -/
def ofText? (s : String) : Option (List Lexeme) := (ofChars? s.toList).filter (isBalanced [])

/-- Lexemes as text, a blank between any two. -/
def spaced (ls : List Lexeme) : String := " ".intercalate (ls.map text)

/-! ## Literals -/

/-- A text as it stands in a literal. A null before an octal digit is written in full. -/
def literalChars : List Char → List Char
  | [] => []
  | c :: r =>
    (if c = '\x00' ∧ r.head?.any (fun d => '0' ≤ d ∧ d ≤ '7') then ['\\', 'x', '0', '0'] else escapeChar c) ++
      literalChars r

/-- The literal of a text. -/
def ofString (s : String) : Lexeme :=
  .literal (String.ofList ('"' :: literalChars s.toList ++ ['"']))

/-! ## Nesting -/

/-- How deep a lexeme stands: in how many groups, and in how many angle brackets outside of any
group. Within a group an angle bracket may as well compare or shift, so there it opens nothing. -/
structure Nesting where
  groups : Nat := 0
  angles : Nat := 0
deriving DecidableEq, Repr, Inhabited

/-- How deep the lexeme stands that follows a lexeme. -/
def Nesting.after (n : Nesting) : Lexeme → Nesting
  | .mark c =>
    if (closing? c).isSome then { n with groups := n.groups + 1 }
    else if isClosing c then { n with groups := n.groups - 1 }
    else if n.groups ≠ 0 then n
    else if c = '<' then { n with angles := n.angles + 1 }
    else if c = '>' then { n with angles := n.angles - 1 }
    else n
  | _ => n

/-- Whether a lexeme stands in no brackets. -/
def Nesting.isOutside (n : Nesting) : Bool := n.groups == 0 && n.angles == 0

/-- Whether a lexeme is a mark of a kind. -/
def isStop (stop : Char → Bool) : Lexeme → Bool
  | .mark c => stop c
  | _ => false

/-- Lexemes parted in front of the first mark of a kind that stands in no brackets. -/
def partAt (stop : Char → Bool) (n : Nesting) : List Lexeme → List Lexeme × List Lexeme
  | [] => ([], [])
  | l :: r =>
    if n.isOutside && l.isStop stop then ([], l :: r)
    else
      let (front, rest) := partAt stop (n.after l) r
      (l :: front, rest)

/-- Parting loses nothing. -/
theorem append_partAt (stop : Char → Bool) (n : Nesting) (ls : List Lexeme) :
    (partAt stop n ls).1 ++ (partAt stop n ls).2 = ls := by
  induction ls generalizing n with
  | nil => rfl
  | cons l r ih =>
    simp only [partAt]
    split <;> simp [ih]

/-- What is left after parting is no longer than the whole. -/
theorem length_partAt_le (stop : Char → Bool) (n : Nesting) (ls : List Lexeme) :
    (partAt stop n ls).2.length ≤ ls.length := by
  have := congrArg List.length (append_partAt stop n ls)
  rw [List.length_append] at this
  omega

end Lexeme

end EntityMapper
