import EntityMapper.Engine.Number
import EntityMapper.Text.Search
import EntityMapper.Text.Utf8

/-!
# Cells

What the engine stores: null, an integer, a real number, a text or bytes. A column prefers one kind
by its affinity, which turns what is put into the column into that kind where nothing is lost.
-/

namespace EntityMapper.Engine

/-- A stored value. -/
inductive Cell
  | null
  | int (n : Int64)
  | real (x : Double)
  | text (s : String)
  | blob (bytes : List UInt8)
deriving DecidableEq, Inhabited

namespace Cell

/-! ## From and to values -/

/-- A real number; what is no number is null. -/
def ofDouble (x : Double) : Cell := if x.isNaN then .null else .real x

/-- An integer, or the nearest real number where it does not fit. -/
def ofInt (n : Int) : Cell := (int64? n).elim (.real (.ofInt n)) .int

/-- A truth value, which may be unknown. -/
def ofTruth : Option Bool → Cell
  | none => .null
  | some b => .int (if b then 1 else 0)

/-- How a value is stored. -/
def ofValue : Value → Cell
  | .null => .null
  | .bool b => .int (if b then 1 else 0)
  | .int n => .int n
  | .float x => ofDouble x
  | .text s => .text s
  | .blob bytes => .blob bytes
  | .datetime t => .text t.text

/-- What is read of a stored value. -/
def toValue : Cell → Value
  | .null => .null
  | .int n => .int n
  | .real x => .float x
  | .text s => .text s
  | .blob bytes => .blob bytes

/-- Whether a cell is null. -/
def isNull : Cell → Bool
  | .null => true
  | _ => false

/-! ## Conversions -/

/-- A cell as text; null has none. -/
def text? : Cell → Option String
  | .null => none
  | .int n => some (intText n.toInt)
  | .real x => some (realText x)
  | .text s => some s
  | .blob bytes => some (String.ofList (decodeUtf8 bytes))

/-- A real number as an integer where it is one well inside the 64-bit range. -/
def wholeReal (x : Double) : Cell :=
  match x.toInt? with
  | some n => if -twoTo 63 < n ∧ n < twoTo 63 - 1 then .int (Int64.ofInt n) else .real x
  | none => .real x

/-- The number that a text begins with. -/
def ofNumeral (n : Numeral) : Cell :=
  if n.isInteger then (int64? n.integer).elim (.real n.real) .int else .real n.real

/-- A cell as a number: a text or bytes count as the number that they begin with, or zero. -/
def number : Cell → Cell
  | .text s => ofNumeral (readNumeral s.toList)
  | .blob bytes => ofNumeral (readNumeral (decodeUtf8 bytes))
  | c => c

/-- A number as a real one. -/
def toDouble : Cell → Double
  | .int n => .ofInt n.toInt
  | .real x => x
  | _ => .zero false

/-- A real number cut to an integer, the nearest where it does not fit. -/
def truncate (x : Double) : Int64 :=
  if x.isFinite then
    nearestInt64 (if x.negative then -(x.numerator / x.denominator : Nat) else (x.numerator / x.denominator : Nat))
  else nearestInt64 (if x.negative then -twoTo 63 else twoTo 63)

/-- Whether a cell counts as true, if that is known. -/
def truth : Cell → Option Bool
  | .null => none
  | c => match c.number with
    | .int n => some (n != 0)
    | .real x => some !x.isZero
    | _ => some false

/-! ## Order -/

/-- Kinds are ordered: null, numbers, texts, bytes. -/
def rank : Cell → Nat
  | .null => 0
  | .int _ => 1
  | .real _ => 1
  | .text _ => 2
  | .blob _ => 3

/-- The order of two numbers. -/
def compareNumbers (x y : Cell) : Ordering :=
  match x, y with
  | .int n, .int m => compare n.toInt m.toInt
  | .int n, .real y =>
    if y.isFinite then compare (n.toInt * y.denominator) y.signedNumerator
    else if y.negative then .gt else .lt
  | .real x, .int m =>
    if x.isFinite then compare x.signedNumerator (m.toInt * x.denominator)
    else if x.negative then .lt else .gt
  | x, y => (x.toDouble.compare? y.toDouble).getD .eq

/-- The order of cells: by kind, then by value; texts and bytes go byte by byte. -/
def order (x y : Cell) : Ordering :=
  match x, y with
  | .text s, .text t => compare s t
  | .blob a, .blob b => compare (a.map UInt8.toNat) (b.map UInt8.toNat)
  | x, y => if x.rank = 1 ∧ y.rank = 1 then compareNumbers x y else compare x.rank y.rank

end Cell

/-! ## Affinity -/

/-- The kind of cell that a column prefers. -/
inductive Affinity
  | integer
  | real
  | numeric
  | text
  | none
deriving DecidableEq, Repr, Inhabited

namespace Affinity

/-- The affinity of a declared type, by the words in it. -/
def ofType (type : String) : Affinity :=
  let t := type.toList.map Char.toUpper
  let has (w : String) : Bool := occursIn w.toList t
  if has "INT" then .integer
  else if has "CHAR" || has "CLOB" || has "TEXT" then .text
  else if has "BLOB" || t.isEmpty then .none
  else if has "REAL" || has "FLOA" || has "DOUB" then .real
  else .numeric

/-- Whether numbers are preferred. -/
def isNumeric : Affinity → Bool
  | .integer => true
  | .real => true
  | .numeric => true
  | _ => false

/-- A text that is numeric as a whole, as that number. -/
def numberOfText (s : String) : Cell :=
  let n := readNumeral s.toList
  if n.complete then Cell.ofNumeral n else .text s

/-- A cell as a column stores it. A zero in a real column has no sign. -/
def store (a : Affinity) (c : Cell) : Cell :=
  match a, c with
  | .text, .int n => .text (intText n.toInt)
  | .text, .real x => .text (realText x)
  | .text, c => c
  | .none, c => c
  | a, c =>
    let n := match c with
      | .text s => match numberOfText s with
        | .real x => Cell.wholeReal x
        | n => n
      | .real x => Cell.wholeReal x
      | c => c
    match a, n with
    | .real, .int n => .real (.ofInt n.toInt)
    | _, n => n

/-- The affinity that a comparison applies to both sides. -/
def ofComparison (a b : Affinity) : Affinity :=
  if a != .none && b != .none then (if a.isNumeric || b.isNumeric then .numeric else .none)
  else if a == .none then b else a

/-- A cell as one side of a comparison. -/
def adjust (a : Affinity) (c : Cell) : Cell :=
  match c with
  | .text s => if a.isNumeric then numberOfText s else c
  | .int n => if a == .text then .text (intText n.toInt) else c
  | .real x => if a == .text then .text (realText x) else c
  | c => c

/-- A cell cast to a type. -/
def cast (a : Affinity) (c : Cell) : Cell :=
  match a, c with
  | _, .null => .null
  | .text, c => (c.text?).elim .null .text
  | .none, .blob bytes => .blob bytes
  | .none, c => (c.text?).elim .null fun s => .blob s.toUTF8.toList
  | .integer, .int n => .int n
  | .integer, .real x => .int (Cell.truncate x)
  | .integer, c => match c.text? with
    | some s =>
      let (negative, r) := splitSign (s.toList.dropWhile isSpace)
      let n := digitsValue 0 (takeDigits Option.none r).1
      .int (nearestInt64 (if negative then -n else n))
    | Option.none => .null
  | .real, c => .real c.number.toDouble
  | .numeric, c => match c.number with
    | .real x => match c with
      | .real _ => .real x
      | _ => Cell.wholeReal x
    | n => n

end Affinity

end EntityMapper.Engine
