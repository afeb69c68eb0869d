import EntityMapper.Double.Text
import EntityMapper.Value

/-!
# Numbers and texts in the engine

A text counts as the number that it begins with, after white space. It is numeric as a whole if
nothing but white space follows. A real number is written with fifteen significant digits and
always with a point.
-/

namespace EntityMapper.Engine

/-! ## Reading -/

/-- White space around a number. -/
def isSpace (c : Char) : Bool := c == ' ' || ('\t' ≤ c && c ≤ '\r')

/-- The number at the front of a text: an integer has neither point nor exponent. -/
structure Numeral where
  negative : Bool
  digits : Nat
  exponent : Int
  isInteger : Bool
  /-- whether the number is the whole text -/
  complete : Bool

/-- The exponent at the front of a text, if there is one, and the rest. -/
def readPower : List Char → Option Int × List Char
  | [] => (none, [])
  | c :: r =>
    if c == 'e' || c == 'E' then
      let (negative, ds) := splitSign r
      match takeDigits none ds with
      | ([], _) => (none, c :: r)
      | (power, rest) => (some (if negative then -digitsValue 0 power else digitsValue 0 power), rest)
    else (none, c :: r)

/-- The number at the front of a text. -/
def readNumeral (cs : List Char) : Numeral :=
  let (negative, r) := splitSign (cs.dropWhile isSpace)
  let (whole, r) := takeDigits none r
  let (pointed, places, r) := match r with
    | '.' :: s => let (places, s) := takeDigits none s; (true, places, s)
    | s => (false, [], s)
  let (power, r) := if whole.isEmpty && places.isEmpty then (none, r) else readPower r
  { negative
    digits := digitsValue 0 (whole ++ places)
    exponent := power.getD 0 - places.length
    isInteger := !pointed && power.isNone
    complete := (!whole.isEmpty || !places.isEmpty) && r.all isSpace }

namespace Numeral

/-- The number as a real one. -/
def real (n : Numeral) : Double := Double.ofDecimal n.negative n.digits n.exponent

/-- The digits as an integer. -/
def integer (n : Numeral) : Int := if n.negative then -n.digits else n.digits

end Numeral

/-! ## Writing -/

/-- A positive number rounded to fifteen significant digits, a half away from zero: the digits as a
number, and the power of ten of the first of them. -/
def significantDigits (num den : Nat) (magnitude : Int) : Nat × Int :=
  let scale := 15 - magnitude
  let n := num * tenTo scale.toNat
  let d := den * tenTo (-scale).toNat
  let digits := (2 * n + d) / (2 * d)
  if tenTo 15 ≤ digits then (tenTo 14, magnitude) else (digits, magnitude - 1)

/-- Drops the zeros at the end of digits, but not the first digit. -/
def trimZeros : List Char → List Char
  | [] => ['0']
  | ds => match (ds.reverse.dropWhile (· == '0')).reverse with
    | [] => ['0']
    | kept => kept

/-- Digits, the first of which stands for a power of ten, with a point and an exponent. -/
def scientific (ds : List Char) (power : Int) : List Char :=
  ds.take 1 ++ '.' :: trimZeros (ds.drop 1) ++ ['e', if power < 0 then '-' else '+'] ++
    padDigits 2 power.natAbs

/-- Digits, the first of which stands for a power of ten, with a point where it belongs. -/
def positional (ds : List Char) (power : Int) : List Char :=
  if power < 0 then '0' :: '.' :: trimZeros (List.replicate (-power - 1).toNat '0' ++ ds)
  else ds.take (power.toNat + 1) ++ '.' :: trimZeros (ds.drop (power.toNat + 1))

/-- A real number as text. -/
def realText (x : Double) : String :=
  let sign := if x.negative then ['-'] else []
  if x.isInfinite then String.ofList (sign ++ ['I', 'n', 'f'])
  else if x.significand = 0 then "0.0"
  else
    let (digits, power) := significantDigits x.numerator x.denominator x.decimalMagnitude
    let ds := natDigits digits
    String.ofList (sign ++ if power < -4 || 15 ≤ power then scientific ds power else positional ds power)

end EntityMapper.Engine
