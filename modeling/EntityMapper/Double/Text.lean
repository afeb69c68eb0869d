import EntityMapper.Double.Rounding
import EntityMapper.Text.Decimal

/-!
# Floats as decimal text

A float is written with the fewest digits that read back to it, always positionally and never
with an exponent. Among the decimals of that many digits the nearest is taken, and of two equally
near ones the larger. Reading rounds the decimal exactly.
-/

namespace EntityMapper.Double

/-! ## The digits -/

/-- Compares `c * 10 ^ k` with `v * 2 ^ e`, both exactly. -/
def compareScaled (c : Nat) (k : Int) (v : Nat) (e : Int) : Ordering :=
  compare (c * tenTo k.toNat * twoTo (-e).toNat) (v * twoTo e.toNat * tenTo (-k).toNat)

/-- The lower end of the numbers that round to a positive word, in quarters of its last place. -/
def lowerQuarters (x : Double) : Nat :=
  if x.fraction = 0 ∧ 1 < x.exponentField then 4 * x.significand - 1 else 4 * x.significand - 2

/-- The upper end of the numbers that round to a positive word, in quarters of its last place. -/
def upperQuarters (x : Double) : Nat := 4 * x.significand + 2

/-- Whether `c * 10 ^ k` rounds to a positive finite word; the ends belong to an even one. -/
def readsBack (x : Double) (c : Nat) (k : Int) : Bool :=
  let even := x.significand % 2 == 0
  let low := compareScaled c k x.lowerQuarters (x.exponent - 2)
  let high := compareScaled c k x.upperQuarters (x.exponent - 2)
  (low == .gt || (even && low == .eq)) && (high == .lt || (even && high == .eq))

/-- The neighbour below a finite word on the grid of multiples of `10 ^ k`. -/
def gridFloor (x : Double) (k : Int) : Nat :=
  x.numerator * tenTo (-k).toNat / (x.denominator * tenTo k.toNat)

/-- The multiple of `10 ^ k` that reads back and is nearest, if one reads back at all. -/
def onGrid? (x : Double) (k : Int) : Option (Nat × Int) :=
  let c := x.gridFloor k
  match x.readsBack c k, x.readsBack (c + 1) k with
  | true, true =>
    -- the midpoint of the two, compared with the word itself
    if compareScaled (2 * c + 1) k (2 * x.significand) x.exponent == .gt then some (c, k)
    else some (c + 1, k)
  | true, false => some (c, k)
  | false, true => some (c + 1, k)
  | false, false => none

/-- A power of ten that is larger than a positive finite word, at most by a factor of ten. -/
def decimalMagnitude (x : Double) : Int :=
  (natDigits (x.numerator * tenTo 330 / x.denominator)).length - 330

/-- The fewest digits that read back to a positive finite word, and the power of ten that scales
them. Seventeen digits always do; the exact value stands behind them. -/
def shortest (x : Double) : Nat × Int :=
  ((List.range 18).findSome? fun (i : Nat) => x.onGrid? (x.decimalMagnitude - i)).getD
    (x.numerator * Nat.pow 5 (-x.exponent).toNat, -((-x.exponent).toNat : Int))

/-! ## Writing -/

/-- The digits of `c * 10 ^ k` written positionally, with no zeros after the last place. -/
def positional (c : Nat) (k : Int) : List Char :=
  if 0 ≤ k then natDigits (c * tenTo k.toNat)
  else
    let ds := padDigits ((-k).toNat + 1) c
    let whole := ds.take (ds.length - (-k).toNat)
    let places := ((ds.drop (ds.length - (-k).toNat)).reverse.dropWhile (· == '0')).reverse
    if places.isEmpty then whole else whole ++ '.' :: places

/-- A float as text: `1`, `-0`, `0.1`, `inf`, `NaN`. -/
def toChars (x : Double) : List Char :=
  if x.isNaN then ['N', 'a', 'N']
  else
    (if x.negative then ['-'] else []) ++
      (if x.isInfinite then ['i', 'n', 'f']
       else if x.significand = 0 then ['0']
       else positional x.shortest.1 x.shortest.2)

/-- A float as text. -/
def text (x : Double) : String := String.ofList x.toChars

/-! ## Reading -/

/-- The word nearest to `c * 10 ^ k`. Far outside the range of the format the power is not computed. -/
def ofDecimal (negative : Bool) (c : Nat) (k : Int) : Double :=
  let size : Int := (natDigits c).length + k
  if c = 0 then zero negative
  else if size < -330 then zero negative
  else if 310 < size then infinity negative
  else ofRatio negative (c * tenTo k.toNat) (tenTo (-k).toNat)

/-- An exponent: nothing, or `e` with an optional sign and at least one digit, to the end. -/
def readExponent : List Char → Option Int
  | [] => some 0
  | c :: r => if c == 'e' || c == 'E' then readInteger r else none

/-- An unsigned decimal: digits with an optional point, at least one digit, an optional exponent. -/
def readMagnitude (cs : List Char) : Option (Nat × Int) :=
  let (whole, r) := takeDigits none cs
  let (places, r) := match r with
    | '.' :: r => takeDigits none r
    | r => ([], r)
  if whole.isEmpty && places.isEmpty then none
  else (readExponent r).map fun e => (digitsValue 0 (whole ++ places), e - places.length)

/-- A whole text as a float: an optional sign, then a decimal or, in any case, `inf`, `infinity`
or `nan`. -/
def ofChars? (cs : List Char) : Option Double :=
  let (negative, r) := splitSign cs
  let word := String.ofList (r.map Char.toLower)
  if word = "inf" || word = "infinity" then some (infinity negative)
  else if word = "nan" then some nan
  else (readMagnitude r).map fun (c, k) => ofDecimal negative c k

end EntityMapper.Double
