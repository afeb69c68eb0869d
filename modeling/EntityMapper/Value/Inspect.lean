import EntityMapper.Text.Record
import EntityMapper.Value

/-!
# The structure of values

A value with its kind. A float always shows that it is one, by a point or an exponent; a datetime
shows only as many places of a second as it needs.
-/

namespace EntityMapper

/-! ## Floats -/

namespace Double

/-- The digits of `c * 10 ^ k` with a point after the first and the power of ten that is left. -/
def scientific (c : Nat) (k : Int) : List Char :=
  let ds := natDigits c
  let places := ((ds.drop 1).reverse.dropWhile (· == '0')).reverse
  ds.take 1 ++ (if places.isEmpty then [] else '.' :: places) ++
    'e' :: (intText (k + ((ds.length : Int) - 1))).toList

/-- Whether `c * 10 ^ k` is written with an exponent: from ten to the sixteenth on, and below a
ten-thousandth. -/
def isFarFromOne (c : Nat) (k : Int) : Bool :=
  let magnitude := (natDigits c).length + k
  16 < magnitude || magnitude < -3

/-- A float that cannot be taken for an integer. -/
def inspect (x : Double) : String :=
  if x.isNaN || x.isInfinite then x.text
  else if x.significand = 0 then x.text ++ ".0"
  else
    let (c, k) := x.shortest
    let digits := if isFarFromOne c k then scientific c k else positional c k
    let digits := if digits.contains '.' || digits.contains 'e' then digits else digits ++ ['.', '0']
    String.ofList ((if x.negative then ['-'] else []) ++ digits)

end Double

/-! ## Datetimes -/

/-- A datetime with a `T` between date and time. -/
def DateTime.inspect (t : DateTime) : String :=
  String.ofList ((t.secondsChars.map fun c => if c == ' ' then 'T' else c) ++ t.subsecondChars .asNeeded)

/-! ## Values -/

/-- The name of a kind of value where structure is shown. -/
def ValueType.label : ValueType → String
  | .null => "Null"
  | .bool => "Bool"
  | .int => "Int"
  | .float => "Float"
  | .text => "Text"
  | .blob => "Blob"
  | .datetime => "DateTime"

/-- A value with its kind. -/
def Value.inspect (v : Value) : String :=
  let shown (s : String) : String := appliedText v.type.label [s]
  match v with
  | .null => v.type.label
  | .bool b => shown (boolText b)
  | .int n => shown (intText n.toInt)
  | .float x => shown x.inspect
  | .text s => shown (quoted s)
  | .blob bytes => shown (bracketed (bytes.map fun b => intText b.toNat))
  | .datetime t => shown t.inspect

end EntityMapper
