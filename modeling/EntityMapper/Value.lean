import EntityMapper.DateTime.Text
import EntityMapper.Double.Text
import EntityMapper.Text.Hex

/-!
# Values

A `Value` is what a table column holds: the dynamically typed scalar that rows carry and that
parameters bind. Its canonical text never loses a datetime's date or second.
-/

namespace EntityMapper

/-- The kind of a value; `null` is seen in rows and never declared. -/
inductive ValueType
  | null
  | bool
  | int
  | float
  | text
  | blob
  | datetime
deriving DecidableEq, Repr, Inhabited

/-- The name of a kind of value. -/
def ValueType.name : ValueType → String
  | .null => "null"
  | .bool => "bool"
  | .int => "int"
  | .float => "float"
  | .text => "text"
  | .blob => "blob"
  | .datetime => "datetime"

/-- A value in a column of a row. -/
inductive Value
  | null
  | bool (b : Bool)
  | int (n : Int64)
  | float (x : Double)
  | text (s : String)
  | blob (bytes : List UInt8)
  | datetime (t : DateTime)
deriving DecidableEq, Inhabited

namespace Value

/-- The kind of a value. -/
def type : Value → ValueType
  | .null => .null
  | .bool _ => .bool
  | .int _ => .int
  | .float _ => .float
  | .text _ => .text
  | .blob _ => .blob
  | .datetime _ => .datetime

/-- Whether a value is null. -/
def isNull : Value → Bool
  | .null => true
  | _ => false

theorem isNull_iff {v : Value} : v.isNull = true ↔ v = .null := by cases v <;> simp [isNull]

/-- A value as plain text. -/
def display : Value → String
  | .null => "null"
  | .bool true => "true"
  | .bool false => "false"
  | .int n => intText n.toInt
  | .float x => x.text
  | .text s => s
  | .blob bytes => hexText bytes
  | .datetime t => t.text

/-- A value as a parameter of a predicate: a datetime becomes its canonical text, so that every
backend reads the same layout. -/
def normalizeLiteral : Value → Value
  | .datetime t => .text t.text
  | v => v

/-- Normalizing leaves no datetime behind. -/
theorem normalizeLiteral_type_ne (v : Value) : v.normalizeLiteral.type ≠ .datetime := by
  cases v <;> simp [normalizeLiteral, type]

/-- Equality of values in which floats are compared as numbers. -/
def sameAs : Value → Value → Bool
  | .float x, .float y => x.numericEq y
  | v, w => v == w

end Value

/-! ## Sixty-four bit integers -/

/-- The integer as a 64-bit one, if it fits. -/
def int64? (n : Int) : Option Int64 :=
  if -twoTo 63 ≤ n ∧ n < twoTo 63 then some (Int64.ofInt n) else none

/-- The integer as a 64-bit one, the nearest where it does not fit. -/
def nearestInt64 (n : Int) : Int64 := Int64.ofInt (max (-twoTo 63) (min n (twoTo 63 - 1)))

namespace Value

/-! ## Counts -/

/-- A value as the answer to a count: an integer, a whole float, a truth value or the text of an
integer. A whole float beyond the integers counts as the nearest of them. -/
def asCount : Value → Option Int64
  | .int n => some n
  | .float x => x.toInt?.map nearestInt64
  | .bool b => some (if b then 1 else 0)
  | .text s => (readInteger (trim s.toList)).bind int64?
  | _ => none

end Value

end EntityMapper
