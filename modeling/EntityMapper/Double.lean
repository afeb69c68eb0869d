import EntityMapper.Power

/-!
# Binary floating point

A `Double` is a 64-bit word read as a sign, an exponent field of eleven bits and a fraction of
fifty-two. A finite one is exactly the quotient `numerator / denominator` with its sign, so what
this library asks of a float (is it whole, which integer is it, which of two is larger) is asked
of natural numbers.
-/

namespace EntityMapper

/-- A binary64 number, held as its bits. -/
structure Double where
  bits : UInt64
deriving DecidableEq, Repr, Inhabited

namespace Double

/-! ## Fields of the word -/

/-- Whether the sign bit is set. -/
def negative (x : Double) : Bool := x.bits.toNat / twoTo 63 == 1

/-- The exponent field; the largest one marks infinities and NaN. -/
def exponentField (x : Double) : Nat := x.bits.toNat / twoTo 52 % twoTo 11

/-- The fraction field. -/
def fraction (x : Double) : Nat := x.bits.toNat % twoTo 52

/-- Whether the word stands for a number. -/
def isFinite (x : Double) : Bool := x.exponentField < 2047

/-- Whether the word stands for no number at all. -/
def isNaN (x : Double) : Bool := x.exponentField == 2047 && x.fraction != 0

/-- Whether the word is one of the two infinities. -/
def isInfinite (x : Double) : Bool := x.exponentField == 2047 && x.fraction == 0

/-- Whether the word is one of the two zeros. -/
def isZero (x : Double) : Bool := x.exponentField == 0 && x.fraction == 0

theorem fraction_lt (x : Double) : x.fraction < twoTo 52 := Nat.mod_lt _ (by decide)

/-- The word with a sign and the remaining sixty-three bits. -/
def ofMagnitude (negative : Bool) (magnitude : Nat) : Double :=
  ⟨UInt64.ofNat (magnitude + if negative then twoTo 63 else 0)⟩

/-- Positive or negative infinity. -/
def infinity (negative : Bool) : Double := ofMagnitude negative (2047 * twoTo 52)

/-- Positive or negative zero. -/
def zero (negative : Bool) : Double := ofMagnitude negative 0

/-- The quiet word that stands for no number. -/
def nan : Double := ofMagnitude false (2047 * twoTo 52 + twoTo 51)

/-! ## The value of a finite word -/

/-- The significand: a hidden bit precedes the fraction unless the exponent field is zero. -/
def significand (x : Double) : Nat :=
  if x.exponentField = 0 then x.fraction else twoTo 52 + x.fraction

/-- The power of two that scales the significand. -/
def exponent (x : Double) : Int := (max x.exponentField 1 : Nat) - 1075

/-- The numerator of the magnitude of a finite word. -/
def numerator (x : Double) : Nat := x.significand * twoTo x.exponent.toNat

/-- The denominator of the magnitude of a finite word, a power of two. -/
def denominator (x : Double) : Nat := twoTo (-x.exponent).toNat

theorem denominator_pos (x : Double) : 0 < x.denominator := Nat.two_pow_pos _

/-- The numerator with the sign of the word. -/
def signedNumerator (x : Double) : Int := if x.negative then -(x.numerator : Int) else x.numerator

/-- The integer that a word is exactly, if it is one. -/
def toInt? (x : Double) : Option Int :=
  if x.isFinite && x.numerator % x.denominator == 0 then
    some (if x.negative then -(x.numerator / x.denominator : Nat) else (x.numerator / x.denominator : Nat))
  else none

/-! ## Order -/

/-- Where a word stands as an extended number: below, among or above the finite ones. -/
def side (x : Double) : Int := if x.isFinite then 0 else if x.negative then -1 else 1

/-- The order of two numbers; there is none with a word that stands for no number. -/
def compare? (x y : Double) : Option Ordering :=
  if x.isNaN || y.isNaN then none
  else some ((compare x.side y.side).then
    (if x.side = 0 then compare (x.signedNumerator * y.denominator) (y.signedNumerator * x.denominator)
     else .eq))

/-- Numeric equality: the two zeros are one number, and no number equals a word without one. -/
def numericEq (x y : Double) : Bool := x.compare? y == some .eq

end Double

end EntityMapper
