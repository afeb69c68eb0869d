import EntityMapper.Double

/-!
# Rounding to a binary format

Every operation that may leave the format is one exact quotient and one rounding of it to the
nearest value, a tie going to the even significand.
-/

namespace EntityMapper

/-- A quotient rounded to the nearest natural number, a half to the even neighbour. -/
def roundHalfEven (num den : Nat) : Nat :=
  let q := num / den
  let r := num % den
  if 2 * r < den || (2 * r == den && q % 2 == 0) then q else q + 1

/-- A quotient that leaves no remainder is kept. -/
theorem roundHalfEven_mul (q : Nat) {den : Nat} (h : 0 < den) : roundHalfEven (q * den) den = q := by
  simp [roundHalfEven, Nat.mul_div_cancel _ h, Nat.mul_mod_left, h]

/-- A rounded quotient is at most half a unit away. -/
theorem roundHalfEven_near (num : Nat) {den : Nat} (h : 0 < den) :
    2 * num ≤ 2 * (roundHalfEven num den * den) + den ∧
      2 * (roundHalfEven num den * den) ≤ 2 * num + den := by
  have hdiv := Nat.div_add_mod num den
  have hmod := Nat.mod_lt num h
  unfold roundHalfEven
  simp only [Bool.or_eq_true, Bool.and_eq_true, decide_eq_true_eq, beq_iff_eq]
  rw [Nat.mul_comm den] at hdiv
  split
  · omega
  · rw [Nat.add_mul]
    omega

/-- The exponent of the leading binary digit of a positive quotient. -/
def leadingExponent (num den : Nat) : Int :=
  let e : Int := Nat.log2 num - Nat.log2 den
  if den * twoTo e.toNat ≤ num * twoTo (-e).toNat then e else e - 1

/-- A binary format: how many significant digits it has, and its least exponent. -/
structure BinaryFormat where
  precision : Nat
  leastExponent : Int

namespace BinaryFormat

/-- Sixty-four bits: fifty-three significant digits. -/
def double : BinaryFormat := ⟨53, -1074⟩

/-- Thirty-two bits: twenty-four significant digits. -/
def single : BinaryFormat := ⟨24, -149⟩

/-- The significand and exponent nearest to a positive quotient, with no upper bound. -/
def round (f : BinaryFormat) (num den : Nat) : Nat × Int :=
  let q := max (leadingExponent num den - (f.precision - 1 : Nat)) f.leastExponent
  (roundHalfEven (num * twoTo (-q).toNat) (den * twoTo q.toNat), q)

end BinaryFormat

namespace Double

/-- The word nearest to a quotient; from halfway above the largest number on it is infinite. -/
def ofRatio (negative : Bool) (num den : Nat) : Double :=
  if num = 0 then zero negative
  else
    let (m, q) := BinaryFormat.double.round num den
    let magnitude := (q + 1074).toNat * twoTo 52 + m
    if magnitude < 2047 * twoTo 52 then ofMagnitude negative magnitude else infinity negative

/-- The word nearest to an integer. -/
def ofInt (n : Int) : Double := ofRatio (n < 0) n.natAbs 1

/-- The word rounded to thirty-two bits and widened again. -/
def toSingle (x : Double) : Double :=
  if x.isNaN then nan
  else if x.isInfinite || x.numerator == 0 then x
  else
    let (m, q) := BinaryFormat.single.round x.numerator x.denominator
    if m * twoTo q.toNat < twoTo 128 * twoTo (-q).toNat then
      ofRatio x.negative (m * twoTo q.toNat) (twoTo (-q).toNat)
    else infinity x.negative

/-! ## Arithmetic -/

/-- The word with the other sign. -/
def neg (x : Double) : Double := ⟨x.bits ^^^ 0x8000000000000000⟩

/-- The rounded sum; opposite infinities have none, and opposite numbers give positive zero. -/
def add (x y : Double) : Double :=
  if x.isNaN || y.isNaN then nan
  else if x.isInfinite then (if y.isInfinite && x.negative != y.negative then nan else x)
  else if y.isInfinite then y
  else
    let n := x.signedNumerator * y.denominator + y.signedNumerator * x.denominator
    if n = 0 then zero (x.negative && y.negative)
    else ofRatio (n < 0) n.natAbs (x.denominator * y.denominator)

/-- The rounded difference. -/
def sub (x y : Double) : Double := add x (neg y)

/-- The rounded product; zero times an infinity has none. -/
def mul (x y : Double) : Double :=
  let negative := x.negative != y.negative
  if x.isNaN || y.isNaN then nan
  else if x.isInfinite || y.isInfinite then
    (if x.isZero || y.isZero then nan else infinity negative)
  else ofRatio negative (x.numerator * y.numerator) (x.denominator * y.denominator)

/-- The rounded quotient; division by zero is infinite, of zero by zero there is none. -/
def div (x y : Double) : Double :=
  let negative := x.negative != y.negative
  if x.isNaN || y.isNaN then nan
  else if x.isInfinite then (if y.isInfinite then nan else infinity negative)
  else if y.isInfinite then zero negative
  else if y.isZero then (if x.isZero then nan else infinity negative)
  else ofRatio negative (x.numerator * y.denominator) (x.denominator * y.numerator)

end Double

end EntityMapper
