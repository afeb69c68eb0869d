import EntityMapper.Power

/-!
# Decimal integers

Digits are ASCII digits and nothing else. `readDigits` takes as many as it may from the front of
a text, `readInteger` accepts a whole text that is an optional sign and at least one digit.
-/

namespace EntityMapper

/-! ## Writing -/

/-- The digits of a natural number, most significant first. -/
def natDigits (n : Nat) : List Char := Nat.toDigits 10 n

/-- The digits of a natural number, filled up with zeros to at least `width`. -/
def padDigits (width n : Nat) : List Char :=
  List.replicate (width - (natDigits n).length) '0' ++ natDigits n

/-- An integer with a sign only where it is negative. -/
def intDigits (n : Int) : List Char :=
  if n < 0 then '-' :: natDigits n.natAbs else natDigits n.natAbs

/-- An integer as text. -/
def intText (n : Int) : String := String.ofList (intDigits n)

/-! ## Reading -/

/-- The value of an ASCII digit. -/
def digitValue (c : Char) : Nat := c.toNat - '0'.toNat

/-- The number that a list of digits denotes, continuing from `acc`. -/
def digitsValue (acc : Nat) (cs : List Char) : Nat :=
  cs.foldl (fun n c => 10 * n + digitValue c) acc

/-- The longest run of digits at the front, of at most `most` where that is given, and the rest. -/
def takeDigits (most : Option Nat) (cs : List Char) : List Char × List Char :=
  let run := cs.takeWhile Char.isDigit
  let n := (most.map (min run.length)).getD run.length
  (cs.take n, cs.drop n)

/-- Digits at the front of a text: their number, how many they were, and the rest. -/
def readDigits (most : Option Nat) (cs : List Char) : Option (Nat × Nat × List Char) :=
  match takeDigits most cs with
  | ([], _) => none
  | (ds, rest) => some (digitsValue 0 ds, ds.length, rest)

/-- Taking digits splits a text. -/
theorem takeDigits_append (most : Option Nat) (cs : List Char) :
    (takeDigits most cs).1 ++ (takeDigits most cs).2 = cs :=
  List.take_append_drop _ _

/-- Splits off one sign; a text without one is not negative. -/
def splitSign : List Char → Bool × List Char
  | '-' :: r => (true, r)
  | '+' :: r => (false, r)
  | cs => (false, cs)

/-- A whole text of at least one digit, as a number. -/
def readNatural (cs : List Char) : Option Nat :=
  if !cs.isEmpty && cs.all Char.isDigit then some (digitsValue 0 cs) else none

/-- A whole text of an optional sign and at least one digit, as a number. -/
def readInteger (cs : List Char) : Option Int :=
  let (negative, ds) := splitSign cs
  (readNatural ds).map fun n => if negative then -(n : Int) else n

/-- Digits continue a number by their count of places. -/
theorem digitsValue_eq (acc : Nat) (cs : List Char) :
    digitsValue acc cs = acc * tenTo cs.length + digitsValue 0 cs := by
  induction cs generalizing acc with
  | nil => simp [digitsValue]
  | cons c r ih =>
    have h := ih (10 * acc + digitValue c)
    have h0 := ih (10 * 0 + digitValue c)
    simp only [digitsValue, List.foldl_cons] at h h0 ⊢
    rw [h, h0]
    simp only [List.length_cons, tenTo_succ]
    grind

end EntityMapper
