import EntityMapper.Text.Decimal

/-!
# Bytes as text

Two lower-case hexadecimal digits a byte, and text as its UTF-8 bytes. Digits of either case are
read.
-/

namespace EntityMapper

/-- A byte as two lower-case hexadecimal digits. -/
def hexByte (b : UInt8) : List Char :=
  [Nat.digitChar (b.toNat / 16), Nat.digitChar (b.toNat % 16)]

/-- Bytes as lower-case hexadecimal digits. -/
def hexText (bytes : List UInt8) : String := String.ofList (bytes.flatMap hexByte)

/-- The value of a hexadecimal digit. -/
def hexValue? (c : Char) : Option Nat :=
  if c.isDigit then some (digitValue c)
  else if 'a' ≤ c.toLower && c.toLower ≤ 'f' then some (c.toLower.toNat - 'a'.toNat + 10)
  else none

/-- The value of hexadecimal digits. -/
def hexValues? (cs : List Char) : Option Nat :=
  cs.foldl (fun n c => do return 16 * (← n) + (← hexValue? c)) (some 0)

/-- The bytes that pairs of hexadecimal digits stand for, up to the first that is none. -/
def hexBytes : List Char → List UInt8
  | a :: b :: r => ((hexValues? [a, b]).map fun n => UInt8.ofNat n :: hexBytes r).getD []
  | _ => []

/-- The sixteen digits are read as what they were written for. -/
theorem hexValue?_digitChar : ∀ n < 16, hexValue? (Nat.digitChar n) = some n := by decide

/-- The digits of bytes are read as those bytes. -/
theorem hexBytes_flatMap_hexByte (bytes : List UInt8) : hexBytes (bytes.flatMap hexByte) = bytes := by
  induction bytes with
  | nil => rfl
  | cons b r ih =>
    have hb : b.toNat < 256 := b.toNat_lt_size
    have high := hexValue?_digitChar (b.toNat / 16) (by omega)
    have low := hexValue?_digitChar (b.toNat % 16) (by omega)
    have whole : 16 * (b.toNat / 16) + b.toNat % 16 = b.toNat := by omega
    rw [List.flatMap_cons, hexByte, List.cons_append, List.cons_append, List.nil_append, hexBytes, ih]
    simp [hexValues?, high, low, whole]

/-- The UTF-8 bytes of a text. -/
def utf8Bytes (s : String) : List UInt8 := s.toUTF8.toList

/-- The text that bytes encode, if they are well-formed UTF-8. -/
def utf8Text? (bytes : List UInt8) : Option String := String.fromUTF8? ⟨bytes.toArray⟩

end EntityMapper
