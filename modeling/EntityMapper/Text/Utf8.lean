/-!
# Decoding UTF-8

Bytes are decoded as far as they are well-formed. Of what is not, each longest beginning of a
character is replaced by one U+FFFD.
-/

namespace EntityMapper

/-- What the first byte of a character of several bytes promises: how many bytes follow, the range
of the next one, and its own bits. -/
def leadByte? (b : Nat) : Option (Nat × (Nat × Nat) × Nat) :=
  if b < 0xc2 then none
  else if b < 0xe0 then some (1, (0x80, 0xbf), b - 0xc0)
  else if b = 0xe0 then some (2, (0xa0, 0xbf), 0)
  else if b = 0xed then some (2, (0x80, 0x9f), 0xd)
  else if b < 0xf0 then some (2, (0x80, 0xbf), b - 0xe0)
  else if b = 0xf0 then some (3, (0x90, 0xbf), 0)
  else if b < 0xf4 then some (3, (0x80, 0xbf), b - 0xf0)
  else if b = 0xf4 then some (3, (0x80, 0x8f), 4)
  else none

/-- Takes the bytes that follow a first byte, and the rest; without a code point if one of them is
missing. -/
def followingBytes : (count : Nat) → (range : Nat × Nat) → (acc : Nat) → List UInt8 →
    Option Nat × List UInt8
  | 0, _, acc, bytes => (some acc, bytes)
  | _ + 1, _, _, [] => (none, [])
  | n + 1, (low, high), acc, b :: r =>
    if low ≤ b.toNat ∧ b.toNat ≤ high then
      followingBytes n (0x80, 0xbf) (64 * acc + b.toNat % 64) r
    else (none, b :: r)

theorem followingBytes_length_le (n : Nat) (range : Nat × Nat) (acc : Nat) (bytes : List UInt8) :
    (followingBytes n range acc bytes).2.length ≤ bytes.length := by
  induction n generalizing range acc bytes with
  | zero => simp [followingBytes]
  | succ n ih =>
    cases bytes with
    | nil => simp [followingBytes]
    | cons b r =>
      obtain ⟨low, high⟩ := range
      rw [followingBytes]
      split
      · have := ih (0x80, 0xbf) (64 * acc + b.toNat % 64) r
        simp
        omega
      · simp

/-- The characters of bytes. -/
def decodeUtf8 : List UInt8 → List Char
  | [] => []
  | b :: r =>
    if b.toNat < 0x80 then Char.ofNat b.toNat :: decodeUtf8 r
    else match leadByte? b.toNat with
      | none => '\ufffd' :: decodeUtf8 r
      | some (count, range, bits) =>
        (followingBytes count range bits r).1.elim '\ufffd' Char.ofNat ::
          decodeUtf8 (followingBytes count range bits r).2
termination_by bytes => bytes.length
decreasing_by
  · simp
  · simp
  · have := followingBytes_length_le count range bits r
    simp
    omega

end EntityMapper
