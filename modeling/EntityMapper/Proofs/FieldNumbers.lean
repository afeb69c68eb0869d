import EntityMapper.Proofs.Text.DecimalText

/-!
# The numbers of integer fields

An integer field is read from integers, truth values, floats and texts, each of which stands for a
number. The field holds that number, with one exception: a text that is no integer of 64 bits is
read as a float before anything is checked, so the field may hold the float instead.

* `Value.Denotes` — the number that a value stands for
* `readInt64_denotes` — what is read as 64 bits
* `IntKind.read_number` — what is read by each integer type
-/

namespace EntityMapper

open Double (IsNearest)

variable {v : Value} {s : String} {q q' : ℚ} {m : Int64} {n : Int} {k : IntKind}

/-! ## The number of a value -/

/-- The number that a value stands for: an integer for itself, a truth value for zero or one, a
finite float for its number, a text for that of the decimal literal in it. -/
inductive Value.Denotes : Value → ℚ → Prop
  | int (n : Int64) : Denotes (.int n) n.toInt
  | bool (b : Bool) : Denotes (.bool b) (if b then 1 else 0)
  | float {x : Double} (h : x.isFinite = true) : Denotes (.float x) x.value
  | text {s : String} {q : ℚ} (h : IsDecimal (trim s.toList) q) : Denotes (.text s) q

/-- A value stands for one number. -/
theorem Value.Denotes.unique (h : v.Denotes q) (h' : v.Denotes q') : q = q' := by
  cases h with
  | int | bool | float =>
    cases h'
    rfl
  | text h =>
    cases h' with
    | text h' => exact h.unique h'

/-! ## Through 64 bits -/

/-- How a text of the number `q` is read as another number: as the float nearest to `q`. If the text
is an integer, it is one below all integers of 64 bits. -/
structure Rounded (s : String) (q : ℚ) (n : Int) : Prop where
  isNearest : IsNearest q n
  below : ∀ j, IsInteger (trim s.toList) j → j < -twoTo 63

/-- A whole float is read as its number. -/
theorem readWholeFloat_value {x : Double} (h : readWholeFloat x = .ok m) :
    x.isFinite = true ∧ x.value = m.toInt := by
  unfold readWholeFloat at h
  split at h
  · next hread =>
    obtain rfl := Except.ok.inj h
    obtain ⟨j, hj, hm⟩ := Option.bind_eq_some_iff.mp hread
    rw [int64?_eq_some hm]
    exact Double.value_of_toInt? hj
  · cases h

/-- The first integer above those of 64 bits is a float. -/
theorem exists_value_twoTo : ∃ x : Double, x.isFinite = true ∧ x.value = (twoTo 63 : Nat) := by
  obtain ⟨hfinite, hvalue⟩ := Double.value_ofMagnitude false (m := 2 ^ 52) (e := 11)
    (by decide) (by decide) (.inr le_rfl) (by decide)
  refine ⟨_, hfinite, hvalue.trans ?_⟩
  have htwo : (twoTo 63 : Nat) = 2 ^ 52 * 2 ^ 11 := by decide
  rw [htwo]
  norm_num [Double.sign]

/-- To an integer above those of 64 bits none of them is nearest. -/
theorem Double.IsNearest.lt_twoTo {j : Int} (h : IsNearest j n) (hn : n < twoTo 63) :
    j < twoTo 63 := by
  by_contra hj
  obtain ⟨x, hfinite, hvalue⟩ := exists_value_twoTo
  have hle := h.le x hfinite
  have hlow : (twoTo 63 : ℚ) ≤ j := by exact_mod_cast Int.not_lt.mp hj
  have hhigh : (n : ℚ) < twoTo 63 := by exact_mod_cast hn
  rw [hvalue, abs_of_nonneg (by linarith), abs_of_nonneg (by linarith)] at hle
  linarith

/-- A text is read as its number or as the float nearest to it. -/
theorem readInt64_text_denotes (h : readInt64 (.text s) = .ok m) :
    ∃ q, IsDecimal (trim s.toList) q ∧ (q = m.toInt ∨ Rounded s q m.toInt) := by
  have hhigh : m.toInt < twoTo 63 := by simpa [twoTo] using m.toInt_lt
  unfold readInt64 at h
  dsimp only at h
  split at h
  · next hread =>
    obtain rfl := Except.ok.inj h
    obtain ⟨j, hj, hm⟩ := Option.bind_eq_some_iff.mp hread
    rw [int64?_eq_some hm]
    exact ⟨j, (readInteger_eq_some.mp hj).isDecimal, .inl rfl⟩
  next hnone =>
  split at h
  · next x hx =>
    obtain ⟨hfinite, hvalue⟩ := readWholeFloat_value h
    obtain ⟨q, hq, hnearest⟩ := Double.ofChars?_isNearest hx hfinite
    rw [hvalue] at hnearest
    refine ⟨q, hq, .inr ⟨hnearest, fun j hj => ?_⟩⟩
    -- an integer above those of 64 bits would be read as a float that is above them too
    obtain rfl := hq.unique hj.isDecimal
    have hsmall := hnearest.lt_twoTo hhigh
    rw [readInteger_eq_some.mpr hj, Option.bind_some] at hnone
    by_contra hlow
    rw [int64?, if_pos ⟨Int.not_lt.mp hlow, hsmall⟩] at hnone
    cases hnone
  · cases h

/-- What is read as 64 bits is the number of the value or, for a text, the float nearest to it. -/
theorem readInt64_denotes (h : readInt64 v = .ok m) :
    ∃ q, v.Denotes q ∧ (q = m.toInt ∨ ∃ s, v = .text s ∧ Rounded s q m.toInt) := by
  cases v with
  | int n =>
    obtain rfl := Except.ok.inj h
    exact ⟨_, .int n, .inl rfl⟩
  | bool b =>
    obtain rfl := Except.ok.inj h
    refine ⟨_, .bool b, .inl ?_⟩
    cases b <;> rfl
  | float x =>
    obtain ⟨hfinite, hvalue⟩ := readWholeFloat_value h
    exact ⟨_, .float hfinite, .inl hvalue⟩
  | text s =>
    obtain ⟨q, hq, hread⟩ := readInt64_text_denotes h
    exact ⟨q, .text hq, hread.imp_right fun hrounded => ⟨s, rfl, hrounded⟩⟩
  | _ => cases h

/-! ## Integer types -/

/-- What a type takes from 64 bits is read as 64 bits, and within its bounds. -/
theorem IntKind.of_readThroughInt64 (h : k.readThroughInt64 v = .ok n) :
    k.Holds n ∧ ∃ m, readInt64 v = .ok m ∧ m.toInt = n := by
  unfold IntKind.readThroughInt64 at h
  cases hread : readInt64 v with
  | error e =>
    rw [hread] at h
    cases h
  | ok m =>
    simp only [hread, Bind.bind, Except.bind] at h
    split at h
    · next hholds =>
      obtain rfl := Except.ok.inj h
      exact ⟨hholds, m, rfl, rfl⟩
    · cases h

/-- What the widest unsigned type reads on its own is the integer of the text. -/
theorem readUnsigned_isInteger {cs : List Char} {j : Nat} (h : readUnsigned cs = some j) :
    IsInteger cs j ∧ j < twoTo 64 := by
  unfold readUnsigned at h
  split at h
  all_goals
    obtain ⟨hdigits, hj⟩ := Option.filter_eq_some_iff.mp h
    refine ⟨?_, of_decide_eq_true hj⟩
  · simpa [Double.sign] using IsInteger.mk .plus (readNatural_eq_some.mp hdigits)
  · simpa [Double.sign] using IsInteger.mk .absent (readNatural_eq_some.mp hdigits)

/-- A type reads as all do, through 64 bits, or it is the widest unsigned one and reads a text. -/
theorem IntKind.read_eq (k : IntKind) (v : Value) :
    k.read v = k.readThroughInt64 v ∨
      k = .uint64 ∧
        ∃ s j, v = .text s ∧ readUnsigned (trim s.toList) = some j ∧ k.read v = .ok j := by
  unfold IntKind.read
  split
  · next s =>
    split
    · next j hj => exact .inr ⟨rfl, s, j, rfl, hj, rfl⟩
    · exact .inl rfl
  · exact .inl rfl

/-- What a type reads is within its bounds, and is the number of the value or the float nearest to
it. -/
theorem IntKind.read_denotes (h : k.read v = .ok n) :
    k.Holds n ∧ ∃ q, v.Denotes q ∧ (q = n ∨ ∃ s, v = .text s ∧ Rounded s q n) := by
  obtain hthrough | ⟨rfl, s, j, rfl, hj, hown⟩ := k.read_eq v
  · rw [hthrough] at h
    obtain ⟨hholds, m, hm, rfl⟩ := IntKind.of_readThroughInt64 h
    exact ⟨hholds, readInt64_denotes hm⟩
  · rw [hown] at h
    obtain rfl := Except.ok.inj h
    obtain ⟨hinteger, hbound⟩ := readUnsigned_isInteger hj
    have hhigh : (j : Int) ≤ twoTo 64 - 1 := by omega
    exact ⟨⟨Int.natCast_nonneg j, hhigh⟩, _, .text hinteger.isDecimal, .inl rfl⟩

/-- **An integer field holds the number of the value that it is read from**, or else the value is a
text and the field holds the float that is nearest to the number. -/
theorem IntKind.read_number (h : k.read v = .ok n) :
    k.Holds n ∧ (∃ q, v.Denotes q) ∧
      ∀ q, v.Denotes q → q = n ∨ ∃ s, v = .text s ∧ Rounded s q n := by
  obtain ⟨hholds, q, hq, hnumber⟩ := IntKind.read_denotes h
  refine ⟨hholds, ⟨q, hq⟩, fun r hr => ?_⟩
  rwa [hr.unique hq]

/-- The first integer below those of 64 bits is read from its text as the least of these. -/
theorem IntKind.read_number_below :
    let v := Value.text "-9223372036854775809"
    v.Denotes (-9223372036854775809) ∧ IntKind.int64.read v = .ok (-9223372036854775808) ∧
      Rounded "-9223372036854775809" (-9223372036854775809) (-9223372036854775808) := by
  have hinteger : IsInteger (trim "-9223372036854775809".toList) (-9223372036854775809) :=
    readInteger_eq_some.mp (by decide +kernel)
  have hdenotes : (Value.text "-9223372036854775809").Denotes (-9223372036854775809) := by
    have h := Value.Denotes.text hinteger.isDecimal
    exact_mod_cast h
  have hread : IntKind.int64.read (.text "-9223372036854775809") = .ok (-9223372036854775808) := by
    decide +kernel
  refine ⟨hdenotes, hread, ?_⟩
  obtain ⟨-, -, hnumber⟩ := IntKind.read_number hread
  rcases hnumber _ hdenotes with heq | ⟨s, hs, hrounded⟩
  · norm_num at heq
  · cases hs
    exact hrounded

end EntityMapper
