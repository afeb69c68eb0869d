import EntityMapper.FieldType
import EntityMapper.Text.Blank
import EntityMapper.Text.Decimal

/-!
# Fields are read back as they were stored

* `FieldType.read_toValue` — what a field stores is read back as the value it was
* `ScalarType.display_injective` — the texts of integers, truth values, texts and named states tell
  them apart
-/

namespace EntityMapper

/-! ## Integers as text -/

theorem isDigit_natDigits {n : Nat} {d : Char} (h : d ∈ natDigits n) : d.isDigit = true :=
  Nat.isDigit_of_mem_toDigits (by decide) (by decide) h

theorem natDigits_ne_nil (n : Nat) : natDigits n ≠ [] := Nat.toDigits_ne_nil

theorem digitsValue_natDigits (n : Nat) : digitsValue 0 (natDigits n) = n :=
  Nat.ofDigitChars_ten_toDigits

theorem readNatural_natDigits (n : Nat) : readNatural (natDigits n) = some n := by
  have hall : (natDigits n).all Char.isDigit = true :=
    List.all_eq_true.mpr fun d hd => isDigit_natDigits hd
  have hne : (natDigits n).isEmpty = false := by
    rw [List.isEmpty_eq_false_iff]
    exact natDigits_ne_nil n
  rw [readNatural, hall, hne, if_pos (by decide), digitsValue_natDigits]

/-- No digit is white space. -/
theorem not_isBlank_of_isDigit {d : Char} (h : d.isDigit = true) : isBlank d = false := by
  have hapart : ∀ r ∈ blankRanges, r.2 < 48 ∨ 57 < r.1 := by decide
  have hlow : 48 ≤ d.toNat := (Bool.and_eq_true_iff.mp h).1 |> of_decide_eq_true
  have hhigh : d.toNat ≤ 57 := (Bool.and_eq_true_iff.mp h).2 |> of_decide_eq_true
  cases hblank : isBlank d with
  | false => rfl
  | true =>
    obtain ⟨r, hr, hle, hge⟩ := inRanges_iff.mp hblank
    have := hapart r hr
    omega

theorem trim_natDigits (n : Nat) : trim (natDigits n) = natDigits n :=
  trim_eq_self
    (fun _ hd => not_isBlank_of_isDigit (isDigit_natDigits (List.mem_of_mem_head? hd)))
    (fun _ hd => not_isBlank_of_isDigit (isDigit_natDigits (List.mem_of_mem_getLast? hd)))

/-- The first digit is no sign. -/
theorem splitSign_natDigits (n : Nat) : splitSign (natDigits n) = (false, natDigits n) := by
  obtain ⟨d, ds, hd⟩ := List.exists_cons_of_ne_nil (natDigits_ne_nil n)
  have hdigit : d.isDigit = true := isDigit_natDigits (hd ▸ List.mem_cons_self)
  rw [hd]
  unfold splitSign
  split
  · next heq => rw [(List.cons.inj heq).1] at hdigit; exact absurd hdigit (by decide)
  · next heq => rw [(List.cons.inj heq).1] at hdigit; exact absurd hdigit (by decide)
  · rfl

/-- **The text of an integer is read back as the integer.** -/
theorem readInteger_intDigits (n : Int) : readInteger (intDigits n) = some n := by
  unfold intDigits
  split
  · next h =>
    have hread : readInteger ('-' :: natDigits n.natAbs) = some (-(n.natAbs : Int)) := by
      simp [readInteger, splitSign, readNatural_natDigits]
    rw [hread]
    congr 1
    omega
  · next h =>
    have hread : readInteger (natDigits n.natAbs) = some (n.natAbs : Int) := by
      simp [readInteger, splitSign_natDigits, readNatural_natDigits]
    rw [hread]
    congr 1
    omega

theorem intText_injective {m n : Int} (h : intText m = intText n) : m = n := by
  have hdigits := congrArg String.toList h
  rw [intText, intText, String.toList_ofList, String.toList_ofList] at hdigits
  have hread := congrArg readInteger hdigits
  rw [readInteger_intDigits, readInteger_intDigits] at hread
  exact Option.some.inj hread

/-! ## Integers as values -/

theorem int64?_eq_some {n : Int} {m : Int64} (h : int64? n = some m) : m.toInt = n := by
  unfold int64? twoTo at h
  split at h
  · next hn =>
    obtain rfl := Option.some.inj h
    exact Int64.toInt_ofInt_of_le (by simpa using hn.1) (by simpa using hn.2)
  · exact nomatch h

theorem int64?_toInt (m : Int64) : int64? m.toInt = some m := by
  have hlow := m.le_toInt
  have hhigh := m.toInt_lt
  rw [int64?, if_pos ⟨by simpa [twoTo] using hlow, by simpa [twoTo] using hhigh⟩, Int64.ofInt_toInt]

theorem int64?_eq_none {n : Int} (h : twoTo 63 ≤ n) : int64? n = none :=
  if_neg fun hfits => absurd hfits.2 (by omega)

theorem toValue_int (n : Int) :
    (Datum.int n).toValue = (int64? n).elim (.text (intText n)) .int := rfl

theorem display_toValue_int (n : Int) : (Datum.int n).toValue.display = intText n := by
  rw [toValue_int]
  cases h : int64? n with
  | none => rfl
  | some m =>
    rw [Option.elim_some]
    show intText m.toInt = _
    rw [int64?_eq_some h]

/-- An integer that does not fit into 64 bits is an unsigned one of that width. -/
theorem eq_uint64_of_int64?_eq_none {k : IntKind} {n : Int} (hn : k.Holds n)
    (h : int64? n = none) : k = .uint64 ∧ 0 ≤ n := by
  have hfits : ¬(-(twoTo 63 : Int) ≤ n ∧ n < twoTo 63) := by
    intro hfits
    rw [int64?, if_pos hfits] at h
    exact nomatch h
  obtain ⟨hlow, hhigh⟩ := hn
  have h7 : (twoTo 7 : Int) = 128 := rfl
  have h8 : (twoTo 8 : Int) = 256 := rfl
  have h15 : (twoTo 15 : Int) = 32768 := rfl
  have h16 : (twoTo 16 : Int) = 65536 := rfl
  have h31 : (twoTo 31 : Int) = 2147483648 := rfl
  have h32 : (twoTo 32 : Int) = 4294967296 := rfl
  have h63 : (twoTo 63 : Int) = 9223372036854775808 := rfl
  cases k with
  | uint64 => exact ⟨rfl, hlow⟩
  | _ =>
    simp only [IntKind.least, IntKind.greatest, h7, h8, h15, h16, h31, h32, h63] at hlow hhigh hfits
    omega

/-! ## Fields -/

theorem readUnsigned_natDigits {n : Nat} (h : n < twoTo 64) :
    readUnsigned (natDigits n) = some n := by
  obtain ⟨d, ds, hd⟩ := List.exists_cons_of_ne_nil (natDigits_ne_nil n)
  have hdigit : d.isDigit = true := isDigit_natDigits (hd ▸ List.mem_cons_self)
  unfold readUnsigned
  split
  · next ds' heq =>
    rw [hd, List.cons.injEq] at heq
    rw [heq.1] at hdigit
    exact absurd hdigit (by decide)
  · rw [readNatural_natDigits, Option.filter_some, if_pos (by simpa using h)]

theorem readInt64_int (m : Int64) : readInt64 (.int m) = .ok m := rfl

/-- An integer is read back, in 64 bits or as text. -/
theorem IntKind.read_toValue {k : IntKind} {n : Int} (hn : k.Holds n) :
    k.read (Datum.int n).toValue = .ok n := by
  rw [toValue_int]
  cases h : int64? n with
  | some m =>
    have hm := int64?_eq_some h
    have hread : k.read (.int m) = k.readThroughInt64 (.int m) := by
      unfold IntKind.read
      split
      · next heq => exact nomatch heq
      · rfl
    rw [Option.elim_some, hread, IntKind.readThroughInt64, readInt64_int]
    simp only [Bind.bind, Except.bind, hm, if_pos hn]
    rfl
  | none =>
    -- only the widest unsigned type reaches past 64 bits, and it reads the text on its own
    obtain ⟨rfl, hpos⟩ := eq_uint64_of_int64?_eq_none hn h
    have hdigits : intDigits n = natDigits n.natAbs := by
      rw [intDigits, if_neg (by omega)]
    have hlt : n.natAbs < twoTo 64 := by
      have hhigh := hn.2
      simp only [IntKind.greatest] at hhigh
      omega
    have hunsigned : readUnsigned (trim (intText n).toList) = some n.natAbs := by
      rw [intText, String.toList_ofList, hdigits, trim_natDigits, readUnsigned_natDigits hlt]
    simp only [Option.elim_none, IntKind.read, hunsigned]
    congr 1
    omega

/-- A state is read back by its code. -/
theorem Enumeration.read_toValue {e : Enumeration} {n : Int} (h : ∃ c ∈ e.codes, c.toInt = n) :
    e.read (Datum.int n).toValue = .ok n := by
  obtain ⟨m, hm, rfl⟩ := h
  rw [toValue_int, int64?_toInt, Option.elim_some]
  rw [Enumeration.read, readInt64_int]
  simp only [Bind.bind, Except.bind, if_pos hm]
  rfl

theorem ScalarType.read_toValue {t : ScalarType} {d : Datum} (h : t.Holds d) :
    t.read d.toValue = .ok d ∧ d.toValue.isNull = false := by
  cases t with
  | int k =>
    cases d with
    | int n =>
      refine ⟨?_, ?_⟩
      · rw [ScalarType.read, IntKind.read_toValue h]
        rfl
      · rw [toValue_int]
        cases int64? n <;> rfl
    | _ => exact h.elim
  | enumeration e =>
    cases d with
    | int n =>
      refine ⟨?_, ?_⟩
      · rw [ScalarType.read, Enumeration.read_toValue h]
        rfl
      · rw [toValue_int]
        cases int64? n <;> rfl
    | _ => exact h.elim
  | single =>
    cases d with
    | float x =>
      have hx : x.toSingle = x := h
      refine ⟨?_, rfl⟩
      show Except.ok (Datum.float x.toSingle) = _
      rw [hx]
    | _ => exact h.elim
  | double => cases d <;> first | exact h.elim | exact ⟨rfl, rfl⟩
  | bool => cases d <;> first | exact h.elim | exact ⟨rfl, rfl⟩
  | text => cases d <;> first | exact h.elim | exact ⟨rfl, rfl⟩
  | blob => cases d <;> first | exact h.elim | exact ⟨rfl, rfl⟩
  | datetime => cases d <;> first | exact h.elim | exact ⟨rfl, rfl⟩

/-- Anything but null is read by the scalar type. -/
theorem FieldType.read_of_not_isNull {t : FieldType} {v : Value} (h : v.isNull = false) :
    t.read v = t.scalar.read v := by
  unfold FieldType.read
  split
  · exact nomatch h
  · rfl

/-- **What a field stores is read back as the value it was.** -/
theorem FieldType.read_toValue {t : FieldType} {d : Datum} (h : t.Holds d) :
    t.read d.toValue = .ok d := by
  rcases h with ⟨hnull, rfl⟩ | h
  · show FieldType.read t .null = _
    simp only [FieldType.read, hnull]
  · obtain ⟨hread, hnull⟩ := ScalarType.read_toValue h
    rw [FieldType.read_of_not_isNull hnull, hread]

theorem ScalarType.not_holds_absent (t : ScalarType) : ¬ t.Holds .absent := by
  cases t <;> exact id

/-- Null is the value of nothing else. -/
theorem FieldType.isNull_toValue {t : FieldType} {d : Datum} (h : t.Holds d) :
    d.toValue.isNull = true ↔ d = .absent := by
  rcases h with ⟨-, rfl⟩ | h
  · simp [Datum.toValue, Value.isNull]
  · rw [(ScalarType.read_toValue h).2]
    constructor
    · intro h
      cases h
    · rintro rfl
      exact absurd h (ScalarType.not_holds_absent t.scalar)

/-! ## Texts that tell values apart -/

/-- Integers, truth values, texts and named states. -/
def ScalarType.isDiscrete : ScalarType → Bool
  | .int _ => true
  | .bool => true
  | .text => true
  | .enumeration _ => true
  | _ => false

/-- **Discrete values are told apart by their texts.** -/
theorem ScalarType.display_injective {t : ScalarType} (ht : t.isDiscrete = true) {d e : Datum}
    (hd : t.Holds d) (he : t.Holds e) (h : d.toValue.display = e.toValue.display) : d = e := by
  have hint : ∀ m n : Int, (Datum.int m).toValue.display = (Datum.int n).toValue.display →
      Datum.int m = .int n := by
    intro m n h
    rw [display_toValue_int, display_toValue_int] at h
    rw [intText_injective h]
  cases t with
  | int k =>
    cases d with
    | int m =>
      cases e with
      | int n => exact hint m n h
      | _ => exact he.elim
    | _ => exact hd.elim
  | enumeration _ =>
    cases d with
    | int m =>
      cases e with
      | int n => exact hint m n h
      | _ => exact he.elim
    | _ => exact hd.elim
  | bool =>
    cases d with
    | bool a =>
      cases e with
      | bool b => cases a <;> cases b <;> first | rfl | exact absurd h (by decide)
      | _ => exact he.elim
    | _ => exact hd.elim
  | text =>
    cases d with
    | text a =>
      cases e with
      | text b => exact congrArg Datum.text h
      | _ => exact he.elim
    | _ => exact hd.elim
  | _ => exact nomatch ht

end EntityMapper
