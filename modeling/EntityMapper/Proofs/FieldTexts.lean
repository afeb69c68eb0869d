import EntityMapper.Proofs.Text.DateTimeReading

/-!
# Fields are read back from every form of their values

The value of a field travels as it is stored, as a parameter of a predicate, in which a datetime is
text, and as plain text. From each of them the field reads the value that it was, a datetime that
was text cut to a tenth of a microsecond.

* `IntKind.read_text`, `Enumeration.read_text`, `readBool_text` — one type after the other
* `FieldType.read_channels` — all three forms
-/

namespace EntityMapper

/-! ## Integers -/

/-- No white space is around the text of an integer. -/
theorem trim_intDigits (n : Int) : trim (intDigits n) = intDigits n := by
  unfold intDigits
  split
  · have hlast : ∀ c ∈ ('-' :: natDigits n.natAbs).getLast?, isBlank c = false := by
      intro c hc
      rw [List.getLast?_cons, List.getLast?_eq_some_getLast (natDigits_ne_nil _),
        Option.getD_some] at hc
      obtain rfl := Option.some.inj hc
      exact not_isBlank_of_isDigit (isDigit_natDigits (List.getLast_mem _))
    refine trim_eq_self ?_ hlast
    intro c hc
    obtain rfl := Option.some.inj hc
    decide
  · exact trim_natDigits _

/-- The text of a 64-bit integer is read as the integer. -/
theorem readInt64_text (n : Int64) : readInt64 (.text (intText n.toInt)) = .ok n := by
  unfold readInt64
  dsimp only
  rw [intText, String.toList_ofList, trim_intDigits, readInteger_intDigits, Option.bind_some,
    int64?_toInt]

/-- The text of an unsigned 64-bit integer is read as the integer by the widest unsigned type. -/
theorem readUnsigned_intText {n : Int} (hlow : 0 ≤ n) (hhigh : n < twoTo 64) :
    readUnsigned (trim (intText n).toList) = some n.toNat := by
  have hdigits : intDigits n = natDigits n.toNat := by
    rw [intDigits, if_neg (by omega)]
    congr 1
    omega
  rw [intText, String.toList_ofList, trim_intDigits, hdigits, readUnsigned_natDigits (by omega)]

namespace IntKind

variable {k : IntKind} {n : Int}

/-- What all but the widest unsigned type hold are 64-bit integers with a sign. -/
theorem exists_int64 (hn : k.Holds n) (hk : k ≠ .uint64) : ∃ m : Int64, m.toInt = n := by
  cases h : int64? n with
  | some m => exact ⟨m, int64?_eq_some h⟩
  | none => exact absurd (eq_uint64_of_int64?_eq_none hn h).1 hk

/-- A 64-bit integer of the type is read through 64 bits. -/
theorem readThroughInt64_ok {v : Value} {m : Int64} (hread : readInt64 v = .ok m)
    (hm : k.Holds m.toInt) : k.readThroughInt64 v = .ok m.toInt := by
  unfold readThroughInt64
  simp only [hread, Bind.bind, Except.bind, if_pos hm]
  rfl

/-- **An integer is read from its text**, whatever its type. -/
theorem read_text (hn : k.Holds n) : k.read (.text (intText n)) = .ok n := by
  by_cases hk : k = .uint64
  · subst hk
    obtain ⟨hlow, hhigh⟩ := hn
    have hlow : 0 ≤ n := hlow
    have hhigh : n ≤ twoTo 64 - 1 := hhigh
    unfold read
    dsimp only
    rw [readUnsigned_intText hlow (by omega)]
    dsimp only
    rw [Int.toNat_of_nonneg hlow]
  · obtain ⟨m, rfl⟩ := exists_int64 hn hk
    have hread : k.read (.text (intText m.toInt)) =
        k.readThroughInt64 (.text (intText m.toInt)) := by
      cases k with
      | uint64 => exact absurd rfl hk
      | _ => rfl
    rw [hread, readThroughInt64_ok (readInt64_text m) hn]

end IntKind

/-- A state is read from the text of its code. -/
theorem Enumeration.read_text {e : Enumeration} {m : Int64} (h : m ∈ e.codes) :
    e.read (.text (intText m.toInt)) = .ok m.toInt := by
  unfold Enumeration.read
  simp only [readInt64_text, Bind.bind, Except.bind, if_pos h]
  rfl

/-- A truth value is read from its text. -/
theorem readBool_text (b : Bool) : readBool (.text (Value.bool b).display) = .ok b := by
  cases b <;> rfl

/-! ## Fields -/

/-- The value of a field with a datetime in it cut to a tenth of a microsecond. -/
def Datum.truncated : Datum → Datum
  | .datetime t => .datetime t.truncated
  | d => d

/-- A datetime outside a leap second is read from its text, cut. -/
theorem readDateTime_text {t : DateTime} (h : t.inLeapSecond = false) :
    readDateTime (.text t.text) = .ok t.truncated := by
  unfold readDateTime
  dsimp only
  rw [DateTime.ofText?_text, DateTime.written_eq_truncated h]

variable {t : ScalarType} {d : Datum}

/-- The types of which the text of a value leaves nothing out but what is smaller than a tick. -/
def ScalarType.IsTextual (t : ScalarType) : Prop := t.isDiscrete = true ∨ t = .datetime

/-- **A value is read from its text.** -/
theorem ScalarType.read_text (ht : t.IsTextual) (h : t.Holds d)
    (hleap : ∀ u, d = .datetime u → u.inLeapSecond = false) :
    t.read (.text d.toValue.display) = .ok d.truncated := by
  cases t with
  | int k =>
    cases d with
    | int n =>
      rw [display_toValue_int, ScalarType.read, IntKind.read_text h]
      rfl
    | _ => exact h.elim
  | enumeration e =>
    cases d with
    | int n =>
      obtain ⟨m, hm, rfl⟩ := h
      rw [display_toValue_int, ScalarType.read, Enumeration.read_text hm]
      rfl
    | _ => exact h.elim
  | bool =>
    cases d with
    | bool b =>
      show (readBool (.text (Value.bool b).display)).map Datum.bool = _
      rw [readBool_text]
      rfl
    | _ => exact h.elim
  | text =>
    cases d with
    | text w => rfl
    | _ => exact h.elim
  | datetime =>
    cases d with
    | datetime u =>
      show (readDateTime (.text u.text)).map Datum.datetime = _
      rw [readDateTime_text (hleap u rfl)]
      rfl
    | _ => exact h.elim
  | _ => rcases ht with ht | ht <;> cases ht

/-- A parameter is the value or, for a datetime, its text. -/
theorem Datum.normalizeLiteral_toValue (d : Datum) :
    d.toValue.normalizeLiteral = d.toValue ∧ d.truncated = d ∨
      ∃ u, d = .datetime u ∧ d.toValue.normalizeLiteral = .text d.toValue.display := by
  cases d with
  | datetime u => exact .inr ⟨u, rfl, rfl⟩
  | int n =>
    refine .inl ⟨?_, rfl⟩
    rw [toValue_int]
    cases int64? n <;> rfl
  | _ => exact .inl ⟨rfl, rfl⟩

/-- **A field reads each form of its value as the value**: as it is stored, as a parameter and as
plain text. Where a datetime outside leap seconds has become text it is cut to a tenth of a
microsecond. -/
theorem FieldType.read_channels {t : FieldType} (ht : t.scalar.IsTextual) (h : t.Holds d) :
    t.read d.toValue = .ok d ∧
      ((∀ u, d = .datetime u → u.inLeapSecond = false) →
        t.read d.toValue.normalizeLiteral = .ok d.truncated ∧
          (d ≠ .absent → t.read (.text d.toValue.display) = .ok d.truncated)) := by
  refine ⟨FieldType.read_toValue h, fun hleap => ?_⟩
  have htext : d ≠ .absent → t.read (.text d.toValue.display) = .ok d.truncated := by
    intro hpresent
    obtain ⟨-, rfl⟩ | hheld := h
    · exact absurd rfl hpresent
    · rw [FieldType.read_of_not_isNull rfl, ScalarType.read_text ht hheld hleap]
  refine ⟨?_, htext⟩
  obtain ⟨hsame, htruncated⟩ | ⟨u, rfl, hnormal⟩ := d.normalizeLiteral_toValue
  · rw [hsame, htruncated, FieldType.read_toValue h]
  · rw [hnormal, htext nofun]

/-- A datetime in the first minute that there is. -/
def DateTime.earliest (nanosecond : Nat) (h : nanosecond < 1000000000) : DateTime where
  year := firstYear
  month := 1
  day := 1
  hour := 0
  minute := 0
  second := 59
  nanosecond := nanosecond
  isInstant := by constructor <;> first | decide | exact Nat.lt_trans h (by decide)

/-- An optional datetime of the first year is read from its text, cut to a tenth of a
microsecond. -/
theorem FieldType.read_channels_earliest :
    let t : FieldType := ⟨.datetime, true⟩
    let u := DateTime.earliest 123456789 (by decide)
    t.read (.datetime u) = .ok (.datetime u) ∧
      (Value.datetime u).normalizeLiteral = .text "-262143-01-01 00:00:59.1234567" ∧
      t.read (.text "-262143-01-01 00:00:59.1234567") =
        .ok (.datetime (DateTime.earliest 123456700 (by decide))) := by
  have htext : (DateTime.earliest 123456789 (by decide)).text =
      "-262143-01-01 00:00:59.1234567" := by
    decide +kernel
  obtain ⟨hvalue, hforms⟩ := FieldType.read_channels (t := ⟨.datetime, true⟩)
    (d := .datetime (DateTime.earliest 123456789 (by decide))) (.inr rfl) (.inr trivial)
  obtain ⟨-, hdisplayed⟩ := hforms fun v hv => by
    cases hv
    rfl
  refine ⟨hvalue, congrArg Value.text htext, ?_⟩
  rw [← htext]
  exact hdisplayed nofun

end EntityMapper
