import EntityMapper.Proofs.Text.DateTimeReading

/-!
# How precise the canonical text of a datetime is

The canonical text is read as a datetime that a clock shows with the same second. Outside leap
seconds this is the datetime cut to a tick. The second of the text goes on in a leap second and its
ticks do not start anew, so there a datetime is moved on to the last tick of the second that is
shown.

* `IsCutOf` — a datetime is what cutting to a tick leaves of another
* `ofText?_text_cut` — what is read of a canonical text, and when it is cut from the datetime
-/

namespace EntityMapper.DateTime

variable {t u : DateTime}

/-! ## Cutting to a tick -/

/-- What a clock shows, down to the second. The leap second is the one after its second. -/
def clock (t : DateTime) : Int × Nat × Nat × Nat × Nat × Nat :=
  (t.year, t.month, t.day, t.hour, t.minute, t.clockSecond)

/-- The second that a datetime is in, a leap second being part of the one before it. -/
def secondOf (t : DateTime) : Int × Nat × Nat × Nat × Nat × Nat :=
  (t.year, t.month, t.day, t.hour, t.minute, t.second)

/-- A datetime is in the same second as another, not after it, and less than a tick of a hundred
nanoseconds before it. -/
structure IsCutOf (u t : DateTime) : Prop where
  second : u.secondOf = t.secondOf
  le : u.nanosecond ≤ t.nanosecond
  lt : t.nanosecond < u.nanosecond + 100

/-- The nanoseconds of a leap second go on from a whole second. -/
theorem inLeapSecond_iff : t.inLeapSecond = true ↔ 1000000000 ≤ t.nanosecond := by
  rw [inLeapSecond, decide_eq_true_eq]

/-- In a leap second a clock shows the second after it. -/
theorem clockSecond_leap (h : t.inLeapSecond = true) : t.clockSecond = t.second + 1 := by
  rw [clockSecond, if_pos h]

/-! ## What the canonical text leaves -/

/-- All of a leap second is shown as the last tick. -/
theorem ticks_leap (h : t.inLeapSecond = true) : t.ticks = 9999999 := by
  have hlate := inLeapSecond_iff.mp h
  rw [ticks]
  omega

/-- A cut datetime is in the second of the datetime, with its whole ticks. -/
theorem isCutOf_truncated (t : DateTime) : t.truncated.IsCutOf t := by
  have hnanosecond : t.truncated.nanosecond = t.nanosecond / 100 * 100 := rfl
  exact ⟨rfl, by omega, by omega⟩

/-- Of a leap second the text leaves the last tick of the second that is shown. -/
theorem clockNanosecond_written_leap (h : t.inLeapSecond = true) :
    t.written.clockNanosecond = 999999900 := by
  show (t.ticks * 100 + if t.clockSecond = 60 then 1000000000 else 0) % 1000000000 = _
  rw [ticks_leap h]
  split <;> rfl

/-- What is left shows the same second. -/
theorem clock_written (t : DateTime) : t.written.clock = t.clock := by
  have hclock := t.clockSecond_le
  have hticks : t.ticks ≤ 9999999 := Nat.min_le_right _ _
  have hleap : t.written.inLeapSecond = true ↔ t.clockSecond = 60 := by
    rw [inLeapSecond_iff]
    show 1000000000 ≤ t.ticks * 100 + (if t.clockSecond = 60 then 1000000000 else 0) ↔ _
    split <;> omega
  have hsecond : t.written.clockSecond = t.clockSecond := by
    show (if t.written.inLeapSecond then min t.clockSecond 59 + 1 else min t.clockSecond 59) = _
    by_cases h : t.clockSecond = 60
    · rw [if_pos (hleap.mpr h), h]
      rfl
    · rw [if_neg (mt hleap.mp h)]
      omega
  unfold clock
  rw [hsecond]
  rfl

/-- What is left is cut from the datetime, but for a leap second: there it is so within the last
tick of the one that a clock counts as second 60. -/
theorem isCutOf_written_iff : t.written.IsCutOf t ↔
    (t.inLeapSecond = true → t.second = 59 ∧ 1999999900 ≤ t.nanosecond) := by
  have hlast := t.isInstant.nanosecond_lt
  have hsecond := t.isInstant.second_lt
  cases h : t.inLeapSecond with
  | false =>
    rw [written_eq_truncated h]
    exact iff_of_true (isCutOf_truncated t) nofun
  | true =>
    have hclock := clockSecond_leap h
    have hshown : t.written.second = min (t.second + 1) 59 := by rw [← hclock]; rfl
    have hnanosecond : t.written.nanosecond =
        999999900 + if t.second + 1 = 60 then 1000000000 else 0 := by
      rw [← hclock, show 999999900 = t.ticks * 100 by rw [ticks_leap h]]
      rfl
    constructor
    · rintro ⟨hsame, hle, -⟩ -
      -- the second goes on, so it is the same where a text cannot show the next one
      have hsame : min (t.second + 1) 59 = t.second := by
        rw [← hshown]
        exact congrArg (·.2.2.2.2.2) hsame
      have h59 : t.second = 59 := by omega
      rw [hnanosecond, if_pos (by omega)] at hle
      exact ⟨h59, hle⟩
    · intro hlate
      obtain ⟨h59, hlate⟩ := hlate rfl
      rw [if_pos (by omega)] at hnanosecond
      refine ⟨?_, by omega, by omega⟩
      show (t.year, t.month, t.day, t.hour, t.minute, t.written.second) = t.secondOf
      rw [hshown, show min (t.second + 1) 59 = t.second by omega]
      rfl

/-- **The canonical text is read as a datetime that shows the same second.** It is cut from the
datetime to a tick just if this lies outside leap seconds, or in the last tick of a leap second that
follows second 59. All of a leap second is read as the last tick of the second that is shown. -/
theorem ofText?_text_cut (t : DateTime) :
    ∃ u, ofText? t.text = some u ∧ u.clock = t.clock ∧
      (u.IsCutOf t ↔ (t.inLeapSecond = true → t.second = 59 ∧ 1999999900 ≤ t.nanosecond)) ∧
      (t.inLeapSecond = true → u.clockNanosecond = 999999900) :=
  ⟨t.written, ofText?_text t, clock_written t, isCutOf_written_iff, clockNanosecond_written_leap⟩

/-- The start of the leap second of 2016 is read as its end, and one after second 4 in second 5. -/
example : [ofFields? 2016 12 31 23 59 59 1000000000, ofFields? 2016 12 31 12 30 4 1500000000].map
      (·.map fun t => (t.written.second, t.written.nanosecond)) =
    [some (59, 1999999900), some (5, 999999900)] := by decide

end EntityMapper.DateTime
