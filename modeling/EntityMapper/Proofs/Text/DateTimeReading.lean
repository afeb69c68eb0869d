import EntityMapper.Proofs.Text.DateTimeText

/-!
# Datetimes are read back from their texts

The canonical text of a datetime is read as the datetime that it shows: each number is written with
the places that are read of it, and what is smaller than a tick is gone.

* `readDigits_padDigits` — a padded number in front is read back
* `readDate_append`, `readTime_append` — a date and a time of day in front
* `ofText?_text` — the canonical text is read as what it shows
* `written_eq_truncated` — outside a leap second that is the datetime, cut to a tick
-/

namespace EntityMapper

/-! ## Numbers in front -/

/-- A number with no more places than it is padded to has exactly these. -/
theorem length_padDigits_of_lt {width n : Nat} (hwidth : 0 < width) (h : n < tenTo width) :
    (padDigits width n).length = width := by
  have hle : (natDigits n).length ≤ width :=
    (Nat.length_toDigits_le_iff (by decide) hwidth).mpr h
  rw [padDigits, List.length_append, List.length_replicate]
  omega

/-- Digits in front are read as their number, as long as no more of them are wanted than there are
and a digit does not follow. -/
theorem readDigits_append {most : Option Nat} {ds r : List Char}
    (hds : ∀ d ∈ ds, d.isDigit = true) (hne : ds ≠ []) (hr : ∀ d ∈ r.head?, d.isDigit = false)
    (hmost : ∀ n ∈ most, ds.length ≤ n) :
    readDigits most (ds ++ r) = some (digitsValue 0 ds, ds.length, r) := by
  have htake : takeDigits most (ds ++ r) = (ds, r) := by
    unfold takeDigits
    rw [takeWhile_isDigit_append hds hr]
    cases most with
    | none => simp
    | some n => simp [Nat.min_eq_left (hmost n rfl)]
  obtain ⟨d, rest, rfl⟩ := List.exists_cons_of_ne_nil hne
  rw [readDigits, htake]

/-- A padded number in front is read back. -/
theorem readDigits_padDigits {most : Option Nat} {width n : Nat} {r : List Char}
    (hr : ∀ d ∈ r.head?, d.isDigit = false)
    (hmost : ∀ k ∈ most, (padDigits width n).length ≤ k) :
    readDigits most (padDigits width n ++ r) = some (n, (padDigits width n).length, r) := by
  rw [readDigits_append (fun _ => isDigit_padDigits) (padDigits_ne_nil _ _) hr hmost,
    digitsValue_padDigits]

/-- No white space is in front of a padded number. -/
theorem trimLeft_padDigits (width n : Nat) (r : List Char) :
    trimLeft (padDigits width n ++ r) = padDigits width n ++ r := by
  refine trimLeft_eq_self fun c hc => not_isBlank_of_isDigit ?_
  obtain ⟨d, ds, hd⟩ := List.exists_cons_of_ne_nil (padDigits_ne_nil width n)
  rw [hd, List.cons_append, List.head?_cons, Option.mem_some_iff] at hc
  rw [← hc]
  exact isDigit_padDigits (hd ▸ List.mem_cons_self)

namespace DateTime

variable {t : DateTime} {r : List Char}

/-- A number of two places within its bounds. -/
theorem readField_padDigits {low high n : Nat} (hlow : low ≤ n) (hhigh : n ≤ high)
    (hplaces : n < 100) (hr : ∀ d ∈ r.head?, d.isDigit = false) :
    readField low high (padDigits 2 n ++ r) = some (n, r) := by
  have hlength : (padDigits 2 n).length = 2 := length_padDigits_of_lt (by decide) hplaces
  unfold readField
  rw [trimLeft_padDigits, readDigits_padDigits hr (by simp [hlength])]
  simp [hlow, hhigh]

/-! ## Dates and times in front -/

/-- A year: a sign lets it have any number of places, and without one it has four. -/
theorem readYear_yearDigits (y : Int) (hr : ∀ d ∈ r.head?, d.isDigit = false) :
    readYear (yearDigits y ++ r) = some (y, r) := by
  have hminus : ∀ cs, readYear ('-' :: cs) =
      (readDigits none cs).map fun p => (-(p.1 : Int), p.2.2) := fun _ => rfl
  have hplus : ∀ cs, readYear ('+' :: cs) =
      (readDigits none cs).map fun p => ((p.1 : Int), p.2.2) := fun _ => rfl
  have hread : readDigits none (padDigits 4 y.natAbs ++ r) =
      some (y.natAbs, (padDigits 4 y.natAbs).length, r) := readDigits_padDigits hr (by simp)
  unfold yearDigits
  rw [List.append_assoc]
  split
  · next hy =>
    have hvalue : -(y.natAbs : Int) = y := by omega
    rw [List.singleton_append, hminus, hread, Option.map_some]
    simp only [hvalue]
  · next hy =>
    have hvalue : (y.natAbs : Int) = y := by omega
    split
    · rw [List.singleton_append, hplus, hread, Option.map_some]
      simp only [hvalue]
    · -- the first of four places is no sign
      have hlength : (padDigits 4 y.natAbs).length = 4 :=
        length_padDigits_of_lt (by decide) (show y.natAbs < 10000 by omega)
      have hfour : readDigits (some 4) (padDigits 4 y.natAbs ++ r) = some (y.natAbs, 4, r) := by
        rw [readDigits_padDigits hr (by simp [hlength]), hlength]
      rw [List.nil_append]
      unfold readYear
      rw [trimLeft_padDigits]
      obtain ⟨d, ds, hd⟩ := List.exists_cons_of_ne_nil (padDigits_ne_nil 4 y.natAbs)
      have hdigit : d.isDigit = true := isDigit_padDigits (hd ▸ List.mem_cons_self)
      split
      · next heq =>
        rw [hd, List.cons_append, List.cons.injEq] at heq
        rw [heq.1] at hdigit
        exact absurd hdigit (by decide)
      · next heq =>
        rw [hd, List.cons_append, List.cons.injEq] at heq
        rw [heq.1] at hdigit
        exact absurd hdigit (by decide)
      · rw [hfour, Option.map_some]
        simp only [hvalue]

theorem daysInMonth_le (year : Int) (month : Nat) : daysInMonth year month ≤ 31 := by
  unfold daysInMonth
  split
  · split <;> decide
  · split <;> decide

/-- A date in front of what does not go on with its day. -/
theorem readDate_append (t : DateTime) (hr : ∀ d ∈ r.head?, d.isDigit = false) :
    readDate (yearDigits t.year ++ '-' :: (padDigits 2 t.month ++ '-' :: (padDigits 2 t.day ++ r))) =
      some ((t.year, t.month, t.day), r) := by
  obtain ⟨-, -, hmonth, hmonth', hday, hday', -⟩ := t.isInstant
  have hdays := daysInMonth_le t.year t.month
  unfold readDate
  rw [readYear_yearDigits _ (by simp)]
  simp only [Option.bind_eq_bind, Option.bind_some, expect, if_true]
  rw [readField_padDigits hmonth hmonth' (by omega) (by simp)]
  simp only [Option.bind_some, if_true]
  rw [readField_padDigits hday (by omega) (by omega) hr]
  rfl

/-- A clock shows no second after the 60th. -/
theorem clockSecond_le (t : DateTime) : t.clockSecond ≤ 60 := by
  have hsecond := t.isInstant.second_lt
  unfold clockSecond
  split <;> omega

/-- A time of day at the end. -/
theorem readTime_append (t : DateTime) :
    readTime (padDigits 2 t.hour ++ ':' :: (padDigits 2 t.minute ++
      ':' :: (padDigits 2 t.clockSecond ++ '.' :: padDigits 7 t.ticks))) =
        some ((t.hour, t.minute, t.clockSecond, t.ticks * 100), []) := by
  obtain ⟨-, -, -, -, -, -, hhour, hminute, -, -⟩ := t.isInstant
  have hclock := t.clockSecond_le
  have hlast : t.ticks ≤ 9999999 := Nat.min_le_right _ _
  have hticks : (padDigits 7 t.ticks).length = 7 :=
    length_padDigits_of_lt (by decide) (show t.ticks < 10000000 by omega)
  have hfraction : readDigits (some 9) (padDigits 7 t.ticks) = some (t.ticks, 7, []) := by
    have hread := @readDigits_padDigits (some 9) 7 t.ticks [] (by simp) (by simp [hticks])
    rwa [List.append_nil, hticks] at hread
  unfold readTime
  rw [readField_padDigits (by omega) (by omega) (by omega) (by simp)]
  simp only [Option.bind_eq_bind, Option.bind_some, expect, if_true]
  rw [readField_padDigits (by omega) (by omega) (by omega) (by simp)]
  simp only [Option.bind_some, if_true]
  rw [readField_padDigits (by omega) hclock (by omega) (by simp)]
  simp only [Option.bind_some, readFraction, hfraction, Option.map_some]
  rfl

/-! ## Whole texts -/

/-- What the canonical text of a datetime leaves of it: the second that a clock shows and the ticks
beside it. Second 60 is told by the nanoseconds of the 59th. -/
def written (t : DateTime) : DateTime :=
  { t with
    second := min t.clockSecond 59
    nanosecond := t.ticks * 100 + if t.clockSecond = 60 then 1000000000 else 0
    isInstant := by
      have hticks : t.ticks ≤ 9999999 := Nat.min_le_right _ _
      exact { t.isInstant with
        second_lt := by omega
        nanosecond_lt := by split <;> omega } }

/-- A datetime cut to a tenth of a microsecond. -/
def truncated (t : DateTime) : DateTime :=
  { t with
    nanosecond := t.nanosecond / 100 * 100
    isInstant := { t.isInstant with
      nanosecond_lt := Nat.lt_of_le_of_lt (Nat.div_mul_le_self _ _) t.isInstant.nanosecond_lt } }

/-- Outside a leap second nothing but what is smaller than a tick is left out. -/
theorem written_eq_truncated (h : t.inLeapSecond = false) : t.written = t.truncated := by
  have hnanosecond : t.nanosecond < 1000000000 := by
    simpa [inLeapSecond] using h
  have hsecond := t.isInstant.second_lt
  have hclock : t.clockSecond = t.second := by
    rw [clockSecond, h, if_neg Bool.false_ne_true]
  have hmin : min t.second 59 = t.second := Nat.min_eq_left (by omega)
  have hticks : t.ticks * 100 + (if t.second = 60 then 1000000000 else 0) =
      t.nanosecond / 100 * 100 := by
    rw [if_neg (by omega), ticks]
    omega
  unfold written truncated
  simp only [hclock, hmin, hticks]

/-- The fields of a datetime name it. -/
theorem ofFields?_self (t : DateTime) :
    ofFields? t.year t.month t.day t.hour t.minute t.second t.nanosecond = some t :=
  dif_pos t.isInstant

/-- The numbers of a canonical text are those of what it leaves. -/
theorem ofReading_written (t : DateTime) :
    ofReading (t.year, t.month, t.day) (t.hour, t.minute, t.clockSecond, t.ticks * 100) =
      some t.written := by
  rw [← ofFields?_self t.written]
  show (if t.clockSecond = 60 then
      ofFields? t.year t.month t.day t.hour t.minute 59 (t.ticks * 100 + 1000000000)
    else ofFields? t.year t.month t.day t.hour t.minute t.clockSecond (t.ticks * 100)) =
      ofFields? t.year t.month t.day t.hour t.minute (min t.clockSecond 59)
        (t.ticks * 100 + if t.clockSecond = 60 then 1000000000 else 0)
  have hclock := t.clockSecond_le
  by_cases hleap : t.clockSecond = 60
  · rw [if_pos hleap, if_pos hleap, hleap]
    rfl
  · rw [if_neg hleap, if_neg hleap, Nat.min_eq_left (by omega), Nat.add_zero]

/-- The canonical text, number by number. -/
theorem canonicalChars_eq (t : DateTime) :
    t.canonicalChars = yearDigits t.year ++ '-' :: (padDigits 2 t.month ++
      '-' :: (padDigits 2 t.day ++ ' ' :: (padDigits 2 t.hour ++ ':' :: (padDigits 2 t.minute ++
        ':' :: (padDigits 2 t.clockSecond ++ '.' :: padDigits 7 t.ticks))))) := by
  unfold canonicalChars secondsChars
  simp only [List.append_assoc, List.cons_append]

/-- A year starts with a sign or a digit. -/
theorem not_isBlank_head_yearDigits {c : Char} (hc : c ∈ (yearDigits t.year ++ r).head?) :
    isBlank c = false := by
  obtain ⟨d, ds, hd⟩ := List.exists_cons_of_ne_nil (padDigits_ne_nil 4 t.year.natAbs)
  unfold yearDigits at hc
  rw [hd] at hc
  split at hc
  · obtain rfl := Option.some.inj hc
    decide
  · split at hc
    · obtain rfl := Option.some.inj hc
      decide
    · obtain rfl := Option.some.inj hc
      exact not_isBlank_of_isDigit (isDigit_padDigits (hd ▸ List.mem_cons_self))

/-- No white space is around a canonical text. -/
theorem trim_canonicalChars (t : DateTime) : trim t.canonicalChars = t.canonicalChars := by
  refine trim_eq_self (fun c hc => ?_) (fun c hc => ?_)
  · rw [canonicalChars_eq] at hc
    exact not_isBlank_head_yearDigits hc
  · have hlast : t.canonicalChars.getLast? = (padDigits 7 t.ticks).getLast? := by
      unfold canonicalChars
      rw [List.append_cons, List.getLast?_append,
        List.getLast?_eq_some_getLast (padDigits_ne_nil _ _), Option.some_or]
    rw [hlast] at hc
    exact not_isBlank_of_isDigit (isDigit_padDigits (List.mem_of_mem_getLast? hc))

/-- **The canonical text of a datetime is read as what it leaves of it.** -/
theorem ofText?_text (t : DateTime) : ofText? t.text = some t.written := by
  have hblank : trimLeft (' ' :: (padDigits 2 t.hour ++ ':' :: (padDigits 2 t.minute ++
      ':' :: (padDigits 2 t.clockSecond ++ '.' :: padDigits 7 t.ticks)))) =
        padDigits 2 t.hour ++ ':' :: (padDigits 2 t.minute ++
          ':' :: (padDigits 2 t.clockSecond ++ '.' :: padDigits 7 t.ticks)) :=
    trimLeft_padDigits 2 t.hour _
  have hread : readBoth (fun r => some (trimLeft r)) t.canonicalChars = some t.written := by
    rw [canonicalChars_eq, readBoth, readDate_append t (by simp)]
    simp only [Option.bind_eq_bind, Option.bind_some, hblank, readTime_append]
    exact ofReading_written t
  unfold ofText? ofChars? text
  dsimp only
  rw [String.toList_ofList, trim_canonicalChars, hread, Option.some_or]

end DateTime

end EntityMapper
