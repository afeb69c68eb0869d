import Mathlib
import EntityMapper.Engine.Cell
import EntityMapper.Proofs.Text.DateTimePrecision

/-!
# The texts of datetimes sort like time

Datetimes are ordered by their days, then by the seconds of the day, then by the nanoseconds of the
second. The canonical texts of the years with four digits are ordered in the same way byte by byte:
each number of a text has its place, and the larger units stand in front of the smaller ones.

* `DateTime.order` — which of two datetimes comes first
* `order_eq` — the first of their numbers that differ tell it
* `compare_utf8_text` — and so it is with the bytes of the texts, with the second that they show
* `Overtakes` — a datetime of a leap second whose text is behind that of a later one
* `text_order` — the texts sort like time but for these, stored ones as well as those of literals
-/

namespace EntityMapper

/-! ## Comparing number by number -/

/-- Where one number decides over a second one: as long as the first numbers differ they compare
like the whole, and otherwise the whole compares like what is left. -/
theorem compare_eq_then {α β : Type} [LinearOrder α] [LinearOrder β] {x y : α} {a b : β}
    {o : Ordering} (hlt : a < b → x < y) (hgt : b < a → y < x) (heq : a = b → compare x y = o) :
    compare x y = (compare a b).then o := by
  rcases lt_trichotomy a b with h | h | h
  · rw [compare_lt_iff_lt.mpr h, compare_lt_iff_lt.mpr (hlt h)]
    rfl
  · rw [compare_eq_iff_eq.mpr h, heq h]
    rfl
  · rw [compare_gt_iff_gt.mpr h, compare_gt_iff_gt.mpr (hgt h)]
    rfl

/-- Numbers that are ordered alike compare alike. -/
theorem compare_eq_compare {α β : Type} [LinearOrder α] [LinearOrder β] {x y : α} {a b : β}
    (hlt : a < b → x < y) (hgt : b < a → y < x) (heq : a = b → x = y) :
    compare x y = compare a b := by
  rw [compare_eq_then hlt hgt fun h => compare_eq_iff_eq.mpr (heq h)]
  exact Ordering.then_eq

/-- Lists are compared part by part if the parts in front have one length. -/
theorem compare_append {a b : List Nat} (h : a.length = b.length) (r s : List Nat) :
    compare (a ++ r) (b ++ s) = (compare a b).then (compare r s) := by
  induction a generalizing b with
  | nil =>
    obtain rfl := List.eq_nil_of_length_eq_zero h.symm
    rfl
  | cons x a ih =>
    cases b with
    | nil => exact absurd h (Nat.succ_ne_zero _)
    | cons y b =>
      rw [List.cons_append, List.cons_append, List.compare_cons_cons, List.compare_cons_cons,
        ih (Nat.succ.inj h), Ordering.then_assoc]

/-- What both lists have in front does not tell them apart. -/
theorem compare_cons_self (x : Nat) (r s : List Nat) : compare (x :: r) (x :: s) = compare r s := by
  have hx : compare x x = .eq := compare_eq_iff_eq.mpr rfl
  rw [List.compare_cons_cons, hx]
  rfl

/-! ## Digits -/

theorem digitValue_le {d : Char} (h : d.isDigit = true) :
    digitValue d ≤ 9 ∧ d.toNat = digitValue d + 48 := by
  have hd : 48 ≤ d.toNat ∧ d.toNat ≤ 57 := by
    simpa [Char.isDigit, UInt32.le_iff_toNat_le] using h
  have hvalue : digitValue d = d.toNat - 48 := rfl
  omega

theorem digitsValue_cons (d : Char) (ds : List Char) :
    digitsValue 0 (d :: ds) = digitValue d * tenTo ds.length + digitsValue 0 ds := by
  have hfirst : digitsValue 0 [d] = digitValue d := Nat.zero_add _
  rw [← List.singleton_append, digitsValue_append, hfirst]

theorem digitsValue_lt {ds : List Char} (h : ∀ d ∈ ds, d.isDigit = true) :
    digitsValue 0 ds < tenTo ds.length := by
  induction ds with
  | nil => decide
  | cons d ds ih =>
    have hd := (digitValue_le (h d List.mem_cons_self)).1
    have hds := ih fun x hx => h x (List.mem_cons_of_mem _ hx)
    have hle : digitValue d * tenTo ds.length ≤ 9 * tenTo ds.length := Nat.mul_le_mul_right _ hd
    rw [digitsValue_cons, List.length_cons, tenTo_succ]
    omega

/-- **As many digits compare like their numbers.** -/
theorem compare_digits {ds es : List Char} (hds : ∀ d ∈ ds, d.isDigit = true)
    (hes : ∀ e ∈ es, e.isDigit = true) (hlen : ds.length = es.length) :
    compare (ds.map Char.toNat) (es.map Char.toNat) =
      compare (digitsValue 0 ds) (digitsValue 0 es) := by
  induction ds generalizing es with
  | nil =>
    obtain rfl := List.eq_nil_of_length_eq_zero hlen.symm
    rfl
  | cons d ds ih =>
    cases es with
    | nil => exact absurd hlen (Nat.succ_ne_zero _)
    | cons e es =>
      have hlen := Nat.succ.inj hlen
      have hds' : ∀ x ∈ ds, x.isDigit = true := fun x hx => hds x (List.mem_cons_of_mem _ hx)
      have hes' : ∀ x ∈ es, x.isDigit = true := fun x hx => hes x (List.mem_cons_of_mem _ hx)
      obtain ⟨-, hd⟩ := digitValue_le (hds d List.mem_cons_self)
      obtain ⟨-, he⟩ := digitValue_le (hes e List.mem_cons_self)
      have hdl := digitsValue_lt hds'
      have hel := digitsValue_lt hes'
      rw [List.map_cons, List.map_cons, List.compare_cons_cons, ih hds' hes' hlen, digitsValue_cons,
        digitsValue_cons, ← hlen]
      rw [← hlen] at hel
      -- what follows a digit never makes up for a smaller one
      have hless : ∀ {m n : Nat}, m < n → m * tenTo ds.length + tenTo ds.length ≤
          n * tenTo ds.length := fun {m n} h => by
        have hle := Nat.mul_le_mul_right (tenTo ds.length) (Nat.succ_le_of_lt h)
        rwa [Nat.succ_mul] at hle
      symm
      apply compare_eq_then
      · intro h
        have := hless (show digitValue d < digitValue e by omega)
        omega
      · intro h
        have := hless (show digitValue e < digitValue d by omega)
        omega
      · intro h
        rw [show digitValue d = digitValue e by omega]
        exact compare_eq_compare (by omega) (by omega) (by omega)

/-- Padded numbers of one width compare like the numbers. -/
theorem compare_padDigits {width m n : Nat} (hwidth : 0 < width) (hm : m < tenTo width)
    (hn : n < tenTo width) :
    compare ((padDigits width m).map Char.toNat) ((padDigits width n).map Char.toNat) =
      compare m n := by
  have hlen : (padDigits width m).length = (padDigits width n).length := by
    rw [length_padDigits_of_lt hwidth hm, length_padDigits_of_lt hwidth hn]
  rw [compare_digits (fun _ => isDigit_padDigits) (fun _ => isDigit_padDigits) hlen,
    digitsValue_padDigits, digitsValue_padDigits]

/-- The same for padded numbers in front of a separator and more text. -/
theorem compare_padDigits_append {width m n : Nat} (hwidth : 0 < width) (hm : m < tenTo width)
    (hn : n < tenTo width) (c : Char) (r s : List Char) :
    compare ((padDigits width m ++ c :: r).map Char.toNat)
        ((padDigits width n ++ c :: s).map Char.toNat) =
      (compare m n).then (compare (r.map Char.toNat) (s.map Char.toNat)) := by
  have hlen : ((padDigits width m).map Char.toNat).length =
      ((padDigits width n).map Char.toNat).length := by
    rw [List.length_map, List.length_map, length_padDigits_of_lt hwidth hm,
      length_padDigits_of_lt hwidth hn]
  rw [List.map_append, List.map_append, compare_append hlen, compare_padDigits hwidth hm hn,
    List.map_cons, List.map_cons, compare_cons_self]

/-! ## Bytes -/

/-- The bytes of a text. -/
def utf8 (s : String) : List Nat := s.toUTF8.data.toList.map UInt8.toNat

/-- A text of ASCII characters has one byte for each. -/
theorem utf8_ofList {cs : List Char} (h : ∀ c ∈ cs, c.toNat < 128) :
    utf8 (String.ofList cs) = cs.map Char.toNat := by
  have hbytes : cs.flatMap String.utf8EncodeChar = cs.map fun c => c.val.toUInt8 := by
    rw [List.map_eq_flatMap]
    refine List.flatMap_congr fun c hc => ?_
    have hc : c.toNat < 128 := h c hc
    exact String.utf8EncodeChar_eq_singleton <| Char.utf8Size_eq_one_iff.mpr <|
      UInt32.le_iff_toNat_le.mpr (Nat.le_of_lt_succ hc)
  unfold utf8 String.toUTF8
  rw [String.toByteArray_ofList, List.utf8Encode, List.toList_data_toByteArray, hbytes,
    List.map_map]
  refine List.map_congr_left fun c hc => ?_
  have hc : c.toNat < 128 := h c hc
  have hmod : (c.val.toUInt8).toNat = c.toNat % 256 := UInt32.toNat_toUInt8 _
  rw [Function.comp_apply, hmod]
  exact Nat.mod_eq_of_lt (by omega)

/-- Lists of characters are ordered like their numbers. -/
theorem compare_map_toNat (a b : List Char) :
    compare (a.map Char.toNat) (b.map Char.toNat) = compareOfLessAndEq a b := by
  induction a generalizing b with
  | nil =>
    cases b with
    | nil => rfl
    | cons y b => rfl
  | cons x a ih =>
    cases b with
    | nil => rfl
    | cons y b =>
      rw [List.map_cons, List.map_cons, List.compare_cons_cons, ih]
      unfold compareOfLessAndEq
      rcases lt_trichotomy x.toNat y.toNat with h | h | h
      · have hless : x :: a < y :: b := List.cons_lt_cons_iff.mpr (.inl h)
        rw [compare_lt_iff_lt.mpr h, if_pos hless]
        rfl
      · obtain rfl := Char.toNat_inj.mp h
        have heq : compare x.toNat x.toNat = .eq := compare_eq_iff_eq.mpr rfl
        rw [heq]
        simp
      · have hne : x ≠ y := fun heq => Nat.lt_irrefl _ (heq ▸ h)
        have hless : ¬ x :: a < y :: b := fun hless => by
          rcases List.cons_lt_cons_iff.mp hless with hlt | ⟨heq, -⟩
          · exact Nat.lt_asymm h hlt
          · exact hne heq
        rw [compare_gt_iff_gt.mpr h, if_neg hless, if_neg fun heq => hne (List.cons.inj heq).1]
        rfl

/-- Texts of ASCII characters are ordered like their bytes. -/
theorem compare_ofList {a b : List Char} (ha : ∀ c ∈ a, c.toNat < 128)
    (hb : ∀ c ∈ b, c.toNat < 128) :
    compare (String.ofList a) (String.ofList b) =
      compare (utf8 (String.ofList a)) (utf8 (String.ofList b)) := by
  rw [utf8_ofList ha, utf8_ofList hb, compare_map_toNat]
  show compareOfLessAndEq (String.ofList a) (String.ofList b) = _
  unfold compareOfLessAndEq
  simp only [String.lt_iff, String.toList_ofList, String.ofList_inj]

/-! ## Days -/

/-- The number of days of a year. -/
def daysInYear (year : Int) : Nat := if isLeapYear year then 366 else 365

/-- The days of a year before a month. -/
def daysBeforeMonth (year : Int) (month : Nat) : Nat :=
  ((List.range' 1 (month - 1)).map (daysInMonth year)).sum

/-- The days before a year, from the start of the year zero. -/
def daysBeforeYear (year : Int) : Int :=
  365 * year + (year + 3) / 4 - (year + 99) / 100 + (year + 399) / 400

theorem daysBeforeMonth_succ (year : Int) {month : Nat} (h : 1 ≤ month) :
    daysBeforeMonth year (month + 1) = daysBeforeMonth year month + daysInMonth year month := by
  obtain ⟨m, rfl⟩ := Nat.exists_eq_add_of_le' h
  unfold daysBeforeMonth
  rw [Nat.add_sub_cancel, Nat.add_sub_cancel, List.range'_1_concat]
  simp [Nat.add_comm]

theorem daysBeforeMonth_le (year : Int) {month later : Nat} (hmonth : 1 ≤ month)
    (h : month < later) :
    daysBeforeMonth year month + daysInMonth year month ≤ daysBeforeMonth year later := by
  induction h with
  | refl => exact Nat.le_of_eq (daysBeforeMonth_succ year hmonth).symm
  | @step later hlater ih =>
    have hlater : month < later := hlater
    rw [daysBeforeMonth_succ year (by omega)]
    omega

/-- The months make up the year. -/
theorem daysBeforeMonth_thirteen (year : Int) : daysBeforeMonth year 13 = daysInYear year := by
  unfold daysBeforeMonth daysInYear
  cases h : isLeapYear year with
  | true => simp [List.range', daysInMonth, h]
  | false => simp [List.range', daysInMonth, h]

theorem isLeapYear_iff {year : Int} :
    isLeapYear year = true ↔ year % 4 = 0 ∧ (year % 100 ≠ 0 ∨ year % 400 = 0) := by
  simp [isLeapYear]

/-- A year goes on where the one before it ends. -/
theorem daysBeforeYear_succ (year : Int) :
    daysBeforeYear (year + 1) = daysBeforeYear year + daysInYear year := by
  have hleap := @isLeapYear_iff year
  unfold daysBeforeYear daysInYear
  split
  · next h =>
    rw [h] at hleap
    have := hleap.mp rfl
    omega
  · next h =>
    have := mt hleap.mpr h
    omega

theorem daysBeforeYear_le {year later : Int} (h : year < later) :
    daysBeforeYear year + daysInYear year ≤ daysBeforeYear later := by
  rw [← daysBeforeYear_succ]
  unfold daysBeforeYear
  omega

namespace DateTime

/-- The number of the day, from the start of the year zero. -/
def dayNumber (t : DateTime) : Int :=
  daysBeforeYear t.year + daysBeforeMonth t.year t.month + t.day

/-- The seconds since midnight. A leap second has the number of the one before it. -/
def secondOfDay (t : DateTime) : Nat := (t.hour * 60 + t.minute) * 60 + t.second

/-- Which of two datetimes comes first: that of the earlier day, of the earlier second, of the
earlier nanosecond. A leap second comes behind the second before it, since its nanoseconds go on
from there. -/
def order (t u : DateTime) : Ordering :=
  (compare t.dayNumber u.dayNumber).then <|
    (compare t.secondOfDay u.secondOfDay).then (compare t.nanosecond u.nanosecond)

variable {t u : DateTime}

/-- A day of a month is told by its number. -/
theorem compare_dayNumber (t u : DateTime) : compare t.dayNumber u.dayNumber =
    (compare t.year u.year).then ((compare t.month u.month).then (compare t.day u.day)) := by
  have hyear : ∀ t : DateTime, 1 ≤ t.day ∧
      daysBeforeMonth t.year t.month + t.day ≤ daysInYear t.year := fun t => by
    have hmonths := daysBeforeMonth_le t.year t.isInstant.month_pos
      (Nat.lt_succ_of_le t.isInstant.month_le)
    rw [daysBeforeMonth_thirteen] at hmonths
    have := t.isInstant.day_le
    exact ⟨t.isInstant.day_pos, by omega⟩
  have hearlier : ∀ {t u : DateTime}, t.year < u.year → t.dayNumber < u.dayNumber := by
    intro t u h
    have hle := daysBeforeYear_le h
    obtain ⟨-, ht⟩ := hyear t
    obtain ⟨hu, -⟩ := hyear u
    unfold dayNumber
    omega
  have hearlierMonth : ∀ {t u : DateTime}, t.year = u.year → t.month < u.month →
      t.dayNumber < u.dayNumber := by
    intro t u hyears h
    have hle := daysBeforeMonth_le t.year t.isInstant.month_pos h
    have ht := t.isInstant.day_le
    have hu := u.isInstant.day_pos
    unfold dayNumber
    rw [← hyears]
    omega
  refine compare_eq_then hearlier hearlier fun hyears => ?_
  refine compare_eq_then (hearlierMonth hyears) (hearlierMonth hyears.symm) fun hmonths => ?_
  have hnumber : ∀ t : DateTime, t.dayNumber =
      daysBeforeYear t.year + daysBeforeMonth t.year t.month + t.day := fun _ => rfl
  refine compare_eq_compare (fun h => ?_) (fun h => ?_) (fun h => ?_)
  all_goals
    rw [hnumber, hnumber, hyears, hmonths]
    omega

/-- A second of a day is told by its number. -/
theorem compare_secondOfDay (t u : DateTime) : compare t.secondOfDay u.secondOfDay =
    (compare t.hour u.hour).then
      ((compare t.minute u.minute).then (compare t.second u.second)) := by
  obtain ⟨-, -, -, -, -, -, -, htm, hts, -⟩ := t.isInstant
  obtain ⟨-, -, -, -, -, -, -, hum, hus, -⟩ := u.isInstant
  unfold secondOfDay
  refine compare_eq_then (by omega) (by omega) fun hhours => ?_
  refine compare_eq_then (by omega) (by omega) fun hminutes => ?_
  exact compare_eq_compare (by omega) (by omega) (by omega)

/-- **The first of their numbers that differ tells which of two datetimes comes first.** -/
theorem order_eq (t u : DateTime) : t.order u =
    (compare t.year u.year).then ((compare t.month u.month).then ((compare t.day u.day).then
      ((compare t.hour u.hour).then ((compare t.minute u.minute).then
        ((compare t.second u.second).then (compare t.nanosecond u.nanosecond)))))) := by
  rw [order, compare_dayNumber, compare_secondOfDay]
  simp only [Ordering.then_assoc]

/-! ## Texts -/

/-- A year that is written with four digits. -/
def HasPlainYear (t : DateTime) : Prop := 0 ≤ t.year ∧ t.year ≤ 9999

instance : Decidable t.HasPlainYear := inferInstanceAs (Decidable (_ ∧ _))

theorem yearDigits_of_plain (h : t.HasPlainYear) :
    yearDigits t.year = padDigits 4 t.year.natAbs ∧ t.year.natAbs < tenTo 4 := by
  obtain ⟨hlow, hhigh⟩ := h
  refine ⟨?_, show t.year.natAbs < 10000 by omega⟩
  rw [yearDigits, if_neg (by omega), if_neg (by omega), List.nil_append]

theorem isAscii_of_isDigit {c : Char} (h : c.isDigit = true) : c.toNat < 128 := by
  have := digitValue_le h
  omega

/-- A canonical text is ASCII. -/
theorem isAscii_canonicalChars (h : t.HasPlainYear) : ∀ c ∈ t.canonicalChars, c.toNat < 128 := by
  have hpad : ∀ width n, ∀ c ∈ padDigits width n, c.toNat < 128 :=
    fun _ _ _ hc => isAscii_of_isDigit (isDigit_padDigits hc)
  intro c hc
  rw [canonicalChars_eq, (yearDigits_of_plain h).1] at hc
  simp only [List.mem_append, List.mem_cons] at hc
  rcases hc with hc | rfl | hc | rfl | hc | rfl | hc | rfl | hc | rfl | hc | rfl | hc
  all_goals first
    | exact hpad _ _ _ hc
    | decide

/-- **Texts are ordered by the first of their numbers that differ.** -/
theorem compare_utf8_text (ht : t.HasPlainYear) (hu : u.HasPlainYear) :
    compare (utf8 t.text) (utf8 u.text) =
      (compare t.year u.year).then ((compare t.month u.month).then ((compare t.day u.day).then
        ((compare t.hour u.hour).then ((compare t.minute u.minute).then
          ((compare t.clockSecond u.clockSecond).then (compare t.ticks u.ticks)))))) := by
  have hplaces : ∀ t : DateTime, t.month < tenTo 2 ∧ t.day < tenTo 2 ∧ t.hour < tenTo 2 ∧
      t.minute < tenTo 2 ∧ t.clockSecond < tenTo 2 ∧ t.ticks < tenTo 7 := by
    intro t
    obtain ⟨-, -, -, hmonth, -, hday, hhour, hminute, hsecond, -⟩ := t.isInstant
    have hdays := daysInMonth_le t.year t.month
    have hclock : t.clockSecond ≤ t.second + 1 := by
      unfold clockSecond
      split <;> omega
    have hticks : t.ticks ≤ 9999999 := Nat.min_le_right _ _
    have htwo : tenTo 2 = 100 := rfl
    have hseven : tenTo 7 = 10000000 := rfl
    omega
  have hyears : compare t.year.natAbs u.year.natAbs = compare t.year u.year := by
    obtain ⟨ht, -⟩ := ht
    obtain ⟨hu, -⟩ := hu
    exact compare_eq_compare (by omega) (by omega) (by omega)
  obtain ⟨htyear, htlt⟩ := yearDigits_of_plain ht
  obtain ⟨huyear, hult⟩ := yearDigits_of_plain hu
  obtain ⟨tmonth, tday, thour, tminute, tsecond, tticks⟩ := hplaces t
  obtain ⟨umonth, uday, uhour, uminute, usecond, uticks⟩ := hplaces u
  rw [text, text, utf8_ofList (isAscii_canonicalChars ht), utf8_ofList (isAscii_canonicalChars hu),
    canonicalChars_eq, canonicalChars_eq, htyear, huyear,
    compare_padDigits_append (by decide) htlt hult,
    compare_padDigits_append (by decide) tmonth umonth,
    compare_padDigits_append (by decide) tday uday,
    compare_padDigits_append (by decide) thour uhour,
    compare_padDigits_append (by decide) tminute uminute,
    compare_padDigits_append (by decide) tsecond usecond,
    compare_padDigits (by decide) tticks uticks, hyears]

/-! ## Texts and time -/

theorem isLE_then_iff {α : Type} [LinearOrder α] {a b : α} {o : Ordering} :
    ((compare a b).then o).isLE = true ↔ a < b ∨ a = b ∧ o.isLE = true := by
  rcases lt_trichotomy a b with h | h | h
  · rw [compare_lt_iff_lt.mpr h]
    simp [h]
  · rw [compare_eq_iff_eq.mpr h]
    simp only [h, lt_irrefl, true_and, false_or]
    rfl
  · rw [compare_gt_iff_gt.mpr h]
    have hlt : ¬ a < b := lt_asymm h
    have hne : a ≠ b := fun heq => lt_irrefl _ (heq ▸ h)
    simp only [Ordering.gt_then, hlt, hne, false_and, or_false]
    decide

/-- A datetime of a leap second whose text shows the second of a later datetime, at its end. -/
structure Overtakes (t u : DateTime) : Prop where
  leap : t.inLeapSecond = true
  minute : (t.year, t.month, t.day, t.hour, t.minute) = (u.year, u.month, u.day, u.hour, u.minute)
  second : u.second = t.second + 1
  early : u.nanosecond < 999999900

theorem overtakes_iff : t.Overtakes u ↔ 1000000000 ≤ t.nanosecond ∧
    (t.year = u.year ∧ t.month = u.month ∧ t.day = u.day ∧ t.hour = u.hour ∧
      t.minute = u.minute) ∧ u.second = t.second + 1 ∧ u.nanosecond < 999999900 := by
  simp only [← inLeapSecond_iff, ← Prod.mk.injEq]
  exact ⟨fun ⟨a, b, c, d⟩ => ⟨a, b, c, d⟩, fun ⟨a, b, c, d⟩ => ⟨a, b, c, d⟩⟩

/-- The texts are in order where the times are, unless one of a leap second overtakes the other.
Within a second they show the ticks, and all of a leap second as the last tick of the second after
it. -/
theorem isLE_compare_utf8_text (ht : t.HasPlainYear) (hu : u.HasPlainYear)
    (h : (t.order u).isLE = true) :
    (compare (utf8 t.text) (utf8 u.text)).isLE = true ↔ ¬ t.Overtakes u := by
  have hclock : ∀ t : DateTime, 1000000000 ≤ t.nanosecond ∧ t.clockSecond = t.second + 1 ∨
      t.nanosecond < 1000000000 ∧ t.clockSecond = t.second := fun t => by
    unfold clockSecond
    split
    · next hleap => exact .inl ⟨inLeapSecond_iff.mp hleap, rfl⟩
    · next hleap => exact .inr ⟨Nat.lt_of_not_le fun hle => hleap (inLeapSecond_iff.mpr hle), rfl⟩
  have hticks : ∀ t : DateTime, t.ticks = min (t.nanosecond / 100) 9999999 := fun _ => rfl
  have htclock := hclock t
  have huclock := hclock u
  rw [order_eq] at h
  rw [compare_utf8_text ht hu, overtakes_iff, hticks, hticks]
  simp only [isLE_then_iff, Nat.isLE_compare] at h ⊢
  -- up to the minutes the text has the numbers of the time
  omega

/-- All of a leap second has one text. -/
theorem text_eq_of_leap (ht : t.inLeapSecond = true) (hu : u.inLeapSecond = true)
    (hsecond : t.secondOf = u.secondOf) : t.text = u.text := by
  simp only [secondOf, Prod.mk.injEq] at hsecond
  obtain ⟨hyear, hmonth, hday, hhour, hminute, hsecond⟩ := hsecond
  rw [text, text, canonicalChars_eq, canonicalChars_eq, clockSecond_leap ht, clockSecond_leap hu,
    ticks_leap ht, ticks_leap hu, hyear, hmonth, hday, hhour, hminute, hsecond]

/-- Outside leap seconds a text shows just the ticks of its second. -/
theorem compare_utf8_text_truncated (ht : t.HasPlainYear) (hu : u.HasPlainYear)
    (htleap : t.inLeapSecond = false) (huleap : u.inLeapSecond = false) :
    compare (utf8 t.text) (utf8 u.text) = t.truncated.order u.truncated := by
  have hticks : compare t.ticks u.ticks =
      compare t.truncated.nanosecond u.truncated.nanosecond := by
    have hcut : ∀ {t : DateTime}, t.inLeapSecond = false →
        t.truncated.nanosecond = t.ticks * 100 := fun {t} h => by
      have hlt : ¬ 1000000000 ≤ t.nanosecond := fun hle => by
        rw [inLeapSecond_iff.mpr hle] at h
        exact nomatch h
      show t.nanosecond / 100 * 100 = _
      rw [ticks]
      omega
    rw [hcut htleap, hcut huleap]
    exact compare_eq_compare (by omega) (by omega) (by omega)
  have hsecond : ∀ {t : DateTime}, t.inLeapSecond = false → t.clockSecond = t.second :=
    fun h => by rw [clockSecond, h, if_neg Bool.false_ne_true]
  rw [compare_utf8_text ht hu, order_eq, hticks, hsecond htleap, hsecond huleap]
  rfl

/-- A datetime as it is stored, and as a literal that a predicate binds. -/
def cells (t : DateTime) : List Engine.Cell :=
  [.ofValue (.datetime t), .ofValue (Value.datetime t).normalizeLiteral]

/-- **Texts sort like time outside leap seconds.** In the years with four digits the bytes of two
texts compare as the datetimes do when they are cut to a tick, if neither is in a leap second. With
leap seconds the text of an earlier datetime is not behind that of a later one, but for one whose
text shows the second of the later one at its end; and all of a leap second has one text. Stored
datetimes and those that predicates bind compare like these bytes. -/
theorem text_order (ht : t.HasPlainYear) (hu : u.HasPlainYear) :
    ((t.order u).isLE = true →
      ((compare (utf8 t.text) (utf8 u.text)).isLE = true ↔ ¬ t.Overtakes u)) ∧
    (t.inLeapSecond = true → u.inLeapSecond = true → t.secondOf = u.secondOf → t.text = u.text) ∧
    (t.inLeapSecond = false → u.inLeapSecond = false →
      compare (utf8 t.text) (utf8 u.text) = t.truncated.order u.truncated) ∧
    ∀ x ∈ t.cells, ∀ y ∈ u.cells, x.order y = compare (utf8 t.text) (utf8 u.text) := by
  refine ⟨isLE_compare_utf8_text ht hu, text_eq_of_leap, compare_utf8_text_truncated ht hu,
    fun x hx y hy => ?_⟩
  have hcells : ∀ {t : DateTime}, ∀ x ∈ t.cells, x = .text t.text := by
    intro t x hx
    simpa [cells, Engine.Cell.ofValue, Value.normalizeLiteral] using hx
  rw [hcells x hx, hcells y hy]
  exact compare_ofList (isAscii_canonicalChars ht) (isAscii_canonicalChars hu)

/-- The middle of a leap second after 12:30:04 is before 12:30:05, and its text is behind. The text
of the leap second at the end of 2016 is in front of that of the year after it. -/
theorem text_order_leapSecond :
    let t : DateTime := { year := 2016, month := 12, day := 31, hour := 12, minute := 30,
                          second := 4, nanosecond := 1500000000 }
    let u : DateTime := { year := 2016, month := 12, day := 31, hour := 12, minute := 30,
                          second := 5, nanosecond := 0 }
    let v : DateTime := { year := 2016, month := 12, day := 31, hour := 23, minute := 59,
                          second := 59, nanosecond := 1500000000 }
    let w : DateTime := { year := 2017, month := 1, day := 1, hour := 0, minute := 0, second := 0,
                          nanosecond := 0 }
    (t.HasPlainYear ∧ u.HasPlainYear ∧ v.HasPlainYear ∧ w.HasPlainYear) ∧
      ((t.order u).isLE = true ∧ (compare (utf8 t.text) (utf8 u.text)).isLE = false) ∧
      (compare (utf8 v.text) (utf8 w.text)).isLE = true ∧
      compare (utf8 u.text) (utf8 w.text) = u.truncated.order w.truncated ∧
      Engine.Cell.order (.text v.text) (.text w.text) = compare (utf8 v.text) (utf8 w.text) := by
  intro t u v w
  have ht : t.HasPlainYear := by decide
  have hu : u.HasPlainYear := by decide
  have hv : v.HasPlainYear := by decide
  have hw : w.HasPlainYear := by decide
  obtain ⟨htu, -⟩ := text_order ht hu
  obtain ⟨hvw, -, -, hcells⟩ := text_order hv hw
  obtain ⟨-, -, huw, -⟩ := text_order hu hw
  have horder : (t.order u).isLE = true := by decide
  have hovertakes : t.Overtakes u := ⟨by decide, rfl, rfl, by decide⟩
  refine ⟨⟨ht, hu, hv, hw⟩, ⟨horder, ?_⟩, ?_, huw (by decide) (by decide), ?_⟩
  · exact Bool.eq_false_iff.mpr fun hle => (htu horder).mp hle hovertakes
  · exact (hvw (by decide)).mpr fun hovertakes => absurd hovertakes.second (by decide)
  · exact hcells _ List.mem_cons_self _ List.mem_cons_self

end DateTime

end EntityMapper
