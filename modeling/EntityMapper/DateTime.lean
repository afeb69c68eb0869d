/-!
# Calendar time

An instant of the proleptic Gregorian calendar with no time zone, to the nanosecond. A leap second
is told by the nanoseconds of the second before it, which then are a whole second or more. Clocks
have it after second 59 only, an instant may be in one after any second. That the fields name an
instant is part of the type.
-/

namespace EntityMapper

/-! ## The calendar -/

/-- Whether a year has a 29th of February. -/
def isLeapYear (year : Int) : Bool :=
  year % 4 == 0 && (year % 100 != 0 || year % 400 == 0)

/-- The number of days of a month. -/
def daysInMonth (year : Int) (month : Nat) : Nat :=
  if month = 2 then (if isLeapYear year then 29 else 28)
  else if month = 4 ∨ month = 6 ∨ month = 9 ∨ month = 11 then 30
  else 31

/-- The first year that an instant can be in. -/
def firstYear : Int := -262143

/-- The last year that an instant can be in. -/
def lastYear : Int := 262142

/-- Fields that name an instant. -/
structure IsInstant (year : Int) (month day hour minute second nanosecond : Nat) : Prop where
  year_ge : firstYear ≤ year
  year_le : year ≤ lastYear
  month_pos : 1 ≤ month
  month_le : month ≤ 12
  day_pos : 1 ≤ day
  day_le : day ≤ daysInMonth year month
  hour_lt : hour < 24
  minute_lt : minute < 60
  second_lt : second < 60
  nanosecond_lt : nanosecond < 2000000000

theorem isInstant_iff {year : Int} {month day hour minute second nanosecond : Nat} :
    IsInstant year month day hour minute second nanosecond ↔
      (firstYear ≤ year ∧ year ≤ lastYear) ∧ (1 ≤ month ∧ month ≤ 12) ∧
      (1 ≤ day ∧ day ≤ daysInMonth year month) ∧ (hour < 24 ∧ minute < 60 ∧ second < 60) ∧
      nanosecond < 2000000000 :=
  ⟨fun h => ⟨⟨h.1, h.2⟩, ⟨h.3, h.4⟩, ⟨h.5, h.6⟩, ⟨h.7, h.8, h.9⟩, h.10⟩,
    fun ⟨⟨a, b⟩, ⟨c, d⟩, ⟨e, f⟩, ⟨g, h, i⟩, j⟩ => ⟨a, b, c, d, e, f, g, h, i, j⟩⟩

instance {year : Int} {month day hour minute second nanosecond : Nat} :
    Decidable (IsInstant year month day hour minute second nanosecond) :=
  decidable_of_iff _ isInstant_iff.symm

/-! ## Instants -/

/-- An instant. -/
structure DateTime where
  year : Int
  month : Nat
  day : Nat
  hour : Nat
  minute : Nat
  second : Nat
  nanosecond : Nat
  isInstant : IsInstant year month day hour minute second nanosecond := by decide
deriving DecidableEq

namespace DateTime

/-- The instant that the fields name, if they name one. -/
def ofFields? (year : Int) (month day hour minute second nanosecond : Nat) : Option DateTime :=
  if h : IsInstant year month day hour minute second nanosecond then
    some ⟨year, month, day, hour, minute, second, nanosecond, h⟩
  else none

/-- The start of 1970. -/
def epoch : DateTime := { year := 1970, month := 1, day := 1, hour := 0, minute := 0, second := 0,
                          nanosecond := 0 }

instance : Inhabited DateTime := ⟨epoch⟩

/-- Whether the instant lies inside a leap second. -/
def inLeapSecond (t : DateTime) : Bool := 1000000000 ≤ t.nanosecond

end DateTime

end EntityMapper
