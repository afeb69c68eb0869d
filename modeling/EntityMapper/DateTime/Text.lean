import EntityMapper.DateTime
import EntityMapper.Text.Blank
import EntityMapper.Text.Decimal

/-!
# Datetimes as text

The canonical text is `yyyy-MM-dd HH:mm:ss.fffffff`: a tenth of a microsecond is its unit, and
what is smaller is cut off. Reading accepts the canonical text and its close relatives: `T` for
the blank, no fraction or one of any length, a date alone, fewer digits in a number.
-/

namespace EntityMapper.DateTime

/-! ## Writing -/

/-- A year: four digits, a minus sign before year zero, a plus sign after the year 9999. -/
def yearDigits (year : Int) : List Char :=
  (if year < 0 then ['-'] else if 9999 < year then ['+'] else []) ++ padDigits 4 year.natAbs

/-- The second as a clock shows it: in a leap second the one after it, which may be 60. -/
def clockSecond (t : DateTime) : Nat := if t.inLeapSecond then t.second + 1 else t.second

/-- The nanoseconds since the last tick of the clock. -/
def clockNanosecond (t : DateTime) : Nat := t.nanosecond % 1000000000

/-- Date and time of day to the second. -/
def secondsChars (t : DateTime) : List Char :=
  yearDigits t.year ++ '-' :: padDigits 2 t.month ++ '-' :: padDigits 2 t.day ++
    ' ' :: padDigits 2 t.hour ++ ':' :: padDigits 2 t.minute ++ ':' :: padDigits 2 t.clockSecond

/-- The tenths of a microsecond that the canonical text shows; it has no room for those of a leap
second and shows the last one there. -/
def ticks (t : DateTime) : Nat := min (t.nanosecond / 100) 9999999

/-- The canonical text. -/
def canonicalChars (t : DateTime) : List Char :=
  t.secondsChars ++ '.' :: padDigits 7 t.ticks

/-- The canonical text. -/
def text (t : DateTime) : String := String.ofList t.canonicalChars

/-- How many places of a second a text shows. -/
inductive SubsecondLayout
  | microseconds
  | asNeeded
deriving DecidableEq, Repr

/-- The fraction of a second with its point: six places cut off, or as few of none, three, six and
nine as are exact. -/
def subsecondChars (t : DateTime) : SubsecondLayout → List Char
  | .microseconds => '.' :: padDigits 6 (t.clockNanosecond / 1000)
  | .asNeeded =>
    let n := t.clockNanosecond
    if n = 0 then []
    else if n % 1000000 = 0 then '.' :: padDigits 3 (n / 1000000)
    else if n % 1000 = 0 then '.' :: padDigits 6 (n / 1000)
    else '.' :: padDigits 9 n

/-- Date, time and fraction in one of the layouts. -/
def render (t : DateTime) (layout : SubsecondLayout) : String :=
  String.ofList (t.secondsChars ++ t.subsecondChars layout)

/-! ## Reading -/

/-- Takes a given character off the front. -/
def expect (c : Char) : List Char → Option (List Char)
  | [] => none
  | d :: r => if c = d then some r else none

/-- A number of at most two digits within bounds, white space before it being skipped. -/
def readField (low high : Nat) (cs : List Char) : Option (Nat × List Char) := do
  let (n, _, r) ← readDigits (some 2) (trimLeft cs)
  if low ≤ n ∧ n ≤ high then some (n, r) else none

/-- A year: at most four digits, or any number of them after a sign. -/
def readYear (cs : List Char) : Option (Int × List Char) :=
  match trimLeft cs with
  | '-' :: r => (readDigits none r).map fun (n, _, r) => (-(n : Int), r)
  | '+' :: r => (readDigits none r).map fun (n, _, r) => ((n : Int), r)
  | r => (readDigits (some 4) r).map fun (n, _, r) => ((n : Int), r)

/-- A date. -/
def readDate (cs : List Char) : Option ((Int × Nat × Nat) × List Char) := do
  let (year, r) ← readYear cs
  let (month, r) ← readField 1 12 (← expect '-' r)
  let (day, r) ← readField 1 31 (← expect '-' r)
  return ((year, month, day), r)

/-- A fraction of a second in nanoseconds: none, or a point and at least one digit, of which those
after the ninth count for nothing. -/
def readFraction : List Char → Option (Nat × List Char)
  | '.' :: r => (readDigits (some 9) r).map fun (n, places, r) =>
    (n * tenTo (9 - places), r.dropWhile Char.isDigit)
  | r => some (0, r)

/-- A time of day: hour, minute, second up to 60, nanoseconds. -/
def readTime (cs : List Char) : Option ((Nat × Nat × Nat × Nat) × List Char) := do
  let (hour, r) ← readField 0 23 cs
  let (minute, r) ← readField 0 59 (← expect ':' r)
  let (second, r) ← readField 0 60 (← expect ':' r)
  let (nanosecond, r) ← readFraction r
  return ((hour, minute, second, nanosecond), r)

/-- Second 60 is the leap second after second 59; no other leap second can be read. -/
def ofReading (date : Int × Nat × Nat) (time : Nat × Nat × Nat × Nat) : Option DateTime :=
  let (year, month, day) := date
  let (hour, minute, second, nanosecond) := time
  if second = 60 then ofFields? year month day hour minute 59 (nanosecond + 1000000000)
  else ofFields? year month day hour minute second nanosecond

/-- A whole text that is a date, what parts it from the time, and a time. -/
def readBoth (separator : List Char → Option (List Char)) (cs : List Char) : Option DateTime := do
  let (date, r) ← readDate cs
  let (time, r) ← readTime (← separator r)
  if r.isEmpty then ofReading date time else none

/-- A whole text that is a date, which stands for its midnight. -/
def readDateOnly (cs : List Char) : Option DateTime := do
  let (date, r) ← readDate cs
  if r.isEmpty then ofReading date (0, 0, 0, 0) else none

/-- A date and a time parted by any white space or by `T`, or a date alone; white space around
them is skipped. -/
def ofChars? (cs : List Char) : Option DateTime :=
  let cs := trim cs
  (readBoth (fun r => some (trimLeft r)) cs).or <|
    (readBoth (expect 'T') cs).or (readDateOnly cs)

/-- Reads a datetime. -/
def ofText? (s : String) : Option DateTime := ofChars? s.toList

end EntityMapper.DateTime
