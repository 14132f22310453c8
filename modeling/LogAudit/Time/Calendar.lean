/-!
# The calendar

Dates of the proleptic Gregorian calendar and their day numbers, counted from the first of January
1970. Years are counted astronomically: year 0 comes before year 1 and is a leap year.
-/

namespace LogAudit.Time

/-- The years that dates are kept for. -/
def firstYear : Int := -262143

/-- The last year that dates are kept for. -/
def lastYear : Int := 262142

/-- Every fourth year, but of the full centuries only every fourth one. -/
def isLeapYear (year : Int) : Bool := year % 4 == 0 && (year % 100 != 0 || year % 400 == 0)

/-- The length of a month. -/
def daysInMonth (year : Int) (month : Nat) : Nat :=
  if month == 2 then (if isLeapYear year then 29 else 28)
  else if month == 4 || month == 6 || month == 9 || month == 11 then 30
  else 31

/-- A day of the calendar. -/
structure Date where
  year : Int
  month : Nat
  day : Nat
  deriving DecidableEq, Repr

namespace Date

/-- The day exists, in a year that dates are kept for. -/
def isValid (d : Date) : Bool :=
  decide (firstYear ≤ d.year) && decide (d.year ≤ lastYear) && decide (1 ≤ d.month)
    && decide (d.month ≤ 12) && decide (1 ≤ d.day) && decide (d.day ≤ daysInMonth d.year d.month)

/-- The days before the first of March of a year, counted from the first of March of year 0. -/
def daysBeforeMarch (year : Int) : Int := 365 * year + year / 4 - year / 100 + year / 400

/-- The number of the day. The year is taken to begin in March, so that the leap day is its last;
`(153 * m + 2) / 5` days lie before month `m` counted from March. -/
def toDays (d : Date) : Int :=
  let year := if d.month ≤ 2 then d.year - 1 else d.year
  let month := (d.month + 9) % 12
  daysBeforeMarch year + ((153 * month + 2) / 5 + d.day - 1 : Nat) - 719468

/-- The day with a number. -/
def ofDays (days : Int) : Date :=
  let shifted := days + 719468
  let era := shifted / 146097
  let dayOfEra := (shifted % 146097).toNat
  let yearOfEra := (dayOfEra - dayOfEra / 1460 + dayOfEra / 36524 - dayOfEra / 146096) / 365
  let dayOfYear := dayOfEra - (365 * yearOfEra + yearOfEra / 4 - yearOfEra / 100)
  let month := (5 * dayOfYear + 2) / 153
  let year := era * 400 + (yearOfEra : Int)
  { year := if month < 10 then year else year + 1
    month := if month < 10 then month + 3 else month - 9
    day := dayOfYear - (153 * month + 2) / 5 + 1 }

end Date

end LogAudit.Time
