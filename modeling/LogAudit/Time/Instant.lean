import LogAudit.Time.Calendar

/-!
# Instants

A point in time is kept as whole seconds since the start of 1970 in UTC and nanoseconds within the
second. A leap second is the continuation of second 59 of its minute: its nanoseconds run from one
thousand million on.
-/

namespace LogAudit.Time

/-- A point in time. -/
structure Instant where
  seconds : Int
  nanos : Nat
  deriving DecidableEq, Repr

/-- A date and a time of day, without a place on earth. -/
structure LocalTime where
  date : Date
  hour : Nat
  minute : Nat
  second : Nat
  nanos : Nat
  deriving DecidableEq, Repr

/-- Nanoseconds in a second. -/
def nanosPerSecond : Nat := 1000000000

namespace LocalTime

/-- The date exists and the time of day is on the clock; second 60 is the leap second. -/
def isValid (t : LocalTime) : Bool :=
  t.date.isValid && decide (t.hour ≤ 23) && decide (t.minute ≤ 59) && decide (t.second ≤ 60)
    && decide (t.nanos < nanosPerSecond)

/-- The instant at which clocks that are `offset` seconds ahead of UTC show this time. -/
def toInstant (t : LocalTime) (offset : Int) : Instant :=
  let leap := t.second == 60
  { seconds := t.date.toDays * 86400
      + ((t.hour * 3600 + t.minute * 60 + if leap then 59 else t.second : Nat) : Int) - offset
    nanos := if leap then t.nanos + nanosPerSecond else t.nanos }

/-- The instant, if its date in UTC is one that dates are kept for. -/
def toInstant? (t : LocalTime) (offset : Int) : Option Instant :=
  if t.isValid then
    let instant := t.toInstant offset
    let year := (Date.ofDays (instant.seconds / 86400)).year
    if firstYear ≤ year && year ≤ lastYear then some instant else none
  else none

end LocalTime

namespace Instant

/-- Instants are ordered by their seconds, then by the part of the second. -/
def le (a b : Instant) : Bool :=
  decide (a.seconds < b.seconds) || (a.seconds == b.seconds && decide (a.nanos ≤ b.nanos))

/-- What a clock in UTC shows. -/
def toLocal (t : Instant) : LocalTime :=
  let inDay := (t.seconds % 86400).toNat
  let leap := decide (nanosPerSecond ≤ t.nanos)
  { date := Date.ofDays (t.seconds / 86400)
    hour := inDay / 3600
    minute := inDay / 60 % 60
    second := if leap then inDay % 60 + 1 else inDay % 60
    nanos := if leap then t.nanos - nanosPerSecond else t.nanos }

/-- A number in decimal, filled up with zeros on the left. -/
def padded (width n : Nat) : String :=
  let digits := toString n
  String.ofList (List.replicate (width - digits.length) '0') ++ digits

/-- Years of four digits are written plainly, others with a sign. -/
def yearText (year : Int) : String :=
  if 0 ≤ year && year ≤ 9999 then padded 4 year.toNat
  else if year < 0 then "-" ++ padded 4 year.natAbs
  else "+" ++ padded 4 year.natAbs

/-- The fraction of a second in three, six or nine digits, whichever are the fewest that are exact;
nothing for a whole second. -/
def fractionText (nanos : Nat) : String :=
  if nanos == 0 then ""
  else if nanos % 1000000 == 0 then "." ++ padded 3 (nanos / 1000000)
  else if nanos % 1000 == 0 then "." ++ padded 6 (nanos / 1000)
  else "." ++ padded 9 nanos

/-- Date and time of day in UTC with `separator` between them. -/
def clockText (separator : String) (t : Instant) : String :=
  let shown := t.toLocal
  yearText shown.date.year ++ "-" ++ padded 2 shown.date.month ++ "-" ++ padded 2 shown.date.day
    ++ separator ++ padded 2 shown.hour ++ ":" ++ padded 2 shown.minute ++ ":"
    ++ padded 2 shown.second ++ fractionText shown.nanos

/-- The form with a `T` in the middle and a `Z` at the end. -/
def toText (t : Instant) : String := clockText "T" t ++ "Z"

/-- The form for reading, with the zone's name at the end. -/
def display (t : Instant) : String := clockText " " t ++ " UTC"

end Instant

/-- A span of time, either end of which may be open. -/
structure Window where
  start : Option Instant
  stop : Option Instant
  deriving DecidableEq, Repr

namespace Window

/-- Both ends belong to the window. A record without a time is in a window that has no start. -/
def contains (w : Window) : Option Instant → Bool
  | some t => w.start.all (·.le t) && w.stop.all (t.le ·)
  | none => w.start.isNone

end Window

end LogAudit.Time
