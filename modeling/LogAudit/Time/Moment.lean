import LogAudit.Time.Scan

/-!
# Times in a configuration

A configured time is a date, one of `t`, `T` and a blank, a time of day and an offset from UTC, or a
`Z` or `UTC` in place of the offset. Blanks are allowed between the parts.
-/

namespace LogAudit.Time.Moment

open LogAudit.Text

/-- Digits of two places at the front, at most `limit`. -/
def twoDigits (limit : Nat) : List Char → Option (Nat × List Char)
  | a :: b :: s =>
    if a.isDigit && b.isDigit && Scan.digitsValue [a, b] ≤ limit then
      some (Scan.digitsValue [a, b], s)
    else none
  | _ => none

/-- What may separate the hours of an offset from its minutes. -/
def isSeparator (c : Char) : Bool := c == ':' || isBlank c

/-- The seconds that clocks are ahead of UTC. -/
def offset (s : List Char) : Option (Int × List Char) := do
  let (sign, s) ← match s with
    | '+' :: s => some ((1 : Int), s)
    | '-' :: s => some (-1, s)
    | '\u2212' :: s => some (-1, s)
    | _ => none
  let (hours, s) ← twoDigits 99 s
  let (minutes, s) ← twoDigits 59 (s.dropWhile isSeparator)
  return (sign * ((hours * 3600 + minutes * 60 : Nat) : Int), s)

/-- The zone at the end: `Z`, `UTC` in any case, or an offset below a day. -/
def zone (s : List Char) : Option (Int × List Char) :=
  if (s.take 3).map Char.toUpper = ['U', 'T', 'C'] then some (0, s.drop 3)
  else match s with
    | 'Z' :: s => some (0, s)
    | 'z' :: s => some (0, s)
    | s => do
      let (seconds, s) ← offset s
      if seconds.natAbs < 86400 then some (seconds, s) else none

/-- What stands between date and time of day. -/
def middle : List Char → Option (List Char)
  | 't' :: s => some s
  | 'T' :: s => some s
  | ' ' :: s => some s
  | _ => none

/-- The instant of a configured time. -/
def parse (text : List Char) : Option Instant := do
  let (date, s) ← Scan.date trimLeft text
  let s ← middle s
  let (time, s) ← Scan.clock trimLeft date s
  let (ahead, s) ← zone (trimLeft s)
  if (trimLeft s).isEmpty then time.toInstant? ahead else none

end LogAudit.Time.Moment
