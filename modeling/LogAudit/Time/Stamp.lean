import LogAudit.Time.Scan

/-!
# Timestamps of log lines

A server ends its timestamps with a numeric offset from UTC or with the abbreviation of a zone,
depending on its configuration. `ZoneStyle.parse` reads either style; no text is read by both, since
an offset starts with a sign and an abbreviation has letters only.
-/

namespace LogAudit.Time

open LogAudit.Text

/-- How a timestamp names its zone. -/
inductive ZoneStyle where
  /-- A sign with hours and minutes. -/
  | numeric
  /-- An abbreviation, read as UTC. -/
  | named
  deriving DecidableEq, Repr

namespace ZoneStyle

/-- The other style. -/
def other : ZoneStyle → ZoneStyle
  | numeric => named
  | named => numeric

/-- Split at the last space. -/
def splitLast (s : List Char) : Option (List Char × List Char) :=
  let zone := s.reverse.takeWhile (· != ' ')
  match s.reverse.dropWhile (· != ' ') with
  | [] => none
  | _ :: front => some (front.reverse, zone.reverse)

/-- Hours and minutes as four digits, between which colons are passed over. -/
def offsetMinutes (s : List Char) : Option Nat :=
  match s.filter (· != ':') with
  | [a, b, c, d] =>
    if [a, b, c, d].all Char.isDigit then
      some (Scan.digitsValue [a, b] * 60 + Scan.digitsValue [c, d])
    else none
  | _ => none

/-- The seconds that an offset is ahead of UTC; it stays below a day. -/
def offset? (zone : List Char) : Option Int :=
  let signed (sign : Int) (s : List Char) : Option Int := do
    let minutes ← offsetMinutes s
    if minutes < 1440 then some (sign * (minutes * 60 : Nat)) else none
  match zone with
  | '+' :: s => signed 1 s
  | '-' :: s => signed (-1) s
  | _ => none

/-- The seconds that a zone of this style is ahead of UTC. -/
def ahead? : ZoneStyle → List Char → Option Int
  | numeric, zone => offset? zone
  | named, zone => if 3 ≤ zone.length && zone.all Char.isAlpha then some 0 else none

/-- The instant of a timestamp whose zone is written in this style. -/
def parse (style : ZoneStyle) (text : List Char) : Option Instant := do
  let (clock, zone) ← splitLast (trim text)
  let (date, rest) ← Scan.date id clock
  let (time, rest) ← Scan.clock id date (trimLeft rest)
  if rest.isEmpty then
    time.toInstant? (← style.ahead? zone)
  else none

end ZoneStyle

end LogAudit.Time
