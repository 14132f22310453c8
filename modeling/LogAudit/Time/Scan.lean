import LogAudit.Text.Classes
import LogAudit.Time.Instant

/-!
# Numbers and dates in text

Readers for the parts that written times are made of. Each takes the characters that remain and
gives a value with the characters after it, or nothing if the text does not start that way.
-/

namespace LogAudit.Time.Scan

open LogAudit.Text

/-- The value of ASCII digits. -/
def digitsValue (digits : List Char) : Nat :=
  digits.foldl (fun value c => value * 10 + (c.toNat - 48)) 0

/-- Between one and `width` digits. -/
def number (width : Nat) (s : List Char) : Option (Nat × List Char) :=
  match (s.take width).takeWhile Char.isDigit with
  | [] => none
  | digits => some (digitsValue digits, s.drop digits.length)

/-- A number with any number of digits. -/
def longNumber (s : List Char) : Option (Nat × List Char) := number s.length s

/-- A fixed character. -/
def char (c : Char) : List Char → Option (List Char)
  | d :: s => if d == c then some s else none
  | [] => none

/-- A year: blanks, then at most four digits, or a sign and any number of digits. -/
def year (s : List Char) : Option (Int × List Char) :=
  match trimLeft s with
  | '-' :: s => (longNumber s).map fun (n, s) => (-(n : Int), s)
  | '+' :: s => (longNumber s).map fun (n, s) => ((n : Int), s)
  | s => (number 4 s).map fun (n, s) => ((n : Int), s)

/-- One or two digits after blanks. -/
def pair (s : List Char) : Option (Nat × List Char) := number 2 (trimLeft s)

/-- The fraction of a second after its point, in nanoseconds. Nine digits count, and any after them
are passed over. -/
def fractionDigits (s : List Char) : Option (Nat × List Char) :=
  match number 9 s with
  | some (n, rest) =>
    some (n * Nat.pow 10 (9 - (s.length - rest.length)), rest.dropWhile Char.isDigit)
  | none => none

/-- The fraction of a second, which may be absent. -/
def fraction : List Char → Option (Nat × List Char)
  | '.' :: s => fractionDigits s
  | s => some (0, s)

/-- Year, month and day with hyphens between them; `gap` is what is passed over before a hyphen. -/
def date (gap : List Char → List Char) (s : List Char) : Option (Date × List Char) := do
  let (year, s) ← year s
  let s ← char '-' (gap s)
  let (month, s) ← pair s
  let s ← char '-' (gap s)
  let (day, s) ← pair s
  return (⟨year, month, day⟩, s)

/-- Hour, minute and second with colons between them, and the fraction; `gap` is what is passed over
before a colon. -/
def clock (gap : List Char → List Char) (date : Date) (s : List Char) :
    Option (LocalTime × List Char) := do
  let (hour, s) ← pair s
  let s ← char ':' (gap s)
  let (minute, s) ← pair s
  let s ← char ':' (gap s)
  let (second, s) ← pair s
  let (nanos, s) ← fraction s
  return (⟨date, hour, minute, second, nanos⟩, s)

end LogAudit.Time.Scan
