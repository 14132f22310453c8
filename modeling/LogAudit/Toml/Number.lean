import LogAudit.Time.Calendar
import LogAudit.Toml.Text

/-!
# Numbers and times in TOML

Whole numbers in four bases, other numbers, and dates and times. A whole number has to fit into 64
bits with a sign.
-/

namespace LogAudit.Toml

open Reader

/-- Digits between which single underscores may stand; the first and the last are digits. -/
def grouped (isDigit : Char → Bool) (s : List Char) : Bool :=
  match s with
  | [] => false
  | [c] => isDigit c
  | c :: '_' :: s => isDigit c && grouped isDigit s
  | c :: s => isDigit c && grouped isDigit s

/-- Digits with underscores; only the digits are given. -/
def digits (isDigit : Char → Bool) : Reader (List Char) := do
  let taken ← takeSome fun c => isDigit c || c == '_'
  if grouped isDigit taken then return taken.filter (· != '_') else refuse

/-- The number that digits of a base write. -/
def value (base : Nat) (digits : List Char) : Nat :=
  digits.foldl (fun n c => n * base + (hexDigit? c).getD 0) 0

/-- A number in a base other than ten, after its mark. -/
def based (base : Nat) : Reader Int := do
  let taken ← digits fun c => ((hexDigit? c).map fun d => decide (d < base)).getD false
  let n := value base taken
  if n < 0x8000000000000000 then return n else refuse

/-- A sign, if there is one: minus one or one. -/
def sign : Reader Int := do
  if ← literal "-" then return -1
  else
    let _ ← literal "+"
    return 1

/-- A decimal number without needless zeros in front: its sign and its digits. -/
def decimal : Reader (Int × List Char) := do
  let sign ← sign
  if (← peek) == some '0' then
    let _ ← next
    return (sign, ['0'])
  else return (sign, ← digits Char.isDigit)

/-- A whole number. -/
def whole : Reader Document := do
  if ← literal "0x" then return .whole (← based 16)
  else if ← literal "0o" then return .whole (← based 8)
  else if ← literal "0b" then return .whole (← based 2)
  else
    let (sign, taken) ← decimal
    let n := sign * (value 10 taken : Int)
    if -0x8000000000000000 ≤ n && n < 0x8000000000000000 then return .whole n else refuse

/-- A number with a fraction or an exponent, or one that is infinite or none. -/
def fraction : Reader Document := do
  match ← attempt (do
      let _ ← sign
      if !(← literal "inf") then expect "nan") with
  | some _ => return .fraction
  | none =>
    let _ ← decimal
    let point ← literal "."
    if point then
      let _ ← digits Char.isDigit
    if (← literal "e") || (← literal "E") then
      let _ ← sign
      let _ ← digits Char.isDigit
      return .fraction
    else if point then return .fraction
    else refuse

/-- Exactly `count` decimal digits. -/
def fixed (count : Nat) : Reader Nat := fun s =>
  let taken := s.take count
  if taken.length == count && taken.all Char.isDigit then some (value 10 taken, s.drop count)
  else none

/-- A day of the calendar. -/
def day : Reader Unit := do
  let year ← fixed 4
  expect "-"
  let month ← fixed 2
  expect "-"
  let day ← fixed 2
  if !(1 ≤ month && month ≤ 12 && 1 ≤ day && day ≤ Time.daysInMonth year month) then refuse

/-- A time of day. -/
def timeOfDay : Reader Unit := do
  let hour ← fixed 2
  expect ":"
  let minute ← fixed 2
  expect ":"
  let second ← fixed 2
  if ← literal "." then
    let _ ← takeSome Char.isDigit
  if !(hour ≤ 23 && minute ≤ 59 && second ≤ 60) then refuse

/-- An offset from UTC, if there is one. -/
def offset? : Reader Unit := do
  if (← literal "Z") || (← literal "z") then return
  if (← literal "+") || (← literal "-") then
    let hour ← fixed 2
    expect ":"
    let minute ← fixed 2
    if !(hour ≤ 23 && minute ≤ 59) then refuse

/-- A date, a time of day, or both with a mark between them. -/
def time : Reader Document := do
  match ← attempt day with
  | some _ =>
    let _ ← attempt (do
      if !((← literal "T") || (← literal "t")) then expect " "
      timeOfDay
      offset?)
    return .time
  | none =>
    timeOfDay
    return .time

/-- A number or a time. -/
def number : Reader Document := do
  match ← attempt time with
  | some value => return value
  | none =>
    match ← attempt fraction with
    | some value => return value
    | none => whole

end LogAudit.Toml
