import LogAudit.Document

/-!
# Texts and keys in TOML

Readers for white space, comments, the four kinds of strings, and keys with points between their
parts.
-/

namespace LogAudit.Toml

/-- Takes characters off the front, or finds that they are not what was asked for. -/
abbrev Reader := StateT (List Char) Option

namespace Reader

/-- Refuse. -/
def refuse {α : Type} : Reader α := fun _ => none

/-- The next character, which is not taken. -/
def peek : Reader (Option Char) := do return (← get).head?

/-- Take the next character. -/
def next : Reader Char := fun
  | [] => none
  | c :: s => some (c, s)

/-- Take these characters if they come next. -/
def literal (text : String) : Reader Bool := fun s =>
  if text.toList.isPrefixOf s then some (true, s.drop text.length) else some (false, s)

/-- Take these characters. -/
def expect (text : String) : Reader Unit := do if !(← literal text) then refuse

/-- Take all characters of a class. -/
def takeAll (member : Char → Bool) : Reader (List Char) := fun s =>
  some (s.takeWhile member, s.dropWhile member)

/-- Take at least one character of a class. -/
def takeSome (member : Char → Bool) : Reader (List Char) := do
  let taken ← takeAll member
  if taken.isEmpty then refuse else return taken

/-- Try a reader; if it refuses, nothing is taken. -/
def attempt {α : Type} (reader : Reader α) : Reader (Option α) := fun s =>
  match reader s with
  | some (value, rest) => some (some value, rest)
  | none => some (none, s)

end Reader

open Reader

/-- Spaces and tabs. -/
def spaces : Reader Unit := do let _ ← takeAll fun c => c == ' ' || c == '\t'

/-- What may stand in a comment or between the quotes of a string: no control characters but the
tab. -/
def isPrintable (c : Char) : Bool := c == '\t' || (' ' ≤ c && c != '\x7f')

/-- The end of a line, if it comes next. -/
def newline? : Reader Bool := do
  if ← literal "\r\n" then return true else literal "\n"

/-- A comment, if one comes next. -/
def comment? : Reader Unit := do
  if ← literal "#" then
    let _ ← takeAll isPrintable

/-- The rest of a line without anything but a comment. -/
def lineEnd : Reader Unit := do
  spaces
  comment?
  if (← peek).isSome then
    if !(← newline?) then refuse

/-- White space, comments and ends of lines; at most `fuel` lines. -/
def gapUpTo : Nat → Reader Unit
  | 0 => pure ()
  | fuel + 1 => do
    spaces
    comment?
    if ← newline? then gapUpTo fuel

/-- White space, comments and ends of lines. -/
def gap : Reader Unit := do gapUpTo ((← get).length + 1)

/-- The value of a hexadecimal digit. -/
def hexDigit? (c : Char) : Option Nat :=
  if c.isDigit then some (c.toNat - 48)
  else if 'a' ≤ c && c ≤ 'f' then some (c.toNat - 87)
  else if 'A' ≤ c && c ≤ 'F' then some (c.toNat - 55)
  else none

/-- A character by its code point in `count` hexadecimal digits. -/
def codePoint (count : Nat) : Reader Char := fun s =>
  let digits := s.take count
  if digits.length < count then none
  else do
    let value ← digits.foldlM (fun n c => (hexDigit? c).map (n * 16 + ·)) 0
    if value.isValidChar then some (Char.ofNat value, s.drop count) else none

/-- The character that a backslash and what follows it stand for. -/
def escape : Reader Char := do
  match ← next with
  | 'b' => return '\x08'
  | 't' => return '\t'
  | 'n' => return '\n'
  | 'f' => return '\x0c'
  | 'r' => return '\r'
  | '"' => return '"'
  | '\\' => return '\\'
  | 'u' => codePoint 4
  | 'U' => codePoint 8
  | _ => refuse

/-- A string in double quotes after the opening one. -/
def basic : Nat → Reader (List Char)
  | 0 => refuse
  | fuel + 1 => do
    match ← next with
    | '"' => return []
    | '\\' =>
      let c ← escape
      return c :: (← basic fuel)
    | c => if isPrintable c then return c :: (← basic fuel) else refuse

/-- A string in single quotes after the opening one. -/
def plain : Reader (List Char) := do
  let text ← takeAll fun c => isPrintable c && c != '\x27'
  expect "'"
  return text

/-- A backslash at the end of a line takes away the white space after it. -/
def lineContinuation : Reader Unit := do
  spaces
  if !(← newline?) then refuse
  let _ ← takeAll fun c => c == ' ' || c == '\t' || c == '\n' || c == '\r'

/-- The quotes at the end of a string of several lines: up to two more than the closing ones belong
to the string. -/
def closingQuotes (quote : Char) : Reader (Option (List Char)) := fun s =>
  let quotes := s.takeWhile (· == quote)
  if 3 ≤ quotes.length then
    let own := min (quotes.length - 3) 2
    some (some (List.replicate own quote), s.drop (own + 3))
  else some (none, s)

/-- A string of several lines in double quotes, after the opening ones. -/
def basicLines : Nat → Reader (List Char)
  | 0 => refuse
  | fuel + 1 => do
    match ← closingQuotes '"' with
    | some own => return own
    | none =>
      if ← newline? then return '\n' :: (← basicLines fuel)
      match ← next with
      | '\\' =>
        match ← attempt escape with
        | some c => return c :: (← basicLines fuel)
        | none =>
          lineContinuation
          basicLines fuel
      | c => if isPrintable c then return c :: (← basicLines fuel) else refuse

/-- A string of several lines in single quotes, after the opening ones. -/
def plainLines : Nat → Reader (List Char)
  | 0 => refuse
  | fuel + 1 => do
    match ← closingQuotes '\x27' with
    | some own => return own
    | none =>
      if ← newline? then return '\n' :: (← plainLines fuel)
      let c ← next
      if isPrintable c then return c :: (← plainLines fuel) else refuse

/-- A string of any kind. The end of the line after the opening quotes of several lines does not
count. -/
def string : Reader String := do
  let fuel := (← get).length + 1
  if ← literal "\"\"\"" then
    let _ ← newline?
    return String.ofList (← basicLines fuel)
  else if ← literal "'''" then
    let _ ← newline?
    return String.ofList (← plainLines fuel)
  else if ← literal "\"" then return String.ofList (← basic fuel)
  else
    expect "'"
    return String.ofList (← plain)

/-- What a key without quotes is made of. -/
def isKeyPart (c : Char) : Bool := c.isAlphanum || c == '_' || c == '-'

/-- One part of a key. -/
def keyPart : Reader String := do
  let fuel := (← get).length + 1
  if ← literal "\"" then return String.ofList (← basic fuel)
  else if ← literal "'" then return String.ofList (← plain)
  else return String.ofList (← takeSome isKeyPart)

/-- A key: parts with points between them, at most `n + 1`. -/
def keyUpTo : Nat → Reader (List String)
  | 0 => refuse
  | n + 1 => do
    spaces
    let part ← keyPart
    spaces
    if ← literal "." then return part :: (← keyUpTo n) else return [part]

/-- A key. -/
def key : Reader (List String) := do keyUpTo ((← get).length + 1)

end LogAudit.Toml
