import LogAudit.Toml.Number
import LogAudit.Toml.Tree

/-!
# Reading TOML

`Toml.parse?` reads a whole text into a document. Arrays and tables within values are nested less
than eighty deep.
-/

namespace LogAudit.Toml

open Reader

/-- Values with commas between them up to the closing bracket; white space and comments are passed
over. -/
def elements (value : Reader Document) : Nat → Reader (List Document)
  | 0 => refuse
  | fuel + 1 => do
    gap
    if ← literal "]" then return []
    let first ← value
    gap
    if ← literal "," then return first :: (← elements value fuel)
    else
      expect "]"
      return [first]

/-- Entries with commas between them up to the closing brace, on one line. -/
def inlineEntries (value : Reader Document) : Nat → Entries → Reader Entries
  | 0, _ => refuse
  | fuel + 1, entries => do
    let path ← key
    expect "="
    spaces
    let document ← value
    spaces
    match path.getLast? with
    | none => refuse
    | some name =>
      match entries.assign path.dropLast name document with
      | none => refuse
      | some entries =>
        if ← literal "," then inlineEntries value fuel entries
        else
          expect "\x7d"
          return entries

/-- A value, in which arrays and tables are nested less than `depth` times. -/
def valueAt : Nat → Reader Document
  | 0 => refuse
  | depth + 1 => do
    let fuel := (← get).length + 1
    match ← peek with
    | some '"' => return .text (← string)
    | some '\x27' => return .text (← string)
    | some '[' =>
      let _ ← next
      return .list (← elements (valueAt depth) fuel)
    | some '\x7b' =>
      let _ ← next
      spaces
      if ← literal "\x7d" then return .table []
      return .table (Item.entriesToDocuments (← inlineEntries (valueAt depth) fuel []))
    | some 't' =>
      expect "true"
      return .truth true
    | some 'f' =>
      expect "false"
      return .truth false
    | some 'i' =>
      expect "inf"
      return .fraction
    | some 'n' =>
      expect "nan"
      return .fraction
    | some c => if c == '+' || c == '-' || c.isDigit then number else refuse
    | none => refuse

/-- How deep arrays and tables may be nested in a value. -/
def maxDepth : Nat := 80

/-- One line: nothing, a header or an entry. -/
def line (p : Progress) : Reader Progress := do
  spaces
  match ← peek with
  | none => return p
  | some '#' => ended p
  | some '\n' => ended p
  | some '\r' => ended p
  | some '[' =>
    if ← literal "[[" then
      let path ← key
      expect "]]"
      given (p.openElement path)
    else
      expect "["
      let path ← key
      expect "]"
      given (p.openTable path)
  | some _ =>
    let path ← key
    expect "="
    spaces
    let document ← valueAt maxDepth
    match path.getLast? with
    | none => refuse
    | some name => given (p.assign path.dropLast name document)
where
  /-- The line ends after this. -/
  ended (p : Progress) : Reader Progress := do
    lineEnd
    return p
  /-- The line ends after this, if it was allowed. -/
  given : Option Progress → Reader Progress
    | some p => ended p
    | none => refuse

/-- At most `fuel` lines. -/
def lines : Nat → Progress → Reader Progress
  | 0, _ => refuse
  | fuel + 1, p => do
    if (← get).isEmpty then return p
    lines fuel (← line p)

/-- The document that a text writes. -/
def parse? (text : String) : Option (List (String × Document)) := do
  let s := match text.toList with
    | '\uFEFF' :: s => s
    | s => s
  let (p, _) ← lines (s.length + 1) .start s
  return Item.entriesToDocuments (← p.finish)

end LogAudit.Toml
