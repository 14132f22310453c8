/-!
# JSON

Values and their two written forms: on one line, and with every item on a line of its own.
-/

namespace LogAudit

/-- A value; numbers are given by their text. -/
inductive Json where
  | null
  | truth (value : Bool)
  | number (text : String)
  | text (value : String)
  | list (items : List Json)
  | record (fields : List (String × Json))

namespace Json

/-- A digit of base sixteen. -/
def hexDigit (n : Nat) : Char := Char.ofNat (if n < 10 then 48 + n else 87 + n)

/-- The spelling of a character between quotes: a short form where there is one, a code point for
other control characters, and itself otherwise. -/
def spell (c : Char) : List Char :=
  match c with
  | '"' => ['\\', '"']
  | '\\' => ['\\', '\\']
  | '\x08' => ['\\', 'b']
  | '\x0c' => ['\\', 'f']
  | '\n' => ['\\', 'n']
  | '\r' => ['\\', 'r']
  | '\t' => ['\\', 't']
  | c =>
    if c.toNat < 32 then ['\\', 'u', '0', '0', hexDigit (c.toNat / 16), hexDigit (c.toNat % 16)]
    else [c]

/-- A text between quotes. -/
def quote (s : String) : String := String.ofList (['"'] ++ s.toList.flatMap spell ++ ['"'])

mutual

/-- The form on one line. -/
def compact : Json → String
  | null => "null"
  | truth true => "true"
  | truth false => "false"
  | number digits => digits
  | text value => quote value
  | list items => "[" ++ compactItems items ++ "]"
  | record fields => "\x7b" ++ compactFields fields ++ "\x7d"

/-- Items with commas between them. -/
def compactItems : List Json → String
  | [] => ""
  | [item] => item.compact
  | item :: items => item.compact ++ "," ++ compactItems items

/-- Fields with commas between them. -/
def compactFields : List (String × Json) → String
  | [] => ""
  | [(name, value)] => quote name ++ ":" ++ value.compact
  | (name, value) :: fields => quote name ++ ":" ++ value.compact ++ "," ++ compactFields fields

end

/-- Two spaces for each level. -/
def indent (level : Nat) : String := String.ofList (List.replicate (2 * level) ' ')

mutual

/-- The form with an item on each line, inside `level` other values. -/
def pretty (level : Nat) : Json → String
  | list [] => "[]"
  | list (item :: items) =>
    "[\n" ++ prettyItems (level + 1) (item :: items) ++ "\n" ++ indent level ++ "]"
  | record [] => "\x7b\x7d"
  | record (field :: fields) =>
    "\x7b\n" ++ prettyFields (level + 1) (field :: fields) ++ "\n" ++ indent level ++ "\x7d"
  | null => "null"
  | truth true => "true"
  | truth false => "false"
  | number digits => digits
  | text value => quote value

/-- Items on lines of their own. -/
def prettyItems (level : Nat) : List Json → String
  | [] => ""
  | [item] => indent level ++ item.pretty level
  | item :: items => indent level ++ item.pretty level ++ ",\n" ++ prettyItems level items

/-- Fields on lines of their own. -/
def prettyFields (level : Nat) : List (String × Json) → String
  | [] => ""
  | [(name, value)] => indent level ++ quote name ++ ": " ++ value.pretty level
  | (name, value) :: fields =>
    indent level ++ quote name ++ ": " ++ value.pretty level ++ ",\n" ++ prettyFields level fields

end

end Json

end LogAudit
