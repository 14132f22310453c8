import LogAudit.Text.Pattern

/-!
# Regular expressions

A regular expression is the written form of a search pattern. `RegularExpression.read` reads one
from left to right; its groups are numbered from 1 in the order of their opening parentheses. Known
are characters and classes, groups with a number and those that open with `(?:`, alternatives, the
end of the text, and repetitions of a character or a class. Of all other expressions nothing is said
(`ReadError.unsupported`).
-/

namespace LogAudit.Text.RegularExpression

/-- Why an expression gives no pattern. -/
inductive ReadError where
  /-- A group is still open at the end. -/
  | unclosedGroup
  /-- A group is closed that is not open. -/
  | unopenedGroup
  /-- The expression ends within a sign. -/
  | unfinished
  /-- The expression has a sign that is not known here. -/
  | unsupported
  deriving DecidableEq, Repr

/-- The characters that may have a meaning of their own. -/
def isMeta (c : Char) : Bool := "\\.+*?()|[]{}^$#&-~".toList.contains c

/-- A character written so that it stands for itself. -/
def escape (c : Char) : String := if isMeta c then String.ofList ['\\', c] else String.ofList [c]

/-- The class that a letter behind a backslash stands for. -/
def class? : Char → Option (Char → Bool)
  | 'd' => some isDecimal
  | 'w' => some isWord
  | 's' => some isBlank
  | 'S' => some Pattern.isInk
  | _ => none

/-- What a character behind a backslash stands for. -/
def escaped? (c : Char) : Option (Char → Bool) :=
  match class? c with
  | some member => some member
  | none => if isMeta c then some (· == c) else none

/-- The class of all that is in one of some classes. -/
def anyOf (members : List (Char → Bool)) (c : Char) : Bool :=
  members.foldl (fun found member => found || member c) false

/-- A part of a sequence. -/
inductive Item where
  /-- A part that may be repeated. -/
  | once (p : Pattern)
  /-- A class with a star, which a question mark makes lazy. -/
  | starred (member : Char → Bool)
  /-- A part that may not be repeated. -/
  | settled (p : Pattern)

namespace Item

/-- The pattern of a part. -/
def pattern : Item → Pattern
  | once p => p
  | starred member => .many member
  | settled p => p

/-- The part with a star. -/
def star : Item → Option Item
  | once (.one member) => some (starred member)
  | _ => none

/-- The part with a plus sign. -/
def plus : Item → Option Item
  | once (.one member) => some (settled (.atLeastOne member))
  | _ => none

/-- The part with a question mark. -/
def question : Item → Option Item
  | once p => some (settled (.optional p))
  | starred member => some (settled (.manyLazy member))
  | settled _ => none

/-- The part with a number of repetitions. -/
def times (n : Nat) : Item → Option Item
  | once (.one member) => some (settled (.times n member))
  | _ => none

end Item

/-- A group that is open, or the whole expression. -/
structure Layer where
  /-- The number of the group, if it has one. -/
  number : Option Nat
  /-- The alternatives that are complete, the last one first. -/
  alternatives : List Pattern
  /-- The parts of the alternative that is not, the last one first. -/
  items : List Item

namespace Layer

/-- The alternative that is not complete. -/
def sequence (x : Layer) : Pattern := .sequence (x.items.reverse.map Item.pattern)

/-- All that was read of a group. -/
def pattern (x : Layer) : Pattern := .firstOf (x.alternatives.reverse ++ [x.sequence])

/-- The group as a part of what is around it. -/
def item (x : Layer) : Item :=
  match x.number with
  | some number => .once (.group number x.pattern)
  | none => .once x.pattern

end Layer

/-- Where in a sign the next character is. -/
inductive Mode where
  /-- Between two signs. -/
  | text
  /-- Behind a backslash. -/
  | backslash
  /-- Behind an opening parenthesis. -/
  | opening
  /-- Behind an opening parenthesis with a question mark. -/
  | special
  /-- In braces, behind some digits of a number. -/
  | count (number : Option Nat)
  /-- In brackets, behind some members. -/
  | members (members : List (Char → Bool))
  /-- In brackets, behind some members and a backslash. -/
  | memberBackslash (members : List (Char → Bool))

/-- What was read of an expression. -/
structure Reading where
  layer : Layer
  /-- What is around it, the innermost group first. -/
  outer : List Layer
  /-- How many groups with a number were opened. -/
  groups : Nat
  mode : Mode

namespace Reading

/-- Nothing was read. -/
def start : Reading := ⟨⟨none, [], []⟩, [], 0, .text⟩

/-- Go on in another mode. -/
def become (x : Reading) (mode : Mode) : Reading := { x with mode }

/-- Add a part. -/
def push (x : Reading) (item : Item) : Reading :=
  { x with layer := { x.layer with items := item :: x.layer.items }, mode := .text }

/-- Open a group with the next number. -/
def openGroup (x : Reading) : Reading :=
  ⟨⟨some (x.groups + 1), [], []⟩, x.layer :: x.outer, x.groups + 1, .text⟩

/-- Open a group without a number. -/
def openPart (x : Reading) : Reading := ⟨⟨none, [], []⟩, x.layer :: x.outer, x.groups, .text⟩

/-- Close the innermost group. -/
def close (x : Reading) : Except ReadError Reading :=
  match x.outer with
  | [] => .error .unopenedGroup
  | layer :: outer => .ok (push ⟨layer, outer, x.groups, .text⟩ x.layer.item)

/-- Start another alternative. -/
def alternate (x : Reading) : Reading :=
  { x with layer := ⟨x.layer.number, x.layer.sequence :: x.layer.alternatives, []⟩ }

/-- Change the last part. -/
def change (x : Reading) (sign : Item → Option Item) : Except ReadError Reading :=
  match x.layer.items with
  | [] => .error .unsupported
  | last :: items =>
    match sign last with
    | some item => .ok (push { x with layer := { x.layer with items } } item)
    | none => .error .unsupported

/-- Read a character between two signs. -/
def readText (x : Reading) : Char → Except ReadError Reading
  | '\\' => .ok (x.become .backslash)
  | '(' => .ok (x.become .opening)
  | ')' => x.close
  | '|' => .ok x.alternate
  | '[' => .ok (x.become (.members []))
  | '{' => .ok (x.become (.count none))
  | '.' => .ok (x.push (.once (.one Pattern.inLine)))
  | '$' => .ok (x.push (.settled .atEnd))
  | '^' => .error .unsupported
  | '*' => x.change Item.star
  | '+' => x.change Item.plus
  | '?' => x.change Item.question
  | c => .ok (x.push (.once (.char c)))

/-- Read a character. -/
def step (x : Reading) (c : Char) : Except ReadError Reading :=
  match x.mode with
  | .text => x.readText c
  | .backslash =>
    match escaped? c with
    | some member => .ok (x.push (.once (.one member)))
    | none => .error .unsupported
  | .opening => if c = '?' then .ok (x.become .special) else x.openGroup.readText c
  | .special => if c = ':' then .ok x.openPart else .error .unsupported
  | .count number =>
    if c.isDigit then
      .ok (x.become (.count (some (number.getD 0 * 10 + (c.toNat - '0'.toNat)))))
    else if c = '}' then
      match number with
      | some n => x.change (Item.times n)
      | none => .error .unsupported
    else .error .unsupported
  | .members members =>
    if c = '\\' then .ok (x.become (.memberBackslash members))
    else if c = ']' then
      if members.isEmpty then .error .unsupported
      else .ok (x.push (.once (.one (anyOf members))))
    else if "^[&-~".toList.contains c then .error .unsupported
    else .ok (x.become (.members (members ++ [(· == c)])))
  | .memberBackslash members =>
    match escaped? c with
    | some member => .ok (x.become (.members (members ++ [member])))
    | none => .error .unsupported

/-- Read some characters. -/
def run (x : Reading) (s : List Char) : Except ReadError Reading := s.foldlM step x

/-- The pattern that was read. -/
def finish (x : Reading) : Except ReadError Pattern :=
  match x.mode with
  | .text => if x.outer.isEmpty then .ok x.layer.pattern else .error .unclosedGroup
  | .opening => .error .unclosedGroup
  | .special => .error .unclosedGroup
  | _ => .error .unfinished

end Reading

/-- Read an expression. -/
def read (s : String) : Except ReadError Pattern := do (← Reading.start.run s.toList).finish

end LogAudit.Text.RegularExpression
