import LogAudit.Text.Pattern

/-!
# Templates of line prefixes

A server writes every log line as a configured prefix, a level and a message. The prefix is given by
a template: literal characters, and escapes of a percent sign and a letter that stand for a field.
`Template.ofString?` reads a template and `Template.pattern` is the search pattern of its lines. The
pattern numbers its groups: 1 is the blank in front, field `k` (counted from zero) is group `k + 2`,
and after the fields come one more blank, the level and the message.
-/

namespace LogAudit.Line

open LogAudit.Text

/-- What an escape in a template stands for. -/
inductive Token where
  | timestampMillis
  | timestamp
  | sessionStart
  | processId
  | user
  | database
  | application
  | host
  | hostWithPort
  | virtualTxn
  | sessionLine
  | errorCode
  | txnId
  | sessionId
  | backendType
  deriving DecidableEq, Repr

/-- What a record can tell about a line; several tokens may fill the same slot. -/
inductive Slot where
  | time
  | processId
  | sessionLine
  | user
  | database
  | application
  | host
  | virtualTxn
  | txnId
  | errorCode
  | sessionId
  | backendType
  deriving DecidableEq, Repr

namespace Token

/-- The token that a letter after the percent sign stands for. -/
def ofChar? : Char → Option Token
  | 'm' => some timestampMillis
  | 't' => some timestamp
  | 's' => some sessionStart
  | 'p' => some processId
  | 'u' => some user
  | 'd' => some database
  | 'a' => some application
  | 'h' => some host
  | 'r' => some hostWithPort
  | 'v' => some virtualTxn
  | 'l' => some sessionLine
  | 'e' => some errorCode
  | 'x' => some txnId
  | 'c' => some sessionId
  | 'b' => some backendType
  | _ => none

/-- The slot that the text of a token goes to. -/
def slot : Token → Slot
  | timestampMillis | timestamp | sessionStart => .time
  | processId => .processId
  | sessionLine => .sessionLine
  | user => .user
  | database => .database
  | application => .application
  | host | hostWithPort => .host
  | virtualTxn => .virtualTxn
  | txnId => .txnId
  | errorCode => .errorCode
  | sessionId => .sessionId
  | backendType => .backendType

/-- A date and a time of day, with what may stand between the seconds and the zone. -/
def clock (fraction : Pattern) : Pattern :=
  .sequence [.times 4 isDecimal, .char '-', .times 2 isDecimal, .char '-', .times 2 isDecimal,
    .char ' ', .times 2 isDecimal, .char ':', .times 2 isDecimal, .char ':', .times 2 isDecimal,
    fraction, .char ' ', .optional (.one fun c => c == '-' || c == '+'), .atLeastOne isWord]

/-- The digits after the point of a second. -/
def fraction : Pattern := .andThen (.char '.') (.atLeastOne isDecimal)

/-- The texts a token stands for, recorded as a group. A group that may be absent records nothing
when it is. -/
def fragment (number : Nat) : Token → Pattern
  | timestampMillis => .group number (clock fraction)
  | timestamp | sessionStart => .group number (clock .empty)
  | processId | sessionLine | txnId => .group number (.atLeastOne isDecimal)
  | user | database | application => .group number (.many Pattern.isInk)
  | host => .optional (.group number (.atLeastOne Pattern.isInk))
  | hostWithPort =>
    .optional (.group number (.sequence
      [.atLeastOne Pattern.isInk, .char '(', .manyLazy Pattern.inLine, .char ')']))
  | virtualTxn =>
    .optional (.group number (.sequence
      [.atLeastOne isDecimal, .char '/', .atLeastOne isDecimal]))
  | errorCode => .group number (.times 5 isWord)
  | sessionId =>
    .optional (.group number (.sequence [.atLeastOne isWord, .char '.', .atLeastOne isWord]))
  | backendType => .group number (.atLeastOne fun c => isWord c || c == ' ')

end Token

/-- A template is read into pieces. -/
inductive Piece where
  /-- A character that lines hold as it is. -/
  | literal (c : Char)
  /-- An escape for a field. -/
  | token (token : Token)
  /-- The escape `%q`: background processes leave out all that follows. -/
  | mayStop
  deriving DecidableEq, Repr

namespace Piece

/-- Read the pieces off a template. An escape that stands for nothing known is left out, and a
percent sign at the very end stands for itself. -/
def scan : List Char → List Piece
  | [] => []
  | ['%'] => [.literal '%']
  | '%' :: 'q' :: s => .mayStop :: scan s
  | '%' :: c :: s =>
    match Token.ofChar? c with
    | some field => .token field :: scan s
    | none => scan s
  | c :: s => .literal c :: scan s

/-- The token of a piece, if it is one. -/
def token? : Piece → Option Token
  | .token field => some field
  | _ => none

end Piece

/-- Why a text is no template. -/
inductive TemplateError where
  /-- The optional part is opened more than once. -/
  | unclosedPart
  deriving DecidableEq, Repr

/-- The text of the compiler. -/
def TemplateError.message : TemplateError → String
  | unclosedPart => "regex parse error:\nerror: unclosed group"

/-- A template, as the pieces it is read into; at most one of them opens the optional part. -/
structure Template where
  pieces : List Piece
  mayStop_once : pieces.count .mayStop ≤ 1

namespace Template

/-- Read a template. -/
def ofString? (text : String) : Except TemplateError Template :=
  let pieces := Piece.scan text.toList
  if h : pieces.count .mayStop ≤ 1 then .ok ⟨pieces, h⟩ else .error .unclosedPart

/-- The tokens of a template in the order of their appearance. -/
def tokens (t : Template) : List Token := t.pieces.filterMap Piece.token?

/-- The template has this token. -/
def hasToken (t : Template) (token : Token) : Bool := t.tokens.contains token

/-- The position of the last token for a slot. -/
def lastIndex? (slot : Slot) : List Token → Option Nat
  | [] => none
  | token :: tokens =>
    match lastIndex? slot tokens with
    | some index => some (index + 1)
    | none => if token.slot = slot then some 0 else none

/-- The group that holds the text of a slot; of several tokens for it the last one counts. -/
def group? (t : Template) (slot : Slot) : Option Nat := (lastIndex? slot t.tokens).map (· + 2)

/-- The template tells this about its lines. -/
def has (t : Template) (slot : Slot) : Bool := (t.group? slot).isSome

/-- The group of the level. -/
def levelGroup (t : Template) : Nat := t.tokens.length + 3

/-- The group of the message. -/
def descriptionGroup (t : Template) : Nat := t.levelGroup + 1

/-- The pattern of the pieces, whose first token is recorded under `number`. -/
def body : Nat → List Piece → Pattern
  | _, [] => .empty
  | number, .literal c :: pieces => .andThen (.char c) (body number pieces)
  | number, .token field :: pieces => .andThen (field.fragment number) (body (number + 1) pieces)
  | number, .mayStop :: pieces => .optional (body number pieces)

/-- The levels of log lines, in the order in which they are tried. -/
def levels : List String :=
  ["DEBUG5", "DEBUG4", "DEBUG3", "DEBUG2", "DEBUG1", "INFO", "NOTICE", "LOG", "WARNING", "ERROR",
    "FATAL", "PANIC", "DETAIL", "HINT", "STATEMENT", "CONTEXT", "LOCATION"]

/-- The pattern of a line: the prefix with blanks around it, a level with a colon, and the message
up to the end. -/
def pattern (t : Template) : Pattern :=
  .sequence [.group 1 .blanks, body 2 t.pieces, .group (t.tokens.length + 2) .blanks,
    .group t.levelGroup (.firstOf (levels.map .text)), .char ':', .someBlanks,
    .group t.descriptionGroup (.many Pattern.inLine), .atEnd]

end Template

end LogAudit.Line
