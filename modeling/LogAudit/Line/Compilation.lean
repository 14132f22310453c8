import LogAudit.Line.Template
import LogAudit.Text.RegularExpression

/-!
# Compilation of templates

A template is compiled into a regular expression: every token into an expression with one group,
every other character into itself, and what follows `%q` into an optional part that is closed once,
at the end of the template. Next to this the compiler counts the groups and keeps an index of them,
which is right only if the reader of the expression numbers the groups in the same way.
-/

namespace LogAudit.Line

open LogAudit.Text

/-- The expression for the texts of a token. -/
def Token.expression : Token → String
  | timestampMillis => r"(\d{4}-\d{2}-\d{2} \d{2}:\d{2}:\d{2}\.\d+ [\-+]?\w+)"
  | timestamp | sessionStart => r"(\d{4}-\d{2}-\d{2} \d{2}:\d{2}:\d{2} [\-+]?\w+)"
  | processId | sessionLine | txnId => r"(\d+)"
  | user | database | application => r"(\S*)"
  | host => r"(\S+)?"
  | hostWithPort => r"(\S+\(.*?\))?"
  | virtualTxn => r"(\d+/\d+)?"
  | errorCode => r"(\w{5})"
  | sessionId => r"(\w+\.\w+)?"
  | backendType => r"([\w ]+)"

/-- What is known of a template while it is scanned. -/
structure Compilation where
  /-- The expression of the pieces. -/
  body : String
  /-- The groups for the slots. -/
  index : Slot → Option Nat
  tokens : List Token
  /-- An optional part was opened. -/
  mayStop : Bool
  /-- The number of the next group. -/
  group : Nat

namespace Compilation

/-- Nothing was scanned; the first group is for the blanks in front. -/
def start : Compilation := ⟨"", fun _ => none, [], false, 2⟩

/-- The expression of a piece. -/
def pieceExpression : Piece → String
  | .literal c => RegularExpression.escape c
  | .token token => token.expression
  | .mayStop => "(?:"

/-- Add a piece. -/
def add (x : Compilation) (piece : Piece) : Compilation :=
  let x := { x with body := x.body ++ pieceExpression piece }
  match piece with
  | .literal _ => x
  | .token token =>
    { x with
      index := fun slot => if slot = token.slot then some x.group else x.index slot
      tokens := x.tokens ++ [token]
      group := x.group + 1 }
  | .mayStop => { x with mayStop := true }

/-- Scan a template. -/
def ofString (text : String) : Compilation := (Piece.scan text.toList).foldl add start

/-- The group of the level: behind those of the blanks in front, of the tokens, and of the blanks
behind them. -/
def level (x : Compilation) : Nat := x.tokens.length + 3

/-- The known levels with a colon. -/
def levels : String :=
  "(DEBUG5|DEBUG4|DEBUG3|DEBUG2|DEBUG1|INFO|NOTICE|LOG|WARNING|ERROR|FATAL|PANIC|DETAIL|HINT|" ++
    "STATEMENT|CONTEXT|LOCATION):"

/-- The message up to the end of the line. -/
def message : String := r"\s+(.*)$"

/-- The expression of a line. -/
def expression (x : Compilation) : String :=
  r"(\s*)" ++ x.body ++ (if x.mayStop then ")?" else "") ++ r"(\s*)" ++ levels ++ message

end Compilation

/-- A compiled template. -/
structure CompiledTemplate where
  search : Pattern
  index : Slot → Option Nat
  level : Nat
  tokens : List Token

namespace CompiledTemplate

/-- The group of the message. -/
def description (x : CompiledTemplate) : Nat := x.level + 1

/-- Compile a template. -/
def compile (text : String) : Except RegularExpression.ReadError CompiledTemplate := do
  let x := Compilation.ofString text
  return ⟨← RegularExpression.read x.expression, x.index, x.level, x.tokens⟩

end CompiledTemplate

end LogAudit.Line
