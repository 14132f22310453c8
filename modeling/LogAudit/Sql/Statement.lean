import LogAudit.Sql.Command
import LogAudit.Sql.Lexer

/-!
# Statements

`Statement.readAll` reads the statements of a text, which are separated by semicolons.
-/

namespace LogAudit.Sql

namespace Grammar

open Reader

/-- How many levels of statements, expressions and queries may be nested. -/
def maxDepth : Nat := 50

/-- One statement that is no explanation, given how to read a statement inside it. -/
def plainStatement (rules : Rules) (inner : Reader Statement) : Reader Statement := do
  match ← ahead 0 with
  | some (.symbol "(") => return .query (← rules.query)
  | some (.word _ keyword) =>
    match keyword with
    | "SELECT" | "WITH" | "VALUES" => return .query (← rules.query)
    | "INSERT" =>
      let _ ← next
      let (columns, source) ← insert rules
      return .insert columns source
    | "UPDATE" =>
      let _ ← next
      let (assignments, selection) ← update rules
      return .update assignments selection
    | "DELETE" =>
      let _ ← next
      return .delete (← delete rules)
    | keyword =>
      let _ ← next
      command rules (do let _ ← inner) keyword
      return .command
  | _ => refuse

/-- One statement with less than `depth` levels in it. The statement that an explanation is about is
itself no explanation. -/
def statementUpTo : Nat → Bool → Reader Statement
  | 0, _ => throw .tooDeep
  | depth + 1, explained => do
    let word ← if explained then pure none else oneOf ["EXPLAIN", "DESCRIBE", "DESC"]
    match word with
    | some word =>
      explanation (rules depth) (word == "EXPLAIN") (statementUpTo depth true)
      return .command
    | none => plainStatement (rules depth) (statementUpTo depth false)

/-- One statement. -/
def statement : Reader Statement := statementUpTo maxDepth false

/-- Statements with semicolons between them, at most `fuel`. After a statement the word `END` stops
the reading. -/
def statements : Nat → Bool → Reader (List Statement)
  | 0, _ => refuse
  | fuel + 1, afterStatement => do
    if ← symbol ";" then statements fuel false
    else
      match ← ahead 0 with
      | none => return []
      | some token =>
        if afterStatement then
          require (token.isKeyword "END")
          return []
        else
          let first ← statement
          return first :: (← statements fuel true)

end Grammar

/-- The statements of a text, or why it is not written in the grammar. -/
def Statement.readAll : StatementReader := fun sql =>
  match Token.scan? sql with
  | none => .error "sql parser error: unexpected character"
  | some tokens =>
    match Grammar.statements (2 * tokens.length + 2) false tokens with
    | .ok (statements, _) => .ok statements
    | .error refusal => .error refusal.message

end LogAudit.Sql
