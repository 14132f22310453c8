import LogAudit.Text.Classes

/-!
# Statements in messages

A server that logs statements writes them after a fixed word. Only the four kinds of statements that
read and change rows are of interest.
-/

namespace LogAudit.Sql

open LogAudit.Text

/-- What stands in front of a logged statement. -/
def statementMark : List Char := "statement:".toList

/-- The verbs of the statements that are looked at. -/
def verbs : List (List Char) := ["select", "update", "delete", "insert"].map String.toList

/-- The statement in a message, if there is one and it starts with one of the verbs. -/
def statementOfMessage? (message : String) : Option String :=
  let text := trim message.toList
  if statementMark.isPrefixOf text then
    let sql := trim (text.drop statementMark.length)
    if verbs.contains ((sql.take 6).map Char.toLower) then some (String.ofList sql) else none
  else none

end LogAudit.Sql
