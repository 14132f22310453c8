import LogAudit.Sql.Source

/-!
# The grammar of data changes

`INSERT`, `UPDATE` and `DELETE` after their keyword, and the items of a selection, which may also
stand after `RETURNING`.
-/

namespace LogAudit.Sql.Grammar

open Reader

/-- An expression is the bare word `from`. -/
def isBareFrom (tokens : List Token) : Bool :=
  (tokens.head?.map (Token.isKeyword "FROM")).getD false

/-- An item of a selection: a star, or an expression and perhaps its alias. The bare word `from` is
no item. -/
def selectItem (rules : Rules) : Reader (List Expr) := do
  let bareFrom := isBareFrom (← get)
  match ← exprOrStar rules with
  | none => return []
  | some (.column [name]) =>
    require !bareFrom
    let _ ← alias? endsColumn
    return [.column [name]]
  | some item =>
    let _ ← alias? endsColumn
    return [item]

/-- Items of a selection. -/
def selectItems (rules : Rules) : Reader (List Expr) := do
  return (← list (selectItem rules)).flatten

/-- `RETURNING` with its items, if it follows. -/
def returning? (rules : Rules) : Reader Unit := do
  let _ ← after "RETURNING" (selectItems rules)

/-- One assignment, with the name of its column unless it assigns several at once. -/
def assignment (rules : Rules) : Reader (Option String × Expr) := do
  let target ←
    if ← symbol "(" then
      let _ ← list path
      expect ")"
      pure none
    else pure (← path).getLast?
  expect "="
  return (target, ← rules.any)

/-- What to do about a conflict, as it may stand after rows. -/
def conflictClause? (rules : Rules) : Reader Unit := do
  if ← keyword "ON" then
    if ← keyword "CONFLICT" then
      if ← keywords ["ON", "CONSTRAINT"] then
        let _ ← path
      else columns?
      expectKeyword "DO"
      if !(← keyword "NOTHING") then
        expectKeywords ["UPDATE", "SET"]
        let _ ← list (assignment rules)
        let _ ← after "WHERE" rules.any
    else
      expectKeywords ["DUPLICATE", "KEY", "UPDATE"]
      let _ ← list (assignment rules)

/-- `INSERT` after its keyword: the columns and what fills them. -/
def insert (rules : Rules) : Reader (List String × Option Query) := do
  let _ ← oneOf ["INTO", "OVERWRITE"]
  let _ ← keyword "LOCAL"
  let _ ← keyword "TABLE"
  let _ ← path
  let _ ← after "AS" identifier
  let rows ←
    if ← keywords ["DEFAULT", "VALUES"] then pure ([], none)
    else
      let query := (← symbolAhead 0 "(") && (← keywordAhead 1 "SELECT")
      let names ← if !query && (← symbolAhead 0 "(") then columns else pure []
      if ← keyword "PARTITION" then
        let _ ← parenthesized (list rules.any)
      pure (names, some (← rules.query))
  conflictClause? rules
  returning? rules
  return rows

/-- `UPDATE` after its keyword: the assignments and the condition. -/
def update (rules : Rules) : Reader (List (Option String × Expr) × Option Expr) := do
  let _ ← joined rules
  expectKeyword "SET"
  let assignments ← list (assignment rules)
  let _ ← after "FROM" (joined rules)
  let selection ← after "WHERE" rules.any
  returning? rules
  return (assignments, selection)

/-- `DELETE` after its keyword: the condition. -/
def delete (rules : Rules) : Reader (Option Expr) := do
  if !(← keyword "FROM") then
    let _ ← list path
    expectKeyword "FROM"
  let _ ← sources rules
  let _ ← after "USING" (sources rules)
  let selection ← after "WHERE" rules.any
  returning? rules
  let _ ← ordering rules
  if ← keyword "LIMIT" then
    if !(← keyword "ALL") then
      let _ ← rules.any
  return selection

end LogAudit.Sql.Grammar
