import LogAudit.Sql.Change

/-!
# The grammar of queries

A query is a body with named queries in front of it and an ordering and limits after it. Bodies are
selections, rows of values and queries in parentheses, joined by set operations, of which
`INTERSECT` binds closer than the others.
-/

namespace LogAudit.Sql.Grammar

open Reader

/-- `ALL`, or `DISTINCT` and perhaps the expressions that tell rows apart. -/
def distinction (rules : Rules) : Reader Unit := do
  let all ← keyword "ALL"
  if ← keyword "DISTINCT" then
    require !all
    if ← keyword "ON" then
      expect "("
      if !(← symbol ")") then
        let _ ← list rules.any
        expect ")"

/-- `TOP` with its number, if it follows. -/
def top? (rules : Rules) : Reader Unit := do
  if ← keyword "TOP" then
    if ← symbol "(" then
      let _ ← rules.any
      expect ")"
    else natural
    let _ ← keyword "PERCENT"
    let _ ← keywords ["WITH", "TIES"]

/-- The table that a selection is written to, if there is one. -/
def into? : Reader Unit := do
  if ← keyword "INTO" then
    let _ ← oneOf ["TEMP", "TEMPORARY"]
    let _ ← keyword "UNLOGGED"
    let _ ← keyword "TABLE"
    let _ ← path

/-- Expressions in parentheses, possibly none. -/
def groupingSet (rules : Rules) : Reader Unit := do
  expect "("
  if ← symbol ")" then return
  let _ ← list rules.any
  expect ")"

/-- One expression, or expressions in parentheses. -/
def groupingElement (rules : Rules) : Reader Unit := do
  if ← symbolAhead 0 "(" then groupingSet rules
  else
    let _ ← rules.any

/-- One item of a grouping. -/
def groupItem (rules : Rules) : Reader Unit := do
  if ← keywords ["GROUPING", "SETS"] then
    let _ ← parenthesized (list (groupingSet rules))
  else if (← oneOf ["CUBE", "ROLLUP"]).isSome then
    let _ ← parenthesized (list (groupingElement rules))
  else if (← symbolAhead 0 "(") && (← symbolAhead 1 ")") then
    let _ ← next
    let _ ← next
  else
    let _ ← rules.any

/-- The grouping, if there is one. -/
def grouping? (rules : Rules) : Reader Unit := do
  if ← keywords ["GROUP", "BY"] then
    if !(← keyword "ALL") then
      let _ ← list (groupItem rules)

/-- Expressions after two keywords, if these follow. -/
def clause? (rules : Rules) (words : List String) : Reader Unit := do
  if ← keywords words then
    let _ ← list rules.any

/-- A window with a name. -/
def namedWindow (rules : Rules) : Reader Unit := do
  let _ ← identifier
  expectKeyword "AS"
  expect "("
  window rules (operand rules)

/-- Named windows, if there are any. -/
def windows? (rules : Rules) : Reader Bool := do
  if ← keyword "WINDOW" then
    let _ ← list (namedWindow rules)
    return true
  else return false

/-- Named windows and a condition on them, in either order. -/
def windowClauses (rules : Rules) : Reader Unit := do
  if ← windows? rules then
    let _ ← after "QUALIFY" rules.any
  else if (← after "QUALIFY" rules.any).isSome then
    let _ ← windows? rules

/-- `SELECT` after its keyword. -/
def select (rules : Rules) : Reader Body := do
  distinction rules
  top? rules
  let projection ← selectItems rules
  into?
  let queries ← if ← keyword "FROM" then sources rules else pure []
  let selection ← after "WHERE" rules.any
  grouping? rules
  clause? rules ["CLUSTER", "BY"]
  clause? rules ["DISTRIBUTE", "BY"]
  clause? rules ["SORT", "BY"]
  let having ← after "HAVING" rules.any
  windowClauses rules
  return .select projection queries selection having

/-- A row of values. -/
def row (rules : Rules) : Reader (List Expr) := do
  let _ ← keyword "ROW"
  parenthesized (list rules.any)

/-- `TABLE` after its keyword. Two more tokens are passed over; if the first of them is a point, the
name is the token after it. -/
def wholeTable : Reader Body := do
  let first ← next
  let point ← next
  let third ← next
  let isWord : Option Token → Bool
    | some (.word _ _) => true
    | _ => false
  require (isWord first)
  if (point.map (Token.isSymbol ".")).getD false then require (isWord third)
  return .table

/-- A body without set operations. -/
def simpleBody (rules : Rules) : Reader Body := do
  if ← keyword "SELECT" then select rules
  else if ← symbol "(" then
    let query ← rules.query
    expect ")"
    return .query query
  else if ← keyword "VALUES" then return .values (← list (row rules))
  else if ← keyword "TABLE" then wholeTable
  else refuse

/-- What may stand between a set operation and its right side. -/
def setQuantifier : Reader Unit := do
  if ← keywords ["DISTINCT", "BY", "NAME"] then return
  if ← keywords ["BY", "NAME"] then return
  if ← keyword "ALL" then
    let _ ← keywords ["BY", "NAME"]
  else
    let _ ← keyword "DISTINCT"

/-- One more set operation of these kinds, whose right side `operand` reads. -/
def setStep (kinds : List String) (operand : Reader Body) (left : Body) :
    Reader (Option Body) := do
  if (← oneOf kinds).isSome then
    setQuantifier
    return some (.setOperation left (← operand))
  else return none

/-- Bodies joined by `INTERSECT`. -/
def intersection (rules : Rules) : Reader Body := do
  iterate (setStep ["INTERSECT"] (simpleBody rules)) (← simpleBody rules)

/-- Bodies joined by any set operations. -/
def body (rules : Rules) : Reader Body := do
  iterate (setStep ["UNION", "EXCEPT"] (intersection rules)) (← intersection rules)

/-- A query after `WITH`, by its name. -/
def namedQuery (rules : Rules) : Reader Query := do
  let _ ← identifier
  if !(← keyword "AS") then
    columns?
    expectKeyword "AS"
  if !(← keyword "MATERIALIZED") then
    let _ ← keywords ["NOT", "MATERIALIZED"]
  let query ← parenthesized rules.query
  let _ ← after "FROM" identifier
  return query

/-- `LIMIT` and `OFFSET`, in either order. `LIMIT ALL` sets no limit, so that another may follow. -/
def limits (rules : Rules) : Reader Unit := do
  let limit : Reader Bool := do
    if ← keyword "LIMIT" then
      if ← keyword "ALL" then return false
      let _ ← rules.any
      return true
    else return false
  let offset : Reader Bool := do
    if ← keyword "OFFSET" then
      let _ ← rules.any
      let _ ← oneOf ["ROW", "ROWS"]
      return true
    else return false
  let limited ← limit
  let skipped ← offset
  if !limited then
    let _ ← limit
  if !skipped then
    let _ ← offset

/-- `FETCH` and what follows it, if it stands there. -/
def fetch? : Reader Unit := do
  if ← keyword "FETCH" then
    expectOneOf ["FIRST", "NEXT"]
    if (← oneOf ["ROW", "ROWS"]).isNone then
      let _ ← constant
      let _ ← keyword "PERCENT"
      expectOneOf ["ROW", "ROWS"]
    if !(← keyword "ONLY") then expectKeywords ["WITH", "TIES"]

/-- One lock on the rows of a query. -/
def lock (count : Nat) : Reader (Option Nat) := do
  if ← keyword "FOR" then
    expectOneOf ["UPDATE", "SHARE"]
    let _ ← after "OF" path
    if !(← keyword "NOWAIT") then
      let _ ← keywords ["SKIP", "LOCKED"]
    return some (count + 1)
  else return none

/-- A query. A data change may stand in its place. -/
def query (rules : Rules) : Reader Query := do
  let named ←
    if ← keyword "WITH" then
      let _ ← keyword "RECURSIVE"
      list (namedQuery rules)
    else pure []
  if ← keyword "INSERT" then
    let _ ← insert rules
    return .mk named .table
  else if ← keyword "UPDATE" then
    let _ ← update rules
    return .mk named .table
  else
    let body ← body rules
    let _ ← ordering rules
    limits rules
    fetch?
    let _ ← iterate lock 0
    return .mk named body

/-- The rules with `depth` more levels of nesting. -/
def rules : Nat → Rules
  | 0 => ⟨fun _ => throw .tooDeep, throw .tooDeep⟩
  | depth + 1 => ⟨expr (rules depth), query (rules depth)⟩

end LogAudit.Sql.Grammar
