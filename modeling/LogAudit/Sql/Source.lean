import LogAudit.Sql.Expression

/-!
# The grammar of sources

What stands after `FROM`: tables, functions, queries in parentheses, and joins of them. Of all these
only the queries are kept.
-/

namespace LogAudit.Sql.Grammar

open Reader

/-- A source: the queries in it, and whether it is a join in parentheses. -/
structure Source where
  queries : List Query
  nestedJoin : Bool

/-- A source with the sources joined to it. -/
structure Joined where
  first : Source
  others : List Source

/-- The queries of a join, from left to right. -/
def Joined.queries (joined : Joined) : List Query :=
  joined.first.queries ++ joined.others.flatMap Source.queries

/-- An alias of a source, perhaps with names for its columns. -/
def sourceAlias? : Reader Unit := do
  if ← alias? endsSource then
    columns?

/-- A query in parentheses after the opening one, with its alias. -/
def derived (rules : Rules) : Reader Source := do
  let query ← rules.query
  expect ")"
  sourceAlias?
  return ⟨[query], false⟩

/-- The arguments of a source that is a function, after the opening parenthesis. -/
def sourceArguments (rules : Rules) : Reader Unit := do
  if ← symbol ")" then return
  let _ ← list (argument rules)
  expect ")"

/-- A table or a function by its name. -/
def namedSource (rules : Rules) : Reader Source := do
  let _ ← path
  if ← symbol "(" then sourceArguments rules
  let _ ← keywords ["WITH", "ORDINALITY"]
  sourceAlias?
  if (← keywordAhead 0 "WITH") && (← symbolAhead 1 "(") then
    let _ ← next
    let _ ← parenthesized (list rules.any)
  return ⟨[], false⟩

/-- The rows of arrays. -/
def unnested (rules : Rules) : Reader Source := do
  let _ ← parenthesized (list rules.any)
  let _ ← keywords ["WITH", "ORDINALITY"]
  sourceAlias?
  if ← keywords ["WITH", "OFFSET"] then
    let _ ← alias? endsColumn
  return ⟨[], false⟩

/-- A join in parentheses, after the opening one. A source without a join may not stand alone
there. -/
def nestedJoin (joined : Reader Joined) : Reader Source := do
  let inside ← joined
  require (!inside.others.isEmpty || inside.first.nestedJoin)
  expect ")"
  sourceAlias?
  return ⟨inside.queries, true⟩

/-- A source, given how to read what stands in parentheses. -/
def source (rules : Rules) (joined : Reader Joined) : Reader Source := do
  if ← keyword "LATERAL" then
    if ← symbol "(" then derived rules
    else
      let _ ← path
      expect "("
      sourceArguments rules
      sourceAlias?
      return ⟨[], false⟩
  else if ← keyword "TABLE" then
    let _ ← parenthesized rules.any
    sourceAlias?
    return ⟨[], false⟩
  else if ← symbol "(" then
    match ← attempt (derived rules) with
    | some source => return source
    | none => nestedJoin joined
  else if ← keyword "UNNEST" then unnested rules
  else namedSource rules

/-- The words in front of a joined source, if there are any: whether a condition may follow it, and
whether one must not. -/
def joinWords : Reader (Option Bool) := do
  let _ ← keyword "GLOBAL"
  if ← keyword "CROSS" then
    expectOneOf ["JOIN", "APPLY"]
    return some false
  else if ← keyword "OUTER" then
    expectKeyword "APPLY"
    return some false
  else
    let natural ← keyword "NATURAL"
    match ← oneOf ["INNER", "JOIN", "LEFT", "RIGHT", "FULL"] with
    | some "JOIN" => pure ()
    | some "LEFT" | some "RIGHT" =>
      match ← oneOf ["OUTER", "SEMI", "ANTI", "JOIN"] with
      | some "JOIN" => pure ()
      | some _ => expectKeyword "JOIN"
      | none => refuse
    | some "FULL" =>
      let _ ← keyword "OUTER"
      expectKeyword "JOIN"
    | some _ => expectKeyword "JOIN"
    | none =>
      require !natural
      return none
    return some !natural

/-- The condition of a join, if there is one. -/
def joinCondition? (rules : Rules) : Reader Unit := do
  if ← keyword "ON" then
    let _ ← rules.any
  else if ← keyword "USING" then
    let _ ← columns

/-- One more joined source, added to those before it. -/
def join (rules : Rules) (joined : Reader Joined) (others : List Source) :
    Reader (Option (List Source)) := do
  match ← joinWords with
  | none => return none
  | some conditional =>
    let other ← source rules joined
    if conditional then joinCondition? rules
    return some (others ++ [other])

/-- A source with the sources joined to it, in which parentheses are nested less than `fuel`
times. -/
def joinedUpTo (rules : Rules) : Nat → Reader Joined
  | 0 => refuse
  | fuel + 1 => do
    let first ← source rules (joinedUpTo rules fuel)
    return ⟨first, ← iterate (join rules (joinedUpTo rules fuel)) []⟩

/-- A source with the sources joined to it. -/
def joined (rules : Rules) : Reader Joined := do joinedUpTo rules ((← remaining) + 1)

/-- Sources with commas between them: the queries in them. -/
def sources (rules : Rules) : Reader (List Query) := do
  return (← list (joined rules)).flatMap Joined.queries

end LogAudit.Sql.Grammar
