import LogAudit.Sql.Tree

/-!
# Readers of tokens

A reader takes tokens off the front of a list and gives a value, or refuses. There are two ways to
refuse: the tokens are not what the grammar asks for, in which case another form may be tried, or
the nesting is too deep, which ends all attempts.
-/

namespace LogAudit.Sql

/-- Why a reader refuses. -/
inductive Refusal where
  /-- The tokens have another form. -/
  | unexpected
  /-- The tokens are nested too deeply. -/
  | tooDeep
  deriving DecidableEq, Repr

/-- The text of a refusal. -/
def Refusal.message : Refusal → String
  | unexpected => "sql parser error: unexpected token"
  | tooDeep => "sql parser error: recursion limit exceeded"

/-- A function from tokens to a value and the tokens after it. -/
abbrev Reader := StateT (List Token) (Except Refusal)

namespace Reader

/-- Refuse for another form. -/
def refuse {α : Type} : Reader α := throw .unexpected

/-- The token `n` places ahead. -/
def ahead (n : Nat) : Reader (Option Token) := do return (← get)[n]?

/-- The next token is taken; `none` at the end. -/
def next : Reader (Option Token) := fun
  | [] => .ok (none, [])
  | token :: tokens => .ok (some token, tokens)

/-- How many tokens remain, which bounds every repetition. -/
def remaining : Reader Nat := do return (← get).length

/-- The token `n` places ahead is this keyword. -/
def keywordAhead (n : Nat) (keyword : String) : Reader Bool := do
  return (((← get)[n]?).map (Token.isKeyword keyword)).getD false

/-- The token `n` places ahead is this symbol. -/
def symbolAhead (n : Nat) (text : String) : Reader Bool := do
  return (((← get)[n]?).map (Token.isSymbol text)).getD false

/-- Take this keyword if it comes next. -/
def keyword (keyword : String) : Reader Bool := fun
  | token :: tokens =>
    if token.isKeyword keyword then .ok (true, tokens) else .ok (false, token :: tokens)
  | [] => .ok (false, [])

/-- Take these keywords if all of them come next. -/
def keywords (list : List String) : Reader Bool := fun tokens =>
  let front := tokens.take list.length
  if front.length == list.length && (list.zip front).all fun pair => pair.2.isKeyword pair.1 then
    .ok (true, tokens.drop list.length)
  else .ok (false, tokens)

/-- Take one of these keywords if it comes next. -/
def oneOf (list : List String) : Reader (Option String) := do
  match ← ahead 0 with
  | some (.word _ keyword) =>
    if list.contains keyword then
      let _ ← next
      return some keyword
    else return none
  | _ => return none

/-- Take this symbol if it comes next. -/
def symbol (text : String) : Reader Bool := fun
  | token :: tokens =>
    if token.isSymbol text then .ok (true, tokens) else .ok (false, token :: tokens)
  | [] => .ok (false, [])

/-- Go on only if the condition holds. -/
def require (condition : Bool) : Reader Unit := if condition then pure () else refuse

/-- Take this keyword. -/
def expectKeyword (text : String) : Reader Unit := do require (← keyword text)

/-- Take these keywords. -/
def expectKeywords (list : List String) : Reader Unit := list.forM expectKeyword

/-- Take one of these keywords. -/
def expectOneOf (list : List String) : Reader Unit := do require (← oneOf list).isSome

/-- Take this symbol. -/
def expect (text : String) : Reader Unit := do require (← symbol text)

/-- Try a form; if the tokens have another one, nothing is taken. -/
def attempt {α : Type} (reader : Reader α) : Reader (Option α) := fun tokens =>
  match reader tokens with
  | .ok (value, rest) => .ok (some value, rest)
  | .error .unexpected => .ok (none, tokens)
  | .error .tooDeep => .error .tooDeep

/-- Read this form only after the keyword. -/
def after {α : Type} (text : String) (reader : Reader α) : Reader (Option α) := do
  if ← keyword text then some <$> reader else return none

/-- At most `n + 1` items with commas between them. -/
def listUpTo {α : Type} (item : Reader α) : Nat → Reader (List α)
  | 0 => return [← item]
  | n + 1 => do
    let first ← item
    if ← symbol "," then return first :: (← listUpTo item n) else return [first]

/-- One or more items with commas between them. -/
def list {α : Type} (item : Reader α) : Reader (List α) := do listUpTo item (← remaining)

/-- A form between parentheses. -/
def parenthesized {α : Type} (reader : Reader α) : Reader α := do
  expect "("
  let value ← reader
  expect ")"
  return value

/-- Items with commas between them, possibly none, after an opening parenthesis and with the closing
one. -/
def closedList {α : Type} (item : Reader α) : Reader Unit := do
  if !(← symbol ")") then
    let _ ← list item
    expect ")"

/-- Repeat a step on a value until it gives nothing, at most `n` times. -/
def repeatUpTo {α : Type} (step : α → Reader (Option α)) : Nat → α → Reader α
  | 0, value => return value
  | n + 1, value => do
    match ← step value with
    | some value => repeatUpTo step n value
    | none => return value

/-- Repeat a step on a value until it gives nothing. -/
def iterate {α : Type} (step : α → Reader (Option α)) (value : α) : Reader α := do
  repeatUpTo step ((← remaining) + 1) value

/-- Take the first of these runs of keywords that comes next. -/
def anyOf : List (List String) → Reader Bool
  | [] => return false
  | words :: others => do
    if ← keywords words then return true else anyOf others

/-- Read a form only after these keywords; whether they stood there. -/
def following {α : Type} (words : List String) (reader : Reader α) : Reader Bool := do
  if ← keywords words then
    let _ ← reader
    return true
  else return false

/-- Read the first of these forms that stands next, if there is one. -/
def firstOf : List (Reader Bool) → Reader Bool
  | [] => return false
  | form :: forms => do
    if ← form then return true else firstOf forms

/-- Read the first of these forms that stands next. -/
def oneForm (forms : List (Reader Bool)) : Reader Unit := do require (← firstOf forms)

/-- Read these forms as often as one of them stands next. -/
def many (forms : List (Reader Bool)) : Reader Unit :=
  iterate (fun _ => do return if ← firstOf forms then some () else none) ()

/-- Read the first of these forms that stands next; the other forms remain. -/
def takeOne : List (Reader Bool) → Reader (Option (List (Reader Bool)))
  | [] => return none
  | form :: forms => do
    if ← form then return some forms else return (← takeOne forms).map (form :: ·)

/-- Read these forms in any order, each at most once. -/
def eachOnce (forms : List (Reader Bool)) : Reader Unit := do
  let _ ← iterate takeOne forms

/-- A name: any word, or a text in single quotes. -/
def identifier : Reader String := do
  match ← next with
  | some (.word text _) => return text
  | some (.text .plain value) => return value
  | _ => refuse

/-- Names with points between them, at most `n + 1`. -/
def pathUpTo : Nat → Reader (List String)
  | 0 => return [← identifier]
  | n + 1 => do
    let first ← identifier
    if ← symbol "." then return first :: (← pathUpTo n) else return [first]

/-- Names with points between them. -/
def path : Reader (List String) := do pathUpTo (← remaining)

/-- A natural number without point and exponent, below two to the power of 64. -/
def natural : Reader Unit := do
  match ← next with
  | some (.number text) =>
    require (text.toList.all Char.isDigit &&
      text.toList.foldl (fun n c => n * 10 + (c.toNat - 48)) 0 < 0x10000000000000000)
  | _ => refuse

/-- Names in parentheses. -/
def columns : Reader (List String) := parenthesized (list identifier)

/-- Names in parentheses, if there are any. -/
def columns? : Reader Unit := do
  if ← symbolAhead 0 "(" then
    let _ ← columns

/-- Words that start the next part of a statement and are therefore no aliases of columns unless
`AS` stands before them. -/
def endsColumn : List String :=
  ["WITH", "EXPLAIN", "ANALYZE", "SELECT", "WHERE", "GROUP", "SORT", "HAVING", "ORDER", "TOP",
    "LATERAL", "VIEW", "LIMIT", "OFFSET", "FETCH", "UNION", "EXCEPT", "INTERSECT", "CLUSTER",
    "DISTRIBUTE", "RETURNING", "FROM", "INTO", "END"]

/-- Words that are no aliases of sources unless `AS` stands before them. -/
def endsSource : List String :=
  ["WITH", "EXPLAIN", "ANALYZE", "SELECT", "WHERE", "GROUP", "SORT", "HAVING", "ORDER", "PIVOT",
    "UNPIVOT", "TOP", "LATERAL", "VIEW", "LIMIT", "OFFSET", "FETCH", "UNION", "EXCEPT",
    "INTERSECT", "ON", "JOIN", "INNER", "CROSS", "FULL", "LEFT", "RIGHT", "NATURAL", "USING",
    "CLUSTER", "DISTRIBUTE", "GLOBAL", "OUTER", "SET", "QUALIFY", "WINDOW", "END", "FOR",
    "PARTITION", "PREWHERE", "SETTINGS", "FORMAT", "START", "CONNECT", "MATCH_RECOGNIZE"]

/-- An alias, if there is one: any name after `AS`, else a word that is not reserved. -/
def alias? (reserved : List String) : Reader Bool := do
  if ← keyword "AS" then
    let _ ← identifier
    return true
  else
    match ← ahead 0 with
    | some (.word _ word) =>
      if reserved.contains word then return false
      else
        let _ ← next
        return true
    | some (.text .plain _) =>
      let _ ← next
      return true
    | _ => return false

end Reader

end LogAudit.Sql
