import LogAudit.Sql.DataType

/-!
# The grammar of expressions

An expression is an operand followed by operators, each of which takes what binds closer than
itself. The readers here are given the rules for expressions and queries one level of nesting
further in, so that the depth of nesting is bounded where the rules are tied together.
-/

namespace LogAudit.Sql

/-- How to read an expression and a query at some level of nesting. -/
structure Rules where
  /-- An expression of operators that bind closer than a number says. -/
  expr : Nat → Reader Expr
  query : Reader Query

namespace Binding

/-- Cast with colons. -/
def cast : Nat := 140
/-- Subscript in brackets. -/
def subscript : Nat := 130
/-- Collation. -/
def collation : Nat := 120
/-- Conversion to a time zone. -/
def zone : Nat := 110
/-- Exponentiation. -/
def power : Nat := 100
/-- Multiplication and its relatives. -/
def product : Nat := 90
/-- Addition and subtraction. -/
def sum : Nat := 80
/-- Exclusive disjunction. -/
def exclusive : Nat := 75
/-- Operators of any other spelling. -/
def other : Nat := 70
/-- Ranges, lists and patterns. -/
def range : Nat := 60
/-- Comparisons. -/
def comparison : Nat := 50
/-- Tests. -/
def test : Nat := 40
/-- Negation. -/
def negation : Nat := 30
/-- Conjunction. -/
def conjunction : Nat := 20
/-- Disjunction. -/
def disjunction : Nat := 10

/-- How close a symbol binds its operands; zero if it is no operator between two of them. -/
def ofSymbol (text : String) : Nat :=
  if text == "::" then cast
  else if text == "[" then subscript
  else if text == "^" then power
  else if ["*", "/", "%"].contains text then product
  else if ["+", "-"].contains text then sum
  else if ["=", "==", "<", "<=", "<>", ">", ">=", "<=>", "~", "~*", "!~", "!~*", "~~", "~~*",
      "!~~", "!~~*"].contains text then comparison
  else if ["!!", "|/", "||/", "@", "=>", "\x60"].contains text then 0
  else if text.toList.all fun c => "+-*/<>=~!@#%^&|\x60?".toList.contains c then other
  else 0

/-- How close a keyword binds its operands, given the two keywords after it. -/
def ofKeyword (keyword second third : String) : Nat :=
  match keyword with
  | "COLLATE" => collation
  | "OR" => disjunction
  | "AND" => conjunction
  | "XOR" => exclusive
  | "AT" => if second == "TIME" && third == "ZONE" then zone else 0
  | "NOT" =>
    if ["IN", "BETWEEN", "LIKE", "ILIKE", "RLIKE", "REGEXP", "SIMILAR"].contains second then range
    else 0
  | "IS" => test
  | "IN" | "BETWEEN" | "LIKE" | "ILIKE" | "RLIKE" | "REGEXP" | "SIMILAR" | "OPERATOR" => range
  | "DIV" => product
  | _ => 0

/-- How close the next token binds its operands. -/
def next : Reader Nat := do
  let keyword (n : Nat) : Reader String := do
    match ← Reader.ahead n with
    | some (.word _ keyword) => return keyword
    | _ => return ""
  match ← Reader.ahead 0 with
  | some (.symbol text) => return ofSymbol text
  | some (.word _ first) => return ofKeyword first (← keyword 1) (← keyword 2)
  | _ => return 0

end Binding

/-- An expression of any operators. -/
def Rules.any (rules : Rules) : Reader Expr := rules.expr 0

namespace Grammar

open Reader

/-- The next two tokens or the next one start a query. -/
def startsQuery : Reader Bool := do
  return (← keywordAhead 0 "SELECT") || (← keywordAhead 0 "WITH")

/-- A constant. -/
def constant : Reader Expr := do
  match ← next with
  | some (.number text) => return .literal (.number text)
  | some (.text kind value) => return .literal (.text kind value)
  | some .parameter => return .literal .symbol
  | some (.word _ keyword) =>
    require (["TRUE", "FALSE", "NULL"].contains keyword)
    return .literal .symbol
  | some (.symbol ":") =>
    match ← next with
    | some (.word _ _) => return .literal .symbol
    | some (.number _) => return .literal .symbol
    | _ => refuse
  | _ => refuse

/-- The text of a typed literal. -/
def literalText : Reader Unit := do
  match ← next with
  | some (.text .plain _) => pure ()
  | some (.text .escaped _) => pure ()
  | some (.text .unicode _) => pure ()
  | some token => require token.isMereName
  | none => refuse

/-- A unit of time. -/
def timeUnit : Reader Unit := do
  match ← next with
  | some (.word _ _) => pure ()
  | some (.text .plain _) => pure ()
  | _ => refuse

/-- Words for units of time that may follow an interval. -/
def timeUnits : List String :=
  ["YEAR", "MONTH", "WEEK", "DAY", "DATE", "HOUR", "MINUTE", "SECOND", "CENTURY", "DECADE", "DOW",
    "DOY", "EPOCH", "ISODOW", "ISOYEAR", "JULIAN", "MICROSECOND", "MICROSECONDS", "MILLENIUM",
    "MILLENNIUM", "MILLISECOND", "MILLISECONDS", "NANOSECOND", "NANOSECONDS", "QUARTER",
    "TIMEZONE", "TIMEZONE_HOUR", "TIMEZONE_MINUTE"]

/-- An interval after its keyword: an operand and perhaps units. -/
def interval (operand : Reader Expr) : Reader Expr := do
  let value ← operand
  match ← oneOf timeUnits with
  | some "SECOND" => DataType.precisionAndScale?
  | _ =>
    DataType.precision?
    if ← keyword "TO" then
      let second ← keywordAhead 0 "SECOND"
      timeUnit
      if second then DataType.precision?
  return .form [value]

/-- A literal after the name of its type. -/
def typedLiteral (operand : Reader Expr) : Reader Expr := do
  match ← DataType.read with
  | .interval => interval operand
  | .user => refuse
  | .builtin =>
    literalText
    return .form []

/-- One item of an ordering. -/
def orderItem (rules : Rules) : Reader Expr := do
  let item ← rules.any
  let _ ← oneOf ["ASC", "DESC"]
  if !(← keywords ["NULLS", "FIRST"]) then
    let _ ← keywords ["NULLS", "LAST"]
  return item

/-- An ordering, if there is one. -/
def ordering (rules : Rules) : Reader (List Expr) := do
  if ← keywords ["ORDER", "BY"] then list (orderItem rules) else return []

/-- The end of a window frame. -/
def frameBound (rules : Rules) (operand : Reader Expr) : Reader Unit := do
  if ← keywords ["CURRENT", "ROW"] then return
  if !(← keyword "UNBOUNDED") then
    match ← ahead 0 with
    | some (.text .plain _) => let _ ← interval operand
    | _ => let _ ← rules.any
  expectOneOf ["PRECEDING", "FOLLOWING"]

/-- A window after its opening parenthesis, with the closing one. -/
def window (rules : Rules) (operand : Reader Expr) : Reader Unit := do
  match ← ahead 0 with
  | some token => if token.isMereName then let _ ← next
  | none => pure ()
  if ← keywords ["PARTITION", "BY"] then
    let _ ← list rules.any
  let _ ← ordering rules
  if ← symbol ")" then return
  expectOneOf ["ROWS", "RANGE", "GROUPS"]
  if ← keyword "BETWEEN" then
    frameBound rules operand
    expectKeyword "AND"
    frameBound rules operand
  else frameBound rules operand
  expect ")"

/-- A star after names and points. -/
def qualifiedStar : Reader Unit := do
  match ← next with
  | some (.word _ _) => pure ()
  | some (.text .plain _) => pure ()
  | _ => refuse
  expect "."
  let rec names : Nat → Reader Unit
    | 0 => refuse
    | n + 1 => do
      if ← symbol "*" then return
      let _ ← identifier
      expect "."
      names n
  names (← remaining)

/-- An expression or a star; `none` for a star. -/
def exprOrStar (rules : Rules) : Reader (Option Expr) := do
  if ← symbol "*" then return none
  match ← attempt qualifiedStar with
  | some _ => return none
  | none => some <$> rules.any

/-- A named argument. -/
def namedArgument (rules : Rules) : Reader (Option Expr) := do
  let _ ← identifier
  expect "=>"
  exprOrStar rules

/-- An argument of a function. -/
def argument (rules : Rules) : Reader (List Expr) := do
  match ← attempt (namedArgument rules) with
  | some value => return value.toList
  | none => return (← exprOrStar rules).toList

/-- The arguments of a function after the opening parenthesis, with the closing one. -/
def arguments (rules : Rules) : Reader (List Expr) := do
  if ← symbol ")" then return []
  let all ← keyword "ALL"
  let distinct ← keyword "DISTINCT"
  require !(all && distinct)
  let values ← list (argument rules)
  let _ ← ordering rules
  let _ ← after "LIMIT" rules.any
  expect ")"
  return values.flatten

/-- A function call after the name. -/
def call (rules : Rules) (operand : Reader Expr) : Reader Expr := do
  expect "("
  let values ← arguments rules
  if ← keywords ["WITHIN", "GROUP"] then
    expect "("
    expectKeywords ["ORDER", "BY"]
    let _ ← list (orderItem rules)
    expect ")"
  if ← keyword "FILTER" then
    if ← symbol "(" then
      if ← keyword "WHERE" then
        let _ ← rules.any
        expect ")"
  if (← oneOf ["RESPECT", "IGNORE"]).isSome then expectKeyword "NULLS"
  if ← keyword "OVER" then
    if ← symbol "(" then window rules operand
    else
      let _ ← identifier
  return .form values

/-- A form after a word that has no meaning of its own there: a column, a function call or all
columns of a source. -/
def named (rules : Rules) (operand : Reader Expr) (first : String) : Reader Expr := do
  let rec names : Nat → List String → Reader (Option (List String))
    | 0, path => return some path
    | n + 1, path => do
      if ← symbol "." then
        if ← symbol "*" then return none
        names n (path ++ [← identifier])
      else return some path
  match ← names (← remaining) [first] with
  | none => return .form []
  | some path =>
    if ← symbolAhead 0 "(" then call rules operand
    else
      match path, ← ahead 0 with
      | [_], some (.text kind _) =>
        if first.toList.head? == some '_' && (kind == .plain || kind == .hexadecimal) then
          let _ ← next
          return .form []
        else return .column path
      | path, _ => return .column path

/-- `EXISTS` after its keyword. -/
def existence (rules : Rules) : Reader Expr := return .existence (← parenthesized rules.query)

/-- `CASE` after its keyword. -/
def cases (rules : Rules) : Reader Expr := do
  let operand ←
    if ← keyword "WHEN" then pure none
    else
      let operand ← rules.any
      expectKeyword "WHEN"
      pure (some operand)
  let rec branches : Nat → Reader (List (Expr × Expr))
    | 0 => refuse
    | n + 1 => do
      let condition ← rules.any
      expectKeyword "THEN"
      let result ← rules.any
      if ← keyword "WHEN" then return (condition, result) :: (← branches n)
      else return [(condition, result)]
  let branches ← branches ((← remaining) + 1)
  let otherwise ← after "ELSE" rules.any
  expectKeyword "END"
  return .cases operand (branches.map Prod.fst) (branches.map Prod.snd) otherwise

/-- `CAST` after its keyword. -/
def castForm (rules : Rules) : Reader Expr := do
  expect "("
  let body ← rules.any
  expectKeyword "AS"
  let _ ← DataType.read
  if ← keyword "FORMAT" then
    let _ ← constant
    if ← keywords ["AT", "TIME", "ZONE"] then
      let _ ← constant
  expect ")"
  return .cast body

/-- `CONVERT` after its keyword. -/
def convert (rules : Rules) : Reader Expr := do
  expect "("
  let body ← rules.any
  if ← keyword "USING" then
    let _ ← path
  else
    expect ","
    let _ ← DataType.read
    if ← keywords ["CHARACTER", "SET"] then
      let _ ← path
  expect ")"
  return .form [body]

/-- `EXTRACT` after its keyword. -/
def extract (rules : Rules) : Reader Expr := do
  expect "("
  timeUnit
  expectKeyword "FROM"
  let body ← rules.any
  expect ")"
  return .form [body]

/-- `CEIL` and `FLOOR` after their keyword. -/
def rounding (rules : Rules) : Reader Expr := do
  expect "("
  let body ← rules.any
  if ← keyword "TO" then timeUnit
  else if ← symbol "," then
    match ← constant with
    | .literal (.number _) => pure ()
    | _ => refuse
  expect ")"
  return .form [body]

/-- `POSITION` after its keyword. -/
def position (rules : Rules) : Reader Expr := do
  expect "("
  let part ← rules.expr Binding.range
  expectKeyword "IN"
  let whole ← rules.any
  expect ")"
  return .form [part, whole]

/-- `SUBSTRING` after its keyword. -/
def substring (rules : Rules) : Reader Expr := do
  expect "("
  let body ← rules.any
  let comma ← symbol ","
  let start ← if comma then some <$> rules.any else after "FROM" rules.any
  let length ←
    if ← keyword "FOR" then some <$> rules.any
    else if ← symbol "," then some <$> rules.any
    else pure none
  expect ")"
  return .form ([body] ++ start.toList ++ length.toList)

/-- `OVERLAY` after its keyword. -/
def overlay (rules : Rules) : Reader Expr := do
  expect "("
  let body ← rules.any
  expectKeyword "PLACING"
  let text ← rules.any
  expectKeyword "FROM"
  let start ← rules.any
  let length ← after "FOR" rules.any
  expect ")"
  return .form ([body, text, start] ++ length.toList)

/-- `TRIM` after its keyword. -/
def trimForm (rules : Rules) : Reader Expr := do
  expect "("
  let _ ← oneOf ["BOTH", "LEADING", "TRAILING"]
  let first ← rules.any
  let second ← after "FROM" rules.any
  expect ")"
  return .form (first :: second.toList)

/-- The elements of an array after the opening bracket, with the closing one. -/
def array (rules : Rules) : Reader Expr := do
  if ← symbol "]" then return .form []
  let items ← list rules.any
  expect "]"
  return .form items

/-- `ARRAY` after its keyword, if a bracket or a parenthesis follows. -/
def arrayForm (rules : Rules) : Reader (Option Expr) := do
  if ← symbol "[" then some <$> array rules
  else if ← symbolAhead 0 "(" then
    let _ ← parenthesized rules.query
    return some (.form [])
  else return none

/-- `NOT` after its keyword. -/
def negation (rules : Rules) : Reader Expr := do
  if ← keyword "EXISTS" then existence rules
  else return .unary (← rules.expr Binding.negation)

/-- A word for the present time, which may be given arguments. -/
def presentTime (rules : Rules) : Reader Expr := do
  if ← symbol "(" then return .form (← arguments rules) else return .form []

/-- The form that a keyword starts; `none` if it starts none here. -/
def special (rules : Rules) (operand : Reader Expr) (keyword : String) : Reader (Option Expr) :=
  match keyword with
  | "TRUE" | "FALSE" | "NULL" => return some (.literal .symbol)
  | "CURRENT_CATALOG" | "CURRENT_USER" | "SESSION_USER" | "USER" => return some (.form [])
  | "CURRENT_TIMESTAMP" | "CURRENT_TIME" | "CURRENT_DATE" | "LOCALTIME" | "LOCALTIMESTAMP" =>
    some <$> presentTime rules
  | "CASE" => some <$> cases rules
  | "CONVERT" => some <$> convert rules
  | "CAST" | "TRY_CAST" | "SAFE_CAST" => some <$> castForm rules
  | "EXISTS" => some <$> existence rules
  | "EXTRACT" => some <$> extract rules
  | "CEIL" | "FLOOR" => some <$> rounding rules
  | "POSITION" => do
    if ← symbolAhead 0 "(" then some <$> position rules else return none
  | "SUBSTRING" => some <$> substring rules
  | "OVERLAY" => some <$> overlay rules
  | "TRIM" => some <$> trimForm rules
  | "INTERVAL" => some <$> interval operand
  | "ARRAY" => arrayForm rules
  | "NOT" => some <$> negation rules
  | _ => return none

/-- The operand that a word starts. A keyword that may start a form is held to it: it is a name only
where the form is not begun. -/
def ofWord (rules : Rules) (operand : Reader Expr) (text keyword : String) : Reader Expr := do
  match ← special rules operand keyword with
  | some value => return value
  | none => named rules operand text

/-- An operand in parentheses after the opening one. -/
def inParentheses (rules : Rules) : Reader Expr := do
  let body ←
    if ← startsQuery then Expr.scalar <$> rules.query
    else do
      match ← list rules.any with
      | [item] => pure (.nested item)
      | items => pure (.tuple items)
  expect ")"
  if ← symbol "." then
    match ← next with
    | some (.word _ _) => return .form [body]
    | _ => refuse
  else return body

/-- An operand without the collation after it. -/
def bareOperand (rules : Rules) (operand : Reader Expr) : Reader Expr := do
  match ← attempt (typedLiteral operand) with
  | some value => return value
  | none =>
    match ← ahead 0 with
    | some (.word text keyword) =>
      let _ ← next
      ofWord rules operand text keyword
    | some (.symbol "[") =>
      let _ ← next
      array rules
    | some (.symbol "(") =>
      let _ ← next
      inParentheses rules
    | some (.symbol ":") => constant
    | some (.symbol text) =>
      let _ ← next
      if text == "-" || text == "+" then return .unary (← rules.expr Binding.product)
      else if ["!!", "|/", "||/", "@", "~"].contains text then
        return .unary (← rules.expr Binding.sum)
      else refuse
    | some _ => constant
    | none => refuse

/-- An operand, in which intervals are nested at most `fuel` times. -/
def operandUpTo (rules : Rules) : Nat → Reader Expr
  | 0 => refuse
  | fuel + 1 => do
    let value ← bareOperand rules (operandUpTo rules fuel)
    if ← keyword "COLLATE" then
      let _ ← path
      return .collate value
    else return value

/-- An operand. -/
def operand (rules : Rules) : Reader Expr := do operandUpTo rules ((← remaining) + 1)

/-- `ESCAPE` and its text, if they follow a pattern. -/
def escape? : Reader Unit := do
  if ← keyword "ESCAPE" then literalText

/-- A pattern and what may stand around it. -/
def pattern (rules : Rules) (left : Expr) : Reader Expr := do
  let pattern ← rules.expr Binding.range
  escape?
  return .like left pattern

/-- What follows `IN`. -/
def membership (rules : Rules) (left : Expr) : Reader Expr := do
  if ← keyword "UNNEST" then
    let items ← parenthesized rules.any
    return .form [left, items]
  expect "("
  let value ←
    if ← startsQuery then Expr.inQuery left <$> rules.query
    else Expr.inList left <$> list rules.any
  expect ")"
  return value

/-- What follows `BETWEEN`. -/
def between (rules : Rules) (left : Expr) : Reader Expr := do
  let low ← rules.expr Binding.range
  expectKeyword "AND"
  return .between left low (← rules.expr Binding.range)

/-- What follows a subject and perhaps `NOT`. -/
def predicate (rules : Rules) (left : Expr) : Reader Expr := do
  let _ ← keyword "NOT"
  let regular ← keyword "REGEXP"
  let regularLike ← keyword "RLIKE"
  if regular || regularLike then return .form [left, ← rules.expr Binding.range]
  else if ← keyword "IN" then membership rules left
  else if ← keyword "BETWEEN" then between rules left
  else if ← keyword "LIKE" then
    let _ ← keyword "ANY"
    pattern rules left
  else if ← keyword "ILIKE" then
    let _ ← keyword "ANY"
    pattern rules left
  else if ← keywords ["SIMILAR", "TO"] then pattern rules left
  else refuse

/-- What follows `IS`. -/
def test (rules : Rules) (left : Expr) : Reader Expr := do
  let _ ← keyword "NOT"
  match ← oneOf ["NULL", "TRUE", "FALSE", "UNKNOWN", "DISTINCT"] with
  | some "UNKNOWN" => return .form [left]
  | some "DISTINCT" =>
    expectKeyword "FROM"
    return .form [left, ← rules.any]
  | some _ => return .test left
  | none => refuse

/-- A subscript or a slice after the opening bracket. -/
def subscript (rules : Rules) (left : Expr) : Reader Expr := do
  let bound : Reader (Option Unit) := do
    if ← symbol "]" then return none
    let _ ← rules.any
    return some ()
  let lower ←
    if ← symbol ":" then pure false
    else do
      let _ ← rules.any
      pure true
  if ← symbol "]" then return .form [left]
  if lower then expect ":"
  if (← bound).isNone then return .form [left]
  if ← symbol "]" then return .form [left]
  expect ":"
  if (← bound).isNone then return .form [left]
  expect "]"
  return .form [left]

/-- The operator of a symbol. -/
def operatorOf (symbol : String) : Operator :=
  match symbol with
  | "=" | "==" => .equal
  | "<>" => .notEqual
  | "<" => .less
  | "<=" => .lessOrEqual
  | ">" => .greater
  | ">=" => .greaterOrEqual
  | "<=>" => .spaceship
  | symbol => .other symbol

/-- Operators that may be followed by `ANY`, `ALL` or `SOME`. -/
def quantifiable : List Operator :=
  [.equal, .notEqual, .less, .lessOrEqual, .greater, .greaterOrEqual]

/-- The right side of a binary operator. -/
def rightSide (rules : Rules) (op : Operator) (binding : Nat) (left : Expr) : Reader Expr := do
  if (← oneOf ["ANY", "ALL", "SOME"]).isSome then
    require (← symbolAhead 0 "(")
    let query := (← keywordAhead 1 "SELECT") || (← keywordAhead 1 "WITH")
    let right ←
      if query then rules.expr binding else parenthesized (rules.expr binding)
    require (quantifiable.contains op)
    return .form [left, right]
  else return .binary op left (← rules.expr binding)

/-- An operator by name after its keyword. -/
def operatorName : Reader Unit := do
  expect "("
  let rec parts : Nat → Reader Unit
    | 0 => refuse
    | n + 1 => do
      require (← next).isSome
      if ← symbol "." then parts n else return
  parts ((← remaining) + 1)
  expect ")"

/-- The operator that comes next, applied to what stands left of it. -/
def operation (rules : Rules) (binding : Nat) (left : Expr) : Reader Expr := do
  match ← ahead 0 with
  | some (.symbol "::") =>
    let _ ← next
    let _ ← DataType.read
    return .cast left
  | some (.symbol "[") =>
    let _ ← next
    subscript rules left
  | some (.symbol "!") =>
    let _ ← next
    return .unary left
  | some (.symbol text) =>
    let _ ← next
    rightSide rules (operatorOf text) binding left
  | some (.word _ keyword) =>
    match keyword with
    | "AND" =>
      let _ ← next
      rightSide rules .and binding left
    | "OR" =>
      let _ ← next
      rightSide rules .or binding left
    | "XOR" =>
      let _ ← next
      rightSide rules .xor binding left
    | "OPERATOR" =>
      let _ ← next
      operatorName
      rightSide rules .named binding left
    | "IS" =>
      let _ ← next
      test rules left
    | "AT" =>
      let _ ← next
      expectKeywords ["TIME", "ZONE"]
      return .form [left, ← rules.expr binding]
    | "NOT" | "IN" | "BETWEEN" | "LIKE" | "ILIKE" | "SIMILAR" | "REGEXP" | "RLIKE" =>
      predicate rules left
    | _ => refuse
  | _ => refuse

/-- One more operator, if the next one binds closer than `binding`. -/
def step (rules : Rules) (binding : Nat) (left : Expr) : Reader (Option Expr) := do
  let closeness ← Binding.next
  if binding < closeness then some <$> operation rules closeness left else return none

/-- An expression of operators that bind closer than `binding`. -/
def expr (rules : Rules) (binding : Nat) : Reader Expr := do
  iterate (step rules binding) (← operand rules)

end Grammar

end LogAudit.Sql
