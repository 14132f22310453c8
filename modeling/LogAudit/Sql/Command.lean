import LogAudit.Sql.Definition

/-!
# The grammar of commands

Commands neither read nor change rows by conditions: those that control transactions, define, change
and drop objects, give and take privileges, set and show parameters, move cursors, copy and merge
tables, and a few more. Nothing of a command is kept, but one that is not written in the grammar is
refused like any other statement.
-/

namespace LogAudit.Sql.Grammar

open Reader

/-- A level of isolation. -/
def isolation : Reader Unit := do
  if ← keywords ["READ", "UNCOMMITTED"] then return
  if ← keywords ["READ", "COMMITTED"] then return
  if ← keywords ["REPEATABLE", "READ"] then return
  expectKeyword "SERIALIZABLE"

/-- One more mode of a transaction, with the comma after it if there is one. A comma must be
followed by a mode. -/
def mode (needed : Bool) : Reader (Option Bool) := do
  let found ←
    if ← keywords ["ISOLATION", "LEVEL"] then
      isolation
      pure true
    else if ← keywords ["READ", "ONLY"] then pure true
    else keywords ["READ", "WRITE"]
  require (found || !needed)
  if found then some <$> symbol "," else return none

/-- The modes of a transaction. -/
def modes : Reader Unit := do
  let _ ← iterate mode false

/-- What may follow the word that ends a transaction. -/
def ending : Reader Unit := do
  let _ ← oneOf ["TRANSACTION", "WORK"]
  if ← keyword "AND" then
    let _ ← keyword "NO"
    expectKeyword "CHAIN"

/-- `TRUNCATE` after its keyword. -/
def truncation (rules : Rules) : Reader Unit := do
  let _ ← keyword "TABLE"
  let _ ← keyword "ONLY"
  let _ ← list path
  if ← keyword "PARTITION" then
    let _ ← parenthesized (list rules.any)
  if !(← keywords ["RESTART", "IDENTITY"]) then
    let _ ← keywords ["CONTINUE", "IDENTITY"]
  let _ ← oneOf ["CASCADE", "RESTRICT"]
  if ← keywords ["ON", "CLUSTER"] then
    let _ ← identifier

/-- What becomes of the objects that depend on a dropped one. -/
def dependents? : Reader (Option String) := oneOf ["CASCADE", "RESTRICT"]

/-- `DROP` of an object by its place on a table, after the kind of the object. -/
def removalFrom (name : Reader Unit) : Reader Unit := do
  let _ ← ifPresent?
  name
  expectKeyword "ON"
  let _ ← path
  let _ ← dependents?

/-- `DROP` of functions or procedures, after their kind. -/
def functionRemoval (rules : Rules) : Reader Unit := do
  let _ ← ifPresent?
  let _ ← list (functionHead rules)
  let _ ← dependents?

/-- Kinds of objects that are dropped by their names. -/
def droppedKinds : List String :=
  ["TABLE", "VIEW", "INDEX", "ROLE", "SCHEMA", "DATABASE", "SEQUENCE", "STAGE", "TYPE"]

/-- `DROP` of objects by their names, after their kind. -/
def namedRemoval : Reader Unit := do
  let kind ← oneOf droppedKinds
  require kind.isSome
  let _ ← ifPresent?
  let _ ← list path
  let cascade ← keyword "CASCADE"
  let restrict ← keyword "RESTRICT"
  let purge ← keyword "PURGE"
  require !(cascade && restrict)
  require !(kind == some "ROLE" && (cascade || restrict || purge))

/-- `DROP` after its keyword. -/
def removal (rules : Rules) : Reader Unit := do
  let found ← firstOf [
    following ["FUNCTION"] (functionRemoval rules),
    following ["PROCEDURE"] (functionRemoval rules),
    following ["POLICY"] (removalFrom do let _ ← identifier),
    following ["TRIGGER"] (removalFrom do let _ ← path)]
  if !found then namedRemoval

/-- Privileges that may be given for single columns. -/
def columnPrivileges : List String := ["INSERT", "REFERENCES", "SELECT", "UPDATE"]

/-- The other privileges. -/
def wholePrivileges : List String :=
  ["CONNECT", "CREATE", "DELETE", "EXECUTE", "TEMPORARY", "TRIGGER", "TRUNCATE", "USAGE"]

/-- A privilege. -/
def privilege : Reader Unit := do
  if (← oneOf columnPrivileges).isSome then columns? else expectOneOf wholePrivileges

/-- Privileges and the objects they are for. -/
def privileges : Reader Unit := do
  if ← keyword "ALL" then
    let _ ← keyword "PRIVILEGES"
  else
    let _ ← list privilege
  expectKeyword "ON"
  if !(← anyOf [["ALL", "TABLES", "IN", "SCHEMA"], ["ALL", "SEQUENCES", "IN", "SCHEMA"]]) then
    let _ ← oneOf ["SEQUENCE", "SCHEMA", "TABLE"]
  let _ ← list path

/-- `GRANT` after its keyword. -/
def grant : Reader Unit := do
  privileges
  expectKeyword "TO"
  let _ ← list identifier
  let _ ← keywords ["WITH", "GRANT", "OPTION"]
  let _ ← following ["GRANTED", "BY"] identifier

/-- `REVOKE` after its keyword. -/
def revocation : Reader Unit := do
  privileges
  expectKeyword "FROM"
  let _ ← list identifier
  let _ ← following ["GRANTED", "BY"] identifier
  let _ ← dependents?

/-- The value of a parameter: a query in parentheses or an expression. -/
def parameterValue (rules : Rules) : Reader Unit := do
  let query := (← keywordAhead 1 "SELECT") || (← keywordAhead 1 "WITH")
  if query && (← symbolAhead 0 "(") then
    let _ ← parenthesized rules.query
  else
    let _ ← rules.any

/-- A parameter and its value. The zone of time needs no word in front of its value, and the modes of
transactions are written in words; for these, the name has to stand in capitals. -/
def parameterSetting (rules : Rules) (modified : Bool) : Reader Unit := do
  let first ← ahead 0
  let zone ← keywords ["TIME", "ZONE"]
  let name ← if zone then pure ["TIMEZONE"] else path
  let equals ← symbol "="
  let assigned ← if equals then pure true else keyword "TO"
  if assigned then
    let _ ← list (parameterValue rules)
  else if zone || name.length == 1 && first.any (Token.isKeyword "TIMEZONE") then
    let _ ← rules.any
  else if name.length == 1 && first == some (.word "CHARACTERISTICS" "CHARACTERISTICS") then
    expectKeywords ["AS", "TRANSACTION"]
    modes
  else
    require (name.length == 1 && !modified && first == some (.word "TRANSACTION" "TRANSACTION"))
    if !(← following ["SNAPSHOT"] constant) then modes

/-- `SET` after its keyword. -/
def settingCommand (rules : Rules) : Reader Unit := do
  let modifier ← oneOf ["SESSION", "LOCAL", "HIVEVAR"]
  let role : Reader String := do
    expectKeyword "ROLE"
    identifier
  if modifier == some "HIVEVAR" then expect ":"
  else if (← attempt role).isSome then return
  parameterSetting rules modifier.isSome

/-- Which of several things are shown. -/
def shown? (rules : Rules) : Reader Bool :=
  firstOf [following ["LIKE"] literalText, following ["ILIKE"] literalText,
    following ["WHERE"] rules.any]

/-- Where the things that are shown are looked for. -/
def place {α : Type} (name : Reader α) : Reader Bool :=
  firstOf [following ["FROM"] name, following ["IN"] name]

/-- The columns of a table that `SHOW` tells of. -/
def shownColumns (rules : Rules) : Reader Unit := do
  require (← place path)
  let _ ← place identifier
  let _ ← shown? rules

/-- The tables that `SHOW` tells of. -/
def shownTables (rules : Rules) : Reader Unit := do
  let _ ← place identifier
  let _ ← shown? rules

/-- `SHOW` after its keyword. Where it tells of a parameter, all tokens up to an equals sign are
taken for the name of the parameter, semicolons among them. -/
def showing (rules : Rules) : Reader Unit := do
  let extended ← keyword "EXTENDED"
  let full ← keyword "FULL"
  let _ ← keyword "SESSION"
  let _ ← keyword "GLOBAL"
  let listed ← firstOf [
    following ["COLUMNS"] (shownColumns rules),
    following ["FIELDS"] (shownColumns rules),
    following ["TABLES"] (shownTables rules),
    following ["FUNCTIONS"] (shown? rules)]
  if !listed then
    require !(extended || full)
    let told ← firstOf [
      following ["CREATE"] do
        expectOneOf ["TABLE", "TRIGGER", "FUNCTION", "PROCEDURE", "EVENT", "VIEW"]
        path,
      following ["COLLATION"] (shown? rules)]
    if !told then modify fun tokens => tokens.dropWhile fun token => !token.isSymbol "="

/-- `DECLARE` of a cursor after its keyword. -/
def cursor (rules : Rules) : Reader Unit := do
  let _ ← identifier
  let _ ← keyword "BINARY"
  let _ ← oneOf ["INSENSITIVE", "ASENSITIVE"]
  let _ ← anyOf [["SCROLL"], ["NO", "SCROLL"]]
  expectKeyword "CURSOR"
  let held ← oneOf ["WITH", "WITHOUT"]
  if held.isSome then expectKeyword "HOLD"
  expectKeyword "FOR"
  let _ ← rules.query

/-- `FETCH` of rows after its keyword. -/
def fetching : Reader Unit := do
  let far : Reader Unit := do
    if !(← keyword "ALL") then number
  let found ← firstOf [
    anyOf [["NEXT"], ["PRIOR"], ["FIRST"], ["LAST"], ["ALL"]],
    following ["ABSOLUTE"] number,
    following ["RELATIVE"] number,
    following ["FORWARD"] far,
    following ["BACKWARD"] far]
  if !found then number
  expectOneOf ["FROM", "IN"]
  let _ ← identifier
  let _ ← following ["INTO"] path

/-- A text of one byte. -/
def byte : Reader Unit := do
  match ← ahead 0 with
  | some (.text _ value) =>
    literalText
    require (value.utf8ByteSize == 1)
  | some (.word text _) =>
    literalText
    require (text.utf8ByteSize == 1)
  | _ => refuse

/-- Whether a property holds; it does if nothing is said. -/
def truth? : Reader (Option String) := oneOf ["TRUE", "FALSE"]

/-- An option of `COPY` in parentheses. -/
def copyOption : Reader Unit :=
  oneForm [
    following ["FORMAT"] identifier,
    following ["FREEZE"] truth?,
    following ["DELIMITER"] byte,
    following ["NULL"] literalText,
    following ["HEADER"] truth?,
    following ["QUOTE"] byte,
    following ["ESCAPE"] byte,
    following ["FORCE_QUOTE"] columns,
    following ["FORCE_NOT_NULL"] columns,
    following ["FORCE_NULL"] columns,
    following ["ENCODING"] literalText]

/-- An option of `COPY` after a keyword, with `AS` between them if one likes. -/
def plainCopyOption (name : String) (value : Reader Unit) : Reader Bool :=
  following [name] do
    let _ ← keyword "AS"
    value

/-- The options of `COPY` that stand without parentheses. -/
def plainCopyOptions : List (Reader Bool) :=
  [keywords ["BINARY"], plainCopyOption "DELIMITER" byte, plainCopyOption "NULL" literalText,
    following ["CSV"] (many [
      keywords ["HEADER"], plainCopyOption "QUOTE" byte, plainCopyOption "ESCAPE" byte,
      following ["FORCE", "NOT", "NULL"] (list identifier),
      following ["FORCE", "QUOTE"] (list identifier)])]

/-- The rows after a `COPY` from the standard input, up to a backslash and a point. -/
def copiedRows : Nat → Reader Unit
  | 0 => return
  | n + 1 => do
    match ← next with
    | none => return
    | some token =>
      if token.isSymbol "\\" then
        if ← symbol "." then return
        let _ ← next
      copiedRows n

/-- `COPY` after its keyword. -/
def copying (rules : Rules) : Reader Unit := do
  let query ← symbol "("
  if query then
    let _ ← rules.query
    expect ")"
  else
    let _ ← path
    columns?
  let source ← keyword "FROM"
  if !source then expectKeyword "TO"
  require !(query && source)
  let input ← keyword "STDIN"
  if !input then
    oneForm [keywords ["STDOUT"], following ["PROGRAM"] literalText, do literalText; return true]
  let _ ← keyword "WITH"
  if ← symbolAhead 0 "(" then
    let _ ← parenthesized (list copyOption)
  many plainCopyOptions
  if input then
    expect ";"
    copiedRows (← remaining)

/-- One clause of `MERGE` after `WHEN`. Rows of the source are inserted where no row of the table
matches them; other rows are changed. -/
def mergeClause (rules : Rules) : Reader Unit := do
  let missing ← keyword "NOT"
  expectKeyword "MATCHED"
  let bySource ← if missing then keywords ["BY", "SOURCE"] else pure false
  if missing && !bySource then
    let _ ← keywords ["BY", "TARGET"]
  let _ ← after "AND" rules.any
  expectKeyword "THEN"
  if missing && !bySource then
    expectKeyword "INSERT"
    columns?
    expectKeyword "VALUES"
    let _ ← list (row rules)
  else
    oneForm [
      following ["UPDATE"] do
        expectKeyword "SET"
        list (assignment rules),
      keywords ["DELETE"]]

/-- `MERGE` after its keyword. -/
def merging (rules : Rules) : Reader Unit := do
  let _ ← keyword "INTO"
  let _ ← source rules (joined rules)
  expectKeyword "USING"
  let _ ← source rules (joined rules)
  expectKeyword "ON"
  let _ ← rules.any
  many [following ["WHEN"] (mergeClause rules)]
  require ((← ahead 0).all (Token.isSymbol ";"))

/-- `ANALYZE` of a table after its keyword. -/
def analysis (rules : Rules) : Reader Unit := do
  expectKeyword "TABLE"
  let _ ← path
  many [
    following ["PARTITION"] (group rules),
    keywords ["NOSCAN"],
    following ["FOR"] do
      expectKeyword "COLUMNS"
      attempt (list identifier),
    following ["CACHE"] (expectKeyword "METADATA"),
    following ["COMPUTE"] (expectKeyword "STATISTICS")]

/-- `COMMENT` on an object after its keyword. -/
def comment : Reader Unit := do
  let _ ← ifPresent?
  expectKeyword "ON"
  expectOneOf ["COLUMN", "TABLE", "EXTENSION", "SCHEMA", "DATABASE", "USER", "ROLE"]
  let _ ← path
  expectKeyword "IS"
  if !(← keyword "NULL") then literalText

/-- `EXECUTE` of a prepared statement after its keyword. -/
def execution (rules : Rules) : Reader Unit := do
  let _ ← identifier
  if ← symbolAhead 0 "(" then
    let _ ← group rules
  let _ ← following ["USING"] (list rules.any)

/-- `PREPARE` after its keyword, given how to read the statement that is prepared. -/
def preparation (statement : Reader Unit) : Reader Unit := do
  let _ ← identifier
  if ← symbolAhead 0 "(" then
    let _ ← parenthesized (list DataType.read)
  expectKeyword "AS"
  statement

/-- `CALL` of a procedure after its keyword. -/
def procedureCall (rules : Rules) : Reader Unit := do
  let _ ← path
  if ← symbolAhead 0 "(" then
    let _ ← call rules (operand rules)

/-- `CACHE` of a table after its keyword. -/
def caching (rules : Rules) : Reader Unit := do
  if !(← keyword "TABLE") then
    let _ ← path
    expectKeyword "TABLE"
  let _ ← path
  let _ ← following ["OPTIONS"] (settings rules)
  if (← remaining) != 0 then
    require !(← symbolAhead 0 "(")
    let _ ← keyword "AS"
    let _ ← rules.query

/-- The value of a pragma: a number or a text. -/
def pragmaValue : Reader Unit := do
  match ← ahead 0 with
  | some (.text .plain _) => let _ ← next
  | _ => number

/-- `PRAGMA` after its keyword. -/
def pragma : Reader Unit := do
  let _ ← path
  if ← symbolAhead 0 "(" then parenthesized pragmaValue
  else if ← symbol "=" then pragmaValue

/-- `UNLOAD` of a query after its keyword. -/
def unloading (rules : Rules) : Reader Unit := do
  let _ ← parenthesized rules.query
  expectKeyword "TO"
  let _ ← identifier
  let _ ← following ["WITH"] (settings rules)

/-- The repair of the partitions of a table, after `MSCK`. -/
def repair : Reader Unit := do
  let _ ← keyword "REPAIR"
  expectKeyword "TABLE"
  let _ ← path
  let _ ← attempt do
    let _ ← oneOf ["ADD", "DROP", "SYNC"]
    expectKeyword "PARTITIONS"

/-- The commands by their first word, given how to read a statement inside a command. -/
def commands (rules : Rules) (statement : Reader Unit) : List (String × Reader Unit) :=
  [("BEGIN", do let _ ← oneOf ["TRANSACTION", "WORK"]; modes),
    ("START", do expectKeyword "TRANSACTION"; modes),
    ("COMMIT", ending),
    ("END", ending),
    ("ROLLBACK", do
      ending
      let _ ← following ["TO"] do
        let _ ← keyword "SAVEPOINT"
        identifier),
    ("SAVEPOINT", do let _ ← identifier),
    ("RELEASE", do let _ ← keyword "SAVEPOINT"; let _ ← identifier),
    ("CREATE", definition rules),
    ("ALTER", alteration rules),
    ("DROP", removal rules),
    ("TRUNCATE", truncation rules),
    ("GRANT", grant),
    ("REVOKE", revocation),
    ("SET", settingCommand rules),
    ("SHOW", showing rules),
    ("DISCARD", expectOneOf ["ALL", "PLANS", "SEQUENCES", "TEMP", "TEMPORARY"]),
    ("DECLARE", cursor rules),
    ("FETCH", fetching),
    ("CLOSE", do let _ ← identifier),
    ("COPY", copying rules),
    ("MERGE", merging rules),
    ("ANALYZE", analysis rules),
    ("COMMENT", comment),
    ("PREPARE", preparation statement),
    ("EXECUTE", execution rules),
    ("DEALLOCATE", do let _ ← keyword "PREPARE"; let _ ← identifier),
    ("CALL", procedureCall rules),
    ("LISTEN", do let _ ← identifier),
    ("NOTIFY", do
      let _ ← identifier
      if ← symbol "," then literalText),
    ("ASSERT", do let _ ← rules.any; let _ ← after "AS" rules.any),
    ("USE", do let _ ← path),
    ("KILL", do let _ ← oneOf ["CONNECTION", "QUERY"]; natural),
    ("ATTACH", do
      let _ ← keyword "DATABASE"
      let _ ← rules.any
      expectKeyword "AS"
      let _ ← identifier),
    ("CACHE", caching rules),
    ("UNCACHE", do
      expectKeyword "TABLE"
      let _ ← ifPresent?
      let _ ← path),
    ("PRAGMA", pragma),
    ("UNLOAD", unloading rules),
    ("MSCK", repair)]

/-- A command after its first word. -/
def command (rules : Rules) (statement : Reader Unit) (word : String) : Reader Unit :=
  ((commands rules statement).lookup word).getD refuse

/-- An option of an explanation: a name and perhaps its value. -/
def explanationOption (rules : Rules) : Reader Unit := do
  let _ ← identifier
  if !(← symbolAhead 0 ",") && !(← symbolAhead 0 ")") then
    let _ ← rules.any

/-- An explanation after its first word: options, and the statement or the table explained. -/
def explanation (rules : Rules) (options : Bool) (explained : Reader Statement) : Reader Unit := do
  if options && (← symbolAhead 0 "(") then
    let _ ← parenthesized (list (explanationOption rules))
  else if !(← keywords ["QUERY", "PLAN"]) then
    let _ ← keyword "ANALYZE"
    let _ ← keyword "VERBOSE"
    if ← keyword "FORMAT" then expectOneOf ["TEXT", "GRAPHVIZ", "JSON"]
  if (← attempt explained).isNone then
    let _ ← oneOf ["EXTENDED", "FORMATTED"]
    let _ ← path

end LogAudit.Sql.Grammar
