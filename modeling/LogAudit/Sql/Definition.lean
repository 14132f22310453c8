import LogAudit.Sql.Query

/-!
# The grammar of definitions

What `CREATE` and `ALTER` read after them: tables with their columns and constraints, views,
indexes, sequences, types, roles, policies, functions and triggers. Nothing of a definition is kept;
it only has to be written in the grammar. A form that stands at several places, such as the options
of a role, is one reader that these places share.
-/

namespace LogAudit.Sql.Grammar

open Reader

/-- The definition holds only if there is no such object. -/
def ifMissing? : Reader Bool := keywords ["IF", "NOT", "EXISTS"]

/-- The command holds only if there is such an object. -/
def ifPresent? : Reader Bool := keywords ["IF", "EXISTS"]

/-- A number, or a parameter in its place. -/
def number : Reader Unit := do
  match ← ahead 0 with
  | some (.number _) | some .parameter | some (.symbol ":") => let _ ← constant
  | _ => refuse

/-- A text in single quotes. -/
def quotedText : Reader Unit := do
  match ← next with
  | some (.text .plain _) => pure ()
  | _ => refuse

/-- A word that is no text. -/
def word : Reader Unit := do
  match ← next with
  | some (.word _ _) => pure ()
  | _ => refuse

/-- Expressions in parentheses. -/
def group (rules : Rules) : Reader (List Expr) := parenthesized (list rules.any)

/-- A name with its value. -/
def setting (rules : Rules) : Reader Unit := do
  let _ ← identifier
  expect "="
  let _ ← rules.any

/-- Names with their values in parentheses, possibly none. -/
def settings (rules : Rules) : Reader Unit := do
  expect "("
  closedList (setting rules)

/-- The servers that a definition holds on, if they are named. -/
def cluster? : Reader Bool := following ["ON", "CLUSTER"] identifier

/-- A bound of a sequence, or that there is none. -/
def sequenceBound (name : String) : Reader Unit := do
  if ← keyword name then number
  else
    let _ ← keywords ["NO", name]

/-- How a sequence counts. -/
def sequenceOptions : Reader Unit := do
  if ← keyword "INCREMENT" then
    let _ ← keyword "BY"
    number
  sequenceBound "MINVALUE"
  sequenceBound "MAXVALUE"
  if ← keyword "START" then
    let _ ← keyword "WITH"
    number
  if ← keyword "CACHE" then number
  let _ ← anyOf [["NO", "CYCLE"], ["CYCLE"]]

/-- The sequence of an identity column in parentheses, if it is described. -/
def identity : Reader Unit := do
  if ← symbol "(" then
    sequenceOptions
    expect ")"

/-- When a constraint is checked. -/
def characteristics : Reader Unit :=
  eachOnce [
    anyOf [["NOT", "DEFERRABLE"], ["DEFERRABLE"]],
    following ["INITIALLY"] (expectOneOf ["DEFERRED", "IMMEDIATE"]),
    anyOf [["ENFORCED"], ["NOT", "ENFORCED"]]]

/-- What happens to rows when the row they refer to changes. -/
def referentialAction : Reader Unit := do
  require (← anyOf
    [["RESTRICT"], ["CASCADE"], ["SET", "NULL"], ["NO", "ACTION"], ["SET", "DEFAULT"]])

/-- The actions of a reference, and when it is checked. -/
def referentialActions : Reader Unit := do
  eachOnce [following ["ON", "DELETE"] referentialAction, following ["ON", "UPDATE"] referentialAction]
  characteristics

/-- A value that is computed from other columns, after `ALWAYS AS`. -/
def computed (rules : Rules) : Reader Bool := do
  if ← symbol "(" then
    let _ ← rules.any
    expect ")"
    expectKeyword "STORED"
    return true
  else return false

/-- How the values of a column are generated, after `GENERATED`. -/
def generated (rules : Rules) : Reader Bool := do
  if ← keywords ["ALWAYS", "AS", "IDENTITY"] then
    identity
    return true
  else if ← keywords ["BY", "DEFAULT", "AS", "IDENTITY"] then
    identity
    return true
  else if ← keywords ["ALWAYS", "AS"] then computed rules
  else return false

/-- An option of a column. -/
def columnOption (rules : Rules) : Reader Bool := do
  if ← keyword "GENERATED" then generated rules
  else firstOf [
    following ["CHARACTER", "SET"] path,
    keywords ["NOT", "NULL"],
    following ["COMMENT"] quotedText,
    keywords ["NULL"],
    following ["DEFAULT"] rules.any,
    following ["PRIMARY", "KEY"] characteristics,
    following ["UNIQUE"] characteristics,
    following ["REFERENCES"] do
      let _ ← path
      columns?
      referentialActions,
    following ["CHECK"] (parenthesized rules.any)]

/-- A column: its name, its type and its options. -/
def columnDefinition (rules : Rules) : Reader Unit := do
  let _ ← identifier
  let _ ← DataType.read
  let _ ← following ["COLLATE"] path
  let named := following ["CONSTRAINT"] do
    let _ ← identifier
    require (← columnOption rules)
  many [named, columnOption rules]

/-- The kind of an index, if it is named. -/
def indexKind? : Reader Bool := following ["USING"] (expectOneOf ["BTREE", "HASH"])

/-- Rows with nothing in a column count as different or as equal. -/
def nullsDistinct? : Reader Bool :=
  following ["NULLS"] do
    let _ ← keyword "NOT"
    expectKeyword "DISTINCT"

/-- The columns of a key, perhaps with a name and options of its index. -/
def keyColumns : Reader Unit := do
  let _ ← attempt identifier
  let _ ← indexKind?
  let _ ← columns
  many [indexKind?, following ["COMMENT"] literalText]
  characteristics

/-- A constraint on a table. Only a constraint may have a name after `CONSTRAINT`. -/
def tableConstraint (rules : Rules) : Reader Bool := do
  let named ← following ["CONSTRAINT"] identifier
  let found ← firstOf [
    following ["UNIQUE"] do
      let _ ← nullsDistinct?
      keyColumns,
    following ["PRIMARY"] do
      expectKeyword "KEY"
      keyColumns,
    following ["FOREIGN"] do
      expectKeyword "KEY"
      let _ ← columns
      expectKeyword "REFERENCES"
      let _ ← path
      let _ ← columns
      referentialActions,
    following ["CHECK"] (parenthesized rules.any)]
  require (found || !named)
  return found

/-- A constraint on a table or a column of it. -/
def tableItem (rules : Rules) : Reader Unit := do
  if !(← tableConstraint rules) then
    match ← ahead 0 with
    | some (.word _ _) => columnDefinition rules
    | _ => refuse

/-- The items of a table in parentheses, if there are any. -/
def tableItems? (rules : Rules) : Reader Unit := do
  if ← symbol "(" then closedList (tableItem rules)

/-- The order of the rows of a table. -/
def rowOrder (rules : Rules) : Reader Unit := do
  if ← symbol "(" then closedList rules.any
  else
    let _ ← rules.any

/-- A table after its keyword. -/
def tableDefinition (rules : Rules) : Reader Unit := do
  let _ ← ifMissing?
  let _ ← path
  let _ ← cluster?
  let _ ← firstOf [following ["LIKE"] (attempt path), following ["ILIKE"] (attempt path)]
  let _ ← following ["CLONE"] (attempt path)
  tableItems? rules
  let _ ← keywords ["WITHOUT", "ROWID"]
  let _ ← following ["WITH"] (settings rules)
  let _ ← following ["TBLPROPERTIES"] (settings rules)
  let _ ← following ["ENGINE"] do
    expect "="
    word
    columns?
  let _ ← following ["AUTO_INCREMENT"] do
    let _ ← symbol "="
    natural
  let _ ← following ["ORDER", "BY"] (rowOrder rules)
  let _ ← following ["PARTITION", "BY"] rules.any
  let _ ← following ["DEFAULT", "CHARSET"] (do expect "="; word)
  let _ ← following ["COLLATE"] (do expect "="; word)
  let _ ← following ["ON", "COMMIT"] do
    require (← anyOf [["DELETE", "ROWS"], ["PRESERVE", "ROWS"], ["DROP"]])
  let _ ← keyword "STRICT"
  let _ ← following ["COMMENT"] do
    let _ ← symbol "="
    quotedText
  let _ ← following ["AS"] rules.query

/-- A view after its keyword. -/
def viewDefinition (rules : Rules) : Reader Unit := do
  let _ ← path
  if ← symbol "(" then closedList identifier
  let _ ← following ["WITH"] (settings rules)
  let _ ← following ["CLUSTER", "BY"] columns?
  expectKeyword "AS"
  let _ ← rules.query

/-- An index after its keyword. -/
def indexDefinition (rules : Rules) : Reader Unit := do
  let _ ← keyword "CONCURRENTLY"
  let named ← ifMissing?
  let unnamed ← if named then pure false else keyword "ON"
  if !unnamed then
    let _ ← path
    expectKeyword "ON"
  let _ ← path
  let _ ← following ["USING"] identifier
  let _ ← parenthesized (list (orderItem rules))
  let _ ← following ["INCLUDE"] columns
  let _ ← nullsDistinct?
  let _ ← following ["WITH"] (group rules)
  let _ ← following ["WHERE"] rules.any

/-- A table that a module keeps, after `VIRTUAL`. -/
def virtualTable : Reader Unit := do
  expectKeyword "TABLE"
  let _ ← ifMissing?
  let _ ← path
  expectKeyword "USING"
  let _ ← identifier
  columns?

/-- An extension after its keyword. -/
def extensionDefinition : Reader Unit := do
  let _ ← ifMissing?
  let _ ← identifier
  let _ ← following ["WITH"] do
    let _ ← following ["SCHEMA"] identifier
    let _ ← following ["VERSION"] identifier
    keyword "CASCADE"

/-- A schema after its keyword. -/
def schemaDefinition : Reader Unit := do
  let _ ← ifMissing?
  if !(← following ["AUTHORIZATION"] identifier) then
    let _ ← path
    let _ ← following ["AUTHORIZATION"] identifier

/-- A database after its keyword. -/
def databaseDefinition : Reader Unit := do
  let _ ← ifMissing?
  let _ ← path
  many [following ["LOCATION"] literalText, following ["MANAGEDLOCATION"] literalText]

/-- A sequence after its keyword. -/
def sequenceDefinition : Reader Unit := do
  let _ ← ifMissing?
  let _ ← path
  let _ ← following ["AS"] DataType.read
  sequenceOptions
  let _ ← following ["OWNED", "BY"] path

/-- A part of a type. -/
def attributeDefinition : Reader Unit := do
  let _ ← identifier
  let _ ← DataType.read
  let _ ← following ["COLLATE"] path

/-- The parts of a type after the opening parenthesis, with the closing one, in front of which a
comma may stand. -/
def attributeDefinitions : Nat → Reader Unit
  | 0 => refuse
  | n + 1 => do
    attributeDefinition
    let comma ← symbol ","
    if ← symbol ")" then return
    require comma
    attributeDefinitions n

/-- A type after its keyword: its labels or its parts. -/
def typeDefinition : Reader Unit := do
  let _ ← path
  expectKeyword "AS"
  if ← keyword "ENUM" then
    expect "("
    closedList identifier
  else if ← symbol "(" then
    if !(← symbol ")") then attributeDefinitions (← remaining)

/-- What a role may or may not do. -/
def roleRights : List String :=
  ["LOGIN", "INHERIT", "BYPASSRLS", "CREATEDB", "CREATEROLE", "SUPERUSER", "REPLICATION"]

/-- The options of a role. -/
def roleOptions : List (Reader Bool) :=
  roleRights.map (fun right => anyOf [[right], ["NO" ++ right]]) ++
    [following ["PASSWORD"] constant, following ["CONNECTION", "LIMIT"] number,
      following ["VALID", "UNTIL"] constant]

/-- The roles that a new role belongs to and that belong to it. -/
def roleMembers : List (Reader Bool) :=
  [["IN", "ROLE"], ["IN", "GROUP"], ["ROLE"], ["ADMIN"], ["USER"]].map fun words =>
    following words (list identifier)

/-- Roles after their keyword. -/
def roleDefinition : Reader Unit := do
  let _ ← ifMissing?
  let _ ← list path
  let _ ← keyword "WITH"
  eachOnce (roleOptions ++ roleMembers)

/-- Whom a policy holds for and which rows it lets through. -/
def policyTerms (rules : Rules) : Reader Unit := do
  let _ ← following ["TO"] (list identifier)
  let _ ← following ["USING"] (parenthesized rules.any)
  let _ ← following ["WITH", "CHECK"] (parenthesized rules.any)

/-- A policy after its keyword. -/
def policyDefinition (rules : Rules) : Reader Unit := do
  let _ ← identifier
  expectKeyword "ON"
  let _ ← path
  let _ ← following ["AS"] (expectOneOf ["PERMISSIVE", "RESTRICTIVE"])
  let _ ← following ["FOR"] (expectOneOf ["ALL", "SELECT", "INSERT", "UPDATE", "DELETE"])
  policyTerms rules

/-- An argument of a function: perhaps a name, a type and perhaps a value. A type that is given by a
user is the name. -/
def parameterDefinition (rules : Rules) : Reader Unit := do
  let _ ← oneOf ["IN", "OUT", "INOUT"]
  if (← DataType.read) == .user then
    let _ ← DataType.read
  let default ← keyword "DEFAULT"
  let equals ← symbol "="
  if default || equals then
    let _ ← rules.any

/-- A function by its name and perhaps its arguments. -/
def functionHead (rules : Rules) : Reader Unit := do
  let _ ← path
  if ← symbol "(" then closedList (parameterDefinition rules)

/-- The text of a function. -/
def code : Reader Unit := do
  match ← ahead 0 with
  | some (.text .dollar _) => let _ ← next
  | _ => literalText

/-- A function after its keyword. -/
def functionDefinition (rules : Rules) : Reader Unit := do
  let _ ← path
  expect "("
  closedList (parameterDefinition rules)
  let _ ← following ["RETURNS"] DataType.read
  eachOnce [
    firstOf [following ["AS"] code, following ["RETURN"] rules.any],
    following ["LANGUAGE"] identifier,
    anyOf [["IMMUTABLE"], ["STABLE"], ["VOLATILE"]],
    anyOf [["CALLED", "ON", "NULL", "INPUT"], ["RETURNS", "NULL", "ON", "NULL", "INPUT"],
      ["STRICT"]],
    following ["PARALLEL"] (expectOneOf ["UNSAFE", "RESTRICTED", "SAFE"])]

/-- What a trigger waits for. -/
def triggerEvent : Reader Unit :=
  oneForm [
    following ["UPDATE"] (following ["OF"] (list identifier)),
    anyOf [["INSERT"], ["DELETE"], ["TRUNCATE"]]]

/-- A trigger after its keyword. -/
def triggerDefinition (rules : Rules) : Reader Unit := do
  let _ ← path
  require (← anyOf [["BEFORE"], ["AFTER"], ["INSTEAD", "OF"]])
  triggerEvent
  many [following ["OR"] triggerEvent]
  expectKeyword "ON"
  let _ ← path
  let _ ← following ["FROM"] (attempt path)
  characteristics
  let rows (time : String) := following [time, "TABLE"] do
    let _ ← keyword "AS"
    path
  let _ ← following ["REFERENCING"] (many [rows "OLD", rows "NEW"])
  expectKeyword "FOR"
  let _ ← keyword "EACH"
  expectOneOf ["ROW", "STATEMENT"]
  let _ ← following ["WHEN"] rules.any
  expectKeyword "EXECUTE"
  expectOneOf ["FUNCTION", "PROCEDURE"]
  functionHead rules

/-- `CREATE` after its keyword. Only some objects may be replaced. -/
def definition (rules : Rules) : Reader Unit := do
  let replaced ← keywords ["OR", "REPLACE"]
  let _ ← keywords ["OR", "ALTER"]
  ["LOCAL", "GLOBAL", "TRANSIENT"].forM fun word => do
    let _ ← keyword word
  let _ ← oneOf ["TEMP", "TEMPORARY"]
  let replaceable := [
    following ["TABLE"] (tableDefinition rules),
    following ["MATERIALIZED"] do
      expectKeyword "VIEW"
      viewDefinition rules,
    following ["VIEW"] (viewDefinition rules),
    following ["POLICY"] (policyDefinition rules),
    following ["FUNCTION"] (functionDefinition rules),
    following ["TRIGGER"] (triggerDefinition rules),
    following ["CONSTRAINT", "TRIGGER"] (triggerDefinition rules)]
  let others := [
    following ["EXTENSION"] extensionDefinition,
    following ["INDEX"] (indexDefinition rules),
    following ["UNIQUE", "INDEX"] (indexDefinition rules),
    following ["VIRTUAL"] virtualTable,
    following ["SCHEMA"] schemaDefinition,
    following ["DATABASE"] databaseDefinition,
    following ["ROLE"] roleDefinition,
    following ["SEQUENCE"] sequenceDefinition,
    following ["TYPE"] typeDefinition]
  oneForm (if replaced then replaceable else replaceable ++ others)

/-- `ADD` of a table after its keyword. -/
def addition (rules : Rules) : Reader Unit := do
  if ← tableConstraint rules then return
  let _ ← ifMissing?
  if ← keywordAhead 0 "PARTITION" then many [following ["PARTITION"] (group rules)]
  else
    let _ ← keyword "COLUMN"
    let _ ← ifMissing?
    columnDefinition rules

/-- One name after another with `TO` between them. -/
def oldAndNewName : Reader Unit := do
  let _ ← identifier
  expectKeyword "TO"
  let _ ← identifier

/-- `RENAME` of a table or a part of it, after its keyword. -/
def nameChange : Reader Unit := do
  if ← keyword "CONSTRAINT" then oldAndNewName
  else if ← keyword "TO" then
    let _ ← path
  else
    let _ ← keyword "COLUMN"
    oldAndNewName

/-- `DROP` of a part of a table, after its keyword. -/
def partRemoval (rules : Rules) : Reader Unit := do
  let partition ← anyOf [["IF", "EXISTS", "PARTITION"], ["PARTITION"]]
  if partition then
    let _ ← group rules
  else
    let _ ← anyOf [["CONSTRAINT"], ["COLUMN"]]
    let _ ← ifPresent?
    let _ ← identifier
    let _ ← keyword "CASCADE"

/-- `ALTER` of a column after its keyword. -/
def columnChange (rules : Rules) : Reader Unit := do
  let _ ← keyword "COLUMN"
  let _ ← identifier
  let type : Reader Unit := do
    let _ ← DataType.read
    let _ ← following ["USING"] rules.any
  oneForm [
    anyOf [["SET", "NOT", "NULL"], ["DROP", "NOT", "NULL"], ["DROP", "DEFAULT"]],
    following ["SET", "DEFAULT"] rules.any,
    following ["SET", "DATA", "TYPE"] type,
    following ["TYPE"] type,
    following ["ADD", "GENERATED"] do
      let _ ← anyOf [["ALWAYS"], ["BY", "DEFAULT"]]
      expectKeywords ["AS", "IDENTITY"]
      identity]

/-- A new type and new options of a column. -/
def columnReplacement (rules : Rules) : Reader Unit := do
  let _ ← identifier
  let _ ← DataType.read
  many [columnOption rules]

/-- One change of a table. -/
def tableChange (rules : Rules) : Reader Unit :=
  oneForm [
    following ["ADD"] (addition rules),
    following ["RENAME"] nameChange,
    following ["DISABLE"] (oneForm [keywords ["ROW", "LEVEL", "SECURITY"],
      following ["RULE"] identifier, following ["TRIGGER"] identifier]),
    following ["ENABLE"] do
      if !(← keywords ["ROW", "LEVEL", "SECURITY"]) then
        let _ ← oneOf ["ALWAYS", "REPLICA"]
        expectOneOf ["RULE", "TRIGGER"]
        let _ ← identifier,
    following ["DROP"] (partRemoval rules),
    following ["PARTITION"] do
      let _ ← group rules
      expectKeywords ["RENAME", "TO", "PARTITION"]
      group rules,
    following ["CHANGE"] do
      let _ ← keyword "COLUMN"
      let _ ← identifier
      columnReplacement rules,
    following ["MODIFY"] do
      let _ ← keyword "COLUMN"
      columnReplacement rules,
    following ["ALTER"] (columnChange rules),
    following ["SWAP", "WITH"] path,
    following ["OWNER", "TO"] identifier,
    following ["SET", "TBLPROPERTIES"] (parenthesized (list (setting rules)))]

/-- `ALTER TABLE` after its keywords. -/
def tableAlteration (rules : Rules) : Reader Unit := do
  let _ ← ifPresent?
  let _ ← keyword "ONLY"
  let _ ← path
  let _ ← cluster?
  let _ ← list (tableChange rules)
  let _ ← firstOf [following ["LOCATION"] identifier, following ["SET", "LOCATION"] identifier]

/-- `ALTER VIEW` after its keywords. -/
def viewAlteration (rules : Rules) : Reader Unit := do
  let _ ← path
  columns?
  let _ ← following ["WITH"] (settings rules)
  expectKeyword "AS"
  let _ ← rules.query

/-- The value of a parameter of a role, after the name of the parameter. -/
def roleParameter (rules : Rules) : Reader Unit := do
  if !(← keywords ["FROM", "CURRENT"]) then
    let equals ← symbol "="
    if !equals then expectKeyword "TO"
    if !(← keyword "DEFAULT") then
      let _ ← rules.any

/-- `ALTER ROLE` after its keywords. -/
def roleAlteration (rules : Rules) : Reader Unit := do
  let _ ← identifier
  let _ ← following ["IN", "DATABASE"] (attempt path)
  oneForm [
    following ["RENAME"] do
      expectKeyword "TO"
      identifier,
    following ["SET"] do
      let _ ← path
      roleParameter rules,
    following ["RESET"] path,
    do
      let _ ← keyword "WITH"
      if ← firstOf roleOptions then
        many roleOptions
        return true
      else return false]

/-- `ALTER POLICY` after its keywords. -/
def policyAlteration (rules : Rules) : Reader Unit := do
  let _ ← identifier
  expectKeyword "ON"
  let _ ← path
  if ← keyword "RENAME" then
    expectKeyword "TO"
    let _ ← identifier
  else policyTerms rules

/-- `ALTER` after its keyword. -/
def alteration (rules : Rules) : Reader Unit :=
  oneForm [
    following ["VIEW"] (viewAlteration rules),
    following ["TABLE"] (tableAlteration rules),
    following ["INDEX"] do
      let _ ← path
      expectKeywords ["RENAME", "TO"]
      path,
    following ["ROLE"] (roleAlteration rules),
    following ["POLICY"] (policyAlteration rules)]

end LogAudit.Sql.Grammar
