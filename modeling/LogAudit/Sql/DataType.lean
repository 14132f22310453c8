import LogAudit.Sql.Keyword
import LogAudit.Sql.Reader

/-!
# Names of types

The reader of type names, as they stand in casts and in front of typed literals. Of a type only its
kind matters: a type of the language, the type of intervals, or a name given by a user.
-/

namespace LogAudit.Sql

/-- What a type name is. -/
inductive TypeKind where
  | interval
  | builtin
  | user
  deriving DecidableEq, Repr

namespace DataType

open Reader

/-- A number in parentheses, if there is one. -/
def precision? : Reader Unit := do
  if ← symbol "(" then
    natural
    expect ")"

/-- One or two numbers in parentheses, if there are any. -/
def precisionAndScale? : Reader Unit := do
  if ← symbol "(" then
    natural
    if ← symbol "," then natural
    expect ")"

/-- A length in parentheses, if there is one. -/
def length? : Reader Unit := do
  if ← symbol "(" then
    if !(← keyword "MAX") then
      natural
      let _ ← oneOf ["CHARACTERS", "OCTETS"]
    expect ")"

/-- What may follow the words for a time. -/
def zone? : Reader Unit := do
  if ← keyword "WITH" then expectKeywords ["TIME", "ZONE"]
  else if ← keyword "WITHOUT" then expectKeywords ["TIME", "ZONE"]

/-- Texts in parentheses. -/
def values : Reader Unit := do
  let _ ← parenthesized (list do
    match ← next with
    | some (.text .plain _) => pure ()
    | _ => refuse)

/-- What stands in the parentheses after a type of a user, up to the closing one. -/
def modifiers : Nat → Reader Unit
  | 0 => refuse
  | n + 1 => do
    match ← next with
    | some (.symbol ")") => pure ()
    | some (.symbol ",") => modifiers n
    | some (.word _ _) => modifiers n
    | some (.number _) => modifiers n
    | some (.text .plain _) => modifiers n
    | _ => refuse

/-- Types that are a word alone. -/
def bare : List String :=
  ["BOOLEAN", "BOOL", "REAL", "FLOAT4", "FLOAT32", "FLOAT64", "FLOAT8", "INT16", "INT32", "INT64",
    "INT128", "INT256", "UINT8", "UINT16", "UINT32", "UINT64", "UINT128", "UINT256", "UUID",
    "DATE", "DATE32", "JSON", "JSONB", "REGCLASS", "TEXT", "BYTEA", "TRIGGER", "TINYBLOB",
    "MEDIUMBLOB", "LONGBLOB", "TINYTEXT", "MEDIUMTEXT", "LONGTEXT"]

/-- Types with an optional number and an optional `UNSIGNED`. -/
def integers : List String :=
  ["TINYINT", "INT2", "SMALLINT", "MEDIUMINT", "INT", "INT4", "INT8", "INTEGER", "BIGINT"]

/-- Types with an optional number. -/
def sized : List String :=
  ["FLOAT", "CLOB", "BINARY", "VARBINARY", "BLOB", "BYTES", "DATETIME", "TIMESTAMPTZ", "TIMETZ",
    "STRING"]

/-- Types with an optional number and scale. -/
def exact : List String := ["NUMERIC", "DECIMAL", "DEC", "BIGNUMERIC", "BIGDECIMAL"]

/-- A type name without the brackets after it; `fuel` bounds the nesting of element types. -/
def base : Nat → Reader TypeKind
  | 0 => refuse
  | fuel + 1 => do
    match ← ahead 0 with
    | some (.word _ word) =>
      if bare.contains word then
        let _ ← next
        return .builtin
      else if integers.contains word then
        let _ ← next
        precision?
        let _ ← keyword "UNSIGNED"
        return .builtin
      else if sized.contains word then
        let _ ← next
        precision?
        return .builtin
      else if exact.contains word then
        let _ ← next
        precisionAndScale?
        return .builtin
      else match word with
        | "DOUBLE" =>
          let _ ← next
          let _ ← keyword "PRECISION"
          return .builtin
        | "VARCHAR" | "NVARCHAR" =>
          let _ ← next
          length?
          return .builtin
        | "CHARACTER" | "CHAR" =>
          let _ ← next
          if ← keyword "VARYING" then length?
          else if ← keywords ["LARGE", "OBJECT"] then precision?
          else length?
          return .builtin
        | "TIMESTAMP" | "TIME" =>
          let _ ← next
          precision?
          zone?
          return .builtin
        | "INTERVAL" =>
          let _ ← next
          return .interval
        | "FIXEDSTRING" =>
          let _ ← next
          parenthesized natural
          return .builtin
        | "ENUM" | "SET" =>
          let _ ← next
          values
          return .builtin
        | "ARRAY" =>
          let _ ← next
          expect "<"
          let _ ← base fuel
          expect ">"
          return .builtin
        | "DATETIME64" =>
          let _ ← next
          expect "("
          natural
          if ← symbol "," then
            match ← next with
            | some (.text .plain _) => pure ()
            | _ => refuse
          expect ")"
          return .builtin
        | _ =>
          let _ ← path
          if ← symbol "(" then modifiers ((← remaining) + 1)
          return .user
    | _ => refuse

/-- One pair of brackets after a type, which makes it a type of arrays. -/
def brackets (_ : TypeKind) : Reader (Option TypeKind) := do
  if ← symbol "[" then
    let _ ← attempt natural
    expect "]"
    return some .builtin
  else return none

/-- A type name. -/
def read : Reader TypeKind := do
  iterate brackets (← base ((← remaining) + 1))

end DataType

end LogAudit.Sql
