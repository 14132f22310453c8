import LogAudit.Sql.Token

/-!
# Syntax trees of statements

The tree keeps what conditions, assignments and rows are made of: columns, literals, the operators
between them and the queries inside them. Of sources it keeps the queries they hold.
-/

namespace LogAudit.Sql

/-- A constant. -/
inductive Literal where
  /-- A number in its spelling. -/
  | number (text : String)
  /-- A text with its value. -/
  | text (kind : TextKind) (value : String)
  /-- A truth value, the null value or a parameter. -/
  | symbol
  deriving DecidableEq, Repr

/-- The operators between two operands. -/
inductive Operator where
  /-- `=` -/
  | equal
  /-- `<>` -/
  | notEqual
  /-- `<` -/
  | less
  /-- `<=` -/
  | lessOrEqual
  /-- `>` -/
  | greater
  /-- `>=` -/
  | greaterOrEqual
  /-- `<=>` -/
  | spaceship
  | and
  | or
  | xor
  /-- An operator that is written by its name, after `OPERATOR`. -/
  | named
  /-- Any other operator by its symbol. -/
  | other (symbol : String)
  deriving DecidableEq, Repr

mutual

/-- An expression. -/
inductive Expr where
  /-- A column by its name, after the names that qualify it. -/
  | column (path : List String)
  /-- A constant. -/
  | literal (value : Literal)
  /-- Two operands with an operator between them. -/
  | binary (op : Operator) (left right : Expr)
  /-- `LIKE` and its relatives. -/
  | like (subject pattern : Expr)
  | between (subject low high : Expr)
  /-- A list of candidates after `IN`. -/
  | inList (subject : Expr) (items : List Expr)
  /-- A query after `IN`. -/
  | inQuery (subject : Expr) (query : Query)
  /-- `EXISTS` with a query. -/
  | existence (query : Query)
  /-- A query in the place of a value. -/
  | scalar (query : Query)
  /-- An expression in parentheses. -/
  | nested (body : Expr)
  /-- A sign, `NOT` or another operator with one operand. -/
  | unary (body : Expr)
  /-- A test after `IS` for null, true or false. -/
  | test (body : Expr)
  | cast (body : Expr)
  | collate (body : Expr)
  | cases (operand : Option Expr) (conditions results : List Expr) (otherwise : Option Expr)
  /-- Several expressions in parentheses. -/
  | tuple (items : List Expr)
  /-- A function call or any other form, with its operands. -/
  | form (operands : List Expr)

/-- A query with the queries that its `WITH` names. -/
inductive Query where
  | mk (named : List Query) (body : Body)

/-- The body of a query. -/
inductive Body where
  | select (projection : List Expr) (sources : List Query) (selection having : Option Expr)
  | query (query : Query)
  /-- Two bodies joined by `UNION`, `EXCEPT` or `INTERSECT`. -/
  | setOperation (left right : Body)
  | values (rows : List (List Expr))
  /-- A table or a data change in the place of a query. -/
  | table

end

/-- A statement. -/
inductive Statement where
  | query (query : Query)
  /-- Assignments, each with the name of its column unless it assigns several at once. -/
  | update (assignments : List (Option String × Expr)) (selection : Option Expr)
  | delete (selection : Option Expr)
  /-- Columns and the rows or the query that fill them. -/
  | insert (columns : List String) (source : Option Query)
  /-- Any statement that neither reads nor changes rows by conditions. -/
  | command

/-- How a text is read as statements, or why it is not. -/
abbrev StatementReader := String → Except String (List Statement)

namespace Query

/-- The body of a query. -/
def body : Query → Body
  | mk _ body => body

end Query

/-- The text of a constant, if it is a number or text. Code points are no text of a constant. -/
def Literal.text? : Literal → Option String
  | .number digits => some digits
  | .text .unicode _ => none
  | .text _ value => some value
  | .symbol => none

namespace Expr

/-- The name of a column, without what qualifies it. -/
def columnName? : Expr → Option String
  | column path => path.getLast?
  | _ => none

/-- The text of a constant. -/
def literalText? : Expr → Option String
  | literal value => value.text?
  | _ => none

end Expr

end LogAudit.Sql
