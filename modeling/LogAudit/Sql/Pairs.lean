import LogAudit.Sql.Collection
import LogAudit.Sql.Tree

/-!
# Columns and the values they meet

A statement that compares a column with a constant, or assigns one to it, relates the two. A tree is
walked node by node, and what a node relates is added to a collection before what its operands
relate. The pairs of a text are those of the statements that it is read as (`extract`).
-/

namespace LogAudit.Sql

/-- The operator compares its operands. -/
def Operator.isComparison : Operator → Bool
  | equal | notEqual | less | lessOrEqual | greater | greaterOrEqual | spaceship => true
  | _ => false

/-- Add the pair of two operands that are compared: a column on the left with a constant on the
right, or else the other way round. -/
def PairCollection.addComparison (out : PairCollection) (left right : Expr) : PairCollection :=
  match left.columnName?, right.literalText? with
  | some column, some value => out.add (some column) (some value)
  | _, _ => out.add right.columnName? left.literalText?

mutual

/-- Collect the pairs of an expression. -/
def Expr.collect : Expr → PairCollection → PairCollection
  | .column _, out => out
  | .literal _, out => out
  | .binary op left right, out =>
    right.collect (left.collect (if op.isComparison then out.addComparison left right else out))
  | .like subject pattern, out =>
    pattern.collect (subject.collect (out.addComparison subject pattern))
  | .between subject low high, out =>
    let column := subject.columnName?
    high.collect (low.collect ((out.add column low.literalText?).add column high.literalText?))
  | .inList subject items, out => Expr.collectItems subject.columnName? items out
  | .inQuery subject inner, out => inner.collect (subject.collect out)
  | .existence inner, out => inner.collect out
  | .scalar inner, out => inner.collect out
  | .nested body, out => body.collect out
  | .unary body, out => body.collect out
  | .test body, out => body.collect out
  | .cast body, out => body.collect out
  | .collate body, out => body.collect out
  | .cases operand conditions results otherwise, out =>
    Expr.collectList results (Expr.collectList conditions
      (Expr.collectOption otherwise (Expr.collectOption operand out)))
  | .tuple items, out => Expr.collectList items out
  | .form _, out => out

/-- Collect the pairs of an expression that may be missing. -/
def Expr.collectOption : Option Expr → PairCollection → PairCollection
  | none, out => out
  | some e, out => e.collect out

/-- Collect the pairs of several expressions in order. -/
def Expr.collectList : List Expr → PairCollection → PairCollection
  | [], out => out
  | e :: es, out => Expr.collectList es (e.collect out)

/-- Collect the pairs of a list of candidates for a column: each candidate with the column, and the
pairs in it. -/
def Expr.collectItems (column : Option String) : List Expr → PairCollection → PairCollection
  | [], out => out
  | e :: es, out => Expr.collectItems column es (e.collect (out.add column e.literalText?))

/-- Collect the pairs of a query, which are those of its body. -/
def Query.collect : Query → PairCollection → PairCollection
  | .mk _ body, out => body.collect out

/-- Collect the pairs of a body: those of the conditions of each selection. -/
def Body.collect : Body → PairCollection → PairCollection
  | .select _ _ selection having, out =>
    Expr.collectOption having (Expr.collectOption selection out)
  | .query inner, out => inner.collect out
  | .setOperation left right, out => right.collect (left.collect out)
  | .values _, out => out
  | .table, out => out

end

/-- Why the pairs of a text cannot be told. -/
inductive ExtractError where
  /-- The text is not written in the grammar; its reader says why. -/
  | syntaxError (text : String)
  /-- A row has not as many values as there are columns. -/
  | rowLength (expected found : Nat)
  /-- The rows come from a query and not from values. -/
  | unsupportedRows
  deriving DecidableEq, Repr

/-- The text of an extraction error. -/
def ExtractError.message : ExtractError → String
  | syntaxError text => "sql parse error: " ++ text
  | rowLength expected found =>
    "invalid row length: expected " ++ toString expected ++ ", found " ++ toString found
  | unsupportedRows => "invalid row type"

/-- Collect the pairs of one row of values. -/
def collectRow (columns : List String) (row : List Expr) (out : PairCollection) : PairCollection :=
  (columns.zip row).foldl (fun out (column, value) => out.add (some column) value.literalText?) out

/-- Collect the pairs of rows, each of which must have a value for every column. -/
def collectRows (columns : List String) :
    List (List Expr) → PairCollection → Except ExtractError PairCollection
  | [], out => .ok out
  | row :: rows, out =>
    if row.length = columns.length then collectRows columns rows (collectRow columns row out)
    else .error (.rowLength columns.length row.length)

/-- Collect the pairs of an assignment. -/
def collectAssignment (out : PairCollection) (assignment : Option String × Expr) :
    PairCollection :=
  assignment.2.collect (out.add assignment.1 assignment.2.literalText?)

/-- The pairs of a statement. -/
def Statement.collect : Statement → Except ExtractError PairCollection
  | .query q => .ok (q.collect .empty)
  | .update assignments selection =>
    .ok (Expr.collectOption selection (assignments.foldl collectAssignment .empty))
  | .delete selection => .ok (Expr.collectOption selection .empty)
  | .insert [] _ => .ok .empty
  | .insert _ none => .ok .empty
  | .insert (column :: columns) (some source) =>
    match source.body with
    | .values rows => collectRows (column :: columns) rows .empty
    | _ => .error .unsupportedRows
  | .command => .ok .empty

/-- Add the pairs of statements in order, unless one of them has none that can be told. -/
def Statement.collectAll : List Statement → PairCollection → Except ExtractError PairCollection
  | [], out => .ok out
  | statement :: statements, out => do
    let found ← statement.collect
    collectAll statements (out.merge found)

/-- The pairs of a text. -/
def extract (read : StatementReader) (sql : String) : Except ExtractError PairCollection :=
  match read sql with
  | .error text => .error (.syntaxError text)
  | .ok statements => Statement.collectAll statements .empty

end LogAudit.Sql
