import LogAudit.Audit.Phrase
import LogAudit.Error
import LogAudit.Sql.Statement
import Std.Data.TreeMap

/-!
# Personal data in statements

A detector gives the pairs of columns and values labels such as `Email`. The pairs of a statement
count only if the detector answers for all of them: a statement that it fails on adds nothing.
-/

namespace LogAudit.Audit

open LogAudit.Text LogAudit.Sql

/-- What a detector says of a column and a value: perhaps a label. -/
abbrev Detector := String → String → Except Stop (Option String)

/-- The labels of column names, the first that matches counting. -/
def columnLabels : List (String × List String) :=
  [("Email", ["*e?mail*"]),
    ("Phone", ["*phone*", "*mobile*", "*cell*"]),
    ("Password", ["*password*", "*passwd*", "*pwd*"]),
    ("SSN", ["ssn", "social?security*"]),
    ("CreditCard", ["*credit?card*", "*card?number*", "*cc?num*"]),
    ("BirthDate", ["*birth*", "*dob*"]),
    ("Username", ["user?name", "user", "login"]),
    ("Name", ["first?name", "last?name", "full?name", "middle?name", "name"]),
    ("Address", ["*address*", "*street*", "*city*"])]

/-- The whole column is written by the phrase. -/
def namedLike (column text : String) : Bool :=
  (Pattern.andThen (phrase text) .atEnd).startsIn column.toList

/-- A value in the form of a mail address. -/
def mailPattern : Pattern :=
  let dotted (more : List Char) (c : Char) : Bool := c.isAlphanum || more.contains c
  .sequence [.atLeastOne (dotted ['.', '_', '%', '+', '-']), .char '@',
    .atLeastOne (dotted ['.', '-']), .char '.', .one Char.isAlpha, .atLeastOne Char.isAlpha, .atEnd]

/-- The label of a column by its name, or else by a value in the form of a mail address. -/
def columnLabel? (column value : String) : Option String :=
  match columnLabels.find? fun (_, names) => names.any (namedLike column) with
  | some (label, _) => some label
  | none => if mailPattern.startsIn value.toList then some "Email" else none

/-- The detector that looks at column names and never fails. -/
def columnNames : Detector := fun column value => .ok (columnLabel? column value)

/-- A pair with the label that it was given. -/
structure Labelled where
  label : String
  pair : Pair
  deriving DecidableEq, Repr

/-- The labelled pairs among some pairs, if the detector answers for all of them. An empty label is
none. -/
def labelled (detector : Detector) : List Pair → Except Stop (List Labelled)
  | [] => .ok []
  | pair :: pairs => do
    let label ← detector pair.column pair.value
    let others ← labelled detector pairs
    match label with
    | none => return others
    | some label => return if label = "" then others else ⟨label, pair⟩ :: others

/-- The labelled pairs of a statement. -/
def labelledOfStatement (detector : Detector) (sql : String) : Except Stop (List Labelled) :=
  if sql = "" then .ok []
  else match extract Statement.readAll sql with
    | .error cause => .error (.refused (.extract cause))
    | .ok found => labelled detector found.pairs

/-- Pairs by their labels; the pairs of a label are kept in the order in which they came. -/
abbrev LabelTable := Std.TreeMap String (List Pair)

/-- Put a pair behind those of its label. -/
def LabelTable.add (table : LabelTable) (p : Labelled) : LabelTable :=
  table.alter p.label fun pairs => some (pairs.getD [] ++ [p.pair])

/-- The labels in ascending order, each with its pairs in the order in which they came. -/
def byLabel (pairs : List Labelled) : List (String × List Pair) :=
  (pairs.foldl LabelTable.add ∅).toList

end LogAudit.Audit
