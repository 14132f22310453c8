/-!
# Collections of pairs

A pair relates a column to a value. Pairs are collected one at a time or together; order is kept and
nothing is taken out again. A pair with a missing or an empty part is not collected.
-/

namespace LogAudit.Sql

/-- A column and the text of a constant that it is related to. -/
structure Pair where
  column : String
  value : String
  deriving DecidableEq, Repr

/-- The pair of a column and a value, if both are there and neither is empty. -/
def Pair.of? (column value : Option String) : List Pair :=
  match column, value with
  | some column, some value => if column = "" ∨ value = "" then [] else [⟨column, value⟩]
  | _, _ => []

/-- Pairs in the order in which they were added. -/
structure PairCollection where
  pairs : List Pair
  deriving DecidableEq, Repr

namespace PairCollection

/-- The collection without pairs. -/
def empty : PairCollection := ⟨[]⟩

/-- Add a pair, unless a part of it is missing or empty. -/
def add (collection : PairCollection) (column value : Option String) : PairCollection :=
  ⟨collection.pairs ++ Pair.of? column value⟩

/-- Add the pairs of another collection. -/
def merge (collection other : PairCollection) : PairCollection :=
  ⟨collection.pairs ++ other.pairs⟩

/-- How many pairs there are. -/
def size (collection : PairCollection) : Nat := collection.pairs.length

/-- There is no pair. -/
def isEmpty (collection : PairCollection) : Bool := collection.pairs.isEmpty

end PairCollection

end LogAudit.Sql
