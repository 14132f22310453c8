/-!
# Sorted lists without repetitions

Answers that are sets are given as ascending lists in which nothing is repeated. Texts are ordered
by code points, which is also the order of their bytes.
-/

namespace LogAudit.Text

/-- The distinct members of a list in ascending order. -/
def ascending {α : Type} [BEq α] (le : α → α → Bool) (members : List α) : List α :=
  (members.mergeSort le).eraseReps

/-- The order of texts by code points. -/
def textLe (a b : String) : Bool := !decide (b < a)

/-- The distinct texts of a list in ascending order. -/
def textSet (members : List String) : List String := ascending textLe members

end LogAudit.Text
