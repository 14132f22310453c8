/-!
# Sets of characters as ranges of code points

A character property of a standard is listed as closed ranges. Membership is the only question that
is asked of such a list, so `Ranges.contains` is its whole interface.
-/

namespace LogAudit.Text

/-- Closed ranges of code points, each given by its first and last member. -/
abbrev Ranges := List (Nat × Nat)

/-- A character belongs to the set exactly if one of the ranges holds its code point. -/
def Ranges.contains (ranges : Ranges) (c : Char) : Bool :=
  ranges.any fun range => range.1 ≤ c.toNat && c.toNat ≤ range.2

/-- Membership, said without the search. -/
theorem Ranges.contains_iff {ranges : Ranges} {c : Char} :
    ranges.contains c = true ↔ ∃ range ∈ ranges, range.1 ≤ c.toNat ∧ c.toNat ≤ range.2 := by
  simp [Ranges.contains]

end LogAudit.Text
