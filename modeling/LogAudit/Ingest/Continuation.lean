/-!
# Continuation lines

A message of several lines is logged as a line followed by lines that start with a tab. Merging puts
these back onto the line they belong to; the tabs stay, the ends of lines go.
-/

namespace LogAudit.Ingest

/-- The lines of a text, without their ends: a newline, or a carriage return and a newline. -/
def physicalLines (text : List Char) : List (List Char) :=
  (text.splitOn '\n').map fun line =>
    if line.getLast? = some '\r' then line.dropLast else line

/-- The line starts with a tab. -/
def continues (line : List Char) : Bool := line.head? == some '\t'

/-- Put each line that starts with a tab onto the one before it. -/
def mergeLines : List (List Char) → List (List Char)
  | [] => []
  | line :: lines =>
    let tail := lines.takeWhile continues
    (line ++ tail.flatten) :: mergeLines (lines.dropWhile continues)
termination_by lines => lines.length
decreasing_by
  have := (List.dropWhile_sublist continues (l := lines)).length_le
  simp; omega

/-- The lines of a text with their continuations. A continuation at the very start has nothing to
belong to and stays by itself. -/
def mergeContinuations (text : List Char) : List String :=
  (mergeLines (physicalLines text)).map String.ofList

end LogAudit.Ingest
