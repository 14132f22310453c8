import LogAudit.Text.Order

/-!
# Reports

The counts of each file and of the whole run. The report of a run is made from those of its files
alone: its counts are their sums, and its errors are theirs.
-/

namespace LogAudit

open LogAudit.Text

/-- The counts of a file. -/
structure FileReport where
  path : String
  totalLines : Nat
  /-- How many lines each sink accepted. -/
  successLines : List Nat
  /-- Why the file was not analysed to its end, if it was not. -/
  error : Option String
  deriving DecidableEq, Repr

/-- The counts of a run. -/
structure RunReport where
  totalLines : Nat
  successLines : List Nat
  /-- The reports of the files, in the order in which the files were named. -/
  files : List FileReport
  /-- The errors of files by path, in ascending order of paths. -/
  fileErrors : List (String × String)
  elapsedMicros : Nat
  cancelled : Bool
  deriving DecidableEq, Repr

/-- How much of the lines was understood. -/
inductive Outcome where
  | noLines
  | complete
  | unparsed
  | part (success total : Nat)
  deriving DecidableEq, Repr

namespace Outcome

/-- The outcome for so many successes among so many lines. -/
def classify (success total : Nat) : Outcome :=
  if total = 0 then noLines
  else if success = total then complete
  else if success = 0 then unparsed
  else part success total

/-- The share of successes in percent. Each of the three steps is rounded to the nearest number that
a double can hold. -/
def percent (success total : Nat) : Float := Float.ofNat success * 100 / Float.ofNat total

/-- The word for an outcome. -/
def status : Outcome → String
  | noLines => "no_lines"
  | complete => "complete"
  | unparsed => "unparsed"
  | part _ _ => "partial"

end Outcome

namespace RunReport

/-- Add counts at the same place; counts past the first list's end do not matter. -/
def addCounts : List Nat → List Nat → List Nat
  | [], _ => []
  | sums, [] => sums
  | sum :: sums, count :: counts => (sum + count) :: addCounts sums counts

/-- The error of a path: that of the last report on it that has one. -/
def errorOf? (files : List FileReport) (path : String) : Option String :=
  (files.filter (·.path == path)).reverse.findSome? FileReport.error

/-- The report on files, for so many sinks. -/
def ofFiles (sinks : Nat) (files : List FileReport) (elapsedMicros : Nat) (cancelled : Bool) :
    RunReport where
  totalLines := files.foldl (fun sum file => sum + file.totalLines) 0
  successLines :=
    files.foldl (fun sums file => addCounts sums file.successLines) (List.replicate sinks 0)
  files := files
  fileErrors := (textSet (files.map FileReport.path)).filterMap fun path =>
    (errorOf? files path).map fun text => (path, text)
  elapsedMicros := elapsedMicros
  cancelled := cancelled

/-- The outcome for a sink; a sink that there is not had no success. -/
def outcome (r : RunReport) (sink : Nat) : Outcome :=
  .classify ((r.successLines[sink]?).getD 0) r.totalLines

/-- The time that the run took, in whole milliseconds. -/
def elapsedMillis (r : RunReport) : Nat := r.elapsedMicros / 1000

end RunReport

end LogAudit
