import LogAudit.ErrorLog
import LogAudit.Ingest.Delivery
import LogAudit.Report
import LogAudit.Resource.Gate

/-!
# What threads share

The threads of a run share a flag that cancels it, two gates, the reports on files and the error
file, and all that they were told by the validator and the sinks. The threads of one file also share
its counters.
-/

namespace LogAudit.Ingest

open LogAudit.Resource

/-- What all threads of a run share. -/
structure Board where
  /-- The run is cancelled. -/
  cancelled : Bool
  /-- What was asked, the last question first. -/
  events : List Event
  /-- The lines that were dealt with, each with the number of its file, the last one first. -/
  deliveries : List (Nat × Delivery)
  /-- The failures that were written down, the last one first. -/
  records : List ErrorRecord
  /-- The reports on files with their numbers, the last one first. -/
  reports : List (Nat × FileReport)
  /-- The gate for files. -/
  files : Gate
  /-- The gate for chunks, of all files together. -/
  chunks : Gate
  deriving DecidableEq, Repr

namespace Board

/-- The board before a run. -/
def start (cancelled : Bool) (files chunks : Nat) : Board :=
  ⟨cancelled, [], [], [], [], .ofLimit files, .ofLimit chunks⟩

/-- Give a line to a party, for the file with a number. -/
def ask (b : Board) (a : Audience) (file : Nat) (party : Party) (line : String) :
    Option Stop × Board :=
  let reply := a.reply b.events party line
  (reply.stop?, { b with
    cancelled := b.cancelled || reply.cancels
    events := ⟨file, party, line, reply.stop?⟩ :: b.events })

/-- Note what became of a line. -/
def note (b : Board) (file : Nat) (delivery : Delivery) : Board :=
  { b with deliveries := (file, delivery) :: b.deliveries }

/-- Write failures down. -/
def write (b : Board) (records : List ErrorRecord) : Board :=
  { b with records := records.reverse ++ b.records }

/-- Hand in the report on a file. -/
def report (b : Board) (file : Nat) (report : FileReport) : Board :=
  { b with reports := (file, report) :: b.reports }

end Board

/-- The counters of a file: its lines, and for each sink how many of them it accepted. -/
structure Tally where
  total : Nat
  success : List Nat
  deriving DecidableEq, Repr

namespace Tally

/-- The counters at zero, for so many sinks. -/
def zero (sinks : Nat) : Tally := ⟨0, List.replicate sinks 0⟩

/-- Count a line. -/
def count (t : Tally) : Tally := { t with total := t.total + 1 }

/-- Count a success of a sink. -/
def credit (t : Tally) (sink : Nat) : Tally :=
  { t with success := t.success.modify sink (· + 1) }

end Tally

end LogAudit.Ingest
