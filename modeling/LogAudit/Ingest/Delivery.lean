import LogAudit.Error
import LogAudit.Ingest.Continuation

/-!
# Delivery of lines

The lines of a file are given to sinks, each line to every sink in order, and some of them to a
validator before that. A sink that breaks off ends the delivery: the sinks after it do not get their
turn. Counts, failures and what a sink has seen are read off the deliveries.
-/

namespace LogAudit.Ingest

/-- What takes lines: it accepts or refuses each of them or breaks off, and it may have the run
cancelled. -/
structure Sink where
  verdict : String → Except Stop Unit
  cancels : String → Bool

/-- Who is given lines. -/
inductive Party where
  | validator
  | sink (number : Nat)
  deriving DecidableEq, Repr

/-- What comes of giving a line away: what stopped it, unless it was accepted, and whether the run
is to be cancelled. -/
structure Reply where
  stop? : Option Stop
  cancels : Bool
  deriving DecidableEq, Repr

/-- A line that was given away, with the number of its file and what stopped it. -/
structure Event where
  file : Nat
  party : Party
  line : String
  stop? : Option Stop
  deriving DecidableEq, Repr

/-- The parties of a run. A reply may depend on all that was asked before, the last question being
the first of the list. -/
structure Audience where
  sinks : Nat
  reply : List Event → Party → String → Reply

/-- The reply of a sink. -/
def Sink.reply (s : Sink) (line : String) : Reply where
  stop? := match s.verdict line with
    | .ok () => none
    | .error stop => some stop
  cancels := s.cancels line

/-- The sink that accepts everything. -/
def Sink.all : Sink := ⟨fun _ => .ok (), fun _ => false⟩

/-- A validator and sinks that reply to each line by itself. -/
def Audience.ofSinks (validator : Sink) (sinks : List Sink) : Audience where
  sinks := sinks.length
  reply _ party line := match party with
    | .validator => validator.reply line
    | .sink number => (sinks[number]?.getD Sink.all).reply line

/-- A line that was delivered. -/
structure Delivery where
  line : String
  /-- The refusal, if any, of each sink that was asked before one broke off. -/
  answers : List (Option Error)
  /-- What the sink that broke off left behind. -/
  broken : Option Payload
  deriving DecidableEq, Repr

namespace Delivery

/-- The sink with this number accepted the line. -/
def accepted (d : Delivery) (sink : Nat) : Bool := d.answers[sink]? == some none

/-- The sink with this number was given the line. -/
def reached (d : Delivery) (sink : Nat) : Bool :=
  sink < d.answers.length || (d.broken.isSome && sink == d.answers.length)

/-- The failure of a line is its first refusal; where a sink broke off there is none. -/
def refusal? (d : Delivery) : Option Error :=
  if d.broken.isSome then none else d.answers.findSome? id

end Delivery

/-- Lines that are not delivered: empty ones, and continuations of nothing. -/
def skipped (line : String) : Bool := line.toList.isEmpty || continues line.toList

/-- How many of the lines the sink with this number accepted. -/
def acceptedBy (deliveries : List Delivery) (sink : Nat) : Nat :=
  deliveries.countP (·.accepted sink)

/-- The lines that the sink with this number was given. -/
def seenBy (deliveries : List Delivery) (sink : Nat) : List String :=
  (deliveries.filter (·.reached sink)).map Delivery.line

/-- The lines that a sink refused, with the error that counts. -/
def refusals (deliveries : List Delivery) : List (String × Error) :=
  deliveries.filterMap fun d => d.refusal?.map fun cause => (d.line, cause)

end LogAudit.Ingest
