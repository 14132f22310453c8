import LogAudit.Ingest.Board
import LogAudit.Ingest.Chunk
import LogAudit.Text.Utf8

/-!
# Validation of files

Before a file is analysed its first lines are given to a validator. A file of which too many sampled
lines are refused, or which has none, is not analysed. The lines are those of the file itself:
continuations are not merged and empty lines count.
-/

namespace LogAudit.Ingest

open LogAudit.Text

/-- More lines failed than `percent` of those sampled, rounded down to whole lines. -/
def exceedsThreshold (sampled failed percent : Nat) : Bool := sampled * percent / 100 < failed

/-- What is wrong with the file of a path if so many of so many sampled lines failed. -/
def sampleFault? (path : String) (percent sampled failed : Nat) : Option Error :=
  if sampled = 0 then some (.fileRejected path "no log lines found in the log file")
  else if exceedsThreshold sampled failed percent then
    some (.validationFailed path failed sampled)
  else none

/-- How taking a sample ended. -/
inductive SampleEnd where
  /-- The sample is as large as it was to be, or there are no more lines. -/
  | finished
  /-- The run was cancelled first. -/
  | cut
  /-- The validator broke off. -/
  | broken (payload : Payload)
  deriving DecidableEq, Repr

/-- What is wrong with the file of a path if its sample ended like this, with so many of so many
lines failed. A sample that was cut short tells nothing. -/
def SampleEnd.fault? (ended : SampleEnd) (path : String) (percent sampled failed : Nat) :
    Option Error :=
  match ended with
  | broken payload => some (.ofPayload payload)
  | cut => none
  | finished => sampleFault? path percent sampled failed

/-- A sample that is being taken: how many lines may follow, what is left of the file, and how many
lines were taken and how many of them failed. -/
structure Sampling where
  left : Nat
  rest : List UInt8
  sampled : Nat
  failed : Nat
  deriving DecidableEq, Repr

namespace Sampling

/-- Before the first of up to `count` lines of a content. -/
def start (count : Nat) (content : List UInt8) : Sampling := ⟨count, content, 0, 0⟩

/-- The text of a line without its end. -/
def lineText (line : List UInt8) : String :=
  let text := Utf8.decodeLossy line
  let body := if text.getLast? = some '\n' then text.dropLast else text
  String.ofList (body.reverse.dropWhile (· == '\r')).reverse

/-- The next line, or how the sample ended. -/
def look (s : Sampling) (cancelled : Bool) : Except SampleEnd String :=
  if s.left = 0 then .error .finished
  else if cancelled then .error .cut
  else if s.rest.isEmpty then .error .finished
  else .ok (lineText (splitLine s.rest).1)

/-- The sample with its next line, which may have failed. -/
def take (s : Sampling) (failed : Bool) : Sampling where
  left := s.left - 1
  rest := (splitLine s.rest).2
  sampled := s.sampled + 1
  failed := s.failed + failed.toNat

/-- Give the next line to the validator. -/
def test (s : Sampling) (a : Audience) (file : Nat) (line : String) (b : Board) :
    Except Payload Sampling × Board :=
  let (stop?, board) := b.ask a file .validator line
  match stop? with
  | none => (.ok (s.take false), board)
  | some (.refused _) => (.ok (s.take true), board)
  | some (.panicked payload) => (.error payload, board)

/-- There is a line to come only if one may follow. -/
theorem left_pos_of_look {s : Sampling} {cancelled : Bool} {line : String}
    (h : s.look cancelled = .ok line) : 0 < s.left := by
  unfold look at h
  split at h
  · exact absurd h (by simp)
  · omega

/-- Fewer lines may follow a line. -/
theorem left_of_test {s s' : Sampling} {a : Audience} {file : Nat} {line : String} {b b' : Board}
    (h : s.test a file line b = (.ok s', b')) : s'.left = s.left - 1 := by
  simp only [test] at h
  split at h
  · obtain ⟨hs, -⟩ := Prod.mk.inj h
    exact congrArg left (Except.ok.inj hs).symm
  · obtain ⟨hs, -⟩ := Prod.mk.inj h
    exact congrArg left (Except.ok.inj hs).symm
  · exact absurd (Prod.mk.inj h).1 (by simp)

/-- Whatever the answer, the validator was asked about the line. -/
theorem board_of_test {s : Sampling} {a : Audience} {file : Nat} {line : String} {b b' : Board}
    {answer : Except Payload Sampling} (h : s.test a file line b = (answer, b')) :
    b' = (b.ask a file .validator line).2 := by
  simp only [test] at h
  split at h <;> exact (Prod.mk.inj h).2.symm

/-- Take the sample to its end. -/
def finish (s : Sampling) (a : Audience) (file : Nat) (b : Board) : Sampling × SampleEnd × Board :=
  match _looked : s.look b.cancelled with
  | .error ended => (s, ended, b)
  | .ok line =>
    match _tested : s.test a file line b with
    | (.ok s', b') => finish s' a file b'
    | (.error payload, b') => (s, .broken payload, b')
termination_by s.left
decreasing_by
  have := left_pos_of_look _looked
  have := left_of_test _tested
  omega

end Sampling

/-- The lines that a validator was given, and what came of it. -/
structure Sample where
  lines : List String
  failed : Nat
  ended : SampleEnd
  /-- The run is cancelled afterwards. -/
  cancelled : Bool
  deriving DecidableEq, Repr

namespace Sample

/-- Give up to `count` lines of a content to a validator. -/
def take (validator : Sink) (count : Nat) (cancelled : Bool) (content : List UInt8) : Sample :=
  let (s, ended, board) :=
    (Sampling.start count content).finish (.ofSinks validator []) 0 (.start cancelled 1 1)
  ⟨board.events.reverse.map Event.line, s.failed, ended, board.cancelled⟩

/-- How many lines were sampled. -/
def size (s : Sample) : Nat := s.lines.length

/-- What is wrong with the file of a path by its sample. -/
def fault? (s : Sample) (path : String) (percent : Nat) : Option Error :=
  s.ended.fault? path percent s.size s.failed

end Sample

end LogAudit.Ingest
