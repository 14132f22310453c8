import LogAudit.Ingest.File

/-!
# Runs over files

A run starts a thread for each of its files, in order and as far as it is not cancelled, and ends
when all of them have ended. `State.step` is a step of any of the threads, and a schedule is a list
of such steps in the order in which they happen. `Engine.run` is the schedule in which every task,
batch and line is finished before the next one is started.
-/

namespace LogAudit.Ingest

/-- What the main thread is about to do. -/
inductive Main where
  /-- Look whether there are more files and whether the run is cancelled. -/
  | looking (paths : List String)
  /-- Pass the gate for files. -/
  | waiting (path : String) (paths : List String)
  /-- Start the thread of a file. -/
  | starting (path : String) (paths : List String)
  /-- Wait for all threads to end. -/
  | joining
  /-- Nothing more; the run was cancelled, or not. -/
  | done (cancelled : Bool)
  deriving DecidableEq, Repr

/-- A run that is under way. The threads are numbered in the order of their files. -/
structure State where
  main : Main
  threads : List Thread
  board : Board
  deriving DecidableEq, Repr

/-- What can happen in a run: a step of the main thread, or something in the thread of a file. -/
inductive Move where
  | main
  | file (number : Nat) (move : Thread.Move)
  deriving DecidableEq, Repr

/-- What can happen in a run and to it. -/
inductive Action where
  | move (move : Move)
  /-- The run is cancelled from outside. -/
  | cancel
  deriving DecidableEq, Repr

namespace State

variable (x : Setup)

/-- A run over files before its first step. -/
def start (cancelled : Bool) (paths : List String) : State where
  main := .looking paths
  threads := []
  board := .start cancelled x.limits.maxConcurrentFiles
    (if x.limits.chunkWorkers = 0 then x.chunkWorkers else x.limits.chunkWorkers)

/-- A step of the main thread, unless it has to wait. -/
def advance (s : State) : Option State :=
  match s.main with
  | .looking [] => some { s with main := .joining }
  | .looking (path :: paths) =>
    some { s with main := if s.board.cancelled then .joining else .waiting path paths }
  | .waiting path paths => s.board.files.take?.map fun files =>
    { s with main := .starting path paths, board := { s.board with files } }
  | .starting path paths => some {
      main := .looking paths
      threads := s.threads ++ [.start path x.audience.sinks]
      board := { s.board with files := s.board.files.mark } }
  | .joining =>
    if s.threads.all (·.stage == .ended) then some { s with main := .done s.board.cancelled }
    else none
  | .done _ => none

/-- Something happens in the thread of a file. -/
def stepFile (number : Nat) (move : Thread.Move) (s : State) : Option State :=
  match s.threads[number]? with
  | none => none
  | some t => (t.step x number s.board move).map fun (t, board) =>
    { s with threads := s.threads.set number t, board }

/-- Something happens in a run, if it can. -/
def step (s : State) : Move → Option State
  | .main => s.advance x
  | .file number move => s.stepFile x number move

/-- Something happens in a run or to it, if it can. -/
def act (s : State) : Action → Option State
  | .move move => s.step x move
  | .cancel => some { s with board := { s.board with cancelled := true } }

/-- Many things happen, one after the other. -/
def after (s : State) : List Action → Option State
  | [] => some s
  | action :: schedule => (s.act x action).bind fun s => s.after schedule

/-- The run is over. -/
def finished (s : State) : Bool :=
  match s.main with
  | .done _ => true
  | _ => false

/-- What happens next if the threads of files go first. -/
def next? (s : State) : Option Move :=
  match s.threads.findIdx? (·.next?.isSome) with
  | some number => (s.threads[number]?.bind Thread.next?).map (.file number)
  | none => if s.finished then none else some .main

end State

/-! ## What there is to do -/

/-- What the main thread has to do at most. -/
def Main.effort : Main → Nat
  | looking paths => 3 * paths.length + 2
  | waiting _ paths => 3 * paths.length + 4
  | starting _ paths => 3 * paths.length + 3
  | joining => 1
  | done _ => 0

namespace State

/-- What there is to do in a run, the most important part first: the files to be started, the phases
of the threads, the efforts within the phases, and the efforts of the tasks. -/
def left (sinks : Nat) (s : State) : Nat × Nat × Nat × Nat :=
  (s.main.effort, sumOver (·.stage.phase) s.threads, sumOver (·.stage.effort) s.threads,
    sumOver (Thread.effort sinks) s.threads)

variable {x : Setup} {s s' : State}

/-- Every step of the main thread leaves less for it to do. -/
theorem advance_effort (h : s.advance x = some s') : s'.main.effort < s.main.effort := by
  unfold advance at h
  split at h
  · obtain rfl := Option.some.inj h
    simp [*, Main.effort]
  · obtain rfl := Option.some.inj h
    split <;> simp [*, Main.effort] <;> omega
  · obtain ⟨files, -, rfl⟩ := Option.map_eq_some_iff.1 h
    simp [*, Main.effort]
  · obtain rfl := Option.some.inj h
    simp [*, Main.effort]
  · split at h
    · obtain rfl := Option.some.inj h
      simp [*, Main.effort]
    · exact absurd h (by simp)
  · exact absurd h (by simp)

/-- Every step of a run leaves less to do. -/
theorem step_left {m : Move} (h : s.step x m = some s') :
    Prod.Lex (· < ·) (Prod.Lex (· < ·) (Prod.Lex (· < ·) (· < ·)))
      (s'.left x.audience.sinks) (s.left x.audience.sinks) := by
  cases m with
  | main => exact .left _ _ (advance_effort h)
  | file number move =>
    simp only [step, stepFile] at h
    split at h
    · exact absurd h (by simp)
    · rename_i t ht
      obtain ⟨⟨t', board⟩, hstep, rfl⟩ := Option.map_eq_some_iff.1 h
      have hphase := sumOver_set (fun t : Thread => t.stage.phase) ht t'
      have hstage := sumOver_set (fun t : Thread => t.stage.effort) ht t'
      have htasks := sumOver_set (Thread.effort x.audience.sinks) ht t'
      simp only [left, Prod.lex_def]
      refine Or.inr ⟨trivial, ?_⟩
      rcases Thread.step_less hstep with (hless | ⟨hsame, hless⟩) | ⟨hsame, hless⟩
      · exact Or.inl (by omega)
      · exact Or.inr ⟨by omega, Or.inl (by omega)⟩
      · rw [hsame] at hphase hstage
        exact Or.inr ⟨by omega, Or.inr ⟨by omega, by omega⟩⟩

variable (x)

/-- Go on with a run, the threads of files first, until nothing more happens. -/
def finish (s : State) : State :=
  match s.next? with
  | none => s
  | some move =>
    match _stepped : s.step x move with
    | none => s
    | some s' => finish s'
termination_by s.left x.audience.sinks
decreasing_by exact step_left _stepped

end State

/-! ## Results -/

/-- What became of a run. -/
structure RunResult where
  /-- The reports on the files that were started, in the order in which these were named. -/
  files : List FileReport
  /-- The lines that were dealt with. -/
  deliveries : List Delivery
  /-- The lines that the validator was given. -/
  validated : List String
  /-- What was written to the error file. -/
  errorRecords : List ErrorRecord
  /-- The run is cancelled. -/
  cancelled : Bool
  deriving DecidableEq, Repr

/-- The report on a run with so many sinks. -/
def RunResult.report (r : RunResult) (sinks elapsedMicros : Nat) : RunReport :=
  .ofFiles sinks r.files elapsedMicros r.cancelled

namespace State

/-- The reports in the order of their files. -/
def reports (s : State) : List FileReport :=
  (s.board.reports.reverse.mergeSort fun a b => a.1 ≤ b.1).map Prod.snd

/-- What became of a run. -/
def result (s : State) : RunResult where
  files := s.reports
  deliveries := s.board.deliveries.reverse.map Prod.snd
  validated := (s.board.events.reverse.filter (·.party == .validator)).map Event.line
  errorRecords := s.board.records.reverse
  cancelled := s.main == .done true

end State

/-- What a run does with the lines of files. -/
structure Engine where
  limits : Limits
  validator : Sink
  sinks : List Sink

namespace Engine

/-- A run over the files of a source. Its only schedule never works on two chunks at a time. -/
def setup (e : Engine) (source : Source) : Setup where
  limits := e.limits
  chunkWorkers := 1
  source := source
  audience := .ofSinks e.validator e.sinks

/-- Ingest files, one after the other. -/
def run (e : Engine) (source : Source) (cancelled : Bool) (paths : List String) : RunResult :=
  ((State.start (e.setup source) cancelled paths).finish (e.setup source)).result

end Engine

end LogAudit.Ingest
