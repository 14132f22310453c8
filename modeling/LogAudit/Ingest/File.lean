import LogAudit.Config.Settings
import LogAudit.Disk
import LogAudit.Ingest.Task
import LogAudit.Ingest.Validation

/-!
# Files

A thread works on one file: it opens it, checks its size, has a sample of its lines validated, and
reads its chunks, each of which it leaves to a task of its own. It waits for its tasks before it
reports. What a step of the thread itself does is one of its turns (`Thread.turn_of_own`). Every
step of a thread or of one of its workers leaves less to do (`Thread.step_less`).
-/

namespace LogAudit.Ingest

/-- How the content under a path is found. -/
abbrev Source := String → Except OsError Node

/-- What a run is set up with. -/
structure Setup where
  limits : Limits
  /-- How many chunks are worked on at a time where the limits leave that to the machine. -/
  chunkWorkers : Nat
  source : Source
  audience : Audience

namespace Setup

/-- What is wrong with the size of a content. -/
def sizeFault? (x : Setup) (path : String) (content : List UInt8) : Option Error :=
  if x.limits.maxFileSizeBytes < content.length then
    some (.fileRejected path ("size of this file is " ++ toString content.length
      ++ " bytes, files larger than " ++ toString x.limits.maxFileSizeBytes
      ++ " bytes are not supported"))
  else none

/-- The content of a file that is not too large. -/
def open? (x : Setup) (path : String) : Except Error (List UInt8) :=
  match x.source path with
  | .error refusal => .error (.fileRejected path refusal.message)
  | .ok .folder => .error (.fileRejected path "not a regular file")
  | .ok (.file content) =>
    match x.sizeFault? path content with
    | some error => .error error
    | none => .ok content

end Setup

/-- What the thread of a file is about to do. -/
inductive Stage where
  /-- Open the file. -/
  | opening
  /-- Look whether the run is cancelled before the next line of the sample. -/
  | sampling (content : List UInt8) (sample : Sampling)
  /-- Give a line of the sample to the validator. -/
  | testing (content : List UInt8) (sample : Sampling) (line : String)
  /-- Look whether the run is cancelled before it reads the next chunk. -/
  | reading (remainder : Remainder)
  /-- Pass the gate for chunks. -/
  | waiting (chunk : List UInt8) (remainder : Remainder)
  /-- Start a task. -/
  | starting (chunk : List UInt8) (remainder : Remainder)
  /-- Wait for all tasks to end. -/
  | joining
  /-- Write down why the file is not analysed. -/
  | failing (error : Error)
  /-- Report on the file. -/
  | closing (error : Option Error)
  /-- Give the place among the files back. -/
  | leaving
  /-- Nothing more. -/
  | ended
  deriving DecidableEq, Repr

/-- The thread of a file, with its tasks that are under way. -/
structure Thread where
  path : String
  stage : Stage
  tally : Tally
  tasks : List Task
  deriving DecidableEq, Repr

namespace Thread

/-- What can happen in a thread: a step of its own, a step of a worker of a task, or the end of a
task. -/
inductive Move where
  | own
  | work (task worker : Nat)
  | retire (task : Nat)
  deriving DecidableEq, Repr

/-- The thread for a path before its first step, with counters for so many sinks. -/
def start (path : String) (sinks : Nat) : Thread := ⟨path, .opening, .zero sinks, []⟩

/-- The report on the file. -/
def report (t : Thread) (error : Option Error) : FileReport :=
  ⟨t.path, t.tally.total, t.tally.success, error.map Error.message⟩

/-- The thread in another stage. -/
def go (t : Thread) (stage : Stage) : Thread := { t with stage }

variable (x : Setup) (file : Nat)

/-- What comes after opening the file. -/
def opened (path : String) : Stage :=
  match x.open? path with
  | .error error => .failing error
  | .ok content =>
    if content.isEmpty then .closing none
    else .sampling content (.start x.limits.validationSampleLines content)

/-- What comes after a sample that ended. -/
def sampled (path : String) (content : List UInt8) (s : Sampling) (ended : SampleEnd) : Stage :=
  match ended.fault? path x.limits.validationFailurePercent s.sampled s.failed with
  | some error => .failing error
  | none => .reading (.ofContent content)

/-- What comes after looking for a chunk. -/
def fetched (r : Remainder) : Stage :=
  match r.next? x.limits.chunkSizeBytes with
  | none => .joining
  | some (chunk, next) => .waiting chunk next

/-- A step of the thread itself, unless it has to wait. -/
def own (t : Thread) (b : Board) : Option (Thread × Board) :=
  match t.stage with
  | .opening => some (t.go (opened x t.path), b)
  | .sampling content s =>
    match s.look b.cancelled with
    | .error ended => some (t.go (sampled x t.path content s ended), b)
    | .ok line => some (t.go (.testing content s line), b)
  | .testing content s line =>
    match s.test x.audience file line b with
    | (.ok s, b) => some (t.go (.sampling content s), b)
    | (.error payload, b) => some (t.go (.failing (.ofPayload payload)), b)
  | .reading r => some (t.go (if b.cancelled then .joining else fetched x r), b)
  | .waiting chunk r => b.chunks.take?.map fun chunks =>
    (t.go (.starting chunk r), { b with chunks })
  | .starting chunk r =>
    some ({ t with
        stage := .reading r
        tasks := t.tasks ++ [.start x.limits.batchLines chunk] },
      { b with chunks := b.chunks.mark })
  | .joining => if t.tasks = [] then some (t.go (.closing none), b) else none
  | .failing error => some (t.go (.closing (some error)), b.write [⟨t.path, none, error⟩])
  | .closing error => some (t.go .leaving, b.report file (t.report error))
  | .leaving => some (t.go .ended, { b with files := b.files.leave })
  | .ended => none

/-- What a step of the thread itself does, one case for each way out of a stage. -/
inductive Turn (t : Thread) (b : Board) : Thread → Board → Prop where
  | openFile (hat : t.stage = .opening) : Turn t b (t.go (opened x t.path)) b
  /-- The sample ends before the next line. -/
  | judge {content : List UInt8} {s : Sampling} {ended : SampleEnd}
    (hat : t.stage = .sampling content s) (hlook : s.look b.cancelled = .error ended) :
    Turn t b (t.go (sampled x t.path content s ended)) b
  | look {content : List UInt8} {s : Sampling} {line : String}
    (hat : t.stage = .sampling content s) (hlook : s.look b.cancelled = .ok line) :
    Turn t b (t.go (.testing content s line)) b
  | test {content : List UInt8} {s s' : Sampling} {line : String} {b' : Board}
    (hat : t.stage = .testing content s line)
    (htest : s.test x.audience file line b = (.ok s', b')) :
    Turn t b (t.go (.sampling content s')) b'
  /-- The validator breaks off. -/
  | breakOff {content : List UInt8} {s : Sampling} {line : String} {payload : Payload} {b' : Board}
    (hat : t.stage = .testing content s line)
    (htest : s.test x.audience file line b = (.error payload, b')) :
    Turn t b (t.go (.failing (.ofPayload payload))) b'
  | stop {r : Remainder} (hat : t.stage = .reading r) (hcancelled : b.cancelled = true) :
    Turn t b (t.go .joining) b
  | fetch {r : Remainder} (hat : t.stage = .reading r) (hcalm : b.cancelled = false) :
    Turn t b (t.go (fetched x r)) b
  | pass {chunk : List UInt8} {r : Remainder} {chunks : Resource.Gate}
    (hat : t.stage = .waiting chunk r) (htake : b.chunks.take? = some chunks) :
    Turn t b (t.go (.starting chunk r)) { b with chunks }
  | spawn {chunk : List UInt8} {r : Remainder} (hat : t.stage = .starting chunk r) :
    Turn t b
      { t with
        stage := .reading r
        tasks := t.tasks ++ [.start x.limits.batchLines chunk] }
      { b with chunks := b.chunks.mark }
  | join (hat : t.stage = .joining) (htasks : t.tasks = []) : Turn t b (t.go (.closing none)) b
  | write {error : Error} (hat : t.stage = .failing error) :
    Turn t b (t.go (.closing (some error))) (b.write [⟨t.path, none, error⟩])
  | report {error : Option Error} (hat : t.stage = .closing error) :
    Turn t b (t.go .leaving) (b.report file (t.report error))
  | leave (hat : t.stage = .leaving) :
    Turn t b (t.go .ended) { b with files := b.files.leave }

/-- A step of a worker of a task. -/
def work (task worker : Nat) (t : Thread) (b : Board) : Option (Thread × Board) :=
  match t.tasks[task]? with
  | none => none
  | some k => (k.step x.audience file t.path worker ⟨b, t.tally⟩).map fun (k, d) =>
    ({ t with tally := d.tally, tasks := t.tasks.set task k }, d.board)

/-- A task ends and gives its place among the chunks back. -/
def retire (task : Nat) (t : Thread) (b : Board) : Option (Thread × Board) :=
  match t.tasks[task]? with
  | none => none
  | some k =>
    if k.finished then
      some ({ t with tasks := t.tasks.eraseIdx task }, { b with chunks := b.chunks.leave })
    else none

/-- Something happens in the thread, if it can. -/
def step (t : Thread) (b : Board) : Move → Option (Thread × Board)
  | .own => t.own x file b
  | .work task worker => work x file task worker t b
  | .retire task => retire task t b

/-- What happens next in the thread if its tasks go first. -/
def next? (t : Thread) : Option Move :=
  match t.tasks with
  | task :: _ =>
    match task.next? with
    | some worker => some (.work 0 worker)
    | none => some (.retire 0)
  | [] => if t.stage = .ended then none else some .own

end Thread

/-! ## What there is to do -/

/-- How far a stage is from the end. -/
def Stage.phase : Stage → Nat
  | opening => 7
  | sampling _ _ | testing _ _ _ => 6
  | reading _ | waiting _ _ | starting _ _ => 5
  | joining => 4
  | failing _ => 3
  | closing _ => 2
  | leaving => 1
  | ended => 0

/-- What there is to do at most within a phase. -/
def Stage.effort : Stage → Nat
  | sampling _ s => 2 * s.left
  | testing _ s _ => 2 * (s.left - 1) + 1
  | reading r => 3 * r.bytes.length
  | waiting _ r => 3 * r.bytes.length + 2
  | starting _ r => 3 * r.bytes.length + 1
  | _ => 0

/-- A stage is followed by one that is less far from the end, or has less to do. -/
def Stage.Before (stage stage' : Stage) : Prop :=
  stage'.phase < stage.phase ∨ (stage'.phase = stage.phase ∧ stage'.effort < stage.effort)

namespace Thread

/-- What the tasks of a thread have to do at most until they have ended. -/
def effort (sinks : Nat) (t : Thread) : Nat := sumOver (fun k => k.effort sinks + 1) t.tasks

variable {x : Setup} {file : Nat} {t t' : Thread} {b b' : Board}

/-- The stage of a thread is less far from the end, or the same with less to do for the tasks. -/
def Less (sinks : Nat) (t' t : Thread) : Prop :=
  t.stage.Before t'.stage ∨ (t'.stage = t.stage ∧ t'.effort sinks < t.effort sinks)

/-- What comes after opening the file has less to do. -/
theorem before_opened (path : String) : Stage.opening.Before (opened x path) := by
  unfold opened
  split
  · exact Or.inl (by simp [Stage.phase])
  · split <;> exact Or.inl (by simp [Stage.phase])

/-- What comes after a sample has less to do. -/
theorem before_sampled (path : String) (content : List UInt8) (s : Sampling) (ended : SampleEnd) :
    (Stage.sampling content s).Before (sampled x path content s ended) := by
  unfold sampled
  split <;> exact Or.inl (by simp [Stage.phase])

/-- What comes after looking for a chunk has less to do. -/
theorem before_fetched (r : Remainder) : (Stage.reading r).Before (fetched x r) := by
  unfold fetched
  split
  · exact Or.inl (by simp [Stage.phase])
  · rename_i chunk next hnext
    have hjoined := congrArg List.length (Remainder.next?_append hnext)
    have hchunk := List.length_pos_iff.2 (Remainder.next?_ne_nil hnext)
    rw [List.length_append] at hjoined
    refine Or.inr ⟨rfl, ?_⟩
    simp only [Stage.effort]
    omega

/-- Every step of a thread itself is one of its turns. -/
theorem turn_of_own (hown : t.own x file b = some (t', b')) : t.Turn x file b t' b' := by
  unfold own at hown
  cases hat : t.stage with simp only [hat] at hown
  | opening =>
    obtain ⟨rfl, rfl⟩ := Prod.mk.inj (Option.some.inj hown)
    exact .openFile hat
  | sampling content s =>
    split at hown <;> rename_i hlook <;> obtain ⟨rfl, rfl⟩ := Prod.mk.inj (Option.some.inj hown)
    · exact .judge hat hlook
    · exact .look hat hlook
  | testing content s line =>
    split at hown <;> rename_i htest <;> obtain ⟨rfl, rfl⟩ := Prod.mk.inj (Option.some.inj hown)
    · exact .test hat htest
    · exact .breakOff hat htest
  | reading r =>
    obtain ⟨rfl, rfl⟩ := Prod.mk.inj (Option.some.inj hown)
    cases hcancelled : b.cancelled with
    | true => exact .stop hat hcancelled
    | false => exact .fetch hat hcancelled
  | waiting chunk r =>
    obtain ⟨chunks, htake, hown⟩ := Option.map_eq_some_iff.1 hown
    obtain ⟨rfl, rfl⟩ := Prod.mk.inj hown
    exact .pass hat htake
  | starting chunk r =>
    obtain ⟨rfl, rfl⟩ := Prod.mk.inj (Option.some.inj hown)
    exact .spawn hat
  | joining =>
    split at hown
    · rename_i htasks
      obtain ⟨rfl, rfl⟩ := Prod.mk.inj (Option.some.inj hown)
      exact .join hat htasks
    · cases hown
  | failing error =>
    obtain ⟨rfl, rfl⟩ := Prod.mk.inj (Option.some.inj hown)
    exact .write hat
  | closing error =>
    obtain ⟨rfl, rfl⟩ := Prod.mk.inj (Option.some.inj hown)
    exact .report hat
  | leaving =>
    obtain ⟨rfl, rfl⟩ := Prod.mk.inj (Option.some.inj hown)
    exact .leave hat
  | ended => cases hown

/-- Every turn of a thread takes it to a stage with less to do. -/
theorem Turn.before (h : t.Turn x file b t' b') : t.stage.Before t'.stage := by
  cases h with
  | openFile hat => exact hat ▸ before_opened t.path
  | judge hat => exact hat ▸ before_sampled t.path _ _ _
  | look hat hlook =>
    have hleft := Sampling.left_pos_of_look hlook
    refine Or.inr (hat ▸ ⟨rfl, ?_⟩)
    simp only [go, Stage.effort]
    omega
  | test hat htest =>
    refine Or.inr (hat ▸ ⟨rfl, ?_⟩)
    simp only [go, Stage.effort, Sampling.left_of_test htest]
    omega
  | fetch hat => exact hat ▸ before_fetched _
  | pass hat | spawn hat => exact Or.inr (hat ▸ ⟨rfl, by simp [go, Stage.effort]⟩)
  | breakOff hat | stop hat | join hat | write hat | report hat | leave hat =>
    exact Or.inl (hat ▸ by simp [go, Stage.phase])

/-- Whatever happens in a thread leaves less to do. -/
theorem step_less {m : Move} (h : t.step x file b m = some (t', b')) :
    Less x.audience.sinks t' t := by
  cases m with
  | own => exact Or.inl (turn_of_own h).before
  | work task worker =>
    simp only [step, work] at h
    split at h
    · exact absurd h (by simp)
    · rename_i k hk
      obtain ⟨⟨k', d⟩, hstep, h⟩ := Option.map_eq_some_iff.1 h
      obtain ⟨rfl, -⟩ := Prod.mk.inj h
      have hless := Task.step_effort hstep
      have hsum := sumOver_set (fun k => k.effort x.audience.sinks + 1) hk k'
      refine Or.inr ⟨rfl, ?_⟩
      simp only [effort]
      omega
  | retire task =>
    simp only [step, retire] at h
    split at h
    · exact absurd h (by simp)
    · rename_i k hk
      split at h
      · obtain ⟨rfl, -⟩ := Prod.mk.inj (Option.some.inj h)
        have hsum := sumOver_eraseIdx (fun k => k.effort x.audience.sinks + 1) hk
        refine Or.inr ⟨rfl, ?_⟩
        simp only [effort]
        omega
      · exact absurd h (by simp)

end Thread

end LogAudit.Ingest
