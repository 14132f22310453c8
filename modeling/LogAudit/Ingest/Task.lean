import LogAudit.Ingest.Board
import LogAudit.Text.Utf8

/-!
# Tasks

A task delivers the lines of a chunk. Its lines are cut into batches, and up to four workers take
one batch after the other off a common cursor. The steps of a worker are those that another thread
can see: to look at the flag, to move the cursor, to count, to ask a sink, and to write failures
down. Every step leaves less to do (`Task.step_effort`).
-/

namespace LogAudit.Ingest

open LogAudit.Text

/-! ## Sums -/

/-- What some items come to together. -/
def sumOver {α : Type} (f : α → Nat) : List α → Nat
  | [] => 0
  | item :: items => f item + sumOver f items

section Sums

variable {α : Type} (f : α → Nat) {items : List α} {i : Nat} {item : α}

/-- A sum changes by what changes in one place. -/
theorem sumOver_set (h : items[i]? = some item) (other : α) :
    sumOver f (items.set i other) + f item = sumOver f items + f other := by
  induction items generalizing i with
  | nil => simp at h
  | cons first items ih =>
    cases i with
    | zero =>
      obtain rfl : first = item := by simpa using h
      simp only [List.set_cons_zero, sumOver]
      omega
    | succ i =>
      have hrest := ih (by simpa using h)
      simp only [List.set_cons_succ, sumOver]
      omega

/-- A sum loses what is taken out of one place. -/
theorem sumOver_eraseIdx (h : items[i]? = some item) :
    sumOver f (items.eraseIdx i) + f item = sumOver f items := by
  induction items generalizing i with
  | nil => simp at h
  | cons first items ih =>
    cases i with
    | zero =>
      obtain rfl : first = item := by simpa using h
      simp only [List.eraseIdx_zero, List.tail_cons, sumOver]
      omega
    | succ i =>
      have hrest := ih (by simpa using h)
      simp only [List.eraseIdx_cons_succ, sumOver]
      omega

end Sums

/-! ## Workers -/

/-- Lines of a batch that are still to be delivered, and the failures of those before. -/
structure Batch where
  failures : List (String × Error)
  lines : List String
  deriving DecidableEq, Repr

/-- What a worker is about to do. -/
inductive Worker where
  /-- Look whether the run is cancelled before it takes a batch. -/
  | resting
  /-- Take the next batch. -/
  | reaching
  /-- Look whether the run is cancelled before it delivers a line. -/
  | delivering (batch : Batch)
  /-- Count a line. -/
  | counting (line : String) (batch : Batch)
  /-- Ask the next sink, after those that have answered. -/
  | asking (line : String) (answers : List (Option Error)) (batch : Batch)
  /-- Count the success of the sink after those that have answered. -/
  | crediting (line : String) (answers : List (Option Error)) (batch : Batch)
  /-- Write down what failed in a batch. -/
  | recording (failures : List (String × Error))
  /-- Nothing more. -/
  | ended
  deriving DecidableEq, Repr

/-- What the workers on a file share: the board of the run and the counters of the file. -/
structure Desk where
  board : Board
  tally : Tally
  deriving DecidableEq, Repr

namespace Worker

variable (a : Audience) (file : Nat) (path : String)

/-- Ask the next sink, or finish the line. -/
def ask (line : String) (answers : List (Option Error)) (batch : Batch) (d : Desk) :
    Worker × Desk :=
  if answers.length < a.sinks then
    let (stop?, board) := d.board.ask a file (.sink answers.length) line
    match stop? with
    | none => (crediting line answers batch, { d with board })
    | some (.refused cause) => (asking line (answers ++ [some cause]) batch, { d with board })
    | some (.panicked payload) =>
      (recording batch.failures, { d with board := board.note file ⟨line, answers, some payload⟩ })
  else
    let delivery : Delivery := ⟨line, answers, none⟩
    (delivering { batch with failures := batch.failures ++ refusals [delivery] },
      { d with board := d.board.note file delivery })

/-- A step of a worker that does not move the cursor. -/
def step (d : Desk) : Worker → Worker × Desk
  | resting => (if d.board.cancelled then ended else reaching, d)
  | delivering ⟨failures, []⟩ => (recording failures, d)
  | delivering ⟨failures, line :: lines⟩ =>
    if d.board.cancelled then (recording failures, d)
    else if skipped line then (delivering ⟨failures, lines⟩, d)
    else (counting line ⟨failures, lines⟩, d)
  | counting line batch => (asking line [] batch, { d with tally := d.tally.count })
  | asking line answers batch => ask a file line answers batch d
  | crediting line answers batch =>
    (asking line (answers ++ [none]) batch, { d with tally := d.tally.credit answers.length })
  | recording failures =>
    (resting, { d with board := d.board.write (failures.map fun (line, cause) =>
      ⟨path, some line, cause⟩) })
  | reaching => (reaching, d)
  | ended => (ended, d)

/-- More than what the delivery of a line to so many sinks takes. -/
def cost (sinks : Nat) : Nat := 2 * sinks + 9

/-- What a worker has to do at most until it ends, unless it takes another batch. -/
def effort (sinks : Nat) : Worker → Nat
  | ended => 0
  | reaching => 1
  | resting => 2
  | recording _ => 3
  | delivering batch => batch.lines.length * cost sinks + 4
  | asking _ answers batch => batch.lines.length * cost sinks + 2 * (sinks - answers.length) + 6
  | crediting _ answers batch =>
    batch.lines.length * cost sinks + 2 * (sinks - (answers.length + 1)) + 7
  | counting _ batch => batch.lines.length * cost sinks + 2 * sinks + 7

/-- Every step of a worker leaves less to do. -/
theorem step_effort (d : Desk) {w : Worker} (hreaching : w ≠ reaching) (hended : w ≠ ended) :
    (w.step a file path d).1.effort a.sinks < w.effort a.sinks := by
  cases w with
  | resting =>
    simp only [step]
    split <;> simp [effort]
  | delivering batch =>
    obtain ⟨failures, lines⟩ := batch
    cases lines with
    | nil => simp [step, effort]
    | cons line lines =>
      have hcost : (lines.length + 1) * cost a.sinks = lines.length * cost a.sinks + cost a.sinks :=
        Nat.succ_mul _ _
      have hmore : 2 * a.sinks + 7 < cost a.sinks := by rw [cost]; omega
      simp only [step]
      split
      · simp [effort]
      · split <;> simp only [effort, List.length_cons, hcost] <;> omega
  | counting line batch => simp [step, effort]
  | asking line answers batch =>
    simp only [step, ask]
    split
    · split <;> simp only [effort, List.length_append, List.length_singleton] <;> omega
    · simp only [effort]
      omega
  | crediting line answers batch => simp [step, effort]
  | recording failures => simp [step, effort]
  | reaching => exact absurd rfl hreaching
  | ended => exact absurd rfl hended

end Worker

/-! ## Tasks and their workers -/

/-- The lines of a chunk with those who deliver them. -/
structure Task where
  lines : List String
  /-- How many lines make a batch; none counts as one. -/
  batchLines : Nat
  /-- The cursor: the number of the next batch. -/
  next : Nat
  workers : List Worker
  deriving DecidableEq, Repr

namespace Task

/-- The most workers that a task has. -/
def maxWorkers : Nat := 4

/-- How many lines make a batch. -/
def size (t : Task) : Nat := max t.batchLines 1

/-- How many batches there are. -/
def batches (t : Task) : Nat := (t.lines.length + t.size - 1) / t.size

/-- The lines of the batches that nobody has taken. -/
def unclaimed (t : Task) : List String := t.lines.drop (t.next * t.size)

/-- The task of a chunk. -/
def start (batchLines : Nat) (chunk : List UInt8) : Task :=
  let t : Task := ⟨mergeContinuations (Utf8.decodeLossy chunk), batchLines, 0, []⟩
  { t with workers := List.replicate (min t.batches maxWorkers) .resting }

/-- What a worker that takes the next batch is about to do then. -/
def claim (t : Task) : Worker :=
  if t.next < t.batches then .delivering ⟨[], t.unclaimed.take t.size⟩ else .ended

/-- A step of the worker with a number, if it has one to do. -/
def step (a : Audience) (file : Nat) (path : String) (worker : Nat) (t : Task) (d : Desk) :
    Option (Task × Desk) :=
  match t.workers[worker]? with
  | none => none
  | some .ended => none
  | some .reaching =>
    some ({ t with next := t.next + 1, workers := t.workers.set worker t.claim }, d)
  | some w =>
    let (w, d) := w.step a file path d
    some ({ t with workers := t.workers.set worker w }, d)

/-- All workers have ended. -/
def finished (t : Task) : Bool := t.workers.all (· == .ended)

/-- The first worker that has something to do. -/
def next? (t : Task) : Option Nat := t.workers.findIdx? (· != .ended)

/-- What a task has to do at most until it is finished. -/
def effort (sinks : Nat) (t : Task) : Nat :=
  t.unclaimed.length * (Worker.cost sinks + 4) + sumOver (Worker.effort sinks) t.workers

/-- There is a batch to take as long as there are lines that nobody has taken. -/
theorem next_lt_batches {t : Task} : t.next < t.batches ↔ t.next * t.size < t.lines.length := by
  have hsize : 0 < t.size := by rw [size]; omega
  rw [batches, Nat.lt_iff_add_one_le, Nat.le_div_iff_mul_le hsize, Nat.succ_mul]
  omega

/-- Who takes a batch leaves the lines after it. -/
theorem unclaimed_next (t : Task) (workers : List Worker) :
    ({ t with next := t.next + 1, workers } : Task).unclaimed = t.unclaimed.drop t.size := by
  simp only [unclaimed, size, List.drop_drop, Nat.succ_mul]

/-- In a step of a task either a worker takes the next batch, or a worker does something else. -/
theorem step_cases {a : Audience} {file : Nat} {path : String} {worker : Nat} {t t' : Task}
    {d d' : Desk} (h : t.step a file path worker d = some (t', d')) :
    (t.workers[worker]? = some .reaching ∧ d' = d ∧
      t' = { t with next := t.next + 1, workers := t.workers.set worker t.claim }) ∨
    ∃ w, t.workers[worker]? = some w ∧ w ≠ .reaching ∧ w ≠ .ended ∧
      d' = (w.step a file path d).2 ∧
      t' = { t with workers := t.workers.set worker (w.step a file path d).1 } := by
  unfold step at h
  split at h
  · exact absurd h (by simp)
  · exact absurd h (by simp)
  · obtain ⟨rfl, rfl⟩ := Prod.mk.inj (Option.some.inj h)
    exact Or.inl ⟨‹_›, rfl, rfl⟩
  · rename_i w hended hreaching hworker
    obtain ⟨rfl, rfl⟩ := Prod.mk.inj (Option.some.inj h)
    refine Or.inr ⟨w, hworker, ?_, ?_, rfl, rfl⟩
    · rintro rfl
      exact hreaching rfl
    · rintro rfl
      exact hended rfl

/-- Who takes a batch has less to do than there was to do for all. -/
theorem claim_effort (t : Task) (sinks : Nat) :
    (t.unclaimed.drop t.size).length * (Worker.cost sinks + 4) + t.claim.effort sinks <
      t.unclaimed.length * (Worker.cost sinks + 4) + 1 := by
  have hlines : t.unclaimed.length = (t.unclaimed.take t.size).length +
      (t.unclaimed.drop t.size).length := by
    rw [← List.length_append, List.take_append_drop]
  rw [hlines, Nat.add_mul]
  by_cases hnext : t.next < t.batches
  · have hbatch : 0 < (t.unclaimed.take t.size).length := by
      have hlt := next_lt_batches.1 hnext
      simp only [List.length_take, unclaimed, List.length_drop, size] at hlt ⊢
      omega
    have hmore := Nat.mul_add (t.unclaimed.take t.size).length (Worker.cost sinks) 4
    simp only [claim, if_pos hnext, Worker.effort]
    omega
  · rw [claim, if_neg hnext, Worker.effort]
    omega

/-- Every step of a task leaves less to do. -/
theorem step_effort {a : Audience} {file : Nat} {path : String} {worker : Nat} {t t' : Task}
    {d d' : Desk} (h : t.step a file path worker d = some (t', d')) :
    t'.effort a.sinks < t.effort a.sinks := by
  rcases step_cases h with ⟨hworker, -, rfl⟩ | ⟨w, hworker, hreaching, hended, -, rfl⟩
  · have hless := claim_effort t a.sinks
    have hsum := sumOver_set (Worker.effort a.sinks) hworker t.claim
    have hone : Worker.effort a.sinks .reaching = 1 := rfl
    simp only [effort, unclaimed_next]
    omega
  · have hless := Worker.step_effort a file path d hreaching hended
    have hsum := sumOver_set (Worker.effort a.sinks) hworker (w.step a file path d).1
    have hsame : ({ t with workers := t.workers.set worker (w.step a file path d).1 } :
        Task).unclaimed = t.unclaimed := rfl
    simp only [effort, hsame]
    omega

/-- Let the first worker that can go on do so, until all have ended. -/
def finish (a : Audience) (file : Nat) (path : String) (t : Task) (d : Desk) : Task × Desk :=
  match t.next? with
  | none => (t, d)
  | some worker =>
    match _stepped : t.step a file path worker d with
    | none => (t, d)
    | some (t', d') => finish a file path t' d'
termination_by t.effort a.sinks
decreasing_by exact step_effort _stepped

end Task

/-- What became of the lines of a chunk, and whether the run is cancelled afterwards. -/
structure Progress where
  deliveries : List Delivery
  cancelled : Bool
  deriving DecidableEq, Repr

/-- Deliver the lines of a chunk, one batch after the other. -/
def deliverChunk (sinks : List Sink) (batchLines : Nat) (cancelled : Bool) (chunk : List UInt8) :
    Progress :=
  let desk : Desk := ⟨.start cancelled 1 1, .zero sinks.length⟩
  let board := ((Task.start batchLines chunk).finish (.ofSinks .all sinks) 0 "" desk).2.board
  ⟨board.deliveries.reverse.map Prod.snd, board.cancelled⟩

end LogAudit.Ingest
