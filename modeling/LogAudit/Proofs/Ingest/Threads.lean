import LogAudit.Ingest.File
import LogAudit.Proofs.Ingest.Posts

/-!
# Threads of files

What the thread of a file has established so far is told by its stage (`Thread.AtStage`): nothing
has arrived before the file is admitted, and once it is, what has arrived at a post, what the tasks
owe and what is still to be read make up all lines of the content. Everything that happens in the
thread preserves this (`Thread.Fits.step`), and what happens in other threads does not touch it.
-/

namespace LogAudit.Ingest

/-! ## Which files are delivered -/

/-- What the validator left behind where it broke off. -/
def payloadIn? (answers : List (Option Stop)) : Option Payload :=
  answers.findSome? fun
    | some (.panicked payload) => some payload
    | _ => none

namespace Setup

variable (x : Setup)

/-- What is wrong with a file by the answers of the validator to its sample. -/
def gateFault? (path : String) (answers : List (Option Stop)) : Option Error :=
  match payloadIn? answers with
  | some payload => some (.ofPayload payload)
  | none => sampleFault? path x.limits.validationFailurePercent answers.length
      (answers.countP Option.isSome)

/-- The content of a file that passes the check of its size and, unless it is empty, the validation
by these answers, or why it does not pass. -/
def admitted (path : String) (answers : List (Option Stop)) : Except Error (List UInt8) :=
  match x.open? path with
  | .error error => .error error
  | .ok content =>
    if content.isEmpty then .ok content
    else match x.gateFault? path answers with
      | some error => .error error
      | none => .ok content

variable {x} {path : String} {answers : List (Option Stop)} {content : List UInt8}

/-- A file that cannot be opened is not admitted. -/
theorem admitted_of_error {error : Error} (h : x.open? path = .error error) :
    x.admitted path answers = .error error := by
  rw [admitted, h]

/-- An empty file is admitted. -/
theorem admitted_of_empty (h : x.open? path = .ok content) (hempty : content = []) :
    x.admitted path answers = .ok content := by
  subst hempty
  rw [admitted, h]
  rfl

/-- A file with content is admitted if its sample lets it through. -/
theorem admitted_of_ne_nil (h : x.open? path = .ok content) (hne : content ≠ []) :
    x.admitted path answers =
      (match x.gateFault? path answers with
      | some error => .error error
      | none => .ok content) := by
  have hempty : content.isEmpty = false := by simpa using hne
  rw [admitted, h]
  simp only [hempty, Bool.false_eq_true, if_false]

end Setup

/-! ## What a thread has established -/

/-- The lines that are to be read yet. -/
def Stage.lines : Stage → List String
  | reading r => logicalLines r.bytes
  | waiting chunk r | starting chunk r => logicalLines chunk ++ logicalLines r.bytes
  | _ => []

/-- The stages at which there may be tasks. -/
def Stage.delivers : Stage → Bool
  | reading _ | waiting _ _ | starting _ _ | joining => true
  | _ => false

/-- A sample has counted the answers of the validator, which did not break off. -/
structure Sampling.Counts (s : Sampling) (answers : List (Option Stop)) : Prop where
  sampled : s.sampled = answers.length
  failed : s.failed = answers.countP Option.isSome
  unbroken : payloadIn? answers = none

namespace Sampling.Counts

variable {s : Sampling} {answers : List (Option Stop)}

/-- A line that is accepted counts for the sample. -/
theorem accepted (h : s.Counts answers) : (s.take false).Counts (none :: answers) where
  sampled := congrArg (· + 1) h.sampled
  failed := by
    rw [List.countP_cons_of_neg (by simp), ← h.failed]
    rfl
  unbroken := h.unbroken

/-- A line that is refused counts against the sample. -/
theorem refused (h : s.Counts answers) (cause : Error) :
    (s.take true).Counts (some (.refused cause) :: answers) where
  sampled := congrArg (· + 1) h.sampled
  failed := by
    rw [List.countP_cons_of_pos (by simp), ← h.failed]
    rfl
  unbroken := h.unbroken

end Sampling.Counts

namespace Thread

variable (x : Setup) (t : Thread) (events : List Event)

/-- Nothing has been delivered. -/
structure Untouched : Prop where
  tasks : t.tasks = []
  arrived : ∀ post : Post, post.Valid x.audience → post.arrived events t.tally = 0

/-- What has arrived, what the tasks owe and what is to be read yet are the lines of a content. -/
structure Covers (content : List UInt8) : Prop where
  sound : ∀ k ∈ t.tasks, k.Sound
  conserved : ∀ post : Post, post.Valid x.audience →
    post.arrived events t.tally +
      (t.stage.lines.countP post.counts + sumOver (Task.owes post) t.tasks) =
        (logicalLines content).countP post.counts

/-- The file is a sampled one, and nothing has been delivered. -/
structure Samples (content : List UInt8) (s : Sampling) : Prop where
  opened : x.open? t.path = .ok content
  nonempty : content ≠ []
  counts : s.Counts (answersIn events)
  untouched : t.Untouched x events

/-- The file is admitted and its lines are covered. -/
def Delivers : Prop :=
  ∃ content, x.admitted t.path (answersIn events) = .ok content ∧ t.Covers x events content

/-- The work on the file has ended with all its lines delivered, or with an error and none. -/
def Concludes : Option Error → Prop
  | none => t.tasks = [] ∧ t.Delivers x events
  | some error => t.Untouched x events ∧ x.admitted t.path (answersIn events) = .error error

/-- What is established at a stage, by what was asked for the file and the reports on it. -/
def AtStage (reports : List FileReport) : Stage → Prop
  | .opening => reports = [] ∧ answersIn events = [] ∧ t.Untouched x events
  | .sampling content s | .testing content s _ => reports = [] ∧ t.Samples x events content s
  | .reading _ | .waiting _ _ | .starting _ _ | .joining => reports = [] ∧ t.Delivers x events
  | .failing error => reports = [] ∧ t.Concludes x events (some error)
  | .closing error => reports = [] ∧ t.Concludes x events error
  | .leaving | .ended => ∃ error, reports = [t.report error] ∧ t.Concludes x events error

/-- A thread is where it should be. -/
structure Fits (reports : List FileReport) : Prop where
  success : t.tally.success.length = x.audience.sinks
  atStage : t.AtStage x events reports t.stage

end Thread

namespace Thread

variable {x : Setup} {file : Nat} {t t' : Thread} {b b' : Board}

/-! ## What can happen in a thread -/

/-- In a step of a thread either the thread itself does something, or a worker of one of its tasks
does, or a task that is finished is given up. -/
theorem step_cases {m : Move} (h : t.step x file b m = some (t', b')) :
    t.own x file b = some (t', b') ∨
    (∃ (task worker : Nat) (k k' : Task) (d : Desk), t.tasks[task]? = some k ∧
      k.step x.audience file t.path worker ⟨b, t.tally⟩ = some (k', d) ∧
      t' = { t with tally := d.tally, tasks := t.tasks.set task k' } ∧ b' = d.board) ∨
    ∃ (task : Nat) (k : Task), t.tasks[task]? = some k ∧ k.finished = true ∧
      t' = { t with tasks := t.tasks.eraseIdx task } ∧
      b' = { b with chunks := b.chunks.leave } := by
  cases m with
  | own => exact Or.inl h
  | work task worker =>
    simp only [Thread.step, Thread.work] at h
    split at h
    · exact absurd h (by simp)
    · rename_i k hk
      obtain ⟨⟨k', d⟩, hwork, h⟩ := Option.map_eq_some_iff.1 h
      obtain ⟨rfl, rfl⟩ := Prod.mk.inj h
      exact Or.inr (Or.inl ⟨task, worker, k, k', d, hk, hwork, rfl, rfl⟩)
  | retire task =>
    simp only [Thread.step, Thread.retire] at h
    split at h
    · exact absurd h (by simp)
    · rename_i k hk
      split at h
      · obtain ⟨rfl, rfl⟩ := Prod.mk.inj (Option.some.inj h)
        exact Or.inr (Or.inr ⟨task, k, hk, ‹_›, rfl, rfl⟩)
      · exact absurd h (by simp)

/-- What a thread itself can do to the board. -/
inductive Effect (x : Setup) (file : Nat) (t : Thread) (b : Board) : Board → Prop where
  | nothing : Effect x file t b b
  | ask (line : String) : Effect x file t b (b.ask x.audience file .validator line).2
  | pass (chunks : Resource.Gate) : Effect x file t b { b with chunks }
  | write (error : Error) : Effect x file t b (b.write [⟨t.path, none, error⟩])
  | report (error : Option Error) : Effect x file t b (b.report file (t.report error))
  | leave (files : Resource.Gate) : Effect x file t b { b with files }

/-- A thread itself goes to another stage, and only between passing the gate for chunks and reading
on does it start a task. -/
theorem own_cases (hown : t.own x file b = some (t', b')) :
    (∃ stage, t' = t.go stage ∧ Effect x file t b b') ∨
    ∃ chunk r, t' = { t with
      stage := .reading r
      tasks := t.tasks ++ [.start x.limits.batchLines chunk] } ∧
      b' = { b with chunks := b.chunks.mark } := by
  cases turn_of_own hown with
  | test hat htest | breakOff hat htest =>
    exact Or.inl ⟨_, rfl, Sampling.board_of_test htest ▸ .ask _⟩
  | pass hat htake => exact Or.inl ⟨_, rfl, .pass _⟩
  | spawn hat => exact Or.inr ⟨_, _, rfl, rfl⟩
  | write hat => exact Or.inl ⟨_, rfl, .write _⟩
  | report hat => exact Or.inl ⟨_, rfl, .report _⟩
  | leave hat => exact Or.inl ⟨_, rfl, .leave _⟩
  | _ => exact Or.inl ⟨_, rfl, .nothing⟩

/-! ## Steps of the thread itself -/

/-- At the start nothing has been asked or reported. -/
theorem fits_start (path : String) : (start path x.audience.sinks).Fits x [] [] where
  success := List.length_replicate
  atStage := by
    refine ⟨rfl, rfl, rfl, ?_⟩
    intro post hpost
    cases post with
    | counter => rfl
    | sink number kind => rfl
    | success number kind =>
      simp only [Post.arrived, start, Tally.zero, List.getElem?_replicate]
      split <;> rfl

theorem Untouched.go {events : List Event} (h : t.Untouched x events) (stage : Stage) :
    (t.go stage).Untouched x events := ⟨h.tasks, h.arrived⟩

theorem Samples.go {events : List Event} {content : List UInt8} {s : Sampling}
    (h : t.Samples x events content s) (stage : Stage) : (t.go stage).Samples x events content s :=
  ⟨h.opened, h.nonempty, h.counts, h.untouched.go stage⟩

/-- Before the first line, an admitted content is covered by what is to be read. -/
theorem Untouched.covers {events : List Event} {content : List UInt8} (h : t.Untouched x events)
    {stage : Stage} (hlines : stage.lines = logicalLines content) :
    (t.go stage).Covers x events content where
  sound := by
    intro k hk
    rw [Thread.go, h.tasks] at hk
    exact absurd hk List.not_mem_nil
  conserved := by
    intro post hpost
    have harrived := h.arrived post hpost
    simp only [Thread.go, hlines, h.tasks, sumOver] at harrived ⊢
    omega

/-- What comes after opening the file fits. -/
theorem atStage_opened {events : List Event} (h : t.Untouched x events)
    (hanswers : answersIn events = []) :
    (t.go (opened x t.path)).AtStage x events [] (opened x t.path) := by
  unfold opened
  split
  · rename_i error hopen
    exact ⟨rfl, h.go _, Setup.admitted_of_error hopen⟩
  · rename_i content hopen
    split
    · rename_i hempty
      have hnil : content = [] := List.isEmpty_iff.1 hempty
      refine ⟨rfl, h.tasks, content, Setup.admitted_of_empty hopen hnil, h.covers ?_⟩
      rw [hnil, logicalLines_nil]
      rfl
    · rename_i hne
      refine ⟨rfl, hopen, fun hnil => hne (List.isEmpty_iff.2 hnil), ?_, h.go _⟩
      rw [hanswers]
      exact ⟨rfl, rfl, rfl⟩

/-- What comes after a sample that was not cut short fits. -/
theorem atStage_sampled {events : List Event} {content : List UInt8} {s : Sampling}
    (h : t.Samples x events content s) {ended : SampleEnd} (hended : s.look false = .error ended) :
    (t.go (sampled x t.path content s ended)).AtStage x events []
      (sampled x t.path content s ended) := by
  have hfinished : ended = .finished := by
    unfold Sampling.look at hended
    split at hended
    · exact (Except.error.inj hended).symm
    · rw [if_neg (by simp)] at hended
      split at hended
      · exact (Except.error.inj hended).symm
      · exact absurd hended (by simp)
  have hadmitted :=
    @Setup.admitted_of_ne_nil x t.path (answersIn events) content h.opened h.nonempty
  rw [Setup.gateFault?, h.counts.unbroken] at hadmitted
  unfold sampled
  rw [hfinished, SampleEnd.fault?, h.counts.sampled, h.counts.failed]
  split <;> rename_i hfault <;> rw [hfault] at hadmitted
  · exact ⟨rfl, h.untouched.go _, hadmitted⟩
  · exact ⟨rfl, content, hadmitted, h.untouched.covers rfl⟩

/-- The validator takes nothing to any post. -/
theorem Untouched.validator {events : List Event} (h : t.Untouched x events) (file : Nat)
    (line : String) (stop? : Option Stop) :
    t.Untouched x (⟨file, .validator, line, stop?⟩ :: events) where
  tasks := h.tasks
  arrived := by
    intro post hpost
    rw [← h.arrived post hpost]
    cases post <;> rfl

/-- The answer of the validator to a line of the sample is counted. -/
theorem Samples.test {content : List UInt8} {s s' : Sampling} {line : String}
    (h : t.Samples x (b.eventsOf file) content s)
    (htest : s.test x.audience file line b = (.ok s', b')) :
    t.Samples x (b'.eventsOf file) content s' := by
  have hevents := b.eventsOf_ask x.audience file .validator line
  simp only [Sampling.test] at htest
  generalize b.ask x.audience file .validator line = asked at htest hevents
  obtain ⟨stop?, board⟩ := asked
  rcases stop? with _ | cause | payload
  · obtain ⟨hs, rfl⟩ := Prod.mk.inj htest
    obtain rfl := Except.ok.inj hs
    rw [hevents]
    exact ⟨h.opened, h.nonempty, h.counts.accepted, h.untouched.validator _ _ _⟩
  · obtain ⟨hs, rfl⟩ := Prod.mk.inj htest
    obtain rfl := Except.ok.inj hs
    rw [hevents]
    exact ⟨h.opened, h.nonempty, h.counts.refused cause, h.untouched.validator _ _ _⟩
  · exact absurd (Prod.mk.inj htest).1 (by simp)

/-- A file on which the validator breaks off is not admitted. -/
theorem Samples.broken {content : List UInt8} {s : Sampling} {line : String} {payload : Payload}
    (h : t.Samples x (b.eventsOf file) content s)
    (htest : s.test x.audience file line b = (.error payload, b')) :
    t.Concludes x (b'.eventsOf file) (some (.ofPayload payload)) := by
  have hevents := b.eventsOf_ask x.audience file .validator line
  simp only [Sampling.test] at htest
  generalize b.ask x.audience file .validator line = asked at htest hevents
  obtain ⟨stop?, board⟩ := asked
  rcases stop? with _ | cause | payload'
  · exact absurd (Prod.mk.inj htest).1 (by simp)
  · exact absurd (Prod.mk.inj htest).1 (by simp)
  · obtain ⟨hpayload, rfl⟩ := Prod.mk.inj htest
    obtain rfl := Except.error.inj hpayload
    rw [hevents]
    refine ⟨h.untouched.validator _ _ _, ?_⟩
    rw [Setup.admitted_of_ne_nil h.opened h.nonempty]
    rfl

/-- The validator leaves the reports alone. -/
theorem reportsOf_test {s : Sampling} {line : String} {answer : Except Payload Sampling}
    (htest : s.test x.audience file line b = (answer, b')) :
    b'.reportsOf file = b.reportsOf file := by
  rw [Sampling.board_of_test htest]
  rfl

/-- What remains to be read at the next stage is what remained before it looked for a chunk. -/
theorem lines_fetched (r : Remainder) : (fetched x r).lines = logicalLines r.bytes := by
  unfold fetched
  split
  · rename_i hnone
    have hbytes : r.bytes = [] := by
      simp only [Remainder.next?] at hnone
      split at hnone
      · rename_i hopening
        rw [Remainder.opening, List.append_eq_nil_iff, List.take_eq_nil_iff] at hopening
        rw [Remainder.bytes, hopening.1, hopening.2.resolve_left (by omega), List.append_nil]
      · exact absurd hnone (by simp)
    rw [hbytes, logicalLines_nil]
    rfl
  · rename_i chunk next hnext
    exact (Remainder.logicalLines_next? hnext).symm

/-- A thread covers a content at every stage with the same lines to be read. -/
theorem Covers.go {events : List Event} {content : List UInt8} (h : t.Covers x events content)
    {stage : Stage} (hlines : stage.lines = t.stage.lines) :
    (t.go stage).Covers x events content where
  sound := h.sound
  conserved := by
    intro post hpost
    rw [Thread.go, hlines]
    exact h.conserved post hpost

theorem Concludes.go {events : List Event} {error : Option Error}
    (h : t.Concludes x events error) {stage : Stage} (hlines : stage.lines = t.stage.lines) :
    (t.go stage).Concludes x events error := by
  cases error with
  | none =>
    obtain ⟨htasks, content, hadmitted, hcovers⟩ := h
    exact ⟨htasks, content, hadmitted, hcovers.go hlines⟩
  | some error => exact ⟨h.1.go stage, h.2⟩

/-- The lines of a chunk pass from what is to be read to a task. -/
theorem Covers.spawn {events : List Event} {content chunk : List UInt8} {r : Remainder}
    (h : t.Covers x events content) (hstage : t.stage = .starting chunk r) (batchLines : Nat) :
    ({ t with stage := .reading r, tasks := t.tasks ++ [.start batchLines chunk] } :
      Thread).Covers x events content where
  sound := by
    intro k hk
    rcases List.mem_append.1 hk with hk | hk
    · exact h.sound k hk
    · rw [List.mem_singleton.1 hk]
      exact Task.sound_start batchLines chunk
  conserved := by
    intro post hpost
    have hconserved := h.conserved post hpost
    rw [hstage] at hconserved
    simp only [Stage.lines, List.countP_append] at hconserved
    simp only [Stage.lines, sumOver_append, sumOver, Task.owes_start]
    omega

/-- A step of the thread itself takes it to a stage where it fits. -/
theorem Fits.own (h : t.Fits x (b.eventsOf file) (b.reportsOf file)) (hcalm : b.cancelled = false)
    (hown : t.own x file b = some (t', b')) : t'.Fits x (b'.eventsOf file) (b'.reportsOf file) := by
  obtain ⟨hsuccess, hstage⟩ := h
  cases turn_of_own hown with
  | openFile hat =>
    rw [hat] at hstage
    obtain ⟨hreports, hanswers, huntouched⟩ := hstage
    exact ⟨hsuccess, hreports ▸ atStage_opened huntouched hanswers⟩
  | judge hat hlook =>
    rw [hat] at hstage
    rw [hcalm] at hlook
    obtain ⟨hreports, hsamples⟩ := hstage
    exact ⟨hsuccess, hreports ▸ atStage_sampled hsamples hlook⟩
  | look hat hlook =>
    rw [hat] at hstage
    exact ⟨hsuccess, hstage.1, hstage.2.go _⟩
  | test hat htest =>
    rw [hat] at hstage
    obtain ⟨hreports, hsamples⟩ := hstage
    exact ⟨hsuccess, (reportsOf_test htest).trans hreports, (hsamples.test htest).go _⟩
  | breakOff hat htest =>
    rw [hat] at hstage
    obtain ⟨hreports, hsamples⟩ := hstage
    exact ⟨hsuccess, (reportsOf_test htest).trans hreports,
      (hsamples.broken htest).go (hat ▸ rfl)⟩
  | stop hat hcancelled => exact absurd (hcalm.symm.trans hcancelled) nofun
  | @fetch r hat =>
    rw [hat] at hstage
    obtain ⟨hreports, content, hadmitted, hcovers⟩ := hstage
    have hlines : (fetched x r).lines = t.stage.lines := by
      rw [lines_fetched, hat]
      rfl
    have hgo := hcovers.go hlines
    refine ⟨hsuccess, ?_⟩
    unfold fetched at hgo ⊢
    split at hgo <;> exact ⟨hreports, content, hadmitted, hgo⟩
  | pass hat =>
    rw [hat] at hstage
    obtain ⟨hreports, content, hadmitted, hcovers⟩ := hstage
    exact ⟨hsuccess, hreports, content, hadmitted, hcovers.go (hat ▸ rfl)⟩
  | spawn hat =>
    rw [hat] at hstage
    obtain ⟨hreports, content, hadmitted, hcovers⟩ := hstage
    exact ⟨hsuccess, hreports, content, hadmitted, hcovers.spawn hat _⟩
  | join hat htasks =>
    rw [hat] at hstage
    obtain ⟨hreports, content, hadmitted, hcovers⟩ := hstage
    exact ⟨hsuccess, hreports, htasks, content, hadmitted, hcovers.go (hat ▸ rfl)⟩
  | write hat =>
    rw [hat] at hstage
    obtain ⟨hreports, huntouched, hadmitted⟩ := hstage
    exact ⟨hsuccess, hreports, huntouched.go _, hadmitted⟩
  | @report error hat =>
    rw [hat] at hstage
    obtain ⟨hreports, hconcludes⟩ := hstage
    refine ⟨hsuccess, error, ?_, hconcludes.go (hat ▸ rfl)⟩
    rw [Board.reportsOf_report, hreports]
    rfl
  | leave hat =>
    rw [hat] at hstage
    obtain ⟨error, hreports, hconcludes⟩ := hstage
    exact ⟨hsuccess, error, hreports, hconcludes.go (hat ▸ rfl)⟩

/-! ## Steps of its tasks -/

theorem Concludes.tasks {events : List Event} {error : Option Error}
    (h : t.Concludes x events error) : t.tasks = [] := by
  cases error with
  | none => exact h.1
  | some error => exact h.1.tasks

/-- There are tasks only while lines are delivered. -/
theorem delivers_of_tasks {events : List Event} {reports : List FileReport} {stage : Stage}
    (h : t.AtStage x events reports stage) (htasks : t.tasks ≠ []) : stage.delivers = true := by
  cases stage with
  | opening => exact absurd h.2.2.tasks htasks
  | sampling content s => exact absurd h.2.untouched.tasks htasks
  | testing content s line => exact absurd h.2.untouched.tasks htasks
  | failing error => exact absurd h.2.tasks htasks
  | closing error => exact absurd h.2.tasks htasks
  | leaving =>
    obtain ⟨error, -, hconcludes⟩ := h
    exact absurd hconcludes.tasks htasks
  | ended =>
    obtain ⟨error, -, hconcludes⟩ := h
    exact absurd hconcludes.tasks htasks
  | _ => rfl

/-- At all stages of delivery the same holds of a thread. -/
theorem atStage_iff_of_delivers {events : List Event} {reports : List FileReport} {stage : Stage}
    (h : stage.delivers = true) :
    t.AtStage x events reports stage ↔ reports = [] ∧ t.Delivers x events := by
  cases stage with
  | reading r => exact Iff.rfl
  | waiting chunk r => exact Iff.rfl
  | starting chunk r => exact Iff.rfl
  | joining => exact Iff.rfl
  | _ => exact absurd h (by simp [Stage.delivers])

/-- A step of a task covers the same content. -/
theorem Covers.work {content : List UInt8} {task worker : Nat} {k k' : Task} {d : Desk}
    (h : t.Covers x (b.eventsOf file) content) (hsteady : x.audience.Steady)
    (hcalm : b.cancelled = false) (hsuccess : t.tally.success.length = x.audience.sinks)
    (hk : t.tasks[task]? = some k)
    (hstep : k.step x.audience file t.path worker ⟨b, t.tally⟩ = some (k', d)) :
    ({ t with tally := d.tally, tasks := t.tasks.set task k' } : Thread).Covers x
      (d.board.eventsOf file) content where
  sound := by
    intro other hother
    rcases List.mem_or_eq_of_mem_set hother with hother | rfl
    · exact h.sound other hother
    · exact Task.sound_step hcalm (h.sound k (List.mem_of_getElem? hk)) hstep
  conserved := by
    intro post hpost
    have hconserved := h.conserved post hpost
    have hsum := sumOver_set (Task.owes post) hk k'
    have htask := Task.step_conserves hpost hsteady hcalm hsuccess hstep
    simp only [Desk.arrived] at htask
    dsimp only
    omega

/-- A finished task owes nothing when it is given up. -/
theorem Covers.retire {events : List Event} {content : List UInt8} {task : Nat} {k : Task}
    (h : t.Covers x events content) (hk : t.tasks[task]? = some k) (hfinished : k.finished = true) :
    ({ t with tasks := t.tasks.eraseIdx task } : Thread).Covers x events content where
  sound := fun other hother => h.sound other (List.mem_of_mem_eraseIdx hother)
  conserved := by
    intro post hpost
    have hconserved := h.conserved post hpost
    have hsum := sumOver_eraseIdx (Task.owes post) hk
    have hnothing := @Task.owes_of_finished k post (h.sound k (List.mem_of_getElem? hk)) hfinished
    dsimp only
    omega

/-- Whatever happens in a thread, it fits afterwards. -/
theorem Fits.step (h : t.Fits x (b.eventsOf file) (b.reportsOf file)) (hsteady : x.audience.Steady)
    (hcalm : b.cancelled = false) {m : Move} (hstep : t.step x file b m = some (t', b')) :
    t'.Fits x (b'.eventsOf file) (b'.reportsOf file) := by
  rcases step_cases hstep with hown | ⟨task, worker, k, k', d, hk, hwork, rfl, rfl⟩ |
    ⟨task, k, hk, hfinished, rfl, rfl⟩
  · exact h.own hcalm hown
  · obtain ⟨hsuccess, hstage⟩ := h
    have hwithin := Task.within_step hwork
    have hdelivers := delivers_of_tasks hstage (List.ne_nil_of_mem (List.mem_of_getElem? hk))
    rw [atStage_iff_of_delivers hdelivers] at hstage
    obtain ⟨hreports, content, hadmitted, hcovers⟩ := hstage
    refine ⟨hwithin.success.trans hsuccess, (atStage_iff_of_delivers hdelivers).2 ⟨?_, content,
      ?_, hcovers.work hsteady hcalm hsuccess hk hwork⟩⟩
    · rw [Board.reportsOf, hwithin.reports, ← Board.reportsOf, hreports]
    · rw [← Board.answers, hwithin.answers]
      exact hadmitted
  · obtain ⟨hsuccess, hstage⟩ := h
    have hdelivers := delivers_of_tasks hstage (List.ne_nil_of_mem (List.mem_of_getElem? hk))
    rw [atStage_iff_of_delivers hdelivers] at hstage
    obtain ⟨hreports, content, hadmitted, hcovers⟩ := hstage
    exact ⟨hsuccess, (atStage_iff_of_delivers hdelivers).2 ⟨hreports, content, hadmitted,
      hcovers.retire hk hfinished⟩⟩

/-- Nothing more happens in a thread that has ended. -/
theorem Fits.step_eq_none {events : List Event} {reports : List FileReport}
    (h : t.Fits x events reports) (hended : t.stage = .ended) (m : Move) :
    t.step x file b m = none := by
  obtain ⟨-, hstage⟩ := h
  rw [hended] at hstage
  obtain ⟨error, -, hconcludes⟩ := hstage
  cases m with
  | own => simp only [Thread.step, Thread.own, hended]
  | work task worker => simp [Thread.step, Thread.work, hconcludes.tasks]
  | retire task => simp [Thread.step, Thread.retire, hconcludes.tasks]

/-- When the thread of an admitted file has ended, all lines of the content have arrived. -/
theorem Fits.arrived_of_ended {events : List Event} {reports : List FileReport}
    {content : List UInt8} (h : t.Fits x events reports) (hended : t.stage = .ended)
    (hadmitted : x.admitted t.path (answersIn events) = .ok content) :
    reports = [t.report none] ∧ ∀ post : Post, post.Valid x.audience →
      post.arrived events t.tally = (logicalLines content).countP post.counts := by
  obtain ⟨-, hstage⟩ := h
  rw [hended] at hstage
  obtain ⟨error, hreports, hconcludes⟩ := hstage
  cases error with
  | some error =>
    have hfault := hconcludes.2
    rw [hadmitted] at hfault
    exact absurd hfault (by simp)
  | none =>
    obtain ⟨htasks, content', hadmitted', hcovers⟩ := hconcludes
    obtain rfl : content = content' := Except.ok.inj (hadmitted.symm.trans hadmitted')
    refine ⟨hreports, fun post hpost => ?_⟩
    have hconserved := hcovers.conserved post hpost
    rw [hended, htasks] at hconserved
    exact hconserved

/-- The report of a thread that has ended is the only one on its file. -/
theorem Fits.length_reports {events : List Event} {reports : List FileReport}
    (h : t.Fits x events reports) (hended : t.stage = .ended) : reports.length = 1 := by
  obtain ⟨-, hstage⟩ := h
  rw [hended] at hstage
  obtain ⟨error, hreports, -⟩ := hstage
  rw [hreports, List.length_singleton]

/-! ## Other threads -/

/-- What happens in the thread of a file stays with the file, leaves other files alone, and leaves
the run cancelled if it was. -/
structure Apart (file : Nat) (t t' : Thread) (b b' : Board) : Prop where
  path : t'.path = t.path
  others : ∀ other, other ≠ file → Board.SameFor other b b'
  later : b.Later b'

/-- Where nothing is asked or reported, nothing changes for other files. -/
theorem apart_of_eq (hpath : t'.path = t.path) (hevents : b'.events = b.events)
    (hreports : b'.reports = b.reports) (hcancelled : b'.cancelled = b.cancelled) :
    Apart file t t' b b' where
  path := hpath
  others := by
    intro other _
    refine ⟨?_, ?_⟩
    · rw [Board.eventsOf, hevents, Board.eventsOf]
    · rw [Board.reportsOf, hreports, Board.reportsOf]
  later := fun h => hcancelled.trans h

/-- An effect on one file leaves the others alone. -/
theorem Effect.apart (h : Effect x file t b b') (hpath : t'.path = t.path) :
    Apart file t t' b b' := by
  cases h with
  | ask line =>
    exact ⟨hpath, fun other hother => b.sameFor_ask x.audience file .validator line hother,
      b.later_ask x.audience file .validator line⟩
  | report error =>
    refine ⟨hpath, fun other hother => ⟨rfl, ?_⟩, id⟩
    have hfile : (file == other) = false := by simpa using hother.symm
    simp [Board.report, Board.reportsOf, hfile]
  | _ => exact apart_of_eq hpath rfl rfl rfl

/-- What a thread does itself leaves other files alone. -/
theorem apart_own (hown : t.own x file b = some (t', b')) : Apart file t t' b b' := by
  rcases own_cases hown with ⟨stage, rfl, heffect⟩ | ⟨chunk, r, rfl, rfl⟩
  · exact heffect.apart rfl
  · exact apart_of_eq rfl rfl rfl rfl

/-- Every move of a thread leaves other files alone. -/
theorem apart_step {m : Move} (hstep : t.step x file b m = some (t', b')) :
    Apart file t t' b b' := by
  rcases step_cases hstep with hown | ⟨task, worker, k, k', d, hk, hwork, rfl, rfl⟩ |
    ⟨task, k, -, -, rfl, rfl⟩
  · exact apart_own hown
  · have hwithin := Task.within_step hwork
    refine ⟨rfl, fun other hother => ⟨hwithin.events other hother, ?_⟩, hwithin.later⟩
    rw [Board.reportsOf, hwithin.reports, Board.reportsOf]
  · exact apart_of_eq rfl rfl rfl rfl

end Thread

end LogAudit.Ingest
