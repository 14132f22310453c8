import LogAudit.Ingest.Task
import LogAudit.Proofs.Ingest.LogicalLines

/-!
# Where lines arrive

The lines of a file arrive at several posts: they are counted, given to each sink, and counted once
more for a sink that accepts them. At every post, what has arrived and what the workers still owe is
the same after every step of a worker as before it (`Worker.step_conserves`), and so for the steps
of a task (`Task.step_conserves`), as long as no sink breaks off and the run is not cancelled. A
task that is finished owes nothing.
-/

namespace LogAudit.Ingest

theorem sumOver_append {α : Type} (f : α → Nat) (items others : List α) :
    sumOver f (items ++ others) = sumOver f items + sumOver f others := by
  induction items with
  | nil => rw [List.nil_append, sumOver, Nat.zero_add]
  | cons item items ih => rw [List.cons_append, sumOver, sumOver, ih, Nat.add_assoc]

theorem sumOver_eq_zero {α : Type} {f : α → Nat} {items : List α} (h : ∀ item ∈ items, f item = 0) :
    sumOver f items = 0 := by
  induction items with
  | nil => rfl
  | cons item items ih =>
    rw [sumOver, h item List.mem_cons_self, ih fun other hother => h other (.tail _ hother)]

/-! ## What a board tells about a file -/

/-- The lines that a sink was given, in the order of the events. -/
def linesTo (sink : Nat) (events : List Event) : List String :=
  (events.filter (·.party == .sink sink)).map Event.line

/-- What the validator answered, in the order of the events. -/
def answersIn (events : List Event) : List (Option Stop) :=
  (events.filter (·.party == .validator)).map Event.stop?

namespace Board

/-- What was asked for a file. -/
def eventsOf (b : Board) (file : Nat) : List Event := b.events.filter (·.file == file)

/-- The lines of a file that a sink was fed, the last one first. -/
def fed (b : Board) (file sink : Nat) : List String := linesTo sink (b.eventsOf file)

/-- What the validator answered to the lines of a file, the last one first. -/
def answers (b : Board) (file : Nat) : List (Option Stop) := answersIn (b.eventsOf file)

/-- The reports on a file. -/
def reportsOf (b : Board) (file : Nat) : List FileReport :=
  (b.reports.filter (·.1 == file)).map Prod.snd

/-- Two boards tell the same about a file. -/
structure SameFor (file : Nat) (b b' : Board) : Prop where
  events : b'.eventsOf file = b.eventsOf file
  reports : b'.reportsOf file = b.reportsOf file

/-- A board that is cancelled stays so. -/
def Later (b b' : Board) : Prop := b.cancelled = true → b'.cancelled = true

/-- What is not cancelled later was not before. -/
theorem Later.not_cancelled {b b' : Board} (h : b.Later b') (hcalm : b'.cancelled = false) :
    b.cancelled = false := by
  cases hcancelled : b.cancelled with
  | false => rfl
  | true => exact (h hcancelled).symm.trans hcalm

variable (b : Board) (a : Audience) (file : Nat) (party : Party) (line : String)

theorem ask_stop? : (b.ask a file party line).1 = (a.reply b.events party line).stop? := rfl

/-- A question is the latest event of its file. -/
theorem eventsOf_ask : (b.ask a file party line).2.eventsOf file =
    ⟨file, party, line, (b.ask a file party line).1⟩ :: b.eventsOf file := by
  simp [ask, eventsOf]

/-- A question to a sink gives it one more line, and no line to others. -/
theorem countP_linesTo_ask (kind : String → Bool) (number sink : Nat) :
    (linesTo sink ((b.ask a file (.sink number) line).2.eventsOf file)).countP kind =
      (linesTo sink (b.eventsOf file)).countP kind +
        (if number = sink then (kind line).toNat else 0) := by
  rw [linesTo, eventsOf_ask, List.filter_cons]
  by_cases h : number = sink
  · cases hkind : kind line <;> simp [h, hkind, linesTo]
  · simp [h, linesTo]

/-- A question to a sink is no answer of the validator. -/
theorem answers_ask_sink (number : Nat) :
    (b.ask a file (.sink number) line).2.answers file = b.answers file := by
  rw [answers, answersIn, eventsOf_ask, List.filter_cons_of_neg (by simp), ← answersIn, ← answers]

/-- A question changes nothing for other files. -/
theorem sameFor_ask {other : Nat} (h : other ≠ file) :
    SameFor other b (b.ask a file party line).2 := by
  refine ⟨?_, rfl⟩
  have hfile : (file == other) = false := by simpa using h.symm
  simp [ask, eventsOf, hfile]

/-- A question comes later. -/
theorem later_ask : Later b (b.ask a file party line).2 := by
  intro hcancelled
  simp [ask, hcancelled]

/-- A report is the latest one of its file. -/
theorem reportsOf_report (report : FileReport) :
    (b.report file report).reportsOf file = report :: b.reportsOf file := by
  simp [Board.report, reportsOf]

end Board

/-! ## Audiences -/

namespace Audience

/-- No sink ever breaks off. -/
def Steady (a : Audience) : Prop :=
  ∀ events sink line payload, (a.reply events (.sink sink) line).stop? ≠ some (.panicked payload)

/-- Whether a sink accepts a line depends on the line only. -/
def Accepts (a : Audience) (sink : Nat) (kind : String → Bool) : Prop :=
  ∀ events line, (a.reply events (.sink sink) line).stop?.isNone = kind line

/-- Sinks that answer by the line are steady if none of them breaks off on any line. -/
theorem steady_ofSinks {validator : Sink} {sinks : List Sink}
    (h : ∀ s ∈ sinks, ∀ line payload, s.verdict line ≠ .error (.panicked payload)) :
    (ofSinks validator sinks).Steady := by
  intro events sink line payload
  have hverdict : (sinks[sink]?.getD Sink.all).verdict line ≠ .error (.panicked payload) := by
    cases hsink : sinks[sink]? with
    | none => exact fun h => nomatch h
    | some s => exact h s (List.mem_of_getElem? hsink) line payload
  simp only [ofSinks, Sink.reply]
  split
  · simp
  · rename_i stop hstop
    intro hpanicked
    exact hverdict (hstop.trans (congrArg _ (Option.some.inj hpanicked)))

end Audience

/-! ## Posts -/

/-- Where lines of a file arrive. -/
inductive Post where
  /-- At the counter of all lines. -/
  | counter
  /-- At a sink, as far as it is asked about lines of a kind. -/
  | sink (number : Nat) (kind : String → Bool)
  /-- At the counter of the successes of a sink, which accepts lines of a kind. -/
  | success (number : Nat) (kind : String → Bool)

namespace Post

/-- The lines that arrive at the post. -/
def counts : Post → String → Bool
  | counter, _ => true
  | sink _ kind, line => kind line
  | success _ kind, line => kind line

/-- How many lines of a file have arrived, by what was asked for it and by its counters. -/
def arrived (events : List Event) (tally : Tally) : Post → Nat
  | counter => tally.total
  | sink number kind => (linesTo number events).countP kind
  | success number _ => (tally.success[number]?).getD 0

/-- The post is one of the audience. -/
def Valid (a : Audience) : Post → Prop
  | counter => True
  | sink number _ => number < a.sinks
  | success number kind => number < a.sinks ∧ a.Accepts number kind

/-- What is owed of a line of a weight at the sink with a number, after so many sinks were asked. -/
def ahead (number weight asked : Nat) : Nat := if asked ≤ number then weight else 0

/-- Asking a sink settles what is owed there. -/
theorem ahead_succ (number weight asked : Nat) :
    ahead number weight (asked + 1) + (if asked = number then weight else 0) =
      ahead number weight asked := by
  simp only [ahead]
  repeat' split
  all_goals omega

/-- What a worker owes of the line that it is delivering. -/
def current : Post → Worker → Nat
  | counter, .counting _ _ => 1
  | sink _ kind, .counting line _ => (kind line).toNat
  | sink number kind, .asking line answers _ => ahead number (kind line).toNat answers.length
  | sink number kind, .crediting line answers _ =>
    ahead number (kind line).toNat (answers.length + 1)
  | success _ kind, .counting line _ => (kind line).toNat
  | success number kind, .asking line answers _ => ahead number (kind line).toNat answers.length
  | success number kind, .crediting line answers _ =>
    ahead number (kind line).toNat (answers.length + 1) + (if answers.length = number then 1 else 0)
  | _, _ => 0

/-- What arrives at the post when the sink with a number is given a line. -/
def given (asked : Nat) (line : String) : Post → Nat
  | sink number kind => if asked = number then (kind line).toNat else 0
  | _ => 0

variable {post : Post} {a : Audience} {b : Board} {tally : Tally} {file asked : Nat} {line : String}
  {events : List Event} {answers : List (Option Error)}

/-- What a question gives a sink has arrived there. -/
theorem arrived_ask : post.arrived ((b.ask a file (.sink asked) line).2.eventsOf file) tally =
    post.arrived (b.eventsOf file) tally + post.given asked line := by
  cases post with
  | counter => rfl
  | sink number kind => exact b.countP_linesTo_ask a file line kind asked number
  | success number kind => rfl

/-- A line that the sink accepts has arrived there, and its success is still to be counted. -/
theorem current_accepted (hpost : post.Valid a) (answers : List (Option Error)) (batch : Batch)
    (haccepted : (a.reply events (.sink answers.length) line).stop? = none) :
    post.given answers.length line + post.current (.crediting line answers batch) =
      post.current (.asking line answers batch) := by
  cases post with
  | counter => rfl
  | sink number kind =>
    have hahead := ahead_succ number (kind line).toNat answers.length
    simp only [given, current]
    omega
  | success number kind =>
    have hahead := ahead_succ number (kind line).toNat answers.length
    simp only [given, current]
    by_cases hnumber : answers.length = number
    · have hkind : kind line = true := by
        rw [← hpost.2 events line, ← hnumber, haccepted, Option.isNone_none]
      simp only [hnumber, hkind, if_true, Bool.toNat_true] at hahead ⊢
      omega
    · simp only [hnumber, if_false] at hahead ⊢
      omega

/-- A line that the sink refuses has arrived there, and no success is to be counted. -/
theorem current_refused (hpost : post.Valid a) (answers : List (Option Error)) (batch : Batch)
    {stop : Stop} (hrefused : (a.reply events (.sink answers.length) line).stop? = some stop)
    (answer : Option Error) :
    post.given answers.length line + post.current (.asking line (answers ++ [answer]) batch) =
      post.current (.asking line answers batch) := by
  cases post with
  | counter => rfl
  | sink number kind =>
    have hahead := ahead_succ number (kind line).toNat answers.length
    simp only [given, current, List.length_append, List.length_singleton]
    omega
  | success number kind =>
    have hahead := ahead_succ number (kind line).toNat answers.length
    simp only [given, current, List.length_append, List.length_singleton]
    by_cases hnumber : answers.length = number
    · have hkind : kind line = false := by
        rw [← hpost.2 events line, ← hnumber, hrefused, Option.isNone_some]
      simp only [hkind, Bool.toNat_false, ite_self] at hahead ⊢
      omega
    · simp only [hnumber, if_false] at hahead
      omega

/-- When all sinks were asked, nothing is owed of a line. -/
theorem current_all_asked (hpost : post.Valid a) (line : String) (batch : Batch)
    (hall : a.sinks ≤ answers.length) : post.current (.asking line answers batch) = 0 := by
  cases post with
  | counter => rfl
  | sink number kind =>
    have hnumber : number < a.sinks := hpost
    rw [current, ahead, if_neg (by omega)]
  | success number kind =>
    have hnumber := hpost.1
    rw [current, ahead, if_neg (by omega)]

end Post

/-- How many lines of a file have arrived at a post. -/
def Desk.arrived (d : Desk) (file : Nat) (post : Post) : Nat :=
  post.arrived (d.board.eventsOf file) d.tally

/-- The lines of its batch that a worker has not started on. -/
def Worker.batchLines : Worker → List String
  | delivering batch | counting _ batch | asking _ _ batch | crediting _ _ batch => batch.lines
  | _ => []

/-- How many of some lines are to arrive at a post. -/
def Post.among (post : Post) (lines : List String) : Nat :=
  (lines.filter (!skipped ·)).countP post.counts

namespace Post

variable {post : Post} {line : String} {lines : List String}

/-- Posts among earlier and later lines add up. -/
theorem among_append (lines others : List String) :
    post.among (lines ++ others) = post.among lines + post.among others := by
  rw [among, List.filter_append, List.countP_append, ← among, ← among]

/-- A line that is skipped is no post. -/
theorem among_cons_of_skipped (h : skipped line = true) :
    post.among (line :: lines) = post.among lines := by
  rw [among, List.filter_cons_of_neg (by simp [h]), ← among]

/-- A line that is not skipped is a post that is under way. -/
theorem among_cons (h : skipped line = false) :
    post.among (line :: lines) = post.current (.counting line ⟨[], []⟩) + post.among lines := by
  have hcurrent : post.current (.counting line ⟨[], []⟩) = if post.counts line then 1 else 0 := by
    cases post with
    | counter => rfl
    | sink number kind => cases hkind : kind line <;> simp [current, counts, hkind]
    | success number kind => cases hkind : kind line <;> simp [current, counts, hkind]
  rw [among, List.filter_cons_of_pos (by simp [h]), List.countP_cons, ← among, hcurrent]
  omega

end Post

/-- What a worker owes to a post. -/
def Worker.owes (post : Post) (w : Worker) : Nat := post.current w + post.among w.batchLines

/-- What a task owes to a post. -/
def Task.owes (post : Post) (t : Task) : Nat :=
  post.among t.unclaimed + sumOver (Worker.owes post) t.workers

namespace Worker

variable {a : Audience} {file : Nat} {path : String} {d : Desk} {post : Post}

/-- Asking a sink takes a line to the posts of that sink. -/
theorem ask_conserves (hpost : post.Valid a) (hsteady : a.Steady) (line : String)
    (answers : List (Option Error)) (batch : Batch) :
    (ask a file line answers batch d).2.arrived file post +
        (ask a file line answers batch d).1.owes post =
      d.arrived file post + (asking line answers batch).owes post := by
  unfold ask
  split
  · have harrived := @Post.arrived_ask post a d.board d.tally file answers.length line
    have hstop := d.board.ask_stop? a file (.sink answers.length) line
    rcases hask : d.board.ask a file (.sink answers.length) line with ⟨stop?, board⟩
    rw [hask] at harrived hstop
    dsimp only at harrived
    rcases stop? with _ | cause | payload
    · have hcurrent := Post.current_accepted hpost answers batch hstop.symm
      simp only [owes, batchLines, Desk.arrived]
      omega
    · have hcurrent := Post.current_refused hpost answers batch hstop.symm (some cause)
      simp only [owes, batchLines, Desk.arrived]
      omega
    · exact absurd hstop.symm (hsteady _ _ _ _)
  · rename_i hall
    have hcurrent := Post.current_all_asked hpost line batch (Nat.le_of_not_lt hall)
    have hdelivering : ∀ batch, post.current (delivering batch) = 0 := by
      intro batch
      cases post <;> rfl
    simp only [owes, batchLines, hcurrent, hdelivering]
    rfl

/-- At every post, what has arrived and what a worker owes stays the same. -/
theorem step_conserves (hpost : post.Valid a) (hsteady : a.Steady)
    (hcalm : d.board.cancelled = false) (hsuccess : d.tally.success.length = a.sinks) (w : Worker) :
    (w.step a file path d).2.arrived file post + (w.step a file path d).1.owes post =
      d.arrived file post + w.owes post := by
  cases w with
  | resting => cases post <;> simp [step, hcalm, owes, Post.current, batchLines]
  | delivering batch =>
    obtain ⟨failures, lines⟩ := batch
    cases lines with
    | nil => cases post <;> rfl
    | cons line lines =>
      simp only [step, hcalm, Bool.false_eq_true, if_false]
      cases hskipped : skipped line with
      | true =>
        simp only [if_true, owes, batchLines, Post.among_cons_of_skipped hskipped]
        cases post <;> rfl
      | false =>
        simp only [Bool.false_eq_true, if_false, owes, batchLines, Post.among_cons hskipped]
        cases post <;> simp only [Post.current] <;> omega
  | counting line batch =>
    cases post with
    | counter =>
      simp only [step, owes, Post.current, batchLines, Desk.arrived, Post.arrived, Tally.count]
      omega
    | sink number kind =>
      simp [step, owes, Post.current, Post.ahead, batchLines, Desk.arrived, Post.arrived]
    | success number kind =>
      simp [step, owes, Post.current, Post.ahead, batchLines, Desk.arrived, Post.arrived,
        Tally.count]
  | asking line answers batch => exact ask_conserves hpost hsteady line answers batch
  | crediting line answers batch =>
    cases post with
    | counter => rfl
    | sink number kind =>
      simp only [step, owes, Post.current, batchLines, List.length_append, List.length_singleton]
      rfl
    | success number kind =>
      have hnumber : number < d.tally.success.length := hsuccess ▸ hpost.1
      simp only [step, owes, Post.current, batchLines, List.length_append, List.length_singleton,
        Desk.arrived, Post.arrived, Tally.credit, List.getElem?_modify,
        List.getElem?_eq_getElem hnumber]
      split <;> simp only [Option.map_eq_map, Option.map_some, Option.getD_some] <;> omega
  | recording failures => cases post <;> rfl
  | reaching => rfl
  | ended => rfl

end Worker

/-! ## What a worker leaves alone -/

/-- Only the deliveries of a file and its counters have changed. -/
structure Desk.Within (file : Nat) (d d' : Desk) : Prop where
  events : ∀ other, other ≠ file → d'.board.eventsOf other = d.board.eventsOf other
  answers : d'.board.answers file = d.board.answers file
  reports : d'.board.reports = d.board.reports
  later : d.board.Later d'.board
  success : d'.tally.success.length = d.tally.success.length

namespace Worker

variable {a : Audience} {file : Nat} {path : String} {d : Desk}

/-- What a worker can do to the board in one step. -/
inductive Effect (a : Audience) (file : Nat) (path : String) (b : Board) : Board → Prop where
  | nothing : Effect a file path b b
  | ask (sink : Nat) (line : String) : Effect a file path b (b.ask a file (.sink sink) line).2
  | note (delivery : Delivery) : Effect a file path b (b.note file delivery)
  /-- Ask a sink that breaks off, and leave the line at that. -/
  | breakOff (sink : Nat) (line : String) (delivery : Delivery) :
    Effect a file path b ((b.ask a file (.sink sink) line).2.note file delivery)
  | write (failures : List (String × Error)) : Effect a file path b
    (b.write (failures.map fun (line, cause) => ⟨path, some line, cause⟩))

/-- A step of a worker has the effect of a worker. -/
theorem effect_step (w : Worker) : Effect a file path d.board (w.step a file path d).2.board := by
  cases w with
  | delivering batch =>
    obtain ⟨failures, _ | ⟨line, lines⟩⟩ := batch
    · exact .nothing
    · simp only [step]
      repeat' split
      all_goals exact .nothing
  | asking line answers batch =>
    have hasked : Effect a file path d.board
        (d.board.ask a file (.sink answers.length) line).2 := .ask _ _
    have hbroken := @Effect.breakOff a file path d.board answers.length line
    simp only [step, ask]
    split
    · generalize d.board.ask a file (.sink answers.length) line = asked at hasked hbroken ⊢
      obtain ⟨_ | _ | payload, board⟩ := asked
      · exact hasked
      · exact hasked
      · exact hbroken _
    · exact .note _
  | recording failures => exact .write failures
  | _ => exact .nothing

/-- A worker keeps a counter for every sink. -/
theorem length_success_step (w : Worker) :
    (w.step a file path d).2.tally.success.length = d.tally.success.length := by
  cases w with
  | delivering batch =>
    obtain ⟨failures, _ | ⟨line, lines⟩⟩ := batch
    · rfl
    · simp only [step]
      repeat' split
      all_goals rfl
  | asking line answers batch =>
    simp only [step, ask]
    repeat' split
    all_goals rfl
  | crediting line answers batch => exact List.length_modify ..
  | _ => rfl

/-- A worker on a file leaves the other files, the validator and the reports alone. -/
theorem within_step (w : Worker) : Desk.Within file d (w.step a file path d).2 := by
  have heffect := @effect_step a file path d w
  have hsuccess := @length_success_step a file path d w
  generalize (w.step a file path d).2 = d' at heffect hsuccess ⊢
  obtain ⟨board, tally⟩ := d'
  cases heffect with
  | ask sink line | breakOff sink line delivery =>
    have hothers := fun other (h : other ≠ file) =>
      (d.board.sameFor_ask a file (.sink sink) line h).events
    have hanswers := d.board.answers_ask_sink a file line sink
    exact ⟨hothers, hanswers, rfl, d.board.later_ask a file (.sink sink) line, hsuccess⟩
  | _ => exact ⟨fun _ _ => rfl, rfl, rfl, id, hsuccess⟩

/-- Unless the run is cancelled, a worker ends by taking no more batches only. -/
theorem step_ne_ended (hcalm : d.board.cancelled = false) {w : Worker} (hended : w ≠ ended) :
    (w.step a file path d).1 ≠ ended := by
  cases w with
  | ended => exact absurd rfl hended
  | asking line answers batch =>
    simp only [step, ask]
    repeat' split
    all_goals simp
  | delivering batch =>
    obtain ⟨failures, _ | ⟨line, lines⟩⟩ := batch
    · simp [step]
    · simp only [step]
      repeat' split
      all_goals simp
  | _ => simp [step, hcalm]

end Worker

/-! ## Tasks -/

namespace Task

variable {a : Audience} {file : Nat} {path : String} {worker : Nat} {t t' : Task} {d d' : Desk}
  {post : Post}

/-- The lines of a batch that is there to be taken are among those that nobody has taken. -/
theorem unclaimed_eq_nil (h : ¬ t.next < t.batches) : t.unclaimed = [] := by
  rw [next_lt_batches] at h
  exact List.drop_eq_nil_of_le (Nat.le_of_not_lt h)

/-- Who takes a batch owes its lines. -/
theorem owes_claim (t : Task) : t.claim.owes post = post.among (t.unclaimed.take t.size) := by
  by_cases hnext : t.next < t.batches
  · rw [claim, if_pos hnext, Worker.owes]
    cases post <;> exact Nat.zero_add _
  · rw [claim, if_neg hnext, unclaimed_eq_nil hnext, List.take_nil]
    cases post <;> rfl

/-- At every post, what has arrived and what a task owes stays the same. -/
theorem step_conserves (hpost : post.Valid a) (hsteady : a.Steady)
    (hcalm : d.board.cancelled = false) (hsuccess : d.tally.success.length = a.sinks)
    (h : t.step a file path worker d = some (t', d')) :
    d'.arrived file post + t'.owes post = d.arrived file post + t.owes post := by
  rcases step_cases h with ⟨hworker, rfl, rfl⟩ | ⟨w, hworker, -, -, rfl, rfl⟩
  · have hsum := sumOver_set (Worker.owes post) hworker t.claim
    have hreaching : Worker.owes post .reaching = 0 := by cases post <;> rfl
    have hlines : post.among t.unclaimed =
        post.among (t.unclaimed.take t.size) + post.among (t.unclaimed.drop t.size) := by
      rw [← Post.among_append, List.take_append_drop]
    rw [owes_claim] at hsum
    simp only [owes, unclaimed_next]
    omega
  · have hsum := sumOver_set (Worker.owes post) hworker (w.step a file path d).1
    have hworks := @Worker.step_conserves a file path d post hpost hsteady hcalm hsuccess w
    have hsame : ({ t with workers := t.workers.set worker (w.step a file path d).1 } :
        Task).unclaimed = t.unclaimed := rfl
    simp only [owes, hsame]
    omega

/-- A task on a file leaves the other files, the validator and the reports alone. -/
theorem within_step (h : t.step a file path worker d = some (t', d')) : Desk.Within file d d' := by
  rcases step_cases h with ⟨-, rfl, -⟩ | ⟨w, -, -, -, rfl, -⟩
  · exact ⟨fun _ _ => rfl, rfl, rfl, id, rfl⟩
  · exact Worker.within_step w

/-- No worker has ended before all lines were taken, and there are workers if there are lines. -/
def Sound (t : Task) : Prop := .ended ∈ t.workers ∨ t.workers = [] → t.unclaimed = []

/-- A task is sound when it is started. -/
theorem sound_start (batchLines : Nat) (chunk : List UInt8) : (start batchLines chunk).Sound := by
  rintro (hended | hnone)
  · exact absurd (List.eq_of_mem_replicate hended) (by decide)
  · apply unclaimed_eq_nil
    have hzero := (List.replicate_eq_nil_iff _).1 hnone
    have hbatches : (start batchLines chunk).batches = 0 := by
      rw [maxWorkers] at hzero
      exact (Nat.min_eq_zero_iff.1 hzero).resolve_right (by decide)
    omega

/-- Unless the run is cancelled, no worker ends too early. -/
theorem sound_step (hcalm : d.board.cancelled = false) (hsound : t.Sound)
    (h : t.step a file path worker d = some (t', d')) : t'.Sound := by
  rcases step_cases h with ⟨-, -, rfl⟩ | ⟨w, -, -, hended, -, rfl⟩
  · intro hmany
    rw [unclaimed_next]
    rcases hmany with hmem | hnone
    · rcases List.mem_or_eq_of_mem_set hmem with hmem | hclaim
      · rw [hsound (Or.inl hmem), List.drop_nil]
      · have hnext : ¬ t.next < t.batches := by
          intro hlt
          rw [claim, if_pos hlt] at hclaim
          exact absurd hclaim (by simp)
        rw [unclaimed_eq_nil hnext, List.drop_nil]
    · rw [hsound (Or.inr ((List.set_eq_nil_iff _ _).1 hnone)), List.drop_nil]
  · rintro (hmem | hnone)
    · rcases List.mem_or_eq_of_mem_set hmem with hmem | hstep
      · exact hsound (Or.inl hmem)
      · exact absurd hstep.symm (Worker.step_ne_ended hcalm hended)
    · exact hsound (Or.inr ((List.set_eq_nil_iff _ _).1 hnone))

/-- The workers of a finished task have ended. -/
theorem ended_of_finished (h : t.finished = true) {w : Worker} (hw : w ∈ t.workers) :
    w = .ended := by
  simpa using List.all_eq_true.1 h w hw

/-- In a finished task there are no lines that nobody has taken. -/
theorem unclaimed_of_finished (hsound : t.Sound) (h : t.finished = true) : t.unclaimed = [] := by
  cases hworkers : t.workers with
  | nil => exact hsound (Or.inr hworkers)
  | cons w workers =>
    have hw : w ∈ t.workers := hworkers ▸ List.mem_cons_self
    exact hsound (Or.inl (ended_of_finished h hw ▸ hw))

/-- A task that has ended owes nothing. -/
theorem owes_of_finished (hsound : t.Sound) (h : t.finished = true) : t.owes post = 0 := by
  have hsum : sumOver (Worker.owes post) t.workers = 0 := by
    apply sumOver_eq_zero
    intro w hw
    rw [ended_of_finished h hw]
    cases post <;> rfl
  rw [owes, unclaimed_of_finished hsound h, hsum]
  rfl

/-- A task owes the lines of its chunk at first. -/
theorem owes_start (batchLines : Nat) (chunk : List UInt8) :
    (start batchLines chunk).owes post = (logicalLines chunk).countP post.counts := by
  have hsum : sumOver (Worker.owes post) (start batchLines chunk).workers = 0 := by
    apply sumOver_eq_zero
    intro w hw
    rw [List.eq_of_mem_replicate hw]
    cases post <;> rfl
  rw [owes, hsum, unclaimed, start, Nat.zero_mul, List.drop_zero]
  rfl

end Task

end LogAudit.Ingest
