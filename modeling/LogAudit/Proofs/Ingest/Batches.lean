import LogAudit.Proofs.Ingest.Agreement
import LogAudit.Proofs.Ingest.Interleaving
import LogAudit.Proofs.Ingest.TaskRuns

/-!
# Batches of a chunk

What becomes of a batch depends on its lines and the sinks alone: its lines are delivered in order
up to the first one on which a sink breaks off (`batchDeliveries`), and what failed among them is
written down at the end. The workers on a chunk do that for one batch after the other, and at any
moment what is still to be done for the batches that they hold, and for those that nobody has taken,
tells what they will do (`Task.step_scripts`). So in whatever order they take their steps, what they
do is an interleaving of what is to be done for the batches (`Task.interleaves_after`).
-/

namespace LogAudit.Ingest

open LogAudit.Text

/-! ## What becomes of a batch -/

/-- What sinks answer to a line when they are asked in order until one of them breaks off, and what
that one leaves behind. -/
def answersTo (line : String) : List Sink → List (Option Error) × Option Payload
  | [] => ([], none)
  | s :: sinks =>
    match (s.reply line).stop? with
    | none => (none :: (answersTo line sinks).1, (answersTo line sinks).2)
    | some (.refused cause) => (some cause :: (answersTo line sinks).1, (answersTo line sinks).2)
    | some (.panicked payload) => ([], some payload)

/-- What becomes of a line that was answered like this before these sinks are asked. -/
def deliveryFrom (line : String) (answers : List (Option Error)) (sinks : List Sink) : Delivery :=
  ⟨line, answers ++ (answersTo line sinks).1, (answersTo line sinks).2⟩

/-- What becomes of a line. -/
def deliveryOf (sinks : List Sink) (line : String) : Delivery := deliveryFrom line [] sinks

/-- What becomes of the lines of a batch: those that are not skipped are delivered in order, up to
the first one on which a sink breaks off. -/
def batchDeliveries (sinks : List Sink) : List String → List Delivery
  | [] => []
  | line :: lines =>
    if skipped line then batchDeliveries sinks lines
    else if (deliveryOf sinks line).broken.isSome then [deliveryOf sinks line]
    else deliveryOf sinks line :: batchDeliveries sinks lines

/-- Each sink that answered did so by its verdict on the line, and so did the one that broke off
after them. Without that one, all sinks answered. -/
structure Delivery.AnsweredBy (sinks : List Sink) (d : Delivery) : Prop where
  answers : ∀ (number : Nat) (answer : Option Error), d.answers[number]? = some answer →
    ∃ s, sinks[number]? = some s ∧ (s.reply d.line).stop? = answer.map Stop.refused
  all : d.broken = none → d.answers.length = sinks.length
  broken : ∀ payload, d.broken = some payload →
    ∃ s, sinks[d.answers.length]? = some s ∧ (s.reply d.line).stop? = some (.panicked payload)

/-- One more sink answered before the others did. -/
theorem Delivery.AnsweredBy.cons {sinks : List Sink} {line : String} {answers : List (Option Error)}
    {broken : Option Payload} (h : (⟨line, answers, broken⟩ : Delivery).AnsweredBy sinks) {s : Sink}
    {answer : Option Error} (hanswer : (s.reply line).stop? = answer.map Stop.refused) :
    (⟨line, answer :: answers, broken⟩ : Delivery).AnsweredBy (s :: sinks) where
  answers := by
    intro number other hother
    cases number with
    | zero => exact ⟨s, rfl, Option.some.inj hother ▸ hanswer⟩
    | succ number => exact h.answers number other hother
  all := fun hnone => congrArg (· + 1) (h.all hnone)
  broken := h.broken

theorem answeredBy_deliveryOf (sinks : List Sink) (line : String) :
    (deliveryOf sinks line).AnsweredBy sinks := by
  induction sinks with
  | nil => exact ⟨nofun, fun _ => rfl, nofun⟩
  | cons s sinks ih =>
    rw [deliveryOf, deliveryFrom, List.nil_append, answersTo]
    split
    · rename_i hreply
      exact ih.cons hreply
    · rename_i cause hreply
      exact ih.cons hreply
    · rename_i payload hreply
      refine ⟨nofun, nofun, fun found hfound => ⟨s, rfl, ?_⟩⟩
      obtain rfl := Option.some.inj hfound
      exact hreply

/-- Of the lines of a batch that are not skipped the first ones were delivered, each answered by the
verdicts of the sinks. Only on the last of them may a sink have broken off, and it has if there are
lines left. -/
structure Contained (sinks : List Sink) (lines : List String) (deliveries : List Delivery) :
    Prop where
  answered : ∀ d ∈ deliveries, d.AnsweredBy sinks
  unbroken : ∀ d ∈ deliveries.dropLast, d.broken = none
  delivered : ∃ rest, lines.filter (!skipped ·) = deliveries.map Delivery.line ++ rest ∧
    (rest ≠ [] → ∃ d ∈ deliveries.getLast?, d.broken.isSome)

/-- A line on which no sink broke off was delivered before the others. -/
theorem Contained.cons {sinks : List Sink} {lines : List String} {deliveries : List Delivery}
    (h : Contained sinks lines deliveries) {d : Delivery} (hskipped : skipped d.line = false)
    (hanswered : d.AnsweredBy sinks) (hbroken : d.broken = none) :
    Contained sinks (d.line :: lines) (d :: deliveries) where
  answered := List.forall_mem_cons.2 ⟨hanswered, h.answered⟩
  unbroken := by
    intro other hother
    cases deliveries with
    | nil => exact absurd hother List.not_mem_nil
    | cons first others =>
      rw [List.dropLast_cons_of_ne_nil (List.cons_ne_nil _ _)] at hother
      rcases List.mem_cons.1 hother with rfl | hother
      · exact hbroken
      · exact h.unbroken other hother
  delivered := by
    obtain ⟨rest, hlines, hlast⟩ := h.delivered
    refine ⟨rest, ?_, fun hrest => ?_⟩
    · rw [List.filter_cons_of_pos (by simp [hskipped]), hlines]
      rfl
    · obtain ⟨last, hmem, hsome⟩ := hlast hrest
      refine ⟨last, ?_, hsome⟩
      rw [Option.mem_def] at hmem ⊢
      rw [List.getLast?_cons, hmem]
      rfl

theorem contained_batchDeliveries (sinks : List Sink) (lines : List String) :
    Contained sinks lines (batchDeliveries sinks lines) := by
  induction lines with
  | nil => exact ⟨nofun, nofun, [], rfl, absurd rfl⟩
  | cons line lines ih =>
    have hanswered := answeredBy_deliveryOf sinks line
    rw [batchDeliveries]
    by_cases hskipped : skipped line
    · rw [if_pos hskipped]
      refine ⟨ih.answered, ih.unbroken, ?_⟩
      rw [List.filter_cons_of_neg (by simp [hskipped])]
      exact ih.delivered
    · rw [if_neg hskipped]
      by_cases hbroken : (deliveryOf sinks line).broken.isSome
      · rw [if_pos hbroken]
        refine ⟨fun d hd => List.mem_singleton.1 hd ▸ hanswered, nofun,
          lines.filter (!skipped ·), ?_, fun _ => ⟨_, rfl, hbroken⟩⟩
        rw [List.filter_cons_of_pos (by simp [hskipped])]
        rfl
      · rw [if_neg hbroken]
        exact ih.cons (Bool.not_eq_true _ ▸ hskipped) hanswered
          (Option.not_isSome_iff_eq_none.1 hbroken)

/-! ## What is to be done for a batch -/

/-- What can be seen of what a worker does. -/
inductive Deed where
  | ask (event : Event)
  | note (delivery : Delivery)
  | write (records : List ErrorRecord)

/-- What a worker on a file does changes the board. -/
def Board.does (file : Nat) (b : Board) : Deed → Board
  | .ask event => { b with events := event :: b.events }
  | .note delivery => b.note file delivery
  | .write records => b.write records

/-- What sinks are asked about a line, the first of which has this number. -/
def questions (file : Nat) (line : String) (number : Nat) : List Sink → List Event
  | [] => []
  | s :: sinks =>
    ⟨file, .sink number, line, (s.reply line).stop?⟩ ::
      match (s.reply line).stop? with
      | some (.panicked _) => []
      | _ => questions file line (number + 1) sinks

/-- The first of the sinks answers, and then the others do unless it breaks off. -/
theorem deliveryFrom_cons (line : String) (answers : List (Option Error)) (s : Sink)
    (sinks : List Sink) : deliveryFrom line answers (s :: sinks) =
      match (s.reply line).stop? with
      | none => deliveryFrom line (answers ++ [none]) sinks
      | some (.refused cause) => deliveryFrom line (answers ++ [some cause]) sinks
      | some (.panicked payload) => ⟨line, answers, some payload⟩ := by
  rw [deliveryFrom, answersTo]
  split
  · rw [deliveryFrom, List.append_assoc, List.singleton_append]
  · rw [deliveryFrom, List.append_assoc, List.singleton_append]
  · rw [List.append_nil]

/-- What is asked about a line is what was asked before and what these sinks are asked. -/
theorem asked_deliveryFrom (file : Nat) (line : String) (answers : List (Option Error))
    (sinks : List Sink) : (deliveryFrom line answers sinks).asked file =
      Delivery.events file ⟨line, answers, none⟩ ++ questions file line answers.length sinks := by
  induction sinks generalizing answers with
  | nil => simp [deliveryFrom, answersTo, questions, Delivery.asked, Delivery.events]
  | cons s sinks ih =>
    rw [deliveryFrom_cons, questions]
    rcases (s.reply line).stop? with _ | cause | payload
    · rw [ih, Delivery.events_concat, List.length_append, List.append_assoc]
      rfl
    · rw [ih, Delivery.events_concat, List.length_append, List.append_assoc]
      rfl
    · rfl

/-- Where a sink breaks off, a delivery adds no failure to its batch. -/
theorem refusals_of_broken {d : Delivery} (h : d.broken.isSome = true) : refusals [d] = [] := by
  simp [refusals, Delivery.refusal?, h]

section Scripts

variable (sinks : List Sink) (file : Nat) (path : String)

/-- What is to be done for the lines of a batch after these failures. -/
def batchDeeds (batch : Batch) : List Deed :=
  (batchDeliveries sinks batch.lines).flatMap (fun d => (d.asked file).map .ask ++ [.note d]) ++
    [.write ((batch.failures ++ refusals (batchDeliveries sinks batch.lines)).map
      (lineRecord path))]

/-- What is to be done for a batch once a line of it is delivered. -/
def deedsAfter (d : Delivery) (batch : Batch) : List Deed :=
  if d.broken.isSome then [.write (batch.failures.map (lineRecord path))]
  else batchDeeds sinks file path { batch with failures := batch.failures ++ refusals [d] }

/-- What is to be done for a batch of which a line was answered by some of the sinks. -/
def lineDeeds (line : String) (answers : List (Option Error)) (batch : Batch) : List Deed :=
  (questions file line answers.length (sinks.drop answers.length)).map .ask ++
    .note (deliveryFrom line answers (sinks.drop answers.length)) ::
      deedsAfter sinks file path (deliveryFrom line answers (sinks.drop answers.length)) batch

/-- What a worker on a file has to do until it takes another batch. -/
def Worker.script : Worker → List Deed
  | delivering batch => batchDeeds sinks file path batch
  | counting line batch => lineDeeds sinks file path line [] batch
  | asking line answers batch => lineDeeds sinks file path line answers batch
  | crediting line answers batch => lineDeeds sinks file path line (answers ++ [none]) batch
  | recording failures => [.write (failures.map (lineRecord path))]
  | _ => []

variable {sinks file path} {line : String} {lines : List String} {failures : List (String × Error)}

theorem batchDeeds_of_skipped (h : skipped line = true) :
    batchDeeds sinks file path ⟨failures, line :: lines⟩ =
      batchDeeds sinks file path ⟨failures, lines⟩ := by
  simp only [batchDeeds, batchDeliveries, h, if_true]

/-- A line that is not skipped is delivered first. -/
theorem batchDeeds_of_not_skipped (h : skipped line = false) :
    batchDeeds sinks file path ⟨failures, line :: lines⟩ =
      lineDeeds sinks file path line [] ⟨failures, lines⟩ := by
  have hasked : (deliveryOf sinks line).asked file = questions file line 0 sinks :=
    asked_deliveryFrom file line [] sinks
  rw [lineDeeds, List.length_nil, List.drop_zero, ← hasked, ← deliveryOf, deedsAfter, batchDeeds,
    batchDeliveries, if_neg (by simp [h])]
  by_cases hbroken : (deliveryOf sinks line).broken.isSome
  · rw [if_pos hbroken, if_pos hbroken, refusals_of_broken hbroken, List.append_nil,
      List.flatMap_singleton, List.append_assoc, List.singleton_append]
  · have hrefusals : refusals (deliveryOf sinks line :: batchDeliveries sinks lines) =
        refusals [deliveryOf sinks line] ++ refusals (batchDeliveries sinks lines) :=
      List.filterMap_append (l := [deliveryOf sinks line])
    rw [if_neg hbroken, if_neg hbroken, hrefusals, List.flatMap_cons, batchDeeds,
      List.append_assoc, List.append_assoc, List.append_assoc]
    rfl

end Scripts

/-! ## What workers do -/

namespace Worker

variable {v : Sink} {sinks : List Sink} {file : Nat} {path : String} {d : Desk}

/-- A sink that is asked replies by the line. If the run is not cancelled then, that is all. -/
theorem ask_ofSinks (b : Board) (line : String) {number : Nat} (hnumber : number < sinks.length)
    (hcalm : (b.ask (.ofSinks v sinks) file (.sink number) line).2.cancelled = false) :
    b.ask (.ofSinks v sinks) file (.sink number) line =
      ((sinks[number].reply line).stop?,
        b.does file (.ask ⟨file, .sink number, line, (sinks[number].reply line).stop?⟩)) := by
  have hreply : (Audience.ofSinks v sinks).reply b.events (.sink number) line =
      sinks[number].reply line := by
    simp [Audience.ofSinks, hnumber]
  rw [Board.ask, hreply] at hcalm ⊢
  obtain ⟨hbefore, hafter⟩ : b.cancelled = false ∧ (sinks[number].reply line).cancels = false :=
    Bool.or_eq_false_iff.1 hcalm
  simp only [Board.does, hbefore, hafter, Bool.or_false]

/-- A worker that asks the next sink, or finishes the line, does what comes first in its script. -/
theorem ask_script (line : String) (answers : List (Option Error)) (batch : Batch)
    (hcalm : (ask (.ofSinks v sinks) file line answers batch d).2.board.cancelled = false) :
    ∃ done, (asking line answers batch).script sinks file path =
        done ++ (ask (.ofSinks v sinks) file line answers batch d).1.script sinks file path ∧
      (ask (.ofSinks v sinks) file line answers batch d).2.board =
        done.foldl (Board.does file) d.board := by
  by_cases hmore : answers.length < sinks.length
  · have hsinks : answers.length < (Audience.ofSinks v sinks).sinks := hmore
    have hasked : (d.board.ask (.ofSinks v sinks) file (.sink answers.length) line).2.cancelled =
        false := by
      rw [ask, if_pos hsinks] at hcalm
      generalize d.board.ask (.ofSinks v sinks) file (.sink answers.length) line = asked at hcalm ⊢
      obtain ⟨_ | _ | _, board⟩ := asked <;> exact hcalm
    rw [script, lineDeeds, List.drop_eq_getElem_cons hmore, questions, deliveryFrom_cons, ask,
      if_pos hsinks, ask_ofSinks d.board line hmore hasked]
    have hlength : ∀ answer : Option Error, (answers ++ [answer]).length = answers.length + 1 :=
      fun _ => List.length_append
    generalize (sinks[answers.length].reply line).stop? = stop?
    let asked : Deed := .ask ⟨file, .sink answers.length, line, stop?⟩
    rcases stop? with _ | cause | payload
    · exact ⟨[asked], by rw [script, lineDeeds, hlength]; rfl, rfl⟩
    · exact ⟨[asked], by rw [script, lineDeeds, hlength]; rfl, rfl⟩
    · exact ⟨[asked, .note ⟨line, answers, some payload⟩], rfl, rfl⟩
  · have hsinks : ¬ answers.length < (Audience.ofSinks v sinks).sinks := hmore
    have hnone : sinks.drop answers.length = [] := List.drop_eq_nil_of_le (Nat.le_of_not_lt hmore)
    have hdelivery : deliveryFrom line answers [] = ⟨line, answers, none⟩ := by
      rw [deliveryFrom, answersTo, List.append_nil]
    rw [script, lineDeeds, hnone, hdelivery, ask, if_neg hsinks]
    exact ⟨[.note ⟨line, answers, none⟩], rfl, rfl⟩

/-- As long as the run is not cancelled, a worker does what comes first in its script. -/
theorem step_script (w : Worker)
    (hcalm : (w.step (.ofSinks v sinks) file path d).2.board.cancelled = false) :
    ∃ done, w.script sinks file path =
        done ++ (w.step (.ofSinks v sinks) file path d).1.script sinks file path ∧
      (w.step (.ofSinks v sinks) file path d).2.board = done.foldl (Board.does file) d.board := by
  cases w with
  | resting =>
    rw [step]
    split <;> exact ⟨[], rfl, rfl⟩
  | delivering batch =>
    obtain ⟨failures, _ | ⟨line, lines⟩⟩ := batch
    · refine ⟨[], ?_, rfl⟩
      rw [step, script, batchDeeds, batchDeliveries, refusals, List.filterMap_nil, List.append_nil]
      rfl
    · have hgoing : d.board.cancelled = false := within_step _ |>.later.not_cancelled hcalm
      simp only [step, hgoing, Bool.false_eq_true, if_false]
      cases hskipped : skipped line with
      | true => exact ⟨[], batchDeeds_of_skipped hskipped, rfl⟩
      | false => exact ⟨[], batchDeeds_of_not_skipped hskipped, rfl⟩
  | asking line answers batch => exact ask_script line answers batch hcalm
  | recording failures => exact ⟨[.write (failures.map (lineRecord path))], rfl, rfl⟩
  | _ => exact ⟨[], rfl, rfl⟩

end Worker

/-! ## What tasks do -/

namespace Task

/-- The lines of a batch. -/
def batch (t : Task) (number : Nat) : List String := (t.lines.drop (number * t.size)).take t.size

/-- What is to be done for the batches that nobody has taken. -/
def untaken (sinks : List Sink) (file : Nat) (path : String) (t : Task) : List (List Deed) :=
  (List.range' t.next (t.batches - t.next)).map fun number =>
    batchDeeds sinks file path ⟨[], t.batch number⟩

/-- What there is to do in a task: for the batches that the workers hold, and for those that nobody
has taken. -/
def scripts (sinks : List Sink) (file : Nat) (path : String) (t : Task) : List (List Deed) :=
  t.workers.map (Worker.script sinks file path) ++ t.untaken sinks file path

variable {v : Sink} {sinks : List Sink} {file worker : Nat} {path : String} {t t' : Task}
  {d d' : Desk}

/-- Who takes a batch is to do what is to be done for it. -/
theorem untaken_of_lt (h : t.next < t.batches) (workers : List Worker) :
    t.untaken sinks file path = t.claim.script sinks file path ::
      ({ t with next := t.next + 1, workers } : Task).untaken sinks file path := by
  have hbatches : ({ t with next := t.next + 1, workers } : Task).batches = t.batches := rfl
  obtain ⟨more, hmore⟩ : ∃ more, t.batches = t.next + 1 + more :=
    ⟨t.batches - (t.next + 1), by omega⟩
  rw [untaken, untaken, claim, if_pos h, hbatches, hmore, Nat.add_sub_cancel_left, Nat.add_assoc,
    Nat.add_sub_cancel_left, Nat.add_comm 1, List.range'_succ]
  rfl

theorem untaken_of_not_lt (h : ¬ t.next < t.batches) : t.untaken sinks file path = [] := by
  rw [untaken, Nat.sub_eq_zero_of_le (Nat.le_of_not_lt h)]
  rfl

/-- Taking a batch moves what is to be done for it to a worker that has nothing to do. -/
theorem scripts_claim {whole : List Deed} (hworker : t.workers[worker]? = some .reaching)
    (h : Interleaves (({ t with next := t.next + 1, workers := t.workers.set worker t.claim } :
      Task).scripts sinks file path) whole) :
    Interleaves (t.scripts sinks file path) whole := by
  have hscript : (t.workers.map (Worker.script sinks file path))[worker]? = some [] := by
    rw [List.getElem?_map, hworker]
    rfl
  obtain ⟨hbefore, hafter⟩ := set_perm_cons_eraseIdx_of_getElem? hscript
  rw [scripts, List.map_set] at h
  by_cases hnext : t.next < t.batches
  · rw [scripts, untaken_of_lt hnext (t.workers.set worker t.claim)]
    exact (Interleaves.cons_nil_iff.2 h).perm
      ((((hafter _).append_right _).cons []).trans <| (List.Perm.swap _ [] _).trans <|
        ((hbefore.symm.append_right _).cons _).trans List.perm_middle.symm)
  · have hclaim : t.claim.script sinks file path = [] := by
      rw [claim, if_neg hnext]
      rfl
    have hnext' : ¬ t.next + 1 < t.batches := by omega
    rw [hclaim, untaken_of_not_lt hnext'] at h
    rw [scripts, untaken_of_not_lt hnext]
    exact h.perm (((hafter []).trans hbefore.symm).append_right _)

/-- What is done in a step comes first for one of the batches. -/
theorem step_scripts (hcalm : d'.board.cancelled = false)
    (h : t.step (.ofSinks v sinks) file path worker d = some (t', d')) :
    ∃ done, d'.board = done.foldl (Board.does file) d.board ∧
      ∀ whole, Interleaves (t'.scripts sinks file path) whole →
        Interleaves (t.scripts sinks file path) (done ++ whole) := by
  rcases step_cases h with ⟨hworker, rfl, rfl⟩ | ⟨w, hworker, -, -, rfl, rfl⟩
  · exact ⟨[], rfl, fun whole => scripts_claim hworker⟩
  · obtain ⟨done, hscript, hboard⟩ := w.step_script hcalm
    refine ⟨done, hboard, fun whole hwhole => ?_⟩
    have hfirst : (t.scripts sinks file path)[worker]? = some (w.script sinks file path) := by
      obtain ⟨hbound, -⟩ := List.getElem?_eq_some_iff.1 hworker
      rw [scripts, List.getElem?_append_left (by simpa using hbound), List.getElem?_map, hworker]
      rfl
    refine .prepend (hscript ▸ hfirst) ?_
    rw [scripts, List.map_set] at hwhole
    obtain ⟨hbound, -⟩ := List.getElem?_eq_some_iff.1 hworker
    rwa [scripts, List.set_append_left _ _ (by simpa using hbound)]

/-- What is to be done in a new task is what is to be done for its batches. -/
theorem scripts_start_iff (batchLines : Nat) (chunk : List UInt8) (whole : List Deed) :
    Interleaves ((start batchLines chunk).scripts sinks file path) whole ↔
      Interleaves ((List.range (start batchLines chunk).batches).map fun number =>
        batchDeeds sinks file path ⟨[], (start batchLines chunk).batch number⟩) whole := by
  have hresting : (start batchLines chunk).workers.map (Worker.script sinks file path) =
      List.replicate (min (start batchLines chunk).batches maxWorkers) [] := List.map_replicate
  rw [scripts, hresting, Interleaves.replicate_append_iff, untaken, List.range_eq_range']
  rfl

/-- In a finished task all batches have been taken. -/
theorem not_next_lt_of_finished (hsound : t.Sound) (h : t.finished = true) :
    ¬ t.next < t.batches := by
  rw [next_lt_batches, Nat.not_lt, ← List.drop_eq_nil_iff]
  exact unclaimed_of_finished hsound h

/-- In a finished task there is nothing to do. -/
theorem interleaves_of_finished (hsound : t.Sound) (h : t.finished = true) :
    Interleaves (t.scripts sinks file path) [] := by
  rw [scripts, untaken_of_not_lt (not_next_lt_of_finished hsound h), List.append_nil]
  refine .done fun script hscript => ?_
  obtain ⟨w, hw, rfl⟩ := List.mem_map.1 hscript
  rw [ended_of_finished h hw]
  rfl

/-- What was done on a chunk so far, followed by what there is to do, in any order that respects the
batches, is what is to be done for its batches. -/
structure Underway (sinks : List Sink) (file : Nat) (path : String) (batchLines : Nat)
    (chunk : List UInt8) (t : Task) (d : Desk) : Prop where
  sound : t.Sound
  done : ∃ deeds, d.board = deeds.foldl (Board.does file) (Desk.blank sinks.length).board ∧
    ∀ whole, Interleaves (t.scripts sinks file path) whole →
      Interleaves ((start batchLines chunk).scripts sinks file path) (deeds ++ whole)

theorem Underway.step {batchLines : Nat} {chunk : List UInt8}
    (h : Underway sinks file path batchLines chunk t d) (hcalm : d'.board.cancelled = false)
    (hstep : t.step (.ofSinks v sinks) file path worker d = some (t', d')) :
    Underway sinks file path batchLines chunk t' d' where
  sound := sound_step ((within_step hstep).later.not_cancelled hcalm) h.sound hstep
  done := by
    obtain ⟨deeds, hboard, hrest⟩ := h.done
    obtain ⟨done, hdone, hnext⟩ := step_scripts hcalm hstep
    refine ⟨deeds ++ done, by rw [hdone, hboard, List.foldl_append], fun whole hwhole => ?_⟩
    rw [List.append_assoc]
    exact hrest _ (hnext whole hwhole)

/-- When all workers on a chunk have ended, what they did is an interleaving of what is to be done
for its batches. -/
theorem interleaves_after {batchLines : Nat} {chunk : List UInt8} {schedule : List Nat}
    (hrun : (start batchLines chunk).after (.ofSinks v sinks) file path (.blank sinks.length)
      schedule = some (t, d)) (hcalm : d.board.cancelled = false) (hfinished : t.finished = true) :
    ∃ deeds, d.board = deeds.foldl (Board.does file) (Desk.blank sinks.length).board ∧
      Interleaves ((List.range (start batchLines chunk).batches).map fun number =>
        batchDeeds sinks file path ⟨[], (start batchLines chunk).batch number⟩) deeds := by
  obtain ⟨hsound, deeds, hboard, hrest⟩ : Underway sinks file path batchLines chunk t d :=
    preserved_after (fun hcalm h hstep => h.step hcalm hstep)
      ⟨sound_start batchLines chunk, [], rfl, fun _ h => h⟩ hrun hcalm
  refine ⟨deeds, hboard, (scripts_start_iff batchLines chunk deeds).1 ?_⟩
  rw [← List.append_nil deeds]
  exact hrest [] (interleaves_of_finished hsound hfinished)

end Task

end LogAudit.Ingest
