import LogAudit.Proofs.Ingest.Histories
import Mathlib.Data.List.Perm.Subperm

/-!
# How far lines have got

A worker looks at the flag before it begins a line, and from then on the line is given to one sink
after the other whatever happens, until it is delivered (`Worker.Advance`). So the lines of a file
only go from those that are coming to those that have begun, and from there to those that are
delivered; and when the run is cancelled, none is begun any more (`Thread.carries_moves`). What has
been begun or delivered by then is what will be delivered (`State.dispatched_perm`).
-/

namespace LogAudit.Ingest

/-- An item is found among what some items give as often as in what they give one by one. -/
theorem count_flatMap_eq_sumOver {α β : Type} [DecidableEq β] (f : α → List β) (items : List α)
    (b : β) : (items.flatMap f).count b = sumOver (fun item => (f item).count b) items := by
  induction items with
  | nil => rfl
  | cons item items ih => rw [List.flatMap_cons, List.count_append, ih, sumOver]

namespace Board

variable (b : Board) (file : Nat)

/-- A question is an event of its file, and nothing else on the page of it. -/
theorem page_ask (a : Audience) (party : Party) (line : String) :
    (b.ask a file party line).2.page file = { b.page file with
      events := ⟨file, party, line, (b.ask a file party line).1⟩ :: b.eventsOf file } := by
  rw [page, eventsOf_ask]
  rfl

/-- A delivery is put before the others of its file. -/
theorem page_note (d : Delivery) :
    (b.note file d).page file = { b.page file with deliveries := d :: b.deliveriesOf file } := by
  rw [page, deliveriesOf_note]
  rfl

end Board

/-! ## Workers -/

namespace Worker

/-- The line that a worker has begun to give away, and how many sinks were asked about it. -/
def begun? : Worker → Option (String × Nat)
  | counting line _ => some (line, 0)
  | asking line answers _ => some (line, answers.length)
  | crediting line answers _ => some (line, answers.length + 1)
  | _ => none

/-- The line that a worker has begun to give away. -/
def begun (w : Worker) : List String := (w.begun?.map Prod.fst).toList

/-- The lines that a worker has taken and not begun. -/
def coming (w : Worker) : List String := w.batchLines.filter (!skipped ·)

/-- What a worker does with lines in a step, by what is known of the file before and after it. -/
inductive Advance (sinks : Nat) (cancelled : Bool) (file : Nat) (w w' : Worker) (p : Page) :
    Page → Prop where
  /-- It gives no line away, and may leave its batch. -/
  | rest (hbegun : w'.begun? = w.begun?) (hcoming : w'.coming <+: w.coming) :
    Advance sinks cancelled file w w' p p
  /-- It begins the next line of its batch, as the run is not cancelled. -/
  | begin {line : String} (hcalm : cancelled = false) (hbefore : w.begun? = none)
    (hafter : w'.begun? = some (line, 0)) (hcoming : w.coming = line :: w'.coming) :
    Advance sinks cancelled file w w' p p
  /-- It asks the next sink. -/
  | ask {line : String} {asked : Nat} {stop? : Option Stop} (hasked : asked < sinks)
    (hbefore : w.begun? = some (line, asked)) (hafter : w'.begun? = some (line, asked + 1))
    (hcoming : w'.coming = w.coming) :
    Advance sinks cancelled file w w' p
      { p with events := ⟨file, .sink asked, line, stop?⟩ :: p.events }
  /-- It delivers the line about which all sinks were asked. -/
  | deliver {line : String} {answers : List (Option Error)} (hall : sinks ≤ answers.length)
    (hbefore : w.begun? = some (line, answers.length)) (hafter : w'.begun? = none)
    (hcoming : w'.coming = w.coming) :
    Advance sinks cancelled file w w' p
      { p with deliveries := ⟨line, answers, none⟩ :: p.deliveries }

variable {a : Audience} {file : Nat} {path : String} {d : Desk}

/-- A line that is skipped is none to come. -/
theorem coming_of_skipped {failures : List (String × Error)} {line : String} {lines : List String}
    (h : skipped line = true) :
    (delivering ⟨failures, lines⟩).coming = (delivering ⟨failures, line :: lines⟩).coming := by
  simp [coming, batchLines, h]

/-- A line that is not skipped is the next one to come. -/
theorem coming_of_not_skipped {failures : List (String × Error)} {line : String}
    {lines : List String} (h : skipped line = false) :
    (delivering ⟨failures, line :: lines⟩).coming =
      line :: (counting line ⟨failures, lines⟩).coming := by
  simp [coming, batchLines, h]

/-- Asking a sink advances a line, or delivers it when all have answered. -/
theorem advance_ask (hsteady : a.Steady) (line : String) (answers : List (Option Error))
    (batch : Batch) : Advance a.sinks d.board.cancelled file (asking line answers batch)
      (ask a file line answers batch d).1 (d.board.page file)
      ((ask a file line answers batch d).2.board.page file) := by
  unfold ask
  split
  · rename_i hasked
    have hstop := d.board.ask_stop? a file (.sink answers.length) line
    have hpage := d.board.page_ask file a (.sink answers.length) line
    rcases hask : d.board.ask a file (.sink answers.length) line with ⟨_ | cause | payload, board⟩
    all_goals rw [hask] at hstop hpage; dsimp only at hpage ⊢
    · exact hpage ▸ .ask hasked rfl rfl rfl
    · refine hpage ▸ .ask hasked rfl ?_ rfl
      rw [begun?, List.length_append, List.length_singleton]
    · exact absurd hstop.symm (hsteady _ _ _ _)
  · rename_i hall
    exact d.board.page_note file _ ▸ .deliver (Nat.le_of_not_lt hall) rfl rfl rfl

/-- In every step a worker rests, begins a line, asks a sink about its line or delivers it. -/
theorem advance_step (hsteady : a.Steady) (w : Worker) :
    Advance a.sinks d.board.cancelled file w (w.step a file path d).1 (d.board.page file)
      ((w.step a file path d).2.board.page file) := by
  cases w with
  | resting =>
    simp only [step]
    split
    · exact .rest rfl (List.prefix_refl _)
    · exact .rest rfl (List.prefix_refl _)
  | delivering batch =>
    obtain ⟨failures, _ | ⟨line, lines⟩⟩ := batch
    · exact .rest rfl (List.prefix_refl _)
    · simp only [step]
      split
      · exact .rest rfl List.nil_prefix
      · rename_i hgoing
        split
        · rename_i hskipped
          exact .rest rfl ⟨[], (List.append_nil _).trans (coming_of_skipped hskipped)⟩
        · rename_i hkept
          rw [Bool.not_eq_true] at hgoing hkept
          exact .begin hgoing rfl rfl (coming_of_not_skipped hkept)
  | asking line answers batch => exact advance_ask hsteady line answers batch
  | crediting line answers batch =>
    refine .rest ?_ (List.prefix_refl _)
    simp only [step, begun?, List.length_append, List.length_singleton]
  | _ => exact .rest rfl (List.prefix_refl _)

end Worker

/-! ## The flow of lines -/

/-- Lines of a file by how far they have got. -/
structure Flow where
  delivered : List String
  begun : List String
  coming : List String

/-- Lines go on or are left where they are not begun, and in a cancelled run none is begun. -/
structure Flow.Carries (cancelled : Bool) (f f' : Flow) : Prop where
  atMost : ∀ line, f'.delivered.count line + f'.begun.count line + f'.coming.count line ≤
    f.delivered.count line + f.begun.count line + f.coming.count line
  frozen : cancelled = true → ∀ line, f'.delivered.count line + f'.begun.count line =
    f.delivered.count line + f.begun.count line

/-- What changes nothing carries lines on. -/
theorem Flow.Carries.refl (cancelled : Bool) (f : Flow) : f.Carries cancelled f :=
  ⟨fun _ => Nat.le_refl _, fun _ _ => rfl⟩

/-- The lines that were delivered. -/
def Page.delivered (p : Page) : List String := p.deliveries.map Delivery.line

/-- The lines that a worker is concerned with and those that were delivered for the file. -/
def Worker.flow (w : Worker) (p : Page) : Flow := ⟨p.delivered, w.begun, w.coming⟩

/-- A worker that advances carries the lines of its batch on. -/
theorem Worker.Advance.carries {sinks file : Nat} {cancelled : Bool} {w w' : Worker} {p p' : Page}
    (h : Advance sinks cancelled file w w' p p') : (w.flow p).Carries cancelled (w'.flow p') := by
  cases h with
  | rest hbegun hcoming =>
    have hbegun : w'.begun = w.begun := by rw [begun, hbegun, begun]
    refine ⟨fun line => ?_, fun _ line => by simp only [flow, hbegun]⟩
    have hcount := hcoming.sublist.count_le line
    simp only [flow, hbegun]
    omega
  | @begin line hcalm hbefore hafter hcoming =>
    have hbefore : w.begun = [] := by rw [begun, hbefore]; rfl
    have hafter : w'.begun = [line] := by rw [begun, hafter]; rfl
    refine ⟨fun other => ?_, fun hcancelled => absurd (hcalm.symm.trans hcancelled) nofun⟩
    simp only [flow, hbefore, hafter, hcoming, List.count_cons, List.count_nil]
    omega
  | ask hasked hbefore hafter hcoming =>
    have hbegun : w'.begun = w.begun := by rw [begun, hafter, begun, hbefore]; rfl
    simp only [flow, hbegun, hcoming]
    exact .refl _ _
  | @deliver line answers hall hbefore hafter hcoming =>
    have hbefore : w.begun = [line] := by rw [begun, hbefore]; rfl
    have hafter : w'.begun = [] := by rw [begun, hafter]; rfl
    refine ⟨fun other => ?_, fun _ other => ?_⟩ <;>
      simp only [flow, hbefore, hafter, hcoming, Page.delivered, List.map_cons, List.count_cons,
        List.count_nil] <;> omega

/-! ## Tasks -/

namespace Task

/-- The lines that the workers of a task have begun. -/
def begun (t : Task) : List String := t.workers.flatMap Worker.begun

/-- The lines that the workers of a task have not begun, taken or not. -/
def coming (t : Task) : List String :=
  t.unclaimed.filter (!skipped ·) ++ t.workers.flatMap Worker.coming

/-- The lines of a task, by what is known of its file. -/
def flow (t : Task) (p : Page) : Flow := ⟨p.delivered, t.begun, t.coming⟩

variable {a : Audience} {file : Nat} {path : String} {worker : Nat} {t t' : Task} {d d' : Desk}

/-- The lines that a task has begun are those of its workers. -/
theorem count_begun (t : Task) (line : String) :
    t.begun.count line = sumOver (fun w : Worker => w.begun.count line) t.workers :=
  count_flatMap_eq_sumOver _ _ _

/-- The lines to come in a task are those that no worker has taken and those of its workers. -/
theorem count_coming (t : Task) (line : String) :
    t.coming.count line = (t.unclaimed.filter (!skipped ·)).count line +
      sumOver (fun w : Worker => w.coming.count line) t.workers := by
  rw [coming, List.count_append, count_flatMap_eq_sumOver]

/-- Who takes a batch has begun none of its lines. -/
theorem begun_claim (t : Task) : t.claim.begun = [] := by
  unfold claim
  split <;> rfl

/-- The lines to come in a batch are those of its lines that are not skipped. -/
theorem coming_claim (t : Task) : t.claim.coming =
    (t.unclaimed.take t.size).filter (!skipped ·) := by
  by_cases hnext : t.next < t.batches
  · rw [claim, if_pos hnext]
    rfl
  · rw [claim, if_neg hnext, unclaimed_eq_nil hnext, List.take_nil]
    rfl

/-- A step of a task carries lines on. -/
theorem carries_step (hsteady : a.Steady) (h : t.step a file path worker d = some (t', d')) :
    (t.flow (d.board.page file)).Carries d.board.cancelled (t'.flow (d'.board.page file)) := by
  rcases step_cases h with ⟨hworker, rfl, rfl⟩ | ⟨w, hworker, -, -, rfl, rfl⟩
  · have hlines : ∀ line, (t.unclaimed.filter (!skipped ·)).count line =
        ((t.unclaimed.take t.size).filter (!skipped ·)).count line +
          ((t.unclaimed.drop t.size).filter (!skipped ·)).count line := by
      intro line
      rw [← List.count_append, ← List.filter_append, List.take_append_drop]
    have hbegun : ∀ line, sumOver (fun w : Worker => w.begun.count line)
        (t.workers.set worker t.claim) =
          sumOver (fun w : Worker => w.begun.count line) t.workers := by
      intro line
      have hsum := sumOver_set (fun w : Worker => w.begun.count line) hworker t.claim
      have hreaching : Worker.reaching.begun.count line = 0 := rfl
      simp only [begun_claim, List.count_nil, hreaching, Nat.add_zero] at hsum
      exact hsum
    refine ⟨fun line => ?_, fun _ line => ?_⟩
    · have hsum := sumOver_set (fun w : Worker => w.coming.count line) hworker t.claim
      have hreaching : Worker.reaching.coming.count line = 0 := rfl
      have hline := hlines line
      rw [coming_claim, hreaching, Nat.add_zero] at hsum
      simp only [flow, count_begun, count_coming, unclaimed_next, hbegun]
      omega
    · simp only [flow, count_begun, hbegun]
  · have hcarries := (@Worker.advance_step a file path d hsteady w).carries
    generalize w.step a file path d = stepped at hcarries ⊢
    obtain ⟨w', d'⟩ := stepped
    have hunclaimed : ({ t with workers := t.workers.set worker w' } : Task).unclaimed =
        t.unclaimed := rfl
    refine ⟨fun line => ?_, fun hcancelled line => ?_⟩
    · have hline := hcarries.atMost line
      have hbegun := sumOver_set (fun w : Worker => w.begun.count line) hworker w'
      have hcoming := sumOver_set (fun w : Worker => w.coming.count line) hworker w'
      simp only [flow, Worker.flow, count_begun, count_coming, hunclaimed] at hline ⊢
      omega
    · have hline := hcarries.frozen hcancelled line
      have hbegun := sumOver_set (fun w : Worker => w.begun.count line) hworker w'
      simp only [flow, Worker.flow, count_begun] at hline ⊢
      omega

/-- The workers of a new task have begun nothing, and the lines of the chunk are coming. -/
theorem begun_start (batchLines : Nat) (chunk : List UInt8) :
    (start batchLines chunk).begun = [] := by
  rw [begun, List.flatMap_eq_nil_iff]
  intro w hw
  rw [List.eq_of_mem_replicate hw]
  rfl

/-- Before a task starts, the logical lines of its chunk are to come. -/
theorem coming_start (batchLines : Nat) (chunk : List UInt8) :
    (start batchLines chunk).coming = logicalLines chunk := by
  have hworkers : (start batchLines chunk).workers.flatMap Worker.coming = [] := by
    rw [List.flatMap_eq_nil_iff]
    intro w hw
    rw [List.eq_of_mem_replicate hw]
    rfl
  rw [coming, hworkers, List.append_nil, unclaimed, start, Nat.zero_mul, List.drop_zero]
  rfl

/-- The workers of a finished task have begun no line that is not delivered. -/
theorem begun_of_finished (h : t.finished = true) : t.begun = [] := by
  rw [begun, List.flatMap_eq_nil_iff]
  intro w hw
  rw [ended_of_finished h hw]
  rfl

end Task

/-! ## Threads -/

/-- The lines of the file with a path, if it can be opened. -/
def Setup.linesOf (x : Setup) (path : String) : List String :=
  match x.open? path with
  | .ok content => logicalLines content
  | .error _ => []

/-- The lines that are to be read for the file with a path. -/
def Stage.stock (x : Setup) (path : String) : Stage → List String
  | opening => x.linesOf path
  | sampling content _ | testing content _ _ => logicalLines content
  | stage => stage.lines

namespace Thread

/-- The lines that the workers of a thread have begun. -/
def begun (t : Thread) : List String := t.tasks.flatMap Task.begun

/-- The lines that the workers of a thread have not begun, read or not. -/
def coming (x : Setup) (t : Thread) : List String :=
  t.stage.stock x t.path ++ t.tasks.flatMap Task.coming

/-- The lines of a thread, by what is known of its file. -/
def flow (x : Setup) (t : Thread) (p : Page) : Flow := ⟨p.delivered, t.begun, t.coming x⟩

variable {x : Setup} {file : Nat} {t t' : Thread} {b b' : Board} {happening : Happening}

/-- The lines that a thread has begun are those of its tasks. -/
theorem count_begun (t : Thread) (line : String) :
    t.begun.count line = sumOver (fun k : Task => k.begun.count line) t.tasks :=
  count_flatMap_eq_sumOver _ _ _

/-- The lines to come in a thread are those to be read and those of its tasks. -/
theorem count_coming (t : Thread) (line : String) : (t.coming x).count line =
    (t.stage.stock x t.path).count line +
      sumOver (fun k : Task => k.coming.count line) t.tasks := by
  rw [coming, List.count_append, count_flatMap_eq_sumOver]

/-- Going to a stage with fewer lines to be read leaves those lines. -/
theorem carries_go {stage : Stage} (hdelivered : (b'.page file).delivered = (b.page file).delivered)
    (hstock : (stage.stock x t.path).Sublist (t.stage.stock x t.path)) :
    (t.flow x (b.page file)).Carries b.cancelled ((t.go stage).flow x (b'.page file)) := by
  refine ⟨fun line => ?_, fun _ line => ?_⟩
  · have hcount := hstock.count_le line
    simp only [flow, hdelivered, count_coming, go, count_begun]
    omega
  · simp only [flow, hdelivered, go, count_begun]

/-- What is to be read of an opened file are its lines, or nothing. -/
theorem stock_opened (path : String) :
    ((opened x path).stock x path).Sublist (x.linesOf path) := by
  unfold opened Setup.linesOf
  cases x.open? path with
  | error error => exact List.nil_sublist _
  | ok content =>
    dsimp only
    split
    · exact List.nil_sublist _
    · exact List.Sublist.refl _

/-- What is to be read behind a sample are the lines of the content, or nothing. -/
theorem stock_sampled (path : String) (content : List UInt8) (s : Sampling) (ended : SampleEnd) :
    ((sampled x path content s ended).stock x path).Sublist (logicalLines content) := by
  unfold sampled
  split
  · exact List.nil_sublist _
  · exact List.Sublist.refl _

/-- Fetching a chunk loses no line. -/
theorem stock_fetched (path : String) (r : Remainder) :
    (fetched x r).stock x path = logicalLines r.bytes := by
  rw [← lines_fetched (x := x)]
  unfold fetched
  split <;> rfl

/-- A step of the thread itself carries lines on: it reads them and leaves them to tasks. -/
theorem carries_own (hown : t.own x file b = some (t', b')) :
    (t.flow x (b.page file)).Carries b.cancelled (t'.flow x (b'.page file)) := by
  have hdelivered : (b'.page file).delivered = (b.page file).delivered :=
    congrArg (List.map Delivery.line) (deliveriesOf_own hown file)
  cases turn_of_own hown with
  | openFile hat => exact carries_go hdelivered (hat ▸ stock_opened t.path)
  | judge hat => exact carries_go hdelivered (hat ▸ stock_sampled t.path _ _ _)
  | look hat | test hat | pass hat => exact carries_go hdelivered (hat ▸ List.Sublist.refl _)
  | fetch hat =>
    refine carries_go hdelivered ?_
    rw [hat, stock_fetched]
    exact List.Sublist.refl _
  | spawn hat =>
    refine ⟨fun line => ?_, fun _ line => ?_⟩
    · simp only [flow, hdelivered, count_begun, count_coming, sumOver_append, sumOver,
        Task.begun_start, Task.coming_start, List.count_nil, hat, Stage.stock, Stage.lines,
        List.count_append]
      omega
    · simp only [flow, hdelivered, count_begun, sumOver_append, sumOver, Task.begun_start,
        List.count_nil, Nat.add_zero]
  | breakOff | stop | join | write | report | leave =>
    exact carries_go hdelivered (List.nil_sublist _)

/-- Whatever orderly happens in a thread carries lines on. -/
theorem carries_moves (hsteady : x.audience.Steady) (h : t.Moves x file b happening t' b') :
    (t.flow x (b.page file)).Carries b.cancelled (t'.flow x (b'.page file)) := by
  cases h with
  | suffer hreading hsuffer =>
    obtain ⟨-, stage, chunks, hhalted, rfl, rfl⟩ := suffer_cases hreading hsuffer
    have hnone : stage.stock x t.path = [] := by
      obtain rfl | ⟨error, rfl⟩ := hhalted
      · rfl
      · rfl
    exact carries_go rfl (hnone ▸ List.nil_sublist _)
  | step hstep =>
    rcases step_cases hstep with hown | ⟨task, worker, k, k', d, hk, hwork, rfl, rfl⟩ |
      ⟨task, k, hk, hfinished, rfl, rfl⟩
    · exact carries_own hown
    · have hcarries := Task.carries_step hsteady hwork
      refine ⟨fun line => ?_, fun hcancelled line => ?_⟩
      · have hline := hcarries.atMost line
        have hbegun := sumOver_set (fun k : Task => k.begun.count line) hk k'
        have hcoming := sumOver_set (fun k : Task => k.coming.count line) hk k'
        simp only [flow, Task.flow, count_begun, count_coming] at hline ⊢
        omega
      · have hline := hcarries.frozen hcancelled line
        have hbegun := sumOver_set (fun k : Task => k.begun.count line) hk k'
        simp only [flow, Task.flow, count_begun] at hline ⊢
        omega
    · have hdelivered : ({ b with chunks := b.chunks.leave } : Board).page file =
          b.page file := rfl
      refine ⟨fun line => ?_, fun _ line => ?_⟩
      · have hbegun := sumOver_eraseIdx (fun k : Task => k.begun.count line) hk
        have hcoming := sumOver_eraseIdx (fun k : Task => k.coming.count line) hk
        simp only [flow, hdelivered, count_begun, count_coming]
        omega
      · have hbegun := sumOver_eraseIdx (fun k : Task => k.begun.count line) hk
        rw [Task.begun_of_finished hfinished, List.count_nil] at hbegun
        simp only [flow, hdelivered, count_begun]
        omega

/-- No more lines have got anywhere than the file has. -/
def Bounded (x : Setup) (t : Thread) (p : Page) : Prop :=
  ∀ line, p.delivered.count line + t.begun.count line + (t.coming x).count line ≤
    (x.linesOf t.path).count line

/-- A thread that starts is bounded by its file. -/
theorem bounded_start (path : String) :
    (start path x.audience.sinks).Bounded x .blank := by
  intro line
  simp [start, Page.delivered, Page.blank, begun, coming, Stage.stock]

/-- Whatever happens in a thread, no line comes in that the file does not have. -/
theorem Bounded.moves (hsteady : x.audience.Steady) (hmoves : t.Moves x file b happening t' b')
    (h : t.Bounded x (b.page file)) : t'.Bounded x (b'.page file) := by
  intro line
  rw [hmoves.apart.path]
  exact Nat.le_trans ((carries_moves hsteady hmoves).atMost line) (h line)

end Thread

/-! ## Runs -/

namespace State

/-- The lines of a file that were begun or delivered. -/
def dispatched (s : State) (file : Nat) : List String :=
  (s.board.deliveriesOf file).map Delivery.line ++
    ((s.threads[file]?).map Thread.begun).getD []

variable {x : Setup} {paths : List String} {s s' : State} {happening : Happening} {file : Nat}

/-- In a cancelled run no line is begun, and those that were are delivered. -/
theorem dispatched_passes (hsteady : x.audience.Steady) (hcancelled : s.board.cancelled = true)
    (hpasses : Passes x s happening s') : (s'.dispatched file).Perm (s.dispatched file) := by
  cases hpasses with
  | cancel => exact List.Perm.refl _
  | main hrest => exact List.Perm.refl _
  | @spawn path _ _ hmain =>
    have hbegun : ((s.threads ++ [.start path x.audience.sinks])[file]?.map Thread.begun).getD [] =
        ((s.threads[file]?).map Thread.begun).getD [] := by
      rcases Nat.lt_trichotomy file s.threads.length with hlt | rfl | hgt
      · rw [List.getElem?_append_left hlt]
      · rw [List.getElem?_concat_length, List.getElem?_eq_none (Nat.le_refl _)]
        rfl
      · rw [List.getElem?_eq_none (by simpa using Nat.succ_le_of_lt hgt),
          List.getElem?_eq_none (Nat.le_of_lt hgt)]
    exact List.Perm.of_eq (congrArg (_ ++ ·) hbegun)
  | @thread number t t' board _ ht hmoves =>
    by_cases hfile : number = file
    · subst hfile
      have hafter : (s.threads.set number t')[number]? = some t' :=
        List.getElem?_set_self (List.getElem?_eq_some_iff.1 ht).1
      have hfrozen := (Thread.carries_moves hsteady hmoves).frozen hcancelled
      rw [List.perm_iff_count]
      intro line
      simp only [dispatched, hafter, ht, Option.map_some, Option.getD_some, List.count_append]
      exact hfrozen line
    · have hpage := congrArg Page.deliveries (hmoves.page_of_ne (Ne.symm hfile))
      have hdeliveries : board.deliveriesOf file = s.board.deliveriesOf file := hpage
      rw [dispatched, hdeliveries, List.getElem?_set_ne hfile, ← dispatched]

/-- What a cancelled run has begun or delivered for a file stays the same. -/
theorem dispatched_perm (hsteady : x.audience.Steady) (hbalanced : s.Balanced x)
    (hcancelled : s.board.cancelled = true) {history : List Happening}
    (horderly : ∀ happening ∈ history, happening.Orderly)
    (hafter : s.afterAll x history = some s') (file : Nat) :
    (s'.dispatched file).Perm (s.dispatched file) := by
  have h : s'.board.cancelled = true ∧ (s'.dispatched file).Perm (s.dispatched file) :=
    @preserved_afterAll x s s'
      (fun next => next.board.cancelled = true ∧ (next.dispatched file).Perm (s.dispatched file))
      (fun _ _ hpasses h =>
        ⟨hpasses.later h.1, (dispatched_passes hsteady h.1 hpasses).trans h.2⟩)
      hbalanced ⟨hcancelled, List.Perm.refl _⟩ history horderly hafter
  exact h.2

/-- When a run is over, the lines that were begun are delivered. -/
theorem dispatched_of_finished (hbalanced : s.Balanced x) (hfinished : s.finished = true)
    (file : Nat) : s.dispatched file = (s.board.deliveriesOf file).map Delivery.line := by
  rw [dispatched]
  cases ht : s.threads[file]? with
  | none => rw [Option.map_none, Option.getD_none, List.append_nil]
  | some t =>
    have htasks := hbalanced.tasks_of_finished hfinished (List.mem_of_getElem? ht)
    rw [Option.map_some, Option.getD_some, Thread.begun, htasks, List.flatMap_nil, List.append_nil]

/-- After any orderly history the lines of every file are bounded by its content. -/
theorem bounded_afterAll (hsteady : x.audience.Steady) {cancelled : Bool}
    {history : List Happening} (horderly : ∀ happening ∈ history, happening.Orderly)
    (hafter : (start x cancelled paths).afterAll x history = some s) :
    s.Paged fun _ => Thread.Bounded x :=
  paged_afterAll (fun _ => Thread.bounded_start) (fun _ hmoves h => h.moves hsteady hmoves)
    horderly hafter

/-- No line is delivered more often than the file has it. -/
theorem delivered_subperm (hbounded : s.Paged fun _ => Thread.Bounded x) {t : Thread}
    (ht : s.threads[file]? = some t) :
    ((s.board.deliveriesOf file).map Delivery.line).Subperm (x.linesOf t.path) := by
  rw [List.subperm_iff_count]
  intro line
  have hline := hbounded.threads file t ht line
  exact Nat.le_trans (Nat.le_trans (Nat.le_add_right _ _) (Nat.le_add_right _ _)) hline

end State

end LogAudit.Ingest
