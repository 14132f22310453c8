import LogAudit.Proofs.Ingest.Dispatch
import LogAudit.Proofs.Ingest.SampleRatio

/-!
# Files of one batch

Where the lines of a file make one batch, one worker delivers all of them, a line after the other,
and the other workers find nothing to do. So at any moment the lines that were started are the first
ones of the file, and every sink was given them in that order, the last one perhaps not yet
(`Thread.InTurn.moves`).
-/

namespace LogAudit.Ingest

/-- The lines of a content make one chunk, and the lines of the chunk one batch. -/
structure Setup.OneBatch (x : Setup) (content : List UInt8) : Prop where
  chunk : chunks x.limits.chunkSizeBytes content = [content]
  batch : (Task.start x.limits.batchLines content).batches = 1

/-- Where only one of some items gives anything, it gives all there is. -/
theorem flatMap_eq_of_getElem? {α β : Type} (f : α → List β) {items : List α} {i : Nat} {item : α}
    (h : items[i]? = some item)
    (hothers : ∀ j other, items[j]? = some other → j ≠ i → f other = []) :
    items.flatMap f = f item := by
  induction items generalizing i with
  | nil => simp at h
  | cons first items ih =>
    rw [List.flatMap_cons]
    cases i with
    | zero =>
      obtain rfl : first = item := by simpa using h
      have hrest : items.flatMap f = [] := by
        rw [List.flatMap_eq_nil_iff]
        intro other hother
        obtain ⟨j, hj⟩ := List.getElem?_of_mem hother
        exact hothers (j + 1) other hj (Nat.succ_ne_zero j)
      rw [hrest, List.append_nil]
    | succ i =>
      rw [hothers 0 first rfl (Nat.succ_ne_zero i).symm, List.nil_append]
      refine ih h fun j other hother hj => ?_
      exact hothers (j + 1) other hother (mt Nat.succ.inj hj)

/-! ## The worker that has the batch -/

namespace Worker

/-- The line that a worker has begun, if it is still to be given to the sink with a number. -/
def due (sink : Nat) (w : Worker) : List String :=
  match w.begun? with
  | some (line, asked) => if asked ≤ sink then [line] else []
  | none => []

/-- A worker that has no lines. -/
structure Idle (w : Worker) : Prop where
  begun : w.begun? = none
  coming : w.coming = []

/-- The lines that a worker has started, and those that are coming, are the first ones. Every sink
was given those that were started, except for the last one if that is still due. -/
structure InOrder (sinks : Nat) (lines : List String) (events : List Event)
    (deliveries : List Delivery) (started : List String) (w : Worker) : Prop where
  fed : ∀ sink < sinks, (linesTo sink events).reverse ++ w.due sink = started
  coming : started ++ w.coming <+: lines
  count : deliveries.length + w.begun.length = started.length

variable {sinks file : Nat} {cancelled : Bool} {w w' : Worker} {p p' : Page}
  {lines started : List String} {events : List Event} {deliveries : List Delivery}

/-- Without a line begun nothing is due. -/
theorem due_of_none {sink : Nat} (h : w.begun? = none) : w.due sink = [] := by
  rw [due, h]

/-- A line begun is due to the sinks that were not asked about it. -/
theorem due_of_some {sink asked : Nat} {line : String} (h : w.begun? = some (line, asked)) :
    w.due sink = if asked ≤ sink then [line] else [] := by
  rw [due, h]

theorem begun_of_none (h : w.begun? = none) : w.begun = [] := by
  rw [Worker.begun, h]
  rfl

theorem begun_of_some {line : String} {asked : Nat} (h : w.begun? = some (line, asked)) :
    w.begun = [line] := by
  rw [Worker.begun, h]
  rfl

/-- A worker without lines stays without them and gives none away. -/
theorem Advance.idle (h : Advance sinks cancelled file w w' p p') (hidle : w.Idle) :
    w'.Idle ∧ p' = p := by
  cases h with
  | rest hbegun hcoming =>
    exact ⟨⟨hbegun.trans hidle.begun, List.prefix_nil.1 (hidle.coming ▸ hcoming)⟩, rfl⟩
  | begin hcalm hbefore hafter hcoming => exact absurd (hcoming.symm.trans hidle.coming) nofun
  | ask hasked hbefore => exact absurd (hbefore.symm.trans hidle.begun) nofun
  | deliver hall hbefore => exact absurd (hbefore.symm.trans hidle.begun) nofun

/-- Where a worker without lines stands, another one could stand. -/
theorem InOrder.of_idle (h : w.InOrder sinks lines events deliveries started) (hidle : w.Idle)
    (hidle' : w'.Idle) : w'.InOrder sinks lines events deliveries started where
  fed := by
    intro sink hsink
    have hdue : w.due sink = w'.due sink := by
      rw [due_of_none hidle.begun, due_of_none hidle'.begun]
    exact hdue ▸ h.fed sink hsink
  coming := by
    rw [hidle'.coming, ← hidle.coming]
    exact h.coming
  count := by
    rw [begun_of_none hidle'.begun, ← begun_of_none hidle.begun]
    exact h.count

/-- The worker that has the batch goes on in order. -/
theorem Advance.inOrder (h : Advance sinks cancelled file w w' p p')
    (hin : w.InOrder sinks lines p.events p.deliveries started) :
    ∃ started', w'.InOrder sinks lines p'.events p'.deliveries started' := by
  cases h with
  | rest hbegun hcoming =>
    refine ⟨started, fun sink hsink => ?_, ?_, ?_⟩
    · rw [due, hbegun, ← due]
      exact hin.fed sink hsink
    · exact ((List.prefix_append_right_inj started).2 hcoming).trans hin.coming
    · rw [Worker.begun, hbegun, ← Worker.begun]
      exact hin.count
  | @begin line hcalm hbefore hafter hcoming =>
    refine ⟨started ++ [line], fun sink hsink => ?_, ?_, ?_⟩
    · rw [due_of_some hafter, if_pos (Nat.zero_le _), ← hin.fed sink hsink, due_of_none hbefore,
        List.append_nil]
    · rw [List.append_assoc, List.singleton_append, ← hcoming]
      exact hin.coming
    · have hcount := hin.count
      rw [begun_of_none hbefore] at hcount
      rw [begun_of_some hafter, List.length_append, ← hcount]
      rfl
  | @ask line asked stop? hasked hbefore hafter hcoming =>
    refine ⟨started, fun sink hsink => ?_, hcoming ▸ hin.coming, ?_⟩
    · have hfed := hin.fed sink hsink
      rw [due_of_some hbefore] at hfed
      rw [due_of_some hafter]
      by_cases hsame : asked = sink
      · subst hsame
        rw [if_pos (Nat.le_refl _)] at hfed
        simpa [linesTo] using hfed
      · have hlines : linesTo sink (⟨file, .sink asked, line, stop?⟩ :: p.events) =
            linesTo sink p.events := by simp [linesTo, hsame]
        have hnext : asked + 1 ≤ sink ↔ asked ≤ sink := by omega
        simp only [hlines, hnext]
        exact hfed
    · have hcount := hin.count
      rw [begun_of_some hbefore] at hcount
      rw [begun_of_some hafter]
      exact hcount
  | @deliver line answers hall hbefore hafter hcoming =>
    refine ⟨started, fun sink hsink => ?_, hcoming ▸ hin.coming, ?_⟩
    · have hfed := hin.fed sink hsink
      rw [due_of_some hbefore, if_neg (by omega)] at hfed
      rw [due_of_none hafter]
      exact hfed
    · have hcount := hin.count
      rw [begun_of_some hbefore] at hcount
      rw [begun_of_none hafter]
      simp only [List.length_cons, List.length_nil] at hcount ⊢
      omega

end Worker

/-! ## The task of the batch -/

namespace Task

/-- The one batch of a task is still to be taken, or one worker has it and the others have no
lines. -/
inductive Turn (sinks : Nat) (lines : List String) (events : List Event)
    (deliveries : List Delivery) (started : List String) (t : Task) : Prop where
  | untaken (hnext : t.next = 0) (hidle : ∀ w ∈ t.workers, w.Idle)
    (hfed : ∀ sink < sinks, linesTo sink events = []) (hdeliveries : deliveries = [])
    (hstarted : started = [])
  | taken {i : Nat} {w : Worker} (hnext : t.next ≠ 0) (hw : t.workers[i]? = some w)
    (hothers : ∀ j other, t.workers[j]? = some other → j ≠ i → other.Idle)
    (hworker : w.InOrder sinks lines events deliveries started)

/-- The lines of a task make one batch, which is delivered in order. -/
structure InOrder (sinks : Nat) (lines : List String) (events : List Event)
    (deliveries : List Delivery) (started : List String) (t : Task) : Prop where
  size : t.lines.length ≤ t.size
  merged : t.lines.filter (!skipped ·) = lines
  turn : t.Turn sinks lines events deliveries started

variable {a : Audience} {file worker : Nat} {path : String} {t t' : Task} {d d' : Desk}
  {lines started : List String} {events : List Event} {deliveries : List Delivery}

/-- A worker that finds no batch to take has no lines. -/
theorem idle_claim (hsize : t.lines.length ≤ t.size) (hnext : t.next ≠ 0) : t.claim.Idle := by
  have hnone : ¬ t.next < t.batches := by
    rw [next_lt_batches, Nat.not_lt]
    exact Nat.le_trans hsize (Nat.le_mul_of_pos_left _ (Nat.pos_of_ne_zero hnext))
  rw [claim, if_neg hnone]
  exact ⟨rfl, rfl⟩

/-- A worker that takes the one batch starts with its first line. -/
theorem inOrder_claim {sinks : Nat} (hsize : t.lines.length ≤ t.size)
    (hlines : t.lines.filter (!skipped ·) = lines) (hnext : t.next = 0)
    (hfed : ∀ sink < sinks, linesTo sink events = []) :
    t.claim.InOrder sinks lines events [] [] := by
  have hbegun : t.claim.begun? = none := by
    unfold claim
    split <;> rfl
  have hcoming : t.claim.coming = lines := by
    rw [coming_claim, unclaimed, hnext, Nat.zero_mul, List.drop_zero, List.take_of_length_le hsize,
      hlines]
  refine ⟨fun sink hsink => ?_, ?_, ?_⟩
  · rw [hfed sink hsink, Worker.due_of_none hbegun]
    rfl
  · rw [hcoming]
    exact List.prefix_refl _
  · rw [Worker.begun_of_none hbegun]
    rfl

/-- The worker that takes a step is replaced by one that has no lines, if it had none. -/
theorem idle_of_set {workers : List Worker} {i : Nat} {w : Worker}
    (hothers : ∀ j other, workers[j]? = some other → j ≠ i → other.Idle)
    (hw : worker ≠ i → w.Idle) :
    ∀ j other, (workers.set worker w)[j]? = some other → j ≠ i → other.Idle := by
  intro j other hother hj
  rw [List.getElem?_set] at hother
  split at hother
  · rename_i hsame
    split at hother
    · obtain rfl := Option.some.inj hother
      exact hw (hsame ▸ hj)
    · cases hother
  · exact hothers j other hother hj

/-- Every step of the task of a batch goes on in order. -/
theorem InOrder.step (hsteady : a.Steady)
    (h : t.InOrder a.sinks lines (d.board.eventsOf file) (d.board.deliveriesOf file) started)
    (hstep : t.step a file path worker d = some (t', d')) :
    ∃ started', t'.InOrder a.sinks lines (d'.board.eventsOf file) (d'.board.deliveriesOf file)
      started' := by
  obtain ⟨hsize, hlines, hturn⟩ := h
  rcases step_cases hstep with ⟨hworker, rfl, rfl⟩ | ⟨w₀, hworker, -, -, rfl, rfl⟩
  · refine ⟨started, hsize, hlines, ?_⟩
    have hset := List.getElem?_set_self (a := t.claim) (List.getElem?_eq_some_iff.1 hworker).1
    cases hturn with
    | untaken hnext hidle hfed hdeliveries hstarted =>
      rw [hdeliveries, hstarted]
      refine .taken (Nat.succ_ne_zero _) hset ?_ (inOrder_claim hsize hlines hnext hfed)
      refine idle_of_set (fun j other hother _ => hidle other (List.mem_of_getElem? hother)) ?_
      exact fun hne => absurd rfl hne
    | @taken i w hnext hw hothers hin =>
      have hclaim := idle_claim hsize hnext
      by_cases hsame : worker = i
      · subst hsame
        obtain rfl := Option.some.inj (hw.symm.trans hworker)
        exact .taken (Nat.succ_ne_zero _) hset (idle_of_set hothers fun _ => hclaim)
          (hin.of_idle ⟨rfl, rfl⟩ hclaim)
      · refine .taken (Nat.succ_ne_zero _) ?_ (idle_of_set hothers fun _ => hclaim) hin
        rw [List.getElem?_set_ne hsame]
        exact hw
  · have hadvance := @Worker.advance_step a file path d hsteady w₀
    generalize w₀.step a file path d = stepped at hadvance ⊢
    obtain ⟨w₀', d'⟩ := stepped
    have hset := List.getElem?_set_self (a := w₀') (List.getElem?_eq_some_iff.1 hworker).1
    cases hturn with
    | untaken hnext hidle hfed hdeliveries hstarted =>
      obtain ⟨hidle', hpage⟩ := hadvance.idle (hidle w₀ (List.mem_of_getElem? hworker))
      have hevents : d'.board.eventsOf file = d.board.eventsOf file := congrArg Page.events hpage
      have hsame : d'.board.deliveriesOf file = d.board.deliveriesOf file :=
        congrArg Page.deliveries hpage
      refine ⟨started, hsize, hlines, .untaken hnext (fun w hw => ?_) (by rwa [hevents])
        (hsame.trans hdeliveries) hstarted⟩
      rcases List.mem_or_eq_of_mem_set hw with hw | rfl
      · exact hidle w hw
      · exact hidle'
    | @taken i w hnext hw hothers hin =>
      by_cases hsame : worker = i
      · subst hsame
        obtain rfl := Option.some.inj (hw.symm.trans hworker)
        obtain ⟨started', hin'⟩ := hadvance.inOrder hin
        exact ⟨started', hsize, hlines,
          .taken hnext hset (idle_of_set hothers fun hne => absurd rfl hne) hin'⟩
      · obtain ⟨hidle', hpage⟩ := hadvance.idle (hothers worker w₀ hworker hsame)
        have hevents : d'.board.eventsOf file = d.board.eventsOf file := congrArg Page.events hpage
        have hdeliveries : d'.board.deliveriesOf file = d.board.deliveriesOf file :=
          congrArg Page.deliveries hpage
        rw [hevents, hdeliveries]
        refine ⟨started, hsize, hlines, .taken hnext ?_ (idle_of_set hothers fun _ => hidle') hin⟩
        rw [List.getElem?_set_ne hsame]
        exact hw

/-- A new task of one batch has not started. -/
theorem inOrder_start {sinks : Nat} {batchLines : Nat} {chunk : List UInt8}
    (hone : (start batchLines chunk).batches = 1)
    (hfed : ∀ sink < sinks, linesTo sink events = []) :
    (start batchLines chunk).InOrder sinks (logicalLines chunk) events [] [] where
  size := by
    have hnone : ¬ ({ start batchLines chunk with next := 1 } : Task).next <
        ({ start batchLines chunk with next := 1 } : Task).batches := by
      have hbatches : ({ start batchLines chunk with next := 1 } : Task).batches = 1 := hone
      rw [hbatches]
      exact Nat.lt_irrefl 1
    rw [next_lt_batches, Nat.one_mul] at hnone
    exact Nat.le_of_not_lt hnone
  merged := rfl
  turn := .untaken rfl (fun w hw => List.eq_of_mem_replicate hw ▸ ⟨rfl, rfl⟩) hfed rfl rfl

end Task

/-! ## The thread of the file -/

namespace Thread

/-- No task was started, and no line given to a sink. -/
structure Unbegun (sinks : Nat) (events : List Event) (deliveries : List Delivery) (t : Thread) :
    Prop where
  tasks : t.tasks = []
  fed : ∀ sink < sinks, linesTo sink events = []
  deliveries : deliveries = []

/-- The lines that were started are the first ones of the file: there is one task that delivers
them, or each sink was given all of them. -/
inductive InOrder (sinks : Nat) (lines : List String) (events : List Event)
    (deliveries : List Delivery) (started : List String) (t : Thread) : Prop where
  | task {k : Task} (htasks : t.tasks = [k])
    (hin : k.InOrder sinks lines events deliveries started)
  | retired (htasks : t.tasks = [])
    (hfed : ∀ sink < sinks, (linesTo sink events).reverse = started)
    (hlines : started <+: lines) (hcount : deliveries.length = started.length)

/-- What is established at a stage of the thread of a file with a content of one batch. -/
def InTurn (x : Setup) (content : List UInt8) (events : List Event) (deliveries : List Delivery)
    (t : Thread) : Prop :=
  match t.stage with
  | .opening => t.Unbegun x.audience.sinks events deliveries
  | .sampling sampled _ | .testing sampled _ _ =>
    sampled = content ∧ t.Unbegun x.audience.sinks events deliveries
  | .reading r =>
    r = .ofContent content ∧ t.Unbegun x.audience.sinks events deliveries ∨
    r.next? x.limits.chunkSizeBytes = none ∧
      ∃ started, t.InOrder x.audience.sinks (logicalLines content) events deliveries started
  | .waiting chunk r | .starting chunk r =>
    chunk = content ∧ r.next? x.limits.chunkSizeBytes = none ∧
      t.Unbegun x.audience.sinks events deliveries
  | _ => ∃ started, t.InOrder x.audience.sinks (logicalLines content) events deliveries started

variable {x : Setup} {file : Nat} {t t' : Thread} {b b' : Board} {happening : Happening}
  {content : List UInt8} {events : List Event} {deliveries : List Delivery}
  {lines started : List String}

theorem Unbegun.go {sinks : Nat} (h : t.Unbegun sinks events deliveries) (stage : Stage) :
    (t.go stage).Unbegun sinks events deliveries := ⟨h.tasks, h.fed, h.deliveries⟩

theorem InOrder.go {sinks : Nat} (h : t.InOrder sinks lines events deliveries started)
    (stage : Stage) : (t.go stage).InOrder sinks lines events deliveries started := by
  cases h with
  | task htasks hin => exact .task htasks hin
  | retired htasks hfed hlines hcount => exact .retired htasks hfed hlines hcount

theorem Unbegun.inOrder {sinks : Nat} (h : t.Unbegun sinks events deliveries)
    (lines : List String) : t.InOrder sinks lines events deliveries [] :=
  .retired h.tasks (fun sink hsink => by rw [h.fed sink hsink]; rfl) List.nil_prefix
    (by rw [h.deliveries]; rfl)

/-- At the start the file comes in turn. -/
theorem inTurn_start (x : Setup) (path : String) (content : List UInt8) :
    (start path x.audience.sinks).InTurn x content [] [] := ⟨rfl, fun _ _ => rfl, rfl⟩

/-- Whatever the stage, the lines that were started are the first ones. -/
theorem InTurn.inOrder (h : t.InTurn x content events deliveries) :
    ∃ started, t.InOrder x.audience.sinks (logicalLines content) events deliveries started := by
  unfold InTurn at h
  split at h
  · exact ⟨[], h.inOrder _⟩
  · exact ⟨[], h.2.inOrder _⟩
  · exact ⟨[], h.2.inOrder _⟩
  · rcases h with ⟨-, hunbegun⟩ | ⟨-, hin⟩
    · exact ⟨[], hunbegun.inOrder _⟩
    · exact hin
  · exact ⟨[], h.2.2.inOrder _⟩
  · exact ⟨[], h.2.2.inOrder _⟩
  · exact h

/-- The stages at which a thread waits for its tasks or has none. -/
theorem inTurn_of_inOrder {stage : Stage}
    (hstage : stage = .joining ∨ (∃ error, stage = .failing error) ∨
      (∃ error, stage = .closing error) ∨ stage = .leaving ∨ stage = .ended)
    (h : ∃ started, t.InOrder x.audience.sinks (logicalLines content) events deliveries started) :
    (t.go stage).InTurn x content events deliveries := by
  obtain ⟨started, hin⟩ := h
  rcases hstage with rfl | ⟨error, rfl⟩ | ⟨error, rfl⟩ | rfl | rfl <;>
    exact ⟨started, hin.go _⟩

/-- Behind the opening the file comes in turn. -/
theorem inTurn_opened (hopen : x.open? t.path = .ok content)
    (h : t.Unbegun x.audience.sinks events deliveries) :
    (t.go (opened x t.path)).InTurn x content events deliveries := by
  unfold opened
  rw [hopen]
  dsimp only
  split
  · exact inTurn_of_inOrder (Or.inr (Or.inr (Or.inl ⟨_, rfl⟩))) ⟨[], h.inOrder _⟩
  · exact ⟨rfl, h.go _⟩

/-- Behind the sample the file comes in turn. -/
theorem inTurn_sampled (s : Sampling) (ended : SampleEnd)
    (h : t.Unbegun x.audience.sinks events deliveries) :
    (t.go (sampled x t.path content s ended)).InTurn x content events deliveries := by
  unfold sampled
  split
  · exact inTurn_of_inOrder (Or.inr (Or.inl ⟨_, rfl⟩)) ⟨[], h.inOrder _⟩
  · exact Or.inl ⟨rfl, h.go _⟩

/-- The only chunk is the content. -/
theorem inTurn_fetched (hone : x.OneBatch content)
    (h : t.Unbegun x.audience.sinks events deliveries) :
    (t.go (fetched x (.ofContent content))).InTurn x content events deliveries := by
  have hchunks := hone.chunk
  rw [chunks, Remainder.chunks] at hchunks
  unfold fetched
  split at hchunks
  · rename_i hnone
    rw [hnone]
    exact inTurn_of_inOrder (Or.inl rfl) ⟨[], h.inOrder _⟩
  · rename_i chunk next hnext
    rw [hnext]
    obtain ⟨hchunk, hrest⟩ := List.cons.inj hchunks
    rw [Remainder.chunks] at hrest
    split at hrest
    · rename_i hnone
      exact ⟨hchunk, hnone, h.go _⟩
    · cases hrest

/-- A line of the sample is none that a task has begun. -/
theorem Unbegun.ask (h : t.Unbegun x.audience.sinks (b.eventsOf file) (b.deliveriesOf file))
    (line : String) :
    t.Unbegun x.audience.sinks ((b.ask x.audience file .validator line).2.eventsOf file)
      ((b.ask x.audience file .validator line).2.deliveriesOf file) := by
  refine ⟨h.tasks, fun sink hsink => ?_, h.deliveries⟩
  rw [Board.eventsOf_ask, linesTo, List.filter_cons_of_neg (by simp), ← linesTo]
  exact h.fed sink hsink

/-- A step of the thread itself keeps the lines in order. -/
theorem InTurn.own (h : t.InTurn x content (b.eventsOf file) (b.deliveriesOf file))
    (hopen : x.open? t.path = .ok content) (hone : x.OneBatch content)
    (hown : t.own x file b = some (t', b')) :
    t'.InTurn x content (b'.eventsOf file) (b'.deliveriesOf file) := by
  have hin := h.inOrder
  unfold InTurn at h
  cases turn_of_own hown with
  | openFile hat =>
    rw [hat] at h
    exact inTurn_opened hopen h
  | judge hat =>
    rw [hat] at h
    obtain ⟨rfl, hunbegun⟩ := h
    exact inTurn_sampled _ _ hunbegun
  | look hat =>
    rw [hat] at h
    exact ⟨h.1, h.2.go _⟩
  | test hat htest =>
    rw [hat] at h
    obtain rfl := Sampling.board_of_test htest
    exact ⟨h.1, (h.2.ask _).go _⟩
  | breakOff hat htest =>
    rw [hat] at h
    obtain rfl := Sampling.board_of_test htest
    exact inTurn_of_inOrder (Or.inr (Or.inl ⟨_, rfl⟩)) ⟨[], (h.2.ask _).inOrder _⟩
  | stop => exact inTurn_of_inOrder (Or.inl rfl) hin
  | fetch hat =>
    rw [hat] at h
    rcases h with ⟨rfl, hunbegun⟩ | ⟨hnone, hstarted⟩
    · exact inTurn_fetched hone hunbegun
    · unfold fetched
      rw [hnone]
      exact inTurn_of_inOrder (Or.inl rfl) hstarted
  | pass hat =>
    rw [hat] at h
    exact ⟨h.1, h.2.1, h.2.2.go _⟩
  | @spawn chunk r hat =>
    rw [hat] at h
    obtain ⟨rfl, hnone, hunbegun⟩ := h
    refine Or.inr ⟨hnone, [], .task ?_ (k := .start x.limits.batchLines chunk) ?_⟩
    · rw [hunbegun.tasks]
      rfl
    · have hdeliveries : b.deliveriesOf file = [] := hunbegun.deliveries
      have hstart := Task.inOrder_start hone.batch hunbegun.fed
      rw [← hdeliveries] at hstart
      exact hstart
  | join hat | write hat =>
    rw [hat] at h
    exact inTurn_of_inOrder (Or.inr (Or.inr (Or.inl ⟨_, rfl⟩))) h
  | report hat =>
    rw [hat] at h
    exact inTurn_of_inOrder (Or.inr (Or.inr (Or.inr (Or.inl rfl)))) h
  | leave hat =>
    rw [hat] at h
    exact inTurn_of_inOrder (Or.inr (Or.inr (Or.inr (Or.inr rfl)))) h

/-- As many lines were started as were begun or delivered. -/
theorem InOrder.length_started {sinks : Nat}
    (h : t.InOrder sinks lines events deliveries started) :
    deliveries.length + t.begun.length = started.length := by
  cases h with
  | retired htasks hfed hlines hcount => rw [begun, htasks, hcount]; rfl
  | @task k htasks hin =>
    have hbegun : t.begun = k.begun := by
      rw [begun, htasks, List.flatMap_cons, List.flatMap_nil, List.append_nil]
    rw [hbegun]
    cases hin.turn with
    | untaken hnext hidle hfed hdeliveries hstarted =>
      have hnone : k.begun = [] :=
        List.flatMap_eq_nil_iff.2 fun w hw => Worker.begun_of_none (hidle w hw).begun
      rw [hnone, hdeliveries, hstarted]
      rfl
    | taken hnext hw hothers hworker =>
      rw [Task.begun, flatMap_eq_of_getElem? Worker.begun hw fun j other hother hj =>
        Worker.begun_of_none (hothers j other hother hj).begun]
      exact hworker.count

/-- The lines that were started are the first ones. -/
theorem InOrder.started_prefix {sinks : Nat}
    (h : t.InOrder sinks lines events deliveries started) : started <+: lines := by
  cases h with
  | retired htasks hfed hlines hcount => exact hlines
  | task htasks hin =>
    cases hin.turn with
    | untaken hnext hidle hfed hdeliveries hstarted => exact hstarted ▸ List.nil_prefix
    | taken hnext hw hothers hworker => exact (List.prefix_append _ _).trans hworker.coming

/-- When the task of the batch has finished, each sink was given what was started. -/
theorem InOrder.retire {sinks task : Nat} {k : Task}
    (h : t.InOrder sinks lines events deliveries started) (hk : t.tasks[task]? = some k)
    (hfinished : k.finished = true) :
    ({ t with tasks := t.tasks.eraseIdx task } : Thread).InOrder sinks lines events deliveries
      started := by
  have hprefix := h.started_prefix
  have hlength := h.length_started
  cases h with
  | retired htasks => simp [htasks] at hk
  | @task k' htasks hin =>
    obtain ⟨rfl, rfl⟩ : task = 0 ∧ k' = k := by
      rw [htasks, List.getElem?_singleton] at hk
      split at hk
      · exact ⟨‹_›, Option.some.inj hk⟩
      · cases hk
    have hnone : t.begun = [] := by
      rw [begun, htasks, List.flatMap_cons, List.flatMap_nil, List.append_nil,
        Task.begun_of_finished hfinished]
    rw [hnone, List.length_nil, Nat.add_zero] at hlength
    have hfed : ∀ sink < sinks, (linesTo sink events).reverse = started := by
      intro sink hsink
      cases hin.turn with
      | untaken hnext hidle hfed hdeliveries hstarted =>
        rw [hfed sink hsink, hstarted]
        rfl
      | @taken i w hnext hw hothers hworker =>
        have hended := Task.ended_of_finished hfinished (List.mem_of_getElem? hw)
        have hgiven := hworker.fed sink hsink
        rwa [Worker.due_of_none (by rw [hended]; rfl), List.append_nil] at hgiven
    exact .retired (by rw [htasks]; rfl) hfed hprefix hlength

/-- A thread that has tasks delivers, and goes on delivering. -/
theorem InTurn.of_tasks (h : t.InTurn x content events deliveries)
    (hdelivers : t.stage.delivers = true) (htasks : t.tasks ≠ []) {tasks : List Task}
    {tally : Tally} {events' : List Event} {deliveries' : List Delivery}
    (hin : ∃ started, ({ t with tally, tasks } : Thread).InOrder x.audience.sinks
      (logicalLines content) events' deliveries' started) :
    ({ t with tally, tasks } : Thread).InTurn x content events' deliveries' := by
  unfold InTurn at h ⊢
  cases hat : t.stage with simp only [hat] at h hdelivers hin ⊢
  | reading r =>
    rcases h with ⟨-, hunbegun⟩ | ⟨hnone, -⟩
    · exact absurd hunbegun.tasks htasks
    · exact Or.inr ⟨hnone, hin⟩
  | waiting chunk r => exact absurd h.2.2.tasks htasks
  | starting chunk r => exact absurd h.2.2.tasks htasks
  | joining => exact hin
  | _ => cases hdelivers

/-- Whatever orderly happens in the thread of a file of one batch, the lines that were started stay
the first ones of the file. -/
theorem InTurn.moves (hsteady : x.audience.Steady) (hopen : x.open? t.path = .ok content)
    (hone : x.OneBatch content) (hsettled : t.Settled)
    (hmoves : t.Moves x file b happening t' b')
    (h : t.InTurn x content (b.eventsOf file) (b.deliveriesOf file)) :
    t'.InTurn x content (b'.eventsOf file) (b'.deliveriesOf file) := by
  cases hmoves with
  | suffer hreading hsuffer =>
    obtain ⟨-, stage, chunks, hhalted, rfl, rfl⟩ := suffer_cases hreading hsuffer
    exact inTurn_of_inOrder (hhalted.imp_right Or.inl) h.inOrder
  | step hstep =>
    rcases step_cases hstep with hown | ⟨task, worker, k, k', d, hk, hwork, rfl, rfl⟩ |
      ⟨task, k, hk, hfinished, rfl, rfl⟩
    · exact h.own hopen hone hown
    all_goals
      have htasks := List.ne_nil_of_mem (List.mem_of_getElem? hk)
      have hdelivers := hsettled.resolve_right htasks
      obtain ⟨started, hin⟩ := h.inOrder
    · refine h.of_tasks hdelivers htasks ?_
      cases hin with
      | retired hnone => exact absurd hnone htasks
      | @task k₀ hone hin =>
        obtain ⟨rfl, rfl⟩ : task = 0 ∧ k₀ = k := by
          rw [hone, List.getElem?_singleton] at hk
          split at hk
          · exact ⟨‹_›, Option.some.inj hk⟩
          · cases hk
        obtain ⟨started', hin'⟩ := hin.step hsteady hwork
        exact ⟨started', .task (by rw [hone]; rfl) hin'⟩
    · exact h.of_tasks hdelivers htasks ⟨started, hin.retire hk hfinished⟩

/-- A worker of a task of the thread has just asked the sink with a number about a line. -/
def JustAsked (sink : Nat) (line : String) (t : Thread) : Prop :=
  ∃ k ∈ t.tasks, ∃ w ∈ k.workers, w.begun? = some (line, sink + 1)

/-- A sink that was just asked was given all lines that were started. -/
theorem InOrder.fed_of_justAsked {sinks sink : Nat} {line : String}
    (h : t.InOrder sinks lines events deliveries started) (hsink : sink < sinks)
    (hasked : t.JustAsked sink line) : (linesTo sink events).reverse = started := by
  obtain ⟨k, hk, w, hw, hbegun⟩ := hasked
  cases h with
  | retired htasks => exact absurd (htasks ▸ hk) List.not_mem_nil
  | @task k' htasks hin =>
    rw [htasks] at hk
    obtain rfl := List.mem_singleton.1 hk
    cases hin.turn with
    | untaken hnext hidle => exact absurd ((hidle w hw).begun.symm.trans hbegun) nofun
    | @taken i w' hnext hw' hothers hworker =>
      obtain ⟨j, hj⟩ := List.getElem?_of_mem hw
      have hsame : j = i := by
        by_contra hj'
        exact absurd ((hothers j w hj hj').begun.symm.trans hbegun) nofun
      subst hsame
      obtain rfl := Option.some.inj (hw'.symm.trans hj)
      have hfed := hworker.fed sink hsink
      rwa [Worker.due_of_some hbegun, if_neg (by omega), List.append_nil] at hfed

end Thread

end LogAudit.Ingest
