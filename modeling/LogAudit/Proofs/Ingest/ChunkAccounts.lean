import LogAudit.Proofs.Ingest.Batches

/-!
# What the delivery of a chunk comes to

The batches of a chunk cut its lines into consecutive parts, and the workers take each of them once
(`Task.taken_append`). What is asked, delivered and written down for the batches is interleaved in
the order of the steps; the counters and what a sink is fed do not depend on it. A sink that breaks
off ends its batch and nothing else (`batches_accounted`).
-/

namespace LogAudit.Ingest

open LogAudit.Text

/-! ## What deeds leave on a board -/

namespace Deed

/-- What a sink is asked. -/
def events : Deed → List Event
  | ask event => [event]
  | _ => []

/-- What becomes of a line. -/
def deliveries : Deed → List Delivery
  | note delivery => [delivery]
  | _ => []

/-- The records that are written down at once. -/
def blocks : Deed → List (List ErrorRecord)
  | write records => [records]
  | _ => []

variable {sinks : List Sink} {file : Nat} {path : String} (b : Board) (deeds : List Deed)

/-- Deeds leave their events on the board, the latest first. -/
theorem events_foldl : (deeds.foldl (Board.does file) b).events =
    (deeds.flatMap events).reverse ++ b.events := by
  induction deeds generalizing b with
  | nil => rfl
  | cons deed deeds ih =>
    rw [List.foldl_cons, ih, List.flatMap_cons, List.reverse_append, List.append_assoc]
    cases deed <;> rfl

/-- Deeds leave their deliveries on the board, the latest first. -/
theorem deliveriesOf_foldl : (deeds.foldl (Board.does file) b).deliveriesOf file =
    (deeds.flatMap deliveries).reverse ++ b.deliveriesOf file := by
  induction deeds generalizing b with
  | nil => rfl
  | cons deed deeds ih =>
    rw [List.foldl_cons, ih, List.flatMap_cons, List.reverse_append, List.append_assoc]
    cases deed with
    | note delivery => rw [Board.does, Board.deliveriesOf_note]; rfl
    | _ => rfl

/-- Deeds leave their records on the board, the latest first. -/
theorem records_foldl : (deeds.foldl (Board.does file) b).records =
    (deeds.flatMap blocks).flatten.reverse ++ b.records := by
  induction deeds generalizing b with
  | nil => rfl
  | cons deed deeds ih =>
    rw [List.foldl_cons, ih, List.flatMap_cons, List.flatten_append, List.reverse_append,
      List.append_assoc]
    cases deed with
    | write records => rw [Board.does, Board.write, blocks, List.flatten_singleton]
    | _ => rfl

/-- What is to be done for a batch, seen in the same ways. -/
theorem flatMap_batchDeeds {α : Type} (f : Deed → List α) (batch : Batch) :
    (batchDeeds sinks file path batch).flatMap f =
      (batchDeliveries sinks batch.lines).flatMap (fun d =>
        (d.asked file).flatMap (fun event => f (ask event)) ++ f (note d)) ++
      f (write ((batch.failures ++ refusals (batchDeliveries sinks batch.lines)).map
        (lineRecord path))) := by
  simp only [batchDeeds, List.flatMap_append, List.flatMap_assoc, List.flatMap_map,
    List.flatMap_singleton]

theorem flatMap_nothing {α β : Type} (items : List α) :
    (items.flatMap fun _ => ([] : List β)) = [] :=
  List.flatMap_eq_nil_iff.2 fun _ _ => rfl

/-- A batch asks about its lines and nothing else. -/
theorem flatMap_events_batchDeeds (batch : Batch) :
    (batchDeeds sinks file path batch).flatMap events =
      (batchDeliveries sinks batch.lines).flatMap (Delivery.asked file) := by
  simp only [flatMap_batchDeeds, events, List.flatMap_singleton', List.append_nil]

/-- A batch delivers its lines. -/
theorem flatMap_deliveries_batchDeeds (batch : Batch) :
    (batchDeeds sinks file path batch).flatMap deliveries = batchDeliveries sinks batch.lines := by
  simp only [flatMap_batchDeeds, deliveries, flatMap_nothing, List.nil_append, List.append_nil,
    List.flatMap_singleton']

/-- A batch writes one block of records: what it could not read, and what was refused. -/
theorem flatMap_blocks_batchDeeds (batch : Batch) :
    (batchDeeds sinks file path batch).flatMap blocks =
      [(batch.failures ++ refusals (batchDeliveries sinks batch.lines)).map (lineRecord path)] := by
  simp only [flatMap_batchDeeds, blocks, flatMap_nothing, List.nil_append, List.append_nil]

end Deed

/-! ## The batches of a chunk -/

namespace Task

variable {a : Audience} {file : Nat} {path : String} {t t' : Task} {d d' : Desk}
  {schedule : List Nat}

/-- The first batches have the first lines. -/
theorem flatMap_batch_range (t : Task) (count : Nat) :
    (List.range count).flatMap t.batch = t.lines.take (count * t.size) := by
  induction count with
  | zero => rw [Nat.zero_mul, List.take_zero]; rfl
  | succ count ih =>
    rw [List.range_succ, List.flatMap_append, ih, List.flatMap_singleton, batch, Nat.succ_mul,
      List.take_add]

/-- The batches have the lines, in order. -/
theorem flatMap_batch (t : Task) : (List.range t.batches).flatMap t.batch = t.lines := by
  rw [flatMap_batch_range]
  apply List.take_of_length_le
  have hall := (@next_lt_batches { t with next := t.batches }).not.1 (Nat.lt_irrefl t.batches)
  exact Nat.le_of_not_lt hall

/-- The batches that the workers with these numbers take when they take a step each. -/
def taken (a : Audience) (file : Nat) (path : String) (t : Task) (d : Desk) : List Nat → List Nat
  | [] => []
  | worker :: schedule =>
    match t.step a file path worker d with
    | none => []
    | some (t', d') =>
      if t.workers[worker]? = some .reaching ∧ t.next < t.batches then
        t.next :: t'.taken a file path d' schedule
      else t'.taken a file path d' schedule

/-- The batches are taken one after the other. -/
theorem taken_append (hrun : t.after a file path d schedule = some (t', d')) :
    t.taken a file path d schedule ++ List.range' t'.next (t'.batches - t'.next) =
      List.range' t.next (t.batches - t.next) := by
  induction schedule generalizing t d with
  | nil =>
    obtain ⟨rfl, rfl⟩ := Prod.mk.inj (Option.some.inj hrun)
    rfl
  | cons worker schedule ih =>
    obtain ⟨⟨next, desk⟩, hstep, hrest⟩ := Option.bind_eq_some_iff.1 hrun
    have hnext := ih hrest
    simp only [taken, hstep]
    rcases step_cases hstep with ⟨hworker, rfl, rfl⟩ | ⟨w, hworker, hreaching, -, rfl, rfl⟩
    · have hbatches : ({ t with next := t.next + 1, workers := t.workers.set worker t.claim } :
          Task).batches = t.batches := rfl
      rw [hbatches] at hnext
      by_cases hmore : t.next < t.batches
      · obtain ⟨more, hcount⟩ : ∃ more, t.batches - t.next = more + 1 :=
          ⟨t.batches - t.next - 1, by omega⟩
        have hless : t.batches - (t.next + 1) = more := by omega
        rw [if_pos ⟨hworker, hmore⟩, List.cons_append, hnext, hcount, hless, List.range'_succ]
      · have hnone : t.batches - (t.next + 1) = t.batches - t.next := by omega
        have hzero : t.batches - t.next = 0 := by omega
        rw [if_neg fun h => hmore h.2, hnext, hnone, hzero, List.range'_zero, List.range'_zero]
    · have hother : ¬ (t.workers[worker]? = some .reaching ∧ t.next < t.batches) := by
        rintro ⟨hsame, -⟩
        exact hreaching (Option.some.inj (hworker.symm.trans hsame))
      rw [if_neg hother]
      exact hnext

/-- Every step is one less to do. -/
theorem length_add_effort_le (hrun : t.after a file path d schedule = some (t', d')) :
    schedule.length + t'.effort a.sinks ≤ t.effort a.sinks := by
  induction schedule generalizing t d with
  | nil =>
    obtain ⟨rfl, rfl⟩ := Prod.mk.inj (Option.some.inj hrun)
    rw [List.length_nil, Nat.zero_add]
  | cons worker schedule ih =>
    obtain ⟨⟨next, desk⟩, hstep, hrest⟩ := Option.bind_eq_some_iff.1 hrun
    have hless := step_effort hstep
    have hmore := ih hrest
    rw [List.length_cons]
    omega

/-! ### Counters -/

/-- What is in the accounts of a chunk is what its deliveries and the lines under way come to. -/
structure Booked (a : Audience) (file : Nat) (t : Task) (d : Desk) : Prop where
  success : d.tally.success.length = a.sinks
  booked : ∀ i : Account, i.Valid a.sinks →
    d.booked file i = i.settled file (d.board.deliveriesOf file) + t.pending i file

/-- At the start nothing is to be booked. -/
theorem booked_start (batchLines : Nat) (chunk : List UInt8) :
    Booked a file (start batchLines chunk) (.blank a.sinks) where
  success := List.length_replicate
  booked := by
    intro i hvalid
    rw [pending_start]
    cases i with
    | success sink =>
      have hsink : sink < a.sinks := hvalid
      simp [Desk.booked, Account.booked, Desk.blank, Tally.zero, hsink]
      rfl
    | _ => rfl

/-- A step of a worker keeps the books of a chunk. -/
theorem Booked.step {worker : Nat} (h : Booked a file t d)
    (hstep : t.step a file path worker d = some (t', d')) : Booked a file t' d' where
  success := (within_step hstep).success.trans h.success
  booked := by
    intro i hvalid
    have hbefore := h.booked i hvalid
    have hbooks := step_books (h.success.symm ▸ hvalid) hstep
    rw [Account.Books] at hbooks
    omega

end Task

/-! ## Lengths -/

/-- No more characters are read than there are bytes. -/
theorem length_scan_le (bytes : List UInt8) : (Utf8.scan bytes).length ≤ bytes.length := by
  induction bytes using Utf8.scan.induct with
  | case1 => simp [Utf8.scan]
  | case2 b bytes ih =>
    have hstep := Utf8.length_step b bytes
    rw [Utf8.scan, List.length_cons, List.length_cons]
    omega

/-- A text has at most one physical line more than it has characters. -/
theorem length_physicalLines_le (text : List Char) :
    (physicalLines text).length ≤ text.length + 1 := by
  rw [physicalLines, List.length_map]
  induction text with
  | nil => simp
  | cons c text ih =>
    rw [List.splitOn_cons_eq_if_modifyHead]
    split
    · exact Nat.succ_le_succ ih
    · rw [List.length_modifyHead]
      exact Nat.le_succ_of_le ih

/-- Merging does not make more lines. -/
theorem length_mergeLines_le (lines : List (List Char)) :
    (mergeLines lines).length ≤ lines.length := by
  induction lines using mergeLines.induct with
  | case1 => simp [mergeLines]
  | case2 line lines ih =>
    have hless := (List.dropWhile_sublist continues (l := lines)).length_le
    rw [mergeLines, List.length_cons, List.length_cons]
    omega

/-- There are no more lines in a chunk than bytes, but for the last one. -/
theorem length_lines_le (batchLines : Nat) (chunk : List UInt8) :
    (Task.start batchLines chunk).lines.length ≤ chunk.length + 1 := by
  have hscan := length_scan_le chunk
  have hphysical := length_physicalLines_le (Utf8.decodeLossy chunk)
  have hmerged := length_mergeLines_le (physicalLines (Utf8.decodeLossy chunk))
  rw [Utf8.decodeLossy, List.length_map] at hphysical
  rw [Task.start, mergeContinuations, List.length_map]
  exact hmerged.trans (hphysical.trans (Nat.succ_le_succ hscan))

/-! ## The accounts -/

/-- What becomes of the lines of a batch. -/
def Task.outcome (sinks : List Sink) (t : Task) (number : Nat) : List Delivery :=
  batchDeliveries sinks (t.batch number)

/-- What becomes of the lines of all batches. -/
def Task.outcomes (sinks : List Sink) (t : Task) : List Delivery :=
  (List.range t.batches).flatMap (t.outcome sinks)

/-- The batches cut the lines of a chunk into consecutive parts, and their bounds are numbers of 64
bits if so many lines make a batch and the chunk is no longer than that. -/
structure Cut (batchLines : Nat) (chunk : List UInt8) (t : Task) : Prop where
  within : ∀ number < t.batches, number * t.size < t.lines.length
  bounded : batchLines < 2 ^ 64 → chunk.length < 2 ^ 63 →
    ∀ number < t.batches, number * t.size + t.size < 2 ^ 64
  joined : (List.range t.batches).flatMap t.batch = mergeContinuations (Utf8.decodeLossy chunk)

/-- A chunk is cut into batches when it is started. -/
theorem cut_start (batchLines : Nat) (chunk : List UInt8) :
    Cut batchLines chunk (.start batchLines chunk) := by
  have hwithin : ∀ number < (Task.start batchLines chunk).batches,
      number * (Task.start batchLines chunk).size <
        (Task.start batchLines chunk).lines.length := by
    intro number hnumber
    exact (@Task.next_lt_batches { Task.start batchLines chunk with next := number }).1 hnumber
  refine ⟨hwithin, fun hlines hlength number hnumber => ?_, Task.flatMap_batch _⟩
  have hbound := hwithin number hnumber
  have hfew := length_lines_le batchLines chunk
  have hsize : (Task.start batchLines chunk).size = max batchLines 1 := rfl
  rcases Nat.eq_zero_or_pos number with rfl | hpos
  · omega
  · have hmore := Nat.le_mul_of_pos_left (Task.start batchLines chunk).size hpos
    omega

/-- What was done in a task when all its workers have ended: each batch was taken once, what was
asked, delivered and written down for the batches is interleaved, and the counters and what the
sinks were fed are what the deliveries come to. -/
structure Accounted (sinks : List Sink) (file : Nat) (path : String) (t : Task)
    (taken : List Nat) (d : Desk) : Prop where
  eachOnce : taken = List.range t.batches
  contained : ∀ number < t.batches, Contained sinks (t.batch number) (t.outcome sinks number)
  asked : Interleaves (taken.map fun number =>
    (t.outcome sinks number).flatMap (Delivery.asked file)) d.board.events.reverse
  delivered : Interleaves (taken.map (t.outcome sinks)) (d.board.deliveriesOf file).reverse
  recorded : ∃ blocks : List (List ErrorRecord), d.board.records.reverse = blocks.flatten ∧
    blocks.Perm (taken.map fun number =>
      (refusals (t.outcome sinks number)).map (lineRecord path))
  total : d.tally.total = (t.outcomes sinks).length
  success : d.tally.success = (List.range sinks.length).map (acceptedBy (t.outcomes sinks))
  fed : ∀ sink, (d.board.fed file sink).Perm (seenBy (t.outcomes sinks) sink)

section Finished

variable {v : Sink} {sinks : List Sink} {file : Nat} {path : String} {batchLines : Nat}
  {chunk : List UInt8} {schedule : List Nat} {t : Task} {d : Desk}

/-- When the workers have ended, all batches have been taken. -/
theorem taken_of_finished {a : Audience}
    (hrun : (Task.start batchLines chunk).after a file path (.blank a.sinks) schedule = some (t, d))
    (hcalm : d.board.cancelled = false) (hfinished : t.finished = true) :
    (Task.start batchLines chunk).taken a file path (.blank a.sinks) schedule =
      List.range (Task.start batchLines chunk).batches := by
  have hsound : t.Sound := Task.preserved_after (fun hcalm hsound hstep =>
    Task.sound_step ((Task.within_step hstep).later.not_cancelled hcalm) hsound hstep)
    (Task.sound_start batchLines chunk) hrun hcalm
  have hall : t.batches - t.next = 0 :=
    Nat.sub_eq_zero_of_le (Nat.le_of_not_lt (Task.not_next_lt_of_finished hsound hfinished))
  have htaken := Task.taken_append hrun
  rw [hall, List.range'_zero, List.append_nil] at htaken
  rw [htaken, List.range_eq_range']
  rfl

/-- When the workers have ended, the counters are those of the deliveries. -/
theorem counted_of_finished {a : Audience}
    (hrun : (Task.start batchLines chunk).after a file path (.blank a.sinks) schedule = some (t, d))
    (hcalm : d.board.cancelled = false) (hfinished : t.finished = true) :
    d.tally.total = (d.board.deliveriesOf file).length ∧
      d.tally.success = (List.range a.sinks).map (acceptedBy (d.board.deliveriesOf file)) := by
  have hbooked : Task.Booked a file t d := Task.preserved_after (fun _ h hstep => h.step hstep)
    (Task.booked_start batchLines chunk) hrun hcalm
  have hsettled : ∀ i : Account, i.Valid a.sinks →
      i.booked file (d.board.eventsOf file) d.tally =
        i.settled file (d.board.deliveriesOf file) := by
    intro i hvalid
    have hpending := hbooked.booked i hvalid
    rwa [Task.pending_of_finished i hfinished, Nat.add_zero] at hpending
  exact Tally.counted_of_booked hbooked.success hsettled

/-- When the workers have ended, what they did is in the accounts. -/
theorem accounted_of_finished
    (hrun : (Task.start batchLines chunk).after (.ofSinks v sinks) file path (.blank sinks.length)
      schedule = some (t, d))
    (hcalm : d.board.cancelled = false) (hfinished : t.finished = true) :
    Accounted sinks file path (.start batchLines chunk)
      ((Task.start batchLines chunk).taken (.ofSinks v sinks) file path (.blank sinks.length)
        schedule) d := by
  have htaken : (Task.start batchLines chunk).taken (.ofSinks v sinks) file path
      (.blank sinks.length) schedule = List.range (Task.start batchLines chunk).batches :=
    taken_of_finished hrun hcalm hfinished
  obtain ⟨htotal, hsuccess⟩ := counted_of_finished hrun hcalm hfinished
  obtain ⟨deeds, hboard, hdeeds⟩ := Task.interleaves_after hrun hcalm hfinished
  generalize Task.start batchLines chunk = k at htaken hdeeds ⊢
  have hasked : Interleaves ((List.range k.batches).map fun number =>
      (k.outcome sinks number).flatMap (Delivery.asked file)) d.board.events.reverse := by
    have hevents := hdeeds.flatMap Deed.events
    simp only [List.map_map, Function.comp_def, Deed.flatMap_events_batchDeeds] at hevents
    rw [hboard, Deed.events_foldl, List.reverse_append, List.reverse_reverse]
    exact hevents
  have hdelivered : Interleaves ((List.range k.batches).map (k.outcome sinks))
      (d.board.deliveriesOf file).reverse := by
    have hdeliveries := hdeeds.flatMap Deed.deliveries
    simp only [List.map_map, Function.comp_def, Deed.flatMap_deliveries_batchDeeds] at hdeliveries
    rw [hboard, Deed.deliveriesOf_foldl, List.reverse_append, List.reverse_reverse]
    exact hdeliveries
  have hrecorded : ∃ blocks : List (List ErrorRecord), d.board.records.reverse = blocks.flatten ∧
      blocks.Perm ((List.range k.batches).map fun number =>
        (refusals (k.outcome sinks number)).map (lineRecord path)) := by
    have hblocks := (hdeeds.flatMap Deed.blocks).perm_flatten
    simp only [List.map_map, Function.comp_def, Deed.flatMap_blocks_batchDeeds, List.nil_append]
      at hblocks
    refine ⟨deeds.flatMap Deed.blocks, ?_, ?_⟩
    · rw [hboard, Deed.records_foldl, List.reverse_append, List.reverse_reverse]
      rfl
    · rw [List.map_eq_flatMap, List.flatMap_def]
      exact hblocks
  have hdeliveries : (d.board.deliveriesOf file).Perm (k.outcomes sinks) :=
    (List.reverse_perm _).symm.trans hdelivered.perm_flatten
  rw [htaken]
  refine ⟨rfl, fun number _ => contained_batchDeliveries sinks _, hasked, hdelivered, hrecorded,
    htotal.trans hdeliveries.length_eq, ?_, fun sink => ?_⟩
  · rw [hsuccess]
    exact List.map_congr_left fun sink _ => hdeliveries.countP_eq _
  · have hevents : d.board.events.Perm ((k.outcomes sinks).flatMap (Delivery.asked file)) := by
      rw [Task.outcomes, List.flatMap_assoc, List.flatMap_def]
      exact (List.reverse_perm _).symm.trans hasked.perm_flatten
    have hsame : ((k.outcomes sinks).flatMap (Delivery.asked file)).filter (·.file == file) =
        (k.outcomes sinks).flatMap (Delivery.asked file) := by
      refine List.filter_eq_self.2 fun e he => ?_
      obtain ⟨delivery, -, he⟩ := List.mem_flatMap.1 he
      exact beq_iff_eq.2 (Delivery.eq_of_mem_asked he).1
    rw [← linesTo_flatMap_asked file, ← hsame]
    exact ((hevents.filter _).filter _).map _

end Finished

/-- Whatever steps the workers on a chunk have taken, they can come to an end, and they cannot go on
forever. Whatever the order of their steps, if the run is not cancelled, they take each batch once
and deliver its lines in order up to the first one on which a sink breaks off, and that leaves the
other batches as they are. -/
theorem batches_accounted {v : Sink} {sinks : List Sink} {file : Nat} {path : String}
    {batchLines : Nat} {chunk : List UInt8} {schedule : List Nat} {t : Task} {d : Desk}
    (hrun : (Task.start batchLines chunk).after (.ofSinks v sinks) file path (.blank sinks.length)
      schedule = some (t, d)) :
    Cut batchLines chunk (.start batchLines chunk) ∧
    (∃ more t' d', t.after (.ofSinks v sinks) file path d more = some (t', d') ∧
      t'.finished = true) ∧
    schedule.length ≤ (Task.start batchLines chunk).effort sinks.length ∧
    (t.finished = true → d.board.cancelled = false →
      Accounted sinks file path (.start batchLines chunk)
        ((Task.start batchLines chunk).taken (.ofSinks v sinks) file path (.blank sinks.length)
          schedule) d) := by
  refine ⟨cut_start batchLines chunk, ?_, ?_, fun hfinished hcalm =>
    accounted_of_finished hrun hcalm hfinished⟩
  · obtain ⟨more, hmore⟩ := @Task.exists_after_finish (.ofSinks v sinks) file path t d
    exact ⟨more, (t.finish (.ofSinks v sinks) file path d).1, _, hmore, Task.finished_finish t d⟩
  · have hless := Task.length_add_effort_le hrun
    exact Nat.le_of_add_right_le hless

/-- A sink that accepts every line and one that breaks off on the first of the lines below. -/
def breakingFirst : List Sink :=
  [.all, ⟨fun line => if line = "a" then .error (.panicked .other) else .ok (), fun _ => false⟩]

/-- Four lines, two for each batch. -/
def twoBatches : Task := .start 2 (Utf8.encode "a\nb\nc\nd")

/-- Two workers take steps by turns, until the first one has ended. -/
def byTurns : List Nat := (List.replicate 10 [0, 1]).flatten ++ List.replicate 10 1

/-- The second line is not delivered, because a sink breaks off on the one before it. The other
batch is delivered. -/
theorem batches_accounted_byTurns :
    ∃ t d, twoBatches.after (.ofSinks .all breakingFirst) 0 "a.log" (.blank 2) byTurns =
      some (t, d) ∧ t.finished = true ∧ d.board.cancelled = false ∧
      Accounted breakingFirst 0 "a.log" twoBatches
        (twoBatches.taken (.ofSinks .all breakingFirst) 0 "a.log" (.blank 2) byTurns) d ∧
      (twoBatches.outcomes breakingFirst).map Delivery.line = ["a", "c", "d"] := by
  obtain ⟨⟨t, d⟩, hrun⟩ : ∃ ended, twoBatches.after (.ofSinks .all breakingFirst) 0 "a.log"
      (.blank 2) byTurns = some ended := Option.isSome_iff_exists.1 (by decide +kernel)
  have hend : (twoBatches.after (.ofSinks .all breakingFirst) 0 "a.log" (.blank 2) byTurns).map
      (fun ended => (ended.1.finished, ended.2.board.cancelled)) = some (true, false) := by
    decide +kernel
  rw [hrun, Option.map_some, Option.some.injEq] at hend
  obtain ⟨hfinished, hcalm⟩ := Prod.mk.inj hend
  obtain ⟨-, -, -, haccounted⟩ := batches_accounted hrun
  exact ⟨t, d, hrun, hfinished, hcalm, haccounted hfinished hcalm, by decide +kernel⟩

end LogAudit.Ingest
