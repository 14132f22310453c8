import LogAudit.Proofs.Ingest.Threads

/-!
# Failures of lines

What a sink answers to a line is told at once, and becomes part of a delivery when all sinks have
answered. The failure of a delivery is written down later still, with the others of its batch.
Nothing gets lost on the way: whatever a worker does, what has come about is what is settled and
what the worker still holds (`Worker.step_balances`), and so it is for the tasks of a thread
(`Thread.step_balances`), cancelled or not, as long as no sink breaks off.
-/

namespace LogAudit.Ingest

/-! ## What deliveries tell -/

/-- What was asked of the sinks when the line was delivered, for the file with a number. -/
def Delivery.events (file : Nat) (d : Delivery) : List Event :=
  d.answers.zipIdx.map fun (answer, sink) =>
    ⟨file, .sink sink, d.line, answer.map Stop.refused⟩

theorem Delivery.events_concat (file : Nat) (line : String) (answers : List (Option Error))
    (answer : Option Error) :
    events file ⟨line, answers ++ [answer], none⟩ = events file ⟨line, answers, none⟩ ++
      [⟨file, .sink answers.length, line, answer.map Stop.refused⟩] := by
  simp [events, List.zipIdx_append]

/-- A sink refused the line for this cause, and all sinks before it accepted the line. -/
def Delivery.FirstRefusal (d : Delivery) (cause : Error) : Prop :=
  ∃ sink : Nat, d.answers[sink]? = some (some cause) ∧
    ∀ earlier < sink, d.answers[earlier]? = some none

/-- The failure of a line is its refusal by the sink with the lowest number. -/
theorem Delivery.refusal?_eq_some_iff (d : Delivery) (hbroken : d.broken = none) (cause : Error) :
    d.refusal? = some cause ↔ d.FirstRefusal cause := by
  obtain ⟨line, answers, broken⟩ := d
  obtain rfl : broken = none := hbroken
  simp only [refusal?, FirstRefusal, Option.isSome_none, Bool.false_eq_true, if_false]
  induction answers with
  | nil => simp
  | cons answer answers ih =>
    cases answer with
    | none =>
      rw [List.findSome?_cons_of_isNone (by simp), ih]
      constructor
      · rintro ⟨sink, hsink, hearlier⟩
        refine ⟨sink + 1, hsink, fun earlier hless => ?_⟩
        cases earlier with
        | zero => rfl
        | succ earlier => exact hearlier earlier (Nat.lt_of_succ_lt_succ hless)
      · rintro ⟨sink, hsink, hearlier⟩
        cases sink with
        | zero => exact absurd (Option.some.inj hsink) nofun
        | succ sink =>
          exact ⟨sink, hsink, fun earlier hless => hearlier (earlier + 1) (Nat.succ_lt_succ hless)⟩
    | some first =>
      rw [List.findSome?_cons_of_isSome (by simp)]
      constructor
      · intro hfirst
        exact ⟨0, congrArg some hfirst, nofun⟩
      · rintro ⟨sink, hsink, hearlier⟩
        cases sink with
        | zero => exact Option.some.inj hsink
        | succ sink => exact absurd (Option.some.inj (hearlier 0 (Nat.succ_pos _))) nofun

/-- The record of the failure of a line. -/
def lineRecord (path : String) : String × Error → ErrorRecord
  | (line, cause) => ⟨path, some line, cause⟩

/-- The record that a delivery asks for, if a sink refused its line, by the number of its file. -/
def lineRecord? (paths : List String) : Nat × Delivery → Option ErrorRecord
  | (file, d) => paths[file]?.bind fun path =>
    d.refusal?.map fun cause => lineRecord path (d.line, cause)

/-- The failures that a delivery adds to its batch are those that it asks a record for. -/
theorem lineRecord?_toList {paths : List String} {file : Nat} {path : String}
    (hpath : paths[file]? = some path) (d : Delivery) :
    (lineRecord? paths (file, d)).toList = (refusals [d]).map (lineRecord path) := by
  rw [lineRecord?, hpath, Option.bind_some, refusals]
  cases hrefusal : d.refusal? <;> simp [hrefusal]

namespace Board

/-- The records that the deliveries ask for. -/
def lineRecords (paths : List String) (b : Board) : List ErrorRecord :=
  b.deliveries.filterMap (lineRecord? paths)

/-- What was asked of the sinks about the lines that were delivered. -/
def answered (b : Board) : List Event := b.deliveries.flatMap fun (file, d) => d.events file

/-- Every line that was delivered was answered by every sink, and is one of the first files. -/
def Whole (files sinks : Nat) (b : Board) : Prop :=
  ∀ file d, (file, d) ∈ b.deliveries → file < files ∧ d.broken = none ∧ d.answers.length = sinks

variable {paths : List String} {b : Board} {file : Nat} {path : String}

theorem lineRecords_note (hpath : paths[file]? = some path) (d : Delivery) :
    (b.note file d).lineRecords paths =
      (refusals [d]).map (lineRecord path) ++ b.lineRecords paths := by
  rw [← lineRecord?_toList hpath, lineRecords, note, List.filterMap_cons, lineRecords]
  cases lineRecord? paths (file, d) <;> rfl

theorem answered_note (d : Delivery) :
    (b.note file d).answered = d.events file ++ b.answered := rfl

theorem Whole.note {files sinks : Nat} (h : b.Whole files sinks) {d : Delivery}
    (hfile : file < files) (hbroken : d.broken = none) (hanswers : d.answers.length = sinks) :
    (b.note file d).Whole files sinks := by
  intro other d' hmem
  rcases List.mem_cons.1 hmem with heq | hmem
  · obtain ⟨rfl, rfl⟩ := Prod.mk.inj heq
    exact ⟨hfile, hbroken, hanswers⟩
  · exact h other d' hmem

end Board

/-! ## Items -/

/-- What comes about in one step and is settled in a later one. -/
inductive Item where
  /-- The failure of a line, which comes about with its delivery and is to be written down. -/
  | failure (path line : String) (cause : Error)
  /-- The answer of a sink, which is to become part of a delivery. -/
  | answer (file sink : Nat) (line : String) (stop? : Option Stop)

namespace Item

/-- How often an item is among records. -/
def inRecords (records : List ErrorRecord) : Item → Nat
  | failure path line cause => records.count ⟨path, some line, cause⟩
  | answer _ _ _ _ => 0

/-- How often an item is among events. -/
def inEvents (events : List Event) : Item → Nat
  | failure _ _ _ => 0
  | answer file sink line stop? => events.count ⟨file, .sink sink, line, stop?⟩

/-- How often an item has come about. -/
def arisen (paths : List String) (b : Board) (i : Item) : Nat :=
  i.inRecords (b.lineRecords paths) + i.inEvents b.events

/-- How often an item is settled. -/
def settled (b : Board) (i : Item) : Nat := i.inRecords b.records + i.inEvents b.answered

/-- Between two boards as many items come about as are settled or held longer. -/
def Balanced (i : Item) (paths : List String) (b b' : Board) (held held' : Nat) : Prop :=
  i.arisen paths b' + i.settled b + held = i.arisen paths b + i.settled b' + held'

variable (i : Item)

@[simp] theorem inRecords_nil : i.inRecords [] = 0 := by
  cases i <;> rfl

@[simp] theorem inEvents_nil : i.inEvents [] = 0 := by
  cases i <;> rfl

@[simp] theorem inRecords_append (records others : List ErrorRecord) :
    i.inRecords (records ++ others) = i.inRecords records + i.inRecords others := by
  cases i with
  | failure path line cause => exact List.count_append
  | answer file sink line stop? => rfl

@[simp] theorem inEvents_append (events others : List Event) :
    i.inEvents (events ++ others) = i.inEvents events + i.inEvents others := by
  cases i with
  | failure path line cause => rfl
  | answer file sink line stop? => exact List.count_append

@[simp] theorem inRecords_reverse (records : List ErrorRecord) :
    i.inRecords records.reverse = i.inRecords records := by
  cases i with
  | failure path line cause => exact List.count_reverse
  | answer file sink line stop? => rfl

/-- The failure of a file is no item. -/
theorem inRecords_file (path : String) (error : Error) (records : List ErrorRecord) :
    i.inRecords (⟨path, none, error⟩ :: records) = i.inRecords records := by
  cases i with
  | failure path line cause => simp [inRecords]
  | answer file sink line stop? => rfl

/-- The answer of the validator is no item. -/
theorem inEvents_validator (file : Nat) (line : String) (stop? : Option Stop)
    (events : List Event) :
    i.inEvents (⟨file, .validator, line, stop?⟩ :: events) = i.inEvents events := by
  cases i with
  | failure path line cause => rfl
  | answer file sink line stop? => simp [inEvents]

/-- The answer of a sink comes about when it is given. -/
theorem balanced_ask (paths : List String) (a : Audience) (file sink : Nat) (line : String)
    (b : Board) (held : Nat) :
    i.Balanced paths b (b.ask a file (.sink sink) line).2 held
      (held + i.inEvents [⟨file, .sink sink, line, (b.ask a file (.sink sink) line).1⟩]) := by
  have hevents := i.inEvents_append
    [⟨file, .sink sink, line, (b.ask a file (.sink sink) line).1⟩] b.events
  simp only [Balanced, arisen, settled, Board.ask, List.singleton_append, Board.lineRecords,
    Board.answered] at hevents ⊢
  omega

/-- The failure of a line comes about when the line is delivered, and its answers are settled. -/
theorem balanced_note {paths : List String} {file : Nat} {path : String}
    (hpath : paths[file]? = some path) (d : Delivery) (b : Board) (held : Nat) :
    i.Balanced paths b (b.note file d) (held + i.inEvents (d.events file))
      (held + i.inRecords ((refusals [d]).map (lineRecord path))) := by
  have hevents : (b.note file d).events = b.events := rfl
  have hrecords : (b.note file d).records = b.records := rfl
  simp only [Balanced, arisen, settled, Board.lineRecords_note hpath, Board.answered_note,
    inRecords_append, inEvents_append, hevents, hrecords]
  omega

/-- The failure of a line is settled when it is written down. -/
theorem balanced_write (paths : List String) (records : List ErrorRecord) (b : Board)
    (held : Nat) :
    i.Balanced paths b (b.write records) (held + i.inRecords records) held := by
  simp only [Balanced, arisen, settled, Board.write, inRecords_append, inRecords_reverse,
    Board.lineRecords, Board.answered]
  omega

/-- Nothing comes about or is settled where the items on the board and off it stay the same. -/
theorem balanced_of_eq {paths : List String} {b b' : Board} {held held' : Nat}
    (hdeliveries : b'.deliveries = b.deliveries)
    (hevents : i.inEvents b'.events = i.inEvents b.events)
    (hrecords : i.inRecords b'.records = i.inRecords b.records) (hheld : held' = held) :
    i.Balanced paths b b' held held' := by
  simp only [Balanced, arisen, settled, Board.lineRecords, Board.answered, hdeliveries, hevents,
    hrecords, hheld]

end Item

/-! ## Workers -/

namespace Worker

/-- The failures that a worker is to write down. -/
def failures : Worker → List (String × Error)
  | delivering batch | counting _ batch | asking _ _ batch | crediting _ _ batch => batch.failures
  | recording failures => failures
  | _ => []

/-- The line that a worker gives to the sinks, with their answers so far. -/
def delivery? : Worker → Option Delivery
  | asking line answers _ => some ⟨line, answers, none⟩
  | crediting line answers _ => some ⟨line, answers ++ [none], none⟩
  | _ => none

/-- No more sinks have answered than there are. -/
def Asked (sinks : Nat) (w : Worker) : Prop := ∀ d ∈ w.delivery?, d.answers.length ≤ sinks

/-- How often a worker on a file holds an item. -/
def holds (file : Nat) (path : String) (i : Item) (w : Worker) : Nat :=
  i.inRecords (w.failures.map (lineRecord path)) +
    i.inEvents (w.delivery?.toList.flatMap (·.events file))

variable {a : Audience} {file : Nat} {path : String} {paths : List String} {d : Desk} (i : Item)

/-- A worker that gives no line away has no answers. -/
theorem asked_of_none {sinks : Nat} {w : Worker} (h : w.delivery? = none) : w.Asked sinks := by
  simp [Asked, h]

/-- A worker that gives no line away holds its failures. -/
theorem holds_of_delivery? {w : Worker} (h : w.delivery? = none) :
    w.holds file path i = i.inRecords (w.failures.map (lineRecord path)) := by
  rw [holds, h]
  simp

/-- A worker with no failures and no answers holds nothing. -/
theorem holds_of_empty {w : Worker} (hfailures : w.failures = []) (hdelivery : w.delivery? = none) :
    w.holds file path i = 0 := by
  rw [holds_of_delivery? i hdelivery, hfailures]
  exact i.inRecords_nil

/-- A worker that gives a line away holds the answers, too. -/
theorem holds_of_some {w : Worker} {delivery : Delivery} (h : w.delivery? = some delivery) :
    w.holds file path i = i.inRecords (w.failures.map (lineRecord path)) +
      i.inEvents (delivery.events file) := by
  rw [holds, h]
  simp

/-- An answer is held as soon as it is given, and with the last one the line is delivered. -/
theorem ask_balances (hpath : paths[file]? = some path) (hsteady : a.Steady) (line : String)
    (answers : List (Option Error)) (batch : Batch) :
    i.Balanced paths d.board (ask a file line answers batch d).2.board
      ((asking line answers batch).holds file path i)
      ((ask a file line answers batch d).1.holds file path i) := by
  rw [holds_of_some i rfl]
  unfold ask
  split
  · have hasked := i.balanced_ask paths a file answers.length line d.board
    have hstop := d.board.ask_stop? a file (.sink answers.length) line
    generalize d.board.ask a file (.sink answers.length) line = asked at hasked hstop ⊢
    obtain ⟨_ | cause | payload, board⟩ := asked
    · rw [holds_of_some i rfl, Delivery.events_concat, Item.inEvents_append, ← Nat.add_assoc]
      exact hasked _
    · rw [holds_of_some i rfl, Delivery.events_concat, Item.inEvents_append, ← Nat.add_assoc]
      exact hasked _
    · exact absurd hstop.symm (hsteady _ _ _ _)
  · rw [holds_of_delivery? i rfl, failures, List.map_append, Item.inRecords_append]
    exact i.balanced_note hpath _ _ _

/-- Whatever a worker does, as many items come about as are settled or held longer. -/
theorem step_balances (hpath : paths[file]? = some path) (hsteady : a.Steady) (w : Worker) :
    i.Balanced paths d.board (w.step a file path d).2.board (w.holds file path i)
      ((w.step a file path d).1.holds file path i) := by
  cases w with
  | resting =>
    refine i.balanced_of_eq rfl rfl rfl ?_
    simp only [step]
    split <;> rfl
  | delivering batch =>
    obtain ⟨failures, _ | ⟨line, lines⟩⟩ := batch
    · exact i.balanced_of_eq rfl rfl rfl rfl
    · simp only [step]
      repeat' split
      all_goals exact i.balanced_of_eq rfl rfl rfl rfl
  | counting line batch => exact i.balanced_of_eq rfl rfl rfl rfl
  | asking line answers batch => exact ask_balances i hpath hsteady line answers batch
  | crediting line answers batch => exact i.balanced_of_eq rfl rfl rfl rfl
  | recording failures =>
    have hnothing : resting.holds file path i = 0 := holds_of_empty i rfl rfl
    have hfailures : (recording failures).holds file path i =
        0 + i.inRecords (failures.map (lineRecord path)) := by
      rw [holds_of_delivery? i rfl, Worker.failures, Nat.zero_add]
    rw [hfailures]
    exact hnothing ▸ i.balanced_write paths (failures.map (lineRecord path)) d.board _
  | reaching => exact i.balanced_of_eq rfl rfl rfl rfl
  | ended => exact i.balanced_of_eq rfl rfl rfl rfl

/-- A line counts as delivered only when all sinks have answered. -/
theorem whole_ask {files : Nat} (hsteady : a.Steady) (hfile : file < files)
    (hwhole : d.board.Whole files a.sinks) {line : String} {answers : List (Option Error)}
    {batch : Batch} (hasked : (asking line answers batch).Asked a.sinks) :
    (ask a file line answers batch d).2.board.Whole files a.sinks ∧
      (ask a file line answers batch d).1.Asked a.sinks := by
  have hanswers : answers.length ≤ a.sinks := hasked _ rfl
  unfold ask
  split
  · rename_i hmore
    have hstop := d.board.ask_stop? a file (.sink answers.length) line
    have hboard : (d.board.ask a file (.sink answers.length) line).2.Whole files a.sinks := hwhole
    generalize d.board.ask a file (.sink answers.length) line = asked at hstop hboard ⊢
    obtain ⟨_ | cause | payload, board⟩ := asked
    · refine ⟨hboard, fun d hd => ?_⟩
      obtain rfl := Option.some.inj hd
      rw [List.length_append]
      exact hmore
    · refine ⟨hboard, fun d hd => ?_⟩
      obtain rfl := Option.some.inj hd
      rw [List.length_append]
      exact hmore
    · exact absurd hstop.symm (hsteady _ _ _ _)
  · rename_i hall
    exact ⟨hwhole.note hfile rfl (Nat.le_antisymm hanswers (Nat.le_of_not_lt hall)),
      asked_of_none rfl⟩

/-- Every line that a worker delivers was answered by every sink. -/
theorem whole_step {files : Nat} (hsteady : a.Steady) (hfile : file < files)
    (hwhole : d.board.Whole files a.sinks) {w : Worker} (hasked : w.Asked a.sinks) :
    (w.step a file path d).2.board.Whole files a.sinks ∧
      (w.step a file path d).1.Asked a.sinks := by
  cases w with
  | resting =>
    refine ⟨hwhole, ?_⟩
    simp only [step]
    split <;> exact asked_of_none rfl
  | delivering batch =>
    obtain ⟨failures, _ | ⟨line, lines⟩⟩ := batch
    · exact ⟨hwhole, asked_of_none rfl⟩
    · simp only [step]
      repeat' split
      all_goals exact ⟨hwhole, asked_of_none rfl⟩
  | counting line batch =>
    refine ⟨hwhole, fun d hd => ?_⟩
    obtain rfl := Option.some.inj hd
    exact Nat.zero_le _
  | asking line answers batch => exact whole_ask hsteady hfile hwhole hasked
  | crediting line answers batch => exact ⟨hwhole, hasked⟩
  | recording failures => exact ⟨hwhole, asked_of_none rfl⟩
  | reaching => exact ⟨hwhole, hasked⟩
  | ended => exact ⟨hwhole, hasked⟩

end Worker

/-! ## Tasks -/

namespace Task

/-- How often the workers of a task hold an item. -/
def holds (file : Nat) (path : String) (i : Item) (t : Task) : Nat :=
  sumOver (Worker.holds file path i) t.workers

/-- No worker of a task has more answers than there are sinks. -/
def Asked (sinks : Nat) (t : Task) : Prop := ∀ w ∈ t.workers, w.Asked sinks

variable {a : Audience} {file : Nat} {path : String} {paths : List String} {worker : Nat}
  {t t' : Task} {d d' : Desk} (i : Item)

/-- Workers that have all ended hold nothing. -/
theorem holds_of_finished (h : t.finished = true) : t.holds file path i = 0 := by
  apply sumOver_eq_zero
  intro w hw
  obtain rfl : w = .ended := by simpa using List.all_eq_true.1 h w hw
  exact Worker.holds_of_empty i rfl rfl

/-- Workers that have not begun hold nothing. -/
theorem holds_start (batchLines : Nat) (chunk : List UInt8) :
    (start batchLines chunk).holds file path i = 0 := by
  apply sumOver_eq_zero
  intro w hw
  rw [List.eq_of_mem_replicate hw]
  exact Worker.holds_of_empty i rfl rfl

theorem asked_start (sinks batchLines : Nat) (chunk : List UInt8) :
    (start batchLines chunk).Asked sinks := by
  intro w hw
  rw [List.eq_of_mem_replicate hw]
  exact Worker.asked_of_none rfl

/-- A batch that was just taken has no failures and no answers. -/
theorem claim_eq (t : Task) : t.claim.failures = [] ∧ t.claim.delivery? = none := by
  unfold claim
  split <;> exact ⟨rfl, rfl⟩

/-- Whatever happens in a task, as many items come about as are settled or held longer. -/
theorem step_balances (hpath : paths[file]? = some path) (hsteady : a.Steady)
    (h : t.step a file path worker d = some (t', d')) :
    i.Balanced paths d.board d'.board (t.holds file path i) (t'.holds file path i) := by
  rcases step_cases h with ⟨hworker, rfl, rfl⟩ | ⟨w, hworker, -, -, rfl, rfl⟩
  · have hsum := sumOver_set (Worker.holds file path i) hworker t.claim
    rw [Worker.holds_of_empty i t.claim_eq.1 t.claim_eq.2, Worker.holds_of_empty i rfl rfl] at hsum
    exact i.balanced_of_eq rfl rfl rfl hsum
  · have hsum := sumOver_set (Worker.holds file path i) hworker (w.step a file path d).1
    have hstep := @Worker.step_balances a file path paths d i hpath hsteady w
    simp only [Item.Balanced, holds] at hstep ⊢
    omega

/-- Every line that a task delivers was answered by every sink. -/
theorem whole_step {files : Nat} (hsteady : a.Steady) (hfile : file < files)
    (hwhole : d.board.Whole files a.sinks) (hasked : t.Asked a.sinks)
    (h : t.step a file path worker d = some (t', d')) :
    d'.board.Whole files a.sinks ∧ t'.Asked a.sinks := by
  rcases step_cases h with ⟨-, rfl, rfl⟩ | ⟨w, hworker, -, -, rfl, rfl⟩
  · refine ⟨hwhole, fun other hother => ?_⟩
    rcases List.mem_or_eq_of_mem_set hother with hother | rfl
    · exact hasked other hother
    · intro delivery hdelivery
      rw [t.claim_eq.2] at hdelivery
      cases hdelivery
  · have hstep := @Worker.whole_step a file path d files hsteady hfile hwhole w
      (hasked w (List.mem_of_getElem? hworker))
    refine ⟨hstep.1, fun other hother => ?_⟩
    rcases List.mem_or_eq_of_mem_set hother with hother | rfl
    · exact hasked other hother
    · exact hstep.2

end Task

/-! ## Threads -/

namespace Thread

/-- How often the tasks of a thread hold an item. -/
def holds (file : Nat) (i : Item) (t : Thread) : Nat := sumOver (Task.holds file t.path i) t.tasks

/-- No worker of a thread has more answers than there are sinks. -/
def Asked (sinks : Nat) (t : Thread) : Prop := ∀ k ∈ t.tasks, k.Asked sinks

/-- Nothing was delivered, and neither was an item settled nor taken from a worker or given to
one. -/
structure Idle (file sinks : Nat) (t t' : Thread) (b b' : Board) : Prop where
  deliveries : b'.deliveries = b.deliveries
  events : ∀ i : Item, i.inEvents b'.events = i.inEvents b.events
  records : ∀ i : Item, i.inRecords b'.records = i.inRecords b.records
  holds : ∀ i : Item, t'.holds file i = t.holds file i
  asked : t.Asked sinks → t'.Asked sinks

variable {x : Setup} {file : Nat} {paths : List String} {t t' : Thread} {b b' : Board} {m : Move}

/-- A thread leaves lines to its tasks. -/
theorem idle_own (sinks : Nat) (hown : t.own x file b = some (t', b')) :
    Idle file sinks t t' b b' := by
  rcases own_cases hown with ⟨stage, rfl, heffect⟩ | ⟨chunk, r, rfl, rfl⟩
  · cases heffect with
    | ask line =>
      have hevents := fun i : Item => i.inEvents_validator file line
        (x.audience.reply b.events .validator line).stop? b.events
      exact ⟨rfl, hevents, fun _ => rfl, fun _ => rfl, id⟩
    | write error =>
      have hrecords := fun i : Item => i.inRecords_file t.path error b.records
      exact ⟨rfl, fun _ => rfl, hrecords, fun _ => rfl, id⟩
    | _ => exact ⟨rfl, fun _ => rfl, fun _ => rfl, fun _ => rfl, id⟩
  · refine ⟨rfl, fun _ => rfl, fun _ => rfl, fun i => ?_, fun hasked k hk => ?_⟩
    · simp only [Thread.holds, sumOver_append, sumOver, Task.holds_start, Nat.add_zero]
    · rcases List.mem_append.1 hk with hk | hk
      · exact hasked k hk
      · rw [List.mem_singleton.1 hk]
        exact Task.asked_start sinks _ chunk

/-- Whatever happens in a thread, as many items come about as are settled or held longer. -/
theorem step_balances (i : Item) (hpath : paths[file]? = some t.path)
    (hsteady : x.audience.Steady) (hstep : t.step x file b m = some (t', b')) :
    i.Balanced paths b b' (t.holds file i) (t'.holds file i) := by
  rcases step_cases hstep with hown | ⟨task, worker, k, k', d, hk, hwork, rfl, rfl⟩ |
    ⟨task, k, hk, hfinished, rfl, rfl⟩
  · have hidle := idle_own x.audience.sinks hown
    exact i.balanced_of_eq hidle.deliveries (hidle.events i) (hidle.records i) (hidle.holds i)
  · have hsum := sumOver_set (Task.holds file t.path i) hk k'
    have htask := Task.step_balances i hpath hsteady hwork
    simp only [Item.Balanced, holds] at htask ⊢
    omega
  · have hsum := sumOver_eraseIdx (Task.holds file t.path i) hk
    rw [Task.holds_of_finished i hfinished] at hsum
    exact i.balanced_of_eq rfl rfl rfl hsum

/-- Every line that is delivered in a thread was answered by every sink. -/
theorem whole_step {files : Nat} (hsteady : x.audience.Steady) (hfile : file < files)
    (hwhole : b.Whole files x.audience.sinks) (hasked : t.Asked x.audience.sinks)
    (hstep : t.step x file b m = some (t', b')) :
    b'.Whole files x.audience.sinks ∧ t'.Asked x.audience.sinks := by
  rcases step_cases hstep with hown | ⟨task, worker, k, k', d, hk, hwork, rfl, rfl⟩ |
    ⟨task, k, -, -, rfl, rfl⟩
  · have hidle := idle_own x.audience.sinks hown
    refine ⟨fun other d hmem => ?_, hidle.asked hasked⟩
    rw [hidle.deliveries] at hmem
    exact hwhole other d hmem
  · have htask := Task.whole_step hsteady hfile hwhole (hasked k (List.mem_of_getElem? hk)) hwork
    refine ⟨htask.1, fun other hother => ?_⟩
    rcases List.mem_or_eq_of_mem_set hother with hother | rfl
    · exact hasked other hother
    · exact htask.2
  · exact ⟨hwhole, fun other hother => hasked other (List.mem_of_mem_eraseIdx hother)⟩

end Thread

end LogAudit.Ingest
