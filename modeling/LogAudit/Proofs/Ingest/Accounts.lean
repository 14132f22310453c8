import LogAudit.Proofs.Ingest.Ledger

/-!
# Accounts of a file

A line is counted first, then one sink after the other is asked about it, and a success is counted
after the sink has accepted. The line is delivered when all sinks have answered or one of them has
broken off. So whatever the counters and the questions tell of a file at some moment is what its
deliveries come to together with the lines that its workers are about. An account (`Account`) is one
thing that is told in both ways; every step of a worker keeps it (`Worker.step_books`), and so does
every orderly happening in a thread (`Thread.Kept.moves`), whether sinks break off or not.
-/

namespace LogAudit.Ingest

/-- What was asked of the sinks when the line was delivered, for the file with a number: of those
that answered, and of the one that broke off. -/
def Delivery.asked (file : Nat) (d : Delivery) : List Event :=
  d.events file ++ (d.broken.map fun payload =>
    ⟨file, .sink d.answers.length, d.line, some (.panicked payload)⟩).toList

/-- What counters or questions tell of a file, and deliveries too. -/
inductive Account where
  /-- How many lines there were. -/
  | lines
  /-- How many of them a sink accepted. -/
  | success (sink : Nat)
  /-- How often a sink was asked about a line and stopped like this. -/
  | question (sink : Nat) (line : String) (stop? : Option Stop)

namespace Account

/-- The account is one for so many sinks. -/
def Valid (sinks : Nat) : Account → Prop
  | success sink => sink < sinks
  | _ => True

/-- What is in an account, by what was asked for a file and by its counters. -/
def booked (file : Nat) (events : List Event) (tally : Tally) : Account → Nat
  | lines => tally.total
  | success sink => (tally.success[sink]?).getD 0
  | question sink line stop? => events.count ⟨file, .sink sink, line, stop?⟩

/-- What a delivery adds to an account. -/
def weight (file : Nat) (d : Delivery) : Account → Nat
  | lines => 1
  | success sink => (d.accepted sink).toNat
  | question sink line stop? => (d.asked file).count ⟨file, .sink sink, line, stop?⟩

/-- What the reply of a sink to a line adds to an account. -/
def given (asked : Nat) (line : String) (stop? : Option Stop) : Account → Nat
  | question sink other otherStop? =>
    if asked = sink ∧ line = other ∧ stop? = otherStop? then 1 else 0
  | _ => 0

/-- What the success of a sink adds to an account. -/
def credited (asked : Nat) : Account → Nat
  | success sink => if asked = sink then 1 else 0
  | _ => 0

/-- What the line that a worker is about has added to an account. -/
def pending (i : Account) (file : Nat) : Worker → Nat
  | .asking line answers _ => i.weight file ⟨line, answers, none⟩
  | .crediting line answers _ =>
    i.weight file ⟨line, answers, none⟩ + i.given answers.length line none
  | _ => 0

variable {a : Audience} {b : Board} {tally : Tally} {file asked : Nat} {line : String}
  {answers : List (Option Error)} (i : Account)

theorem count_event (asked sink : Nat) (line other : String) (stop? otherStop? : Option Stop) :
    [(⟨file, .sink asked, line, stop?⟩ : Event)].count ⟨file, .sink sink, other, otherStop?⟩ =
      (question sink other otherStop?).given asked line stop? := by
  simp [given, List.count_singleton]

theorem booked_ask (a : Audience) (b : Board) (tally : Tally) (file asked : Nat) (line : String) :
    i.booked file ((b.ask a file (.sink asked) line).2.eventsOf file) tally =
    i.booked file (b.eventsOf file) tally +
      i.given asked line (b.ask a file (.sink asked) line).1 := by
  cases i with
  | question sink other stop? =>
    rw [booked, b.eventsOf_ask, ← List.singleton_append, List.count_append, count_event,
      Nat.add_comm, booked]
  | _ => rfl

/-- The validator is not one of the sinks. -/
theorem booked_ask_validator :
    i.booked file ((b.ask a file .validator line).2.eventsOf file) tally =
      i.booked file (b.eventsOf file) tally := by
  cases i with
  | question sink other stop? => rw [booked, b.eventsOf_ask, List.count_cons_of_ne (by simp), booked]
  | _ => rfl

/-- A line is counted before any sink is asked about it. -/
theorem booked_count (file : Nat) (events : List Event) (tally : Tally) (line : String) :
    i.booked file events tally.count =
      i.booked file events tally + i.weight file ⟨line, [], none⟩ := by
  cases i <;> rfl

variable {i} in
theorem booked_credit (hvalid : i.Valid tally.success.length) (file : Nat) (events : List Event)
    (asked : Nat) :
    i.booked file events (tally.credit asked) = i.booked file events tally + i.credited asked := by
  cases i with
  | success sink =>
    simp only [booked, credited, Tally.credit, List.getElem?_modify]
    by_cases hsink : asked = sink
    · simp [hsink, List.getElem?_eq_getElem hvalid]
    · simp [hsink]
  | _ => rfl

/-- A line that one more sink accepts. -/
theorem weight_accepted (file : Nat) (line : String) (answers : List (Option Error)) :
    i.weight file ⟨line, answers ++ [none], none⟩ =
    i.weight file ⟨line, answers, none⟩ + i.given answers.length line none +
      i.credited answers.length := by
  cases i with
  | lines => rfl
  | success sink =>
    simp only [weight, Delivery.accepted, given, credited, List.getElem?_append]
    rcases Nat.lt_trichotomy sink answers.length with hlt | rfl | hgt
    · simp [hlt, Nat.ne_of_gt hlt]
    · simp
    · simp [Nat.not_lt_of_gt hgt, Nat.ne_of_lt hgt, Nat.sub_ne_zero_of_lt hgt]
  | question sink other stop? =>
    simp only [weight, Delivery.asked, Delivery.events_concat, Option.map_none, Option.toList_none,
      List.append_nil, List.count_append, count_event, credited, Nat.add_zero]

/-- A line that one more sink refuses. -/
theorem weight_refused (file : Nat) (line : String) (answers : List (Option Error)) (cause : Error) :
    i.weight file ⟨line, answers ++ [some cause], none⟩ =
    i.weight file ⟨line, answers, none⟩ + i.given answers.length line (some (.refused cause)) := by
  cases i with
  | lines => rfl
  | success sink =>
    simp only [weight, Delivery.accepted, given, List.getElem?_append]
    rcases Nat.lt_trichotomy sink answers.length with hlt | rfl | hgt
    · simp [hlt]
    · simp
    · simp [Nat.not_lt_of_gt hgt, Nat.sub_ne_zero_of_lt hgt]
  | question sink other stop? =>
    simp only [weight, Delivery.asked, Delivery.events_concat, Option.map_none, Option.map_some,
      Option.toList_none, List.append_nil, List.count_append, count_event]

/-- A line that the next sink breaks off on. -/
theorem weight_broken (file : Nat) (line : String) (answers : List (Option Error))
    (payload : Payload) : i.weight file ⟨line, answers, some payload⟩ =
    i.weight file ⟨line, answers, none⟩ +
      i.given answers.length line (some (.panicked payload)) := by
  cases i with
  | question sink other stop? =>
    simp only [weight, Delivery.asked, Delivery.events, Option.map_none, Option.map_some,
      Option.toList_none, Option.toList_some, List.append_nil, List.count_append, count_event]
  | _ => rfl

end Account

/-! ## Workers and tasks -/

/-- What is in an account of a file. -/
def Desk.booked (d : Desk) (file : Nat) (i : Account) : Nat :=
  i.booked file (d.board.eventsOf file) d.tally

/-- What some deliveries come to in an account of a file. -/
def Account.settled (i : Account) (file : Nat) (deliveries : List Delivery) : Nat :=
  sumOver (fun d => i.weight file d) deliveries

/-- What the lines that the workers of a task are about have added to an account. -/
def Task.pending (i : Account) (file : Nat) (t : Task) : Nat := sumOver (i.pending file) t.workers

/-- What is added to an account is added by deliveries or by what is still pending. -/
def Account.Books (i : Account) (file : Nat) (d d' : Desk) (pending pending' : Nat) : Prop :=
  d'.booked file i + i.settled file (d.board.deliveriesOf file) + pending =
    d.booked file i + i.settled file (d'.board.deliveriesOf file) + pending'

namespace Worker

variable {a : Audience} {file : Nat} {path : String} {d : Desk}

theorem settled_note (i : Account) (b : Board) (delivery : Delivery) :
    i.settled file ((b.note file delivery).deliveriesOf file) =
      i.weight file delivery + i.settled file (b.deliveriesOf file) := by
  rw [b.deliveriesOf_note]
  rfl

/-- What the reply of a sink adds is pending, and delivered if the sink breaks off. -/
theorem ask_books (i : Account) (line : String) (answers : List (Option Error)) (batch : Batch) :
    i.Books file d (ask a file line answers batch d).2 (i.pending file (asking line answers batch))
      (i.pending file (ask a file line answers batch d).1) := by
  unfold ask
  split
  · have hbooked := i.booked_ask a d.board d.tally file answers.length line
    have hdeliveries : (d.board.ask a file (.sink answers.length) line).2.deliveriesOf file =
        d.board.deliveriesOf file := rfl
    generalize d.board.ask a file (.sink answers.length) line = asked at hbooked hdeliveries
    obtain ⟨_ | cause | payload, board⟩ := asked <;> dsimp only at hbooked hdeliveries
    · simp only [Account.Books, Desk.booked, Account.pending, hdeliveries]
      omega
    · have hweight := i.weight_refused file line answers cause
      simp only [Account.Books, Desk.booked, Account.pending, hdeliveries]
      omega
    · have hweight := i.weight_broken file line answers payload
      have hevents : (board.note file ⟨line, answers, some payload⟩).eventsOf file =
          board.eventsOf file := rfl
      simp only [Account.Books, Desk.booked, Account.pending, settled_note, hdeliveries, hevents]
      omega
  · simp only [Account.Books, Desk.booked, Account.pending, settled_note]
    have hevents : (d.board.note file ⟨line, answers, none⟩).eventsOf file =
        d.board.eventsOf file := rfl
    rw [hevents]
    omega

/-- What a step of a worker adds to an account is added by deliveries or pending. -/
theorem step_books {i : Account} (hvalid : i.Valid d.tally.success.length) (w : Worker) :
    i.Books file d (w.step a file path d).2 (i.pending file w)
      (i.pending file (w.step a file path d).1) := by
  cases w with
  | delivering batch =>
    obtain ⟨failures, _ | ⟨line, lines⟩⟩ := batch
    · rfl
    · simp only [step]
      repeat' split
      all_goals rfl
  | counting line batch =>
    have hbooked := i.booked_count file (d.board.eventsOf file) d.tally line
    simp only [Account.Books, Desk.booked, step, Account.pending]
    omega
  | asking line answers batch => exact ask_books i line answers batch
  | crediting line answers batch =>
    have hbooked := Account.booked_credit hvalid file (d.board.eventsOf file) answers.length
    have hweight := i.weight_accepted file line answers
    simp only [Account.Books, Desk.booked, step, Account.pending]
    omega
  | resting =>
    simp only [step]
    split <;> rfl
  | _ => rfl

end Worker

namespace Task

variable {a : Audience} {file worker : Nat} {path : String} {t t' : Task} {d d' : Desk}

/-- Who takes a batch is about no line yet. -/
theorem pending_claim (i : Account) (t : Task) : i.pending file t.claim = 0 := by
  unfold claim
  split <;> rfl

/-- What a step of a task adds to an account is added by deliveries or pending. -/
theorem step_books {i : Account} (hvalid : i.Valid d.tally.success.length)
    (h : t.step a file path worker d = some (t', d')) :
    i.Books file d d' (t.pending i file) (t'.pending i file) := by
  rcases step_cases h with ⟨hworker, rfl, rfl⟩ | ⟨w, hworker, -, -, rfl, rfl⟩
  · have hsum := sumOver_set (i.pending file) hworker t.claim
    have hreaching : i.pending file .reaching = 0 := rfl
    rw [pending_claim] at hsum
    simp only [Account.Books, pending]
    omega
  · have hbooks := @Worker.step_books a file path d i hvalid w
    have hsum := sumOver_set (i.pending file) hworker (w.step a file path d).1
    simp only [Account.Books, pending] at hbooks ⊢
    omega

/-- The workers of a new task are about no lines. -/
theorem pending_start (i : Account) (batchLines : Nat) (chunk : List UInt8) :
    (start batchLines chunk).pending i file = 0 := by
  refine sumOver_eq_zero fun w hw => ?_
  rw [List.eq_of_mem_replicate hw]
  rfl

/-- The workers of a finished task are about no lines any more. -/
theorem pending_of_finished (i : Account) (h : t.finished = true) : t.pending i file = 0 := by
  refine sumOver_eq_zero fun w hw => ?_
  have hended : w = .ended := by simpa using List.all_eq_true.1 h w hw
  rw [hended]
  rfl

end Task

/-! ## Threads -/

namespace Thread

/-- The books of a file are kept: its fault is told in time, each sink has a counter, and whatever
is in an account has been delivered or is still pending. -/
structure Kept (x : Setup) (file : Nat) (t : Thread) (p : Page) : Prop where
  told : ∃ fault, t.Told fault p.reports
  success : t.tally.success.length = x.audience.sinks
  booked : ∀ i : Account, i.Valid x.audience.sinks → i.booked file p.events t.tally =
    i.settled file p.deliveries + sumOver (Task.pending i file) t.tasks

variable {x : Setup} {file : Nat} {t t' : Thread} {b b' : Board} {happening : Happening}

theorem kept_start (file : Nat) (path : String) :
    Kept x file (.start path x.audience.sinks) .blank where
  told := ⟨none, rfl, rfl⟩
  success := List.length_replicate
  booked := by
    intro i hvalid
    cases i with
    | success sink =>
      have hsink : sink < x.audience.sinks := hvalid
      simp [Account.booked, Account.settled, Page.blank, Thread.start, Tally.zero, sumOver, hsink]
    | _ => rfl

/-- A thread counts nothing itself. -/
theorem tally_own (hown : t.own x file b = some (t', b')) : t'.tally = t.tally := by
  rcases own_cases hown with ⟨stage, rfl, -⟩ | ⟨chunk, r, rfl, -⟩ <;> rfl

/-- The steps of a thread itself leave the accounts alone: it asks nobody but the validator. -/
theorem booked_own (i : Account) (hown : t.own x file b = some (t', b')) :
    i.booked file (b'.eventsOf file) t'.tally = i.booked file (b.eventsOf file) t.tally := by
  rw [tally_own hown]
  rcases own_cases hown with ⟨stage, -, heffect⟩ | ⟨chunk, r, -, rfl⟩
  · cases heffect with
    | ask line => exact i.booked_ask_validator
    | _ => rfl
  · rfl

theorem pending_own (i : Account) (hown : t.own x file b = some (t', b')) :
    sumOver (Task.pending i file) t'.tasks = sumOver (Task.pending i file) t.tasks := by
  rcases own_cases hown with ⟨stage, rfl, -⟩ | ⟨chunk, r, rfl, -⟩
  · rfl
  · simp only [sumOver_append, sumOver, Task.pending_start, Nat.add_zero]

theorem length_success_moves (hmoves : t.Moves x file b happening t' b') :
    t'.tally.success.length = t.tally.success.length := by
  cases hmoves with
  | step hstep =>
    rcases step_cases hstep with hown | ⟨task, worker, k, k', d, -, hwork, rfl, -⟩ |
      ⟨task, k, -, -, rfl, -⟩
    · rw [tally_own hown]
    · exact (Task.within_step hwork).success
    · rfl
  | suffer hreading hsuffer =>
    obtain ⟨-, stage, chunks, -, rfl, -⟩ := suffer_cases hreading hsuffer
    rfl

/-- Whatever orderly happens in a thread, what is added to an account is added by deliveries or
pending. -/
theorem booked_moves {i : Account} (hvalid : i.Valid t.tally.success.length)
    (hmoves : t.Moves x file b happening t' b')
    (h : i.booked file (b.eventsOf file) t.tally =
      i.settled file (b.deliveriesOf file) + sumOver (Task.pending i file) t.tasks) :
    i.booked file (b'.eventsOf file) t'.tally =
      i.settled file (b'.deliveriesOf file) + sumOver (Task.pending i file) t'.tasks := by
  cases hmoves with
  | step hstep =>
    rcases step_cases hstep with hown | ⟨task, worker, k, k', d, hk, hwork, rfl, rfl⟩ |
      ⟨task, k, hk, hfinished, rfl, rfl⟩
    · rw [booked_own i hown, pending_own i hown, deliveriesOf_own hown, h]
    · have hbooks := Task.step_books hvalid hwork
      have hsum := sumOver_set (Task.pending i file) hk k'
      simp only [Account.Books, Desk.booked] at hbooks
      dsimp only
      omega
    · have hsum := sumOver_eraseIdx (Task.pending i file) hk
      rw [Task.pending_of_finished i hfinished] at hsum
      exact h.trans (congrArg _ hsum.symm)
  | suffer hreading hsuffer =>
    obtain ⟨-, stage, chunks, -, rfl, rfl⟩ := suffer_cases hreading hsuffer
    exact h

/-- The books of a file are kept whatever orderly happens in its thread. -/
theorem Kept.moves (hsettled : t.Settled) (hmoves : t.Moves x file b happening t' b')
    (h : t.Kept x file (b.page file)) : t'.Kept x file (b'.page file) where
  told := by
    obtain ⟨fault, htold⟩ := h.told
    obtain ⟨fault', htells⟩ := htold.moves hsettled hmoves
    exact ⟨fault', htells.told⟩
  success := (length_success_moves hmoves).trans h.success
  booked := fun i hvalid => booked_moves (h.success.symm ▸ hvalid) hmoves (h.booked i hvalid)

end Thread

end LogAudit.Ingest
