import LogAudit.Ingest.Incident
import LogAudit.Proofs.Ingest.Threads
import LogAudit.Proofs.Resource.Gates

/-!
# Permits of a run

The main thread passes the gate for files before it starts the thread of a file, and this thread
passes the gate for chunks before it starts a task. In every state of a run, whatever has happened
and gone wrong, each gate has as many inside as there are permits held, within its limit
(`State.Balanced`). A thread waits only for a gate that others will leave or for tasks that will
end, so something can always happen until all is over.
-/

namespace LogAudit.Ingest

open LogAudit.Resource

/-! ## Who holds permits -/

namespace Setup

/-- How many files are worked on at a time. -/
def fileLimit (x : Setup) : Nat := max x.limits.maxConcurrentFiles 1

/-- How many chunks are worked on at a time, of all files together. -/
def chunkLimit (x : Setup) : Nat :=
  max (if x.limits.chunkWorkers = 0 then x.chunkWorkers else x.limits.chunkWorkers) 1

end Setup

/-- The permit for the chunk that a thread is starting a task for. -/
def Stage.permits : Stage → Nat
  | starting _ _ => 1
  | _ => 0

/-- The permit for the file that the main thread is starting a thread for. -/
def Main.permits : Main → Nat
  | starting _ _ => 1
  | _ => 0

namespace Thread

/-- A thread has a permit for its file until it ends. -/
def filePermits (t : Thread) : Nat := if t.stage = .ended then 0 else 1

/-- A thread has a permit for the chunk that it is starting a task for, and each of its tasks has
one. -/
def chunkPermits (t : Thread) : Nat := t.stage.permits + t.tasks.length

end Thread

namespace State

/-- The permits for files that are held in a run. -/
def filePermits (s : State) : Nat := s.main.permits + sumOver Thread.filePermits s.threads

/-- The permits for chunks that are held in a run, by the threads and tasks of all files. -/
def chunkPermits (s : State) : Nat := sumOver Thread.chunkPermits s.threads

end State

/-- The gates have so many inside, within their limits. -/
structure Board.Balanced (b : Board) (x : Setup) (files chunks : Nat) : Prop where
  files : b.files.Holds x.fileLimit files
  chunks : b.chunks.Holds x.chunkLimit chunks

/-! ## Threads -/

/-- A worker leaves the gates alone. -/
theorem Worker.gates_step {a : Audience} {file : Nat} {path : String} {d : Desk} (w : Worker) :
    (w.step a file path d).2.board.files = d.board.files ∧
      (w.step a file path d).2.board.chunks = d.board.chunks := by
  have heffect := @Worker.effect_step a file path d w
  generalize (w.step a file path d).2.board = board at heffect ⊢
  cases heffect <;> exact ⟨rfl, rfl⟩

/-- A thread at this stage holds the permit for its file, and none for a chunk besides those of its
tasks. -/
structure Stage.Bare (stage : Stage) : Prop where
  permits : stage.permits = 0
  lasting : stage ≠ .ended

namespace Thread

variable {x : Setup} {file : Nat} {t t' : Thread} {b b' : Board} {files chunks : Nat}

/-- A thread holds the same permits at two stages, if it holds only the one for its file. -/
theorem balanced_go (h : b.Balanced x (files + t.filePermits) (chunks + t.chunkPermits))
    (hat : t.stage.Bare) {stage : Stage} (hstage : stage.Bare) (hfiles : b'.files = b.files)
    (hchunks : b'.chunks = b.chunks) :
    b'.Balanced x (files + (t.go stage).filePermits) (chunks + (t.go stage).chunkPermits) := by
  rw [filePermits, chunkPermits, if_neg hat.lasting, hat.permits] at h
  rw [filePermits, chunkPermits, go, if_neg hstage.lasting, hstage.permits]
  exact ⟨hfiles ▸ h.files, hchunks ▸ h.chunks⟩

/-- Behind the opening a thread holds only the permit for its file. -/
theorem bare_opened (path : String) : (opened x path).Bare := by
  unfold opened
  split
  · exact ⟨rfl, nofun⟩
  · split <;> exact ⟨rfl, nofun⟩

/-- Behind its sample a thread holds only the permit for its file. -/
theorem bare_sampled (path : String) (content : List UInt8) (s : Sampling) (ended : SampleEnd) :
    (sampled x path content s ended).Bare := by
  unfold sampled
  split <;> exact ⟨rfl, nofun⟩

/-- After looking for a chunk a thread holds only the permit for its file. -/
theorem bare_fetched (r : Remainder) : (fetched x r).Bare := by
  unfold fetched
  split <;> exact ⟨rfl, nofun⟩

/-- A thread takes places at the gates and gives them back as it takes and gives back permits. -/
theorem balanced_own (h : b.Balanced x (files + t.filePermits) (chunks + t.chunkPermits))
    (hown : t.own x file b = some (t', b')) :
    b'.Balanced x (files + t'.filePermits) (chunks + t'.chunkPermits) := by
  cases turn_of_own hown with
  | openFile hat => exact balanced_go h (hat ▸ ⟨rfl, by simp⟩) (bare_opened _) rfl rfl
  | judge hat => exact balanced_go h (hat ▸ ⟨rfl, by simp⟩) (bare_sampled _ _ _ _) rfl rfl
  | fetch hat => exact balanced_go h (hat ▸ ⟨rfl, by simp⟩) (bare_fetched _) rfl rfl
  | test hat htest | breakOff hat htest =>
    obtain rfl := Sampling.board_of_test htest
    exact balanced_go h (hat ▸ ⟨rfl, by simp⟩) ⟨rfl, by simp⟩ rfl rfl
  | look hat | stop hat | join hat | write hat | report hat =>
    exact balanced_go h (hat ▸ ⟨rfl, by simp⟩) ⟨rfl, by simp⟩ rfl rfl
  | pass hat htake =>
    have htaken := h.chunks.take htake
    simp only [filePermits, chunkPermits, go, hat, Stage.permits] at h htaken ⊢
    exact ⟨h.files, by convert htaken using 1; omega⟩
  | spawn hat =>
    have hmarked := h.chunks.mark
    simp only [filePermits, chunkPermits, hat, Stage.permits, List.length_append,
      List.length_singleton] at h hmarked ⊢
    exact ⟨h.files, by convert hmarked using 1; omega⟩
  | leave hat =>
    simp only [filePermits, chunkPermits, go, hat, reduceCtorEq, if_false, if_true] at h ⊢
    exact ⟨h.files.leave, h.chunks⟩

/-- A step of a task changes no permits, and a task that ends gives its permit back. -/
theorem balanced_step (h : b.Balanced x (files + t.filePermits) (chunks + t.chunkPermits))
    {m : Move} (hstep : t.step x file b m = some (t', b')) :
    b'.Balanced x (files + t'.filePermits) (chunks + t'.chunkPermits) := by
  rcases step_cases hstep with hown | ⟨task, worker, k, k', d, hk, hwork, rfl, rfl⟩ |
    ⟨task, k, hk, -, rfl, rfl⟩
  · exact balanced_own h hown
  · have hgates : d.board.files = b.files ∧ d.board.chunks = b.chunks := by
      rcases Task.step_cases hwork with ⟨-, rfl, -⟩ | ⟨w, -, -, -, rfl, -⟩
      · exact ⟨rfl, rfl⟩
      · exact w.gates_step
    simp only [filePermits, chunkPermits, List.length_set] at h ⊢
    exact ⟨hgates.1 ▸ h.files, hgates.2 ▸ h.chunks⟩
  · have htask := (List.getElem?_eq_some_iff.1 hk).1
    have hlength := List.length_eraseIdx_of_lt htask
    refine ⟨h.files, Gate.Holds.leave ?_⟩
    convert h.chunks using 1
    simp only [chunkPermits]
    omega

/-- A thread in which something breaks off gives back the permits that it takes no further. -/
theorem balanced_suffer (h : b.Balanced x (files + t.filePermits) (chunks + t.chunkPermits))
    {mishap : Mishap} (hsuffer : t.suffer b mishap = some (t', b')) :
    b'.Balanced x (files + t'.filePermits) (chunks + t'.chunkPermits) := by
  cases mishap with
  | failure error =>
    have hfails : ∀ stage, t.stage = stage → stage.Bare → some (t.go (.failing error), b) =
        some (t', b') → b'.Balanced x (files + t'.filePermits) (chunks + t'.chunkPermits) := by
      rintro stage rfl hbare hfails
      obtain ⟨rfl, rfl⟩ := Prod.mk.inj (Option.some.inj hfails)
      exact balanced_go h hbare ⟨rfl, by simp⟩ rfl rfl
    cases hat : t.stage with simp only [suffer, hat] at hsuffer
    | opening => exact hfails _ hat ⟨rfl, by simp⟩ hsuffer
    | sampling content s => exact hfails _ hat ⟨rfl, by simp⟩ hsuffer
    | testing content s line => exact hfails _ hat ⟨rfl, by simp⟩ hsuffer
    | joining =>
      split at hsuffer
      · exact hfails _ hat ⟨rfl, by simp⟩ hsuffer
      · cases hsuffer
    | _ => cases hsuffer
  | cut =>
    cases hat : t.stage with simp only [suffer, hat] at hsuffer
    | reading r =>
      obtain ⟨rfl, rfl⟩ := Prod.mk.inj (Option.some.inj hsuffer)
      exact balanced_go h (hat ▸ ⟨rfl, by simp⟩) ⟨rfl, by simp⟩ rfl rfl
    | starting chunk r =>
      obtain ⟨rfl, rfl⟩ := Prod.mk.inj (Option.some.inj hsuffer)
      have hmarked := h.chunks.mark
      simp only [filePermits, chunkPermits, go, hat, Stage.permits] at h hmarked ⊢
      exact ⟨h.files, Gate.Holds.leave (by convert hmarked using 1; omega)⟩
    | _ => cases hsuffer
  | silence =>
    cases hat : t.stage with simp only [suffer, hat] at hsuffer
    | failing error =>
      obtain ⟨rfl, rfl⟩ := Prod.mk.inj (Option.some.inj hsuffer)
      exact balanced_go h (hat ▸ ⟨rfl, by simp⟩) ⟨rfl, by simp⟩ rfl rfl
    | closing error =>
      obtain ⟨rfl, rfl⟩ := Prod.mk.inj (Option.some.inj hsuffer)
      exact balanced_go h (hat ▸ ⟨rfl, by simp⟩) ⟨rfl, by simp⟩ rfl rfl
    | _ => cases hsuffer
  | worker task worker =>
    obtain ⟨k, -, hsuffer⟩ := Option.map_eq_some_iff.1 hsuffer
    obtain ⟨rfl, rfl⟩ := Prod.mk.inj hsuffer
    simp only [filePermits, chunkPermits, List.length_set] at h ⊢
    exact ⟨h.files, h.chunks⟩

/-! ## Threads that wait -/

/-- There are tasks only while they are started and waited for. -/
def Settled (t : Thread) : Prop := t.stage.delivers = true ∨ t.tasks = []

theorem Settled.tasks (h : t.Settled) (hat : t.stage.delivers = false) : t.tasks = [] :=
  h.resolve_left (by simp [hat])

/-- A thread starts tasks only while it delivers, and ends only when they have ended. -/
theorem Settled.own (h : t.Settled) (hown : t.own x file b = some (t', b')) : t'.Settled := by
  cases turn_of_own hown with
  | openFile hat | judge hat | look hat | test hat | breakOff hat | write hat | report hat
  | leave hat => exact Or.inr (h.tasks (hat ▸ rfl))
  | fetch hat =>
    refine Or.inl ?_
    rw [go]
    unfold fetched
    split <;> rfl
  | stop hat | pass hat | spawn hat => exact Or.inl rfl
  | join hat htasks => exact Or.inr htasks

/-- Whatever happens in a thread, it has tasks only while it delivers. -/
theorem Settled.step (h : t.Settled) {m : Move} (hstep : t.step x file b m = some (t', b')) :
    t'.Settled := by
  rcases step_cases hstep with hown | ⟨task, worker, k, k', d, -, -, rfl, -⟩ |
    ⟨task, k, -, -, rfl, -⟩
  · exact h.own hown
  · exact h.imp_right fun htasks => by simp [htasks]
  · exact h.imp_right fun htasks => by simp [htasks]

/-- A mishap keeps a thread settled. -/
theorem Settled.suffer (h : t.Settled) {mishap : Mishap}
    (hsuffer : t.suffer b mishap = some (t', b')) : t'.Settled := by
  cases mishap with
  | failure error =>
    have hfails : t.tasks = [] → some (t.go (.failing error), b) = some (t', b') → t'.Settled := by
      intro htasks hfails
      obtain ⟨rfl, -⟩ := Prod.mk.inj (Option.some.inj hfails)
      exact Or.inr htasks
    cases hat : t.stage with simp only [Thread.suffer, hat] at hsuffer
    | opening | sampling _ _ | testing _ _ _ =>
      exact hfails (h.tasks (by rw [hat]; rfl)) hsuffer
    | joining =>
      split at hsuffer
      · exact hfails ‹_› hsuffer
      · exact absurd hsuffer nofun
    | _ => exact absurd hsuffer nofun
  | cut =>
    cases hat : t.stage with simp only [Thread.suffer, hat] at hsuffer
    | reading _ | starting _ _ =>
      obtain ⟨rfl, -⟩ := Prod.mk.inj (Option.some.inj hsuffer)
      exact Or.inl rfl
    | _ => exact absurd hsuffer nofun
  | silence =>
    cases hat : t.stage with simp only [Thread.suffer, hat] at hsuffer
    | failing _ | closing _ =>
      obtain ⟨rfl, -⟩ := Prod.mk.inj (Option.some.inj hsuffer)
      exact Or.inr (h.tasks (by rw [hat]; rfl))
    | _ => exact absurd hsuffer nofun
  | worker task worker =>
    obtain ⟨k, -, hsuffer⟩ := Option.map_eq_some_iff.1 hsuffer
    obtain ⟨rfl, -⟩ := Prod.mk.inj hsuffer
    exact h.imp_right fun htasks => by simp [htasks]

/-- Nothing happens in a thread that has ended. -/
theorem Settled.ne_ended_of_step (h : t.Settled) {m : Move}
    (hstep : t.step x file b m = some (t', b')) : t.stage ≠ .ended := by
  intro hended
  have htasks := h.tasks (by rw [hended]; rfl)
  cases m <;> simp [Thread.step, Thread.own, work, retire, hended, htasks] at hstep

/-- Nothing goes wrong in a thread that has ended. -/
theorem Settled.ne_ended_of_suffer (h : t.Settled) {mishap : Mishap}
    (hsuffer : t.suffer b mishap = some (t', b')) : t.stage ≠ .ended := by
  intro hended
  have htasks := h.tasks (by rw [hended]; rfl)
  cases mishap <;> simp [Thread.suffer, hended, htasks] at hsuffer

/-- The first worker of a task that has not ended can go on. -/
theorem isSome_step_of_next? {a : Audience} {path : String} {k : Task} {worker : Nat} (d : Desk)
    (hnext : k.next? = some worker) : (k.step a file path worker d).isSome := by
  obtain ⟨hworker, hended, -⟩ := List.findIdx?_eq_some_iff_getElem.1 hnext
  simp only [Task.step, List.getElem?_eq_getElem hworker]
  split <;> simp_all

/-- A task is finished if none of its workers can go on. -/
theorem finished_of_next? {k : Task} (hnext : k.next? = none) : k.finished = true := by
  simpa [Task.next?, Task.finished] using hnext

variable (x file b) in
/-- What happens next in a thread can happen, unless the thread waits at a full gate. -/
theorem step_next?_or_waiting {m : Move} (hnext : t.next? = some m) :
    (t.step x file b m).isSome ∨ t.chunkPermits = 0 ∧ b.chunks.take? = none := by
  unfold next? at hnext
  cases htasks : t.tasks with
  | cons k tasks =>
    left
    simp only [htasks] at hnext
    split at hnext <;> obtain rfl := Option.some.inj hnext <;> rename_i hworker
    · simp only [Thread.step, work, htasks, List.getElem?_cons_zero, Option.isSome_map]
      exact isSome_step_of_next? _ hworker
    · simp [Thread.step, retire, htasks, finished_of_next? hworker]
  | nil =>
    simp only [htasks] at hnext
    split at hnext
    · cases hnext
    · rename_i hended
      obtain rfl := Option.some.inj hnext
      cases hat : t.stage with
      | waiting chunk r =>
        cases htake : b.chunks.take? with
        | none => exact Or.inr ⟨by simp [chunkPermits, hat, htasks, Stage.permits], rfl⟩
        | some gate => exact Or.inl (by simp [Thread.step, Thread.own, hat, htake])
      | ended => exact absurd hat hended
      | sampling content s =>
        left
        simp only [Thread.step, Thread.own, hat]
        split <;> rfl
      | testing content s line =>
        left
        simp only [Thread.step, Thread.own, hat]
        split <;> rfl
      | joining => exact Or.inl (by simp [Thread.step, Thread.own, hat, htasks])
      | _ => exact Or.inl (by simp [Thread.step, Thread.own, hat])

/-- A thread that has not ended has a next move. -/
theorem isSome_next? (hended : t.stage ≠ .ended) : t.next?.isSome := by
  unfold next?
  split
  · split <;> rfl
  · rw [if_neg hended]
    rfl

/-- Something can happen in a thread that has not ended, unless it waits at a full gate. -/
theorem exists_step_or_waiting (hended : t.stage ≠ .ended) :
    (∃ m, (t.step x file b m).isSome) ∨ t.chunkPermits = 0 ∧ b.chunks.take? = none := by
  obtain ⟨m, hnext⟩ := Option.isSome_iff_exists.1 (isSome_next? hended)
  exact (step_next?_or_waiting x file b hnext).imp_left fun hstep => ⟨m, hstep⟩

end Thread

/-! ## Runs -/

/-- What changes in one place of a sum leaves what the other places come to. -/
theorem exists_sumOver_set {α : Type} (f : α → Nat) {items : List α} {i : Nat} {item : α}
    (h : items[i]? = some item) : ∃ others, sumOver f items = others + f item ∧
      ∀ other, sumOver f (items.set i other) = others + f other := by
  have hless := sumOver_eraseIdx f h
  refine ⟨sumOver f (items.eraseIdx i), hless.symm, fun other => ?_⟩
  have hset := sumOver_set f h other
  omega

/-- An item that weighs something is among those that weigh something together. -/
theorem exists_pos_of_sumOver_pos {α : Type} {f : α → Nat} {items : List α}
    (h : 0 < sumOver f items) : ∃ item ∈ items, 0 < f item := by
  by_contra hnone
  have hzero : ∀ item ∈ items, f item = 0 := by
    intro item hitem
    by_contra hne
    exact hnone ⟨item, hitem, Nat.pos_of_ne_zero hne⟩
  exact absurd h (by rw [sumOver_eq_zero hzero]; decide)

namespace State

/-- The gates of a run have as many inside as permits are held. Each thread has tasks only while it
starts them and waits for them, and a run that is over has no thread that has not ended. -/
structure Balanced (x : Setup) (s : State) : Prop where
  gates : s.board.Balanced x s.filePermits s.chunkPermits
  settled : ∀ t ∈ s.threads, t.Settled
  ended : s.finished = true → ∀ t ∈ s.threads, t.stage = .ended

variable {x : Setup} {s s' : State}

/-- At the start the gates are balanced. -/
theorem balanced_start (cancelled : Bool) (paths : List String) :
    (start x cancelled paths).Balanced x :=
  ⟨⟨Gate.holds_ofLimit _, Gate.holds_ofLimit _⟩, nofun, nofun⟩

/-- When a run is over, no thread has tasks. -/
theorem Balanced.tasks_of_finished (h : s.Balanced x) (hfinished : s.finished = true) {t : Thread}
    (ht : t ∈ s.threads) : t.tasks = [] :=
  (h.settled t ht).tasks (by rw [h.ended hfinished t ht]; rfl)

/-- A run is balanced after the main thread has gone on, if the gate for files is. -/
theorem Balanced.main (h : s.Balanced x) {main : Main} {files : Gate}
    (hfiles : files.Holds x.fileLimit (main.permits + sumOver Thread.filePermits s.threads))
    (hended : ({ s with main } : State).finished = true → ∀ t ∈ s.threads, t.stage = .ended) :
    ({ s with main, board := { s.board with files } } : State).Balanced x :=
  ⟨⟨hfiles, h.gates.chunks⟩, h.settled, hended⟩

/-- The main thread keeps the gates balanced. -/
theorem Balanced.advance (h : s.Balanced x) (hadvance : s.advance x = some s') :
    s'.Balanced x := by
  obtain ⟨main, threads, board⟩ := s
  have hfiles := h.gates.files
  simp only [filePermits] at hfiles
  unfold State.advance at hadvance
  cases main with
  | looking paths =>
    cases paths with
    | nil =>
      obtain rfl := Option.some.inj hadvance
      exact h.main hfiles (absurd · Bool.false_ne_true)
    | cons path paths =>
      obtain rfl := Option.some.inj hadvance
      dsimp only
      split <;> exact h.main hfiles (absurd · Bool.false_ne_true)
  | waiting path paths =>
    obtain ⟨files, htake, rfl⟩ := Option.map_eq_some_iff.1 hadvance
    refine h.main ?_ (absurd · Bool.false_ne_true)
    convert hfiles.take htake using 1
    simp only [Main.permits]
    omega
  | starting path paths =>
    obtain rfl := Option.some.inj hadvance
    refine ⟨⟨?_, ?_⟩, ?_, (absurd · Bool.false_ne_true)⟩
    · convert hfiles.mark using 1
      simp only [filePermits, sumOver_append, sumOver, Main.permits, Thread.filePermits,
        Thread.start, reduceCtorEq, if_false]
      omega
    · convert h.gates.chunks using 1
      simp only [chunkPermits, sumOver_append, sumOver, Thread.chunkPermits, Thread.start,
        Stage.permits, List.length_nil]
      omega
    · intro t ht
      rcases List.mem_append.1 ht with ht | ht
      · exact h.settled t ht
      · rw [List.mem_singleton.1 ht]
        exact Or.inr rfl
  | joining =>
    simp only at hadvance
    split at hadvance
    · rename_i hall
      obtain rfl := Option.some.inj hadvance
      refine h.main hfiles fun _ t ht => ?_
      simpa using List.all_eq_true.1 hall t ht
    · cases hadvance
  | done cancelled => cases hadvance

/-- What happens in one thread, and what it does at the gates, keeps the run balanced. -/
theorem Balanced.set (h : s.Balanced x) {number : Nat} {t t' : Thread} {board : Board}
    (ht : s.threads[number]? = some t)
    (hgates : ∀ {files chunks : Nat},
      s.board.Balanced x (files + t.filePermits) (chunks + t.chunkPermits) →
        board.Balanced x (files + t'.filePermits) (chunks + t'.chunkPermits))
    (hsettled : t'.Settled) (hended : t.stage ≠ .ended) :
    ({ s with threads := s.threads.set number t', board } : State).Balanced x := by
  obtain ⟨files, hfiles, hfiles'⟩ := exists_sumOver_set Thread.filePermits ht
  obtain ⟨chunks, hchunks, hchunks'⟩ := exists_sumOver_set Thread.chunkPermits ht
  have hmem := List.mem_of_getElem? ht
  refine ⟨?_, ?_, fun hfinished => absurd (h.ended hfinished t hmem) hended⟩
  · have hbefore := h.gates
    rw [filePermits, chunkPermits, hfiles, hchunks, ← Nat.add_assoc] at hbefore
    rw [filePermits, chunkPermits, hfiles' t', hchunks' t', ← Nat.add_assoc]
    exact hgates hbefore
  · intro other hother
    rcases List.mem_or_eq_of_mem_set hother with hother | rfl
    · exact h.settled other hother
    · exact hsettled

/-- Every action keeps the gates balanced. -/
theorem Balanced.act (h : s.Balanced x) {action : Action} (hact : s.act x action = some s') :
    s'.Balanced x := by
  rcases action with (_ | ⟨number, m⟩) | _
  · exact h.advance hact
  · simp only [State.act, State.step, stepFile] at hact
    split at hact
    · cases hact
    · rename_i t ht
      obtain ⟨⟨t', board⟩, hstep, rfl⟩ := Option.map_eq_some_iff.1 hact
      have hsettled := h.settled t (List.mem_of_getElem? ht)
      exact h.set ht (Thread.balanced_step · hstep) (hsettled.step hstep)
        (hsettled.ne_ended_of_step hstep)
  · obtain rfl := Option.some.inj hact
    exact ⟨⟨h.gates.files, h.gates.chunks⟩, h.settled, h.ended⟩

/-- Every incident keeps the gates balanced. -/
theorem Balanced.suffer (h : s.Balanced x) {incident : Incident}
    (hsuffer : s.suffer incident = some s') : s'.Balanced x := by
  cases incident with
  | unstarted =>
    obtain ⟨main, threads, board⟩ := s
    have hfiles := h.gates.files
    cases main with
    | starting path paths =>
      obtain rfl := Option.some.inj hsuffer
      refine h.main (Gate.Holds.leave ?_) nofun
      convert hfiles.mark using 1
      simp only [filePermits, Main.permits]
      omega
    | _ => exact absurd hsuffer nofun
  | file number mishap =>
    simp only [State.suffer] at hsuffer
    split at hsuffer
    · exact absurd hsuffer nofun
    · rename_i t ht
      obtain ⟨⟨t', board⟩, hthread, rfl⟩ := Option.map_eq_some_iff.1 hsuffer
      have hsettled := h.settled t (List.mem_of_getElem? ht)
      exact h.set ht (Thread.balanced_suffer · hthread) (hsettled.suffer hthread)
        (hsettled.ne_ended_of_suffer hthread)

/-- Every history keeps the gates balanced. -/
theorem Balanced.afterAll (h : s.Balanced x) {history : List Happening}
    (hafter : s.afterAll x history = some s') : s'.Balanced x := by
  induction history generalizing s with
  | nil => exact Option.some.inj hafter ▸ h
  | cons happening history ih =>
    obtain ⟨next, hmeet, hnext⟩ := Option.bind_eq_some_iff.1 hafter
    cases happening with
    | action action => exact ih (h.act hmeet) hnext
    | incident incident => exact ih (h.suffer hmeet) hnext

/-- A thread that has ended holds no permits. -/
theorem Balanced.permits_of_ended (h : s.Balanced x) {t : Thread} (ht : t ∈ s.threads)
    (hended : t.stage = .ended) : t.filePermits = 0 ∧ t.chunkPermits = 0 := by
  have htasks := (h.settled t ht).tasks (by rw [hended]; rfl)
  simp [Thread.filePermits, Thread.chunkPermits, hended, htasks, Stage.permits]

/-- If nothing can happen in the threads of files, all of them have ended: otherwise they all wait
at the gate for chunks, which is full, though none of them holds a permit for a chunk. -/
theorem Balanced.ended_of_stuck (h : s.Balanced x)
    (hstuck : ∀ number m, s.stepFile x number m = none) : ∀ t ∈ s.threads, t.stage = .ended := by
  have hwaits : ∀ t ∈ s.threads, t.stage ≠ .ended →
      t.chunkPermits = 0 ∧ s.board.chunks.take? = none := by
    intro t ht hended
    obtain ⟨number, hnumber, rfl⟩ := List.getElem_of_mem ht
    rcases @Thread.exists_step_or_waiting x number _ s.board hended with ⟨m, hstep⟩ | hwaits
    · have hnone := hstuck number m
      rw [stepFile, List.getElem?_eq_getElem hnumber, Option.map_eq_none_iff] at hnone
      rw [hnone] at hstep
      exact absurd hstep Bool.false_ne_true
    · exact hwaits
  intro t ht
  by_contra hended
  have hfull := h.gates.chunks.take?_eq_none_iff.1 (hwaits t ht hended).2
  have hlimit : 0 < x.chunkLimit := Nat.le_max_right _ _
  obtain ⟨holder, hholder, hpermits⟩ := exists_pos_of_sumOver_pos (hfull ▸ hlimit)
  by_cases hholds : holder.stage = .ended
  · rw [(h.permits_of_ended hholder hholds).2] at hpermits
    exact absurd hpermits (Nat.lt_irrefl 0)
  · rw [(hwaits holder hholder hholds).1] at hpermits
    exact absurd hpermits (Nat.lt_irrefl 0)

/-- When all threads of files have ended, only the main thread may hold a permit. -/
theorem Balanced.permits_of_all_ended (h : s.Balanced x)
    (hended : ∀ t ∈ s.threads, t.stage = .ended) :
    s.filePermits = s.main.permits ∧ s.chunkPermits = 0 := by
  have hfiles : sumOver Thread.filePermits s.threads = 0 :=
    sumOver_eq_zero fun t ht => (h.permits_of_ended ht (hended t ht)).1
  exact ⟨by rw [filePermits, hfiles, Nat.add_zero],
    sumOver_eq_zero fun t ht => (h.permits_of_ended ht (hended t ht)).2⟩

/-- When all threads of files have ended, the main thread can go on unless the run is over. -/
theorem Balanced.advance_ne_none (h : s.Balanced x) (hended : ∀ t ∈ s.threads, t.stage = .ended)
    (hunfinished : s.finished = false) : s.advance x ≠ none := by
  intro hmain
  obtain ⟨hfiles, -⟩ := h.permits_of_all_ended hended
  obtain ⟨main, threads, board⟩ := s
  cases main with
  | looking paths => cases paths <;> exact absurd hmain nofun
  | waiting path paths =>
    have hfull := h.gates.files.take?_eq_none_iff.1 (Option.map_eq_none_iff.1 hmain)
    have hlimit : 0 < x.fileLimit := Nat.le_max_right _ _
    rw [← hfull, hfiles] at hlimit
    exact absurd hlimit (Nat.lt_irrefl 0)
  | starting path paths => exact absurd hmain nofun
  | joining =>
    have hall : threads.all (·.stage == .ended) = true := by simpa using hended
    simp [State.advance, hall] at hmain
  | done cancelled => exact absurd hunfinished nofun

/-- Something can happen in a run as long as one of its threads has not ended. -/
theorem Balanced.exists_step (h : s.Balanced x)
    (hopen : s.finished = false ∨ ∃ t ∈ s.threads, t.stage ≠ .ended) :
    ∃ m, (s.step x m).isSome := by
  by_contra hstuck
  have hnone : ∀ m, s.step x m = none := by
    intro m
    by_contra hsome
    exact hstuck ⟨m, Option.isSome_iff_ne_none.2 hsome⟩
  have hended := h.ended_of_stuck fun number m => hnone (.file number m)
  have hunfinished : s.finished = false :=
    hopen.resolve_right fun ⟨t, ht, hne⟩ => hne (hended t ht)
  exact h.advance_ne_none hended hunfinished (hnone .main)

/-- In every state of a run, whatever has happened and gone wrong: each gate has as many inside as
permits are held, neither they nor those before were more than its limit, and there is no place
exactly if all are taken. Something can happen as long as a thread has not ended, and when the run
is over, both gates are empty. A gate by itself counts the permits that are held after any requests,
and refuses one without waiting exactly if all places are taken. -/
theorem admission {cancelled : Bool} {paths : List String} {history : List Happening}
    (hafter : (start x cancelled paths).afterAll x history = some s) :
    s.board.files.Holds x.fileLimit s.filePermits ∧
    s.board.chunks.Holds x.chunkLimit s.chunkPermits ∧
    (s.board.files.enter? = none ↔ s.filePermits = x.fileLimit) ∧
    (s.board.chunks.enter? = none ↔ s.chunkPermits = x.chunkLimit) ∧
    ((s.finished = false ∨ ∃ t ∈ s.threads, t.stage ≠ .ended) → ∃ m, (s.step x m).isSome) ∧
    (s.finished = true → s.board.files.inFlight = 0 ∧ s.board.chunks.inFlight = 0) ∧
    ∀ limit requests a, (Admission.ofLimit limit).serveAll? requests = some a →
      a.gate.Holds (max limit 1) a.held ∧ (a.tryAcquire.2 = false ↔ a.held = max limit 1) := by
  have h := (balanced_start cancelled paths).afterAll hafter
  refine ⟨h.gates.files, h.gates.chunks, h.gates.files.enter?_eq_none_iff,
    h.gates.chunks.enter?_eq_none_iff, h.exists_step, fun hfinished => ?_,
    fun limit requests a hserve => ?_⟩
  · obtain ⟨hfiles, hchunks⟩ := h.permits_of_all_ended (h.ended hfinished)
    have hmain : s.main.permits = 0 := by
      unfold finished at hfinished
      split at hfinished
      · rename_i hmain
        rw [hmain]
        rfl
      · exact absurd hfinished nofun
    rw [h.gates.files.counted, h.gates.chunks.counted, hfiles, hmain, hchunks]
    exact ⟨rfl, rfl⟩
  · have hheld := Admission.serveAll_holds (Gate.holds_ofLimit limit) hserve
    exact ⟨hheld, Admission.tryAcquire_eq_false_iff hheld⟩

/-- One file at a time. -/
def oneByOne : Setup where
  limits := { Limits.default with maxConcurrentFiles := 0, chunkWorkers := 1 }
  chunkWorkers := 1
  source := fun _ => .ok (.file [112])
  audience := .ofSinks .all []

/-- The thread of the first file breaks off, and the one of the second file cannot be started. -/
def twoIncidents : List Happening :=
  List.replicate 4 (.action (.move .main)) ++
    [.incident (.file 0 (.failure (.ofPayload .other)))] ++
    List.replicate 3 (.action (.move (.file 0 .own))) ++
    [.action (.move .main), .incident .unstarted, .action (.move .main)]

/-- After both incidents the run is over, and the gates are empty. -/
theorem admission_twoIncidents :
    ∃ s, (start oneByOne false ["a", "b"]).afterAll oneByOne twoIncidents = some s ∧
      s.finished = true ∧ s.board.files.peak ≤ 1 ∧ s.board.files.inFlight = 0 ∧
      s.board.chunks.inFlight = 0 := by
  obtain ⟨s, hafter⟩ : ∃ s, (start oneByOne false ["a", "b"]).afterAll oneByOne twoIncidents =
    some s := Option.isSome_iff_exists.1 (by decide +kernel)
  have hend : ((start oneByOne false ["a", "b"]).afterAll oneByOne twoIncidents).map finished =
    some true := by decide +kernel
  rw [hafter, Option.map_some, Option.some.injEq] at hend
  obtain ⟨hfiles, -, -, -, -, hempty, -⟩ := admission hafter
  exact ⟨s, hafter, hend, hfiles.peaked, hempty hend⟩

end State

end LogAudit.Ingest
