import LogAudit.Proofs.Ingest.Posts

/-!
# Runs of tasks

The workers of a task take their steps in any order. What every step preserves holds when all of
them have ended (`Task.preserved_after`), and then each sink was fed the lines of the chunk
(`Task.Completes.fed_perm`), unless a sink broke off.
-/

namespace LogAudit.Ingest

open LogAudit.Text

/-- A desk on which nothing has been counted, for so many sinks. -/
def Desk.blank (sinks : Nat) : Desk := ⟨.start false 1 1, .zero sinks⟩

namespace Task

/-- The workers with these numbers take a step each, one after the other. -/
def after (a : Audience) (file : Nat) (path : String) (t : Task) (d : Desk) :
    List Nat → Option (Task × Desk)
  | [] => some (t, d)
  | worker :: schedule =>
    (t.step a file path worker d).bind fun (t, d) => t.after a file path d schedule

variable {a : Audience} {file : Nat} {path : String} {t t' : Task} {d d' : Desk}
  {schedule : List Nat}

/-- A task that is cancelled stays so. -/
theorem later_after (hrun : t.after a file path d schedule = some (t', d')) :
    d.board.Later d'.board := by
  induction schedule generalizing t d with
  | nil => exact (Prod.mk.inj (Option.some.inj hrun)).2 ▸ id
  | cons worker schedule ih =>
    obtain ⟨⟨next, desk⟩, hstep, hrest⟩ := Option.bind_eq_some_iff.1 hrun
    exact fun hcancelled => ih hrest ((within_step hstep).later hcancelled)

/-- What every step of a task that is not cancelled preserves holds of all that comes after it. -/
theorem preserved_after {P : Task → Desk → Prop}
    (hsteps : ∀ {t t' d d' worker}, d'.board.cancelled = false → P t d →
      t.step a file path worker d = some (t', d') → P t' d')
    (h : P t d) (hrun : t.after a file path d schedule = some (t', d'))
    (hcalm : d'.board.cancelled = false) : P t' d' := by
  induction schedule generalizing t d with
  | nil =>
    obtain ⟨rfl, rfl⟩ := Prod.mk.inj (Option.some.inj hrun)
    exact h
  | cons worker schedule ih =>
    obtain ⟨⟨next, desk⟩, hstep, hrest⟩ := Option.bind_eq_some_iff.1 hrun
    exact ih (hsteps ((later_after hrest).not_cancelled hcalm) h hstep) hrest

/-- What has arrived at the posts and what the task owes are the lines of a chunk. -/
structure Delivers (a : Audience) (file : Nat) (chunk : List UInt8) (t : Task) (d : Desk) :
    Prop where
  sound : t.Sound
  success : d.tally.success.length = a.sinks
  conserved : ∀ post : Post, post.Valid a →
    d.arrived file post + t.owes post = (logicalLines chunk).countP post.counts

/-- At the start all posts of a chunk are to come. -/
theorem delivers_start (batchLines : Nat) (chunk : List UInt8) :
    Delivers a file chunk (start batchLines chunk) (.blank a.sinks) where
  sound := sound_start batchLines chunk
  success := List.length_replicate
  conserved := by
    intro post hpost
    have hnothing : (Desk.blank a.sinks).arrived file post = 0 := by
      cases post with
      | counter => rfl
      | sink number kind => rfl
      | success number kind => simp [Desk.arrived, Post.arrived, Desk.blank, Tally.zero, hpost.1]
    rw [hnothing, owes_start, Nat.zero_add]

/-- A step of a worker keeps the posts of a chunk. -/
theorem Delivers.step {chunk : List UInt8} {worker : Nat} (h : Delivers a file chunk t d)
    (hsteady : a.Steady) (hcalm : d'.board.cancelled = false)
    (hstep : t.step a file path worker d = some (t', d')) : Delivers a file chunk t' d' where
  sound := sound_step ((within_step hstep).later.not_cancelled hcalm) h.sound hstep
  success := (within_step hstep).success.trans h.success
  conserved := fun post hpost =>
    (step_conserves hpost hsteady ((within_step hstep).later.not_cancelled hcalm) h.success
      hstep).trans (h.conserved post hpost)

/-- In some order of their steps all workers on a chunk have ended and left a desk like this, and
the run is not cancelled. -/
def Completes (a : Audience) (file : Nat) (path : String) (batchLines : Nat) (chunk : List UInt8)
    (d : Desk) : Prop :=
  ∃ schedule t, (start batchLines chunk).after a file path (.blank a.sinks) schedule = some (t, d) ∧
    t.finished = true ∧ d.board.cancelled = false

/-- Letting the first worker go on that can is one of the orders. -/
theorem exists_after_finish (t : Task) (d : Desk) :
    ∃ schedule, t.after a file path d schedule = some (t.finish a file path d) := by
  fun_induction finish a file path t d with
  | case1 t d hnext => exact ⟨[], rfl⟩
  | case2 t d worker hnext hstep => exact ⟨[], rfl⟩
  | case3 t d worker hnext t' d' hstep ih =>
    obtain ⟨schedule, hafter⟩ := ih
    exact ⟨worker :: schedule, Option.bind_eq_some_iff.2 ⟨_, hstep, hafter⟩⟩

/-- In that order all workers come to their end. -/
theorem finished_finish (t : Task) (d : Desk) : (t.finish a file path d).1.finished = true := by
  fun_induction finish a file path t d with
  | case1 t d hnext =>
    rw [finished, List.all_eq_true]
    simpa [next?] using hnext
  | case2 t d worker hnext hstep =>
    obtain ⟨hworker, hended, -⟩ := List.findIdx?_eq_some_iff_getElem.1 hnext
    rw [step, List.getElem?_eq_getElem hworker] at hstep
    split at hstep <;> simp_all
  | case3 t d worker hnext t' d' hstep ih => exact ih

/-- A chunk that is run to the end is delivered completely. -/
theorem completes_finish {batchLines : Nat} {chunk : List UInt8}
    (hcalm : ((start batchLines chunk).finish a file path (.blank a.sinks)).2.board.cancelled =
      false) :
    Completes a file path batchLines chunk
      ((start batchLines chunk).finish a file path (.blank a.sinks)).2 := by
  obtain ⟨schedule, hafter⟩ :=
    @exists_after_finish a file path (start batchLines chunk) (.blank a.sinks)
  exact ⟨schedule, _, hafter, finished_finish _ _, hcalm⟩

/-- When all workers on a chunk have ended, every sink was fed its lines. -/
theorem Completes.fed_perm {batchLines : Nat} {chunk : List UInt8}
    (hcompletes : Completes a file path batchLines chunk d) (hsteady : a.Steady) {sink : Nat}
    (hsink : sink < a.sinks) : (d.board.fed file sink).Perm (logicalLines chunk) := by
  obtain ⟨schedule, t, hrun, hfinished, hcalm⟩ := hcompletes
  have h : Delivers a file chunk t d :=
    preserved_after (fun hcalm h hstep => h.step hsteady hcalm hstep)
      (delivers_start batchLines chunk) hrun hcalm
  rw [List.perm_iff_count]
  intro line
  have hconserved := h.conserved (.sink sink (· == line)) hsink
  rwa [owes_of_finished h.sound hfinished, Nat.add_zero] at hconserved

end Task

end LogAudit.Ingest
