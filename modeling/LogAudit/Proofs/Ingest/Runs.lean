import LogAudit.Proofs.Ingest.Reports
import LogAudit.Proofs.Ingest.Threads

/-!
# Runs lose no lines

In every run that is not cancelled and in which no sink breaks off, and in whatever order its
threads take their steps, each sink is fed exactly the lines of every file that is admitted, and the
reports count them (`State.no_line_lost`). Neither the limits nor the other files of the run make a
difference to that.
-/

namespace LogAudit.Ingest

/-- The paths of the files that have no thread yet. -/
def Main.rest : Main → List String
  | looking paths => paths
  | waiting path paths | starting path paths => path :: paths
  | joining | done _ => []

namespace State

/-- Every thread is where it should be, and nothing is known of the files without one. -/
structure Good (x : Setup) (paths : List String) (s : State) : Prop where
  threads : ∀ (i : Nat) (t : Thread), s.threads[i]? = some t →
    t.Fits x (s.board.eventsOf i) (s.board.reportsOf i)
  unborn : ∀ i : Nat, s.threads.length ≤ i → s.board.eventsOf i = [] ∧ s.board.reportsOf i = []
  paths : s.threads.map Thread.path ++ s.main.rest = paths
  ended : s.finished = true → ∀ t ∈ s.threads, t.stage = .ended

variable {x : Setup} {paths : List String} {s s' : State}

theorem good_start (cancelled : Bool) : (start x cancelled paths).Good x paths where
  threads := by
    intro i t ht
    exact absurd ht (by simp [start])
  unborn := fun _ _ => ⟨rfl, rfl⟩
  paths := rfl
  ended := by
    intro hfinished
    exact absurd hfinished (by simp [start, finished])

/-- A new thread is where it should be. -/
theorem Good.spawn {path : String} {pending : List String} {threads : List Thread} {board : Board}
    (h : (State.mk (.starting path pending) threads board).Good x paths) (files : Resource.Gate) :
    (State.mk (.looking pending) (threads ++ [.start path x.audience.sinks])
      { board with files }).Good x paths := by
  refine ⟨?_, ?_, ?_, fun hfinished => absurd hfinished (by simp [finished])⟩
  · intro i t ht
    rcases Nat.lt_trichotomy i threads.length with hlt | rfl | hgt
    · rw [List.getElem?_append_left hlt] at ht
      exact h.threads i t ht
    · rw [List.getElem?_concat_length] at ht
      obtain rfl := Option.some.inj ht
      obtain ⟨hevents, hreports⟩ := h.unborn threads.length (Nat.le_refl _)
      have hfits := @Thread.fits_start x path
      rwa [← hevents, ← hreports] at hfits
    · rw [List.getElem?_eq_none (by simpa using Nat.succ_le_of_lt hgt)] at ht
      exact absurd ht (by simp)
  · intro i hi
    rw [List.length_append, List.length_singleton] at hi
    exact h.unborn i (Nat.le_of_succ_le hi)
  · rw [← h.paths]
    simp [Main.rest, Thread.start]

/-- A step of the main thread keeps a run good that is not cancelled. -/
theorem Good.advance (h : s.Good x paths) (hcalm : s.board.cancelled = false)
    (hstep : s.advance x = some s') : s'.Good x paths := by
  obtain ⟨main, threads, board⟩ := s
  replace hcalm : board.cancelled = false := hcalm
  unfold State.advance at hstep
  cases main with
  | looking pending =>
    cases pending with
    | nil =>
      obtain rfl := Option.some.inj hstep
      exact ⟨h.threads, h.unborn, h.paths, fun hfinished => absurd hfinished (by simp [finished])⟩
    | cons path pending =>
      simp only [hcalm, Bool.false_eq_true, if_false] at hstep
      obtain rfl := Option.some.inj hstep
      exact ⟨h.threads, h.unborn, h.paths, fun hfinished => absurd hfinished (by simp [finished])⟩
  | waiting path pending =>
    obtain ⟨files, -, rfl⟩ := Option.map_eq_some_iff.1 hstep
    exact ⟨h.threads, h.unborn, h.paths, fun hfinished => absurd hfinished (by simp [finished])⟩
  | starting path pending =>
    obtain rfl := Option.some.inj hstep
    exact h.spawn board.files.mark
  | joining =>
    simp only at hstep
    split at hstep
    · rename_i hall
      obtain rfl := Option.some.inj hstep
      refine ⟨h.threads, h.unborn, h.paths, fun _ t ht => ?_⟩
      simpa using List.all_eq_true.1 hall t ht
    · exact absurd hstep (by simp)
  | done cancelled => exact absurd hstep (by simp)

/-- Whatever happens in the thread of a file keeps a run good that is not cancelled. -/
theorem Good.stepFile (h : s.Good x paths) (hsteady : x.audience.Steady)
    (hcalm : s.board.cancelled = false) {number : Nat} {m : Thread.Move}
    (hstep : s.stepFile x number m = some s') : s'.Good x paths := by
  unfold State.stepFile at hstep
  split at hstep
  · exact absurd hstep (by simp)
  rename_i t ht
  obtain ⟨⟨t', board⟩, hthread, rfl⟩ := Option.map_eq_some_iff.1 hstep
  obtain ⟨hnumber, hget⟩ := List.getElem?_eq_some_iff.1 ht
  have hapart := Thread.apart_step hthread
  refine ⟨?_, ?_, ?_, ?_⟩
  · intro i other hother
    rw [List.getElem?_set] at hother
    split at hother
    · rename_i hi
      subst hi
      obtain rfl := Option.some.inj hother
      exact (h.threads number t ht).step hsteady hcalm hthread
    · rename_i hi
      have hsame := hapart.others i (Ne.symm hi)
      rw [hsame.events, hsame.reports]
      exact h.threads i other hother
  · intro i hi
    rw [List.length_set] at hi
    have hsame := hapart.others i (by omega)
    rw [hsame.events, hsame.reports]
    exact h.unborn i hi
  · rw [← h.paths, List.map_set, hapart.path, ← List.map_set, ← hget, List.set_getElem_self]
  · intro hfinished
    have hended := h.ended hfinished t (List.mem_of_getElem? ht)
    rw [(h.threads number t ht).step_eq_none hended m] at hthread
    exact absurd hthread (by simp)

/-- The main thread does not touch the flag. -/
theorem cancelled_advance (hstep : s.advance x = some s') :
    s'.board.cancelled = s.board.cancelled := by
  unfold State.advance at hstep
  split at hstep
  · exact Option.some.inj hstep ▸ rfl
  · exact Option.some.inj hstep ▸ rfl
  · obtain ⟨files, -, rfl⟩ := Option.map_eq_some_iff.1 hstep
    rfl
  · exact Option.some.inj hstep ▸ rfl
  · split at hstep
    · exact Option.some.inj hstep ▸ rfl
    · exact absurd hstep (by simp)
  · exact absurd hstep (by simp)

/-- A run that is cancelled stays so. -/
theorem later_act {action : Action} (hact : s.act x action = some s') :
    s.board.Later s'.board := by
  intro hcancelled
  rcases action with (_ | ⟨number, m⟩) | _
  · exact (cancelled_advance hact).trans hcancelled
  · simp only [act, step, State.stepFile] at hact
    split at hact
    · exact absurd hact (by simp)
    · obtain ⟨⟨t', board⟩, hthread, rfl⟩ := Option.map_eq_some_iff.1 hact
      exact (Thread.apart_step hthread).later hcancelled
  · exact Option.some.inj hact ▸ rfl

theorem later_after {schedule : List Action} (hafter : s.after x schedule = some s') :
    s.board.Later s'.board := by
  induction schedule generalizing s with
  | nil => exact Option.some.inj hafter ▸ id
  | cons action schedule ih =>
    obtain ⟨next, hact, hnext⟩ := Option.bind_eq_some_iff.1 hafter
    exact fun hcancelled => ih hnext (later_act hact hcancelled)

/-- What every step of a run that is not cancelled preserves holds of all that comes after it. -/
theorem preserved_after {P : State → Prop}
    (hadvance : ∀ {s s'}, P s → s.board.cancelled = false → s.advance x = some s' → P s')
    (hfile : ∀ {s s' number m}, P s → s.board.cancelled = false →
      s.stepFile x number m = some s' → P s') {schedule : List Action} (h : P s)
    (hafter : s.after x schedule = some s') (hcalm : s'.board.cancelled = false) : P s' := by
  induction schedule generalizing s with
  | nil => exact Option.some.inj hafter ▸ h
  | cons action schedule ih =>
    obtain ⟨next, hact, hnext⟩ := Option.bind_eq_some_iff.1 hafter
    have hstill : next.board.cancelled = false := (later_after hnext).not_cancelled hcalm
    have hbefore : s.board.cancelled = false := (later_act hact).not_cancelled hstill
    rcases action with (_ | ⟨number, m⟩) | _
    · exact ih (hadvance h hbefore hact) hnext
    · exact ih (hfile h hbefore hact) hnext
    · obtain rfl := Option.some.inj hact
      exact absurd hstill (by simp)

/-- A run stays good as long as it is not cancelled. -/
theorem Good.after (hsteady : x.audience.Steady) {schedule : List Action} (h : s.Good x paths)
    (hafter : s.after x schedule = some s') (hcalm : s'.board.cancelled = false) :
    s'.Good x paths :=
  preserved_after (fun h hcalm hstep => h.advance hcalm hstep)
    (fun h hcalm hstep => h.stepFile hsteady hcalm hstep) h hafter hcalm

/-- Going on with the threads of files first is one of the ways to go on. -/
theorem exists_after_finish (s : State) : ∃ schedule, s.after x schedule = some (s.finish x) := by
  fun_induction finish x s with
  | case1 s hnext => exact ⟨[], rfl⟩
  | case2 s move hnext hstep => exact ⟨[], rfl⟩
  | case3 s move hnext s' hstep ih =>
    obtain ⟨schedule, hafter⟩ := ih
    exact ⟨.move move :: schedule, Option.bind_eq_some_iff.2 ⟨s', hstep, hafter⟩⟩

/-! ## What a finished run has delivered -/

/-- Each sink was fed these lines of the file with a number, in some order, and the report on the
file counts them, and for a sink that answers by the line only those that it accepts. -/
structure Delivered (x : Setup) (s : State) (number : Nat) (path : String) (lines : List String) :
    Prop where
  fed : ∀ sink, sink < x.audience.sinks → (s.board.fed number sink).Perm lines
  reported : ∃ report, s.result.files[number]? = some report ∧ report.path = path ∧
    report.error = none ∧ report.totalLines = lines.length ∧
    report.successLines.length = x.audience.sinks ∧
    ∀ sink kind, sink < x.audience.sinks → x.audience.Accepts sink kind →
      report.successLines[sink]? = some (lines.countP kind)

/-- No files are left to be started when a run is over. -/
theorem rest_of_finished (hfinished : s.finished = true) : s.main.rest = [] := by
  unfold finished at hfinished
  split at hfinished
  · rename_i hmain
    rw [hmain, Main.rest]
  · exact absurd hfinished (by simp)

/-- A finished run has a thread for every file, and each of them has ended. -/
theorem Good.thread (h : s.Good x paths) (hfinished : s.finished = true) {number : Nat}
    {path : String} (hpath : paths[number]? = some path) :
    ∃ t, s.threads[number]? = some t ∧ t.path = path ∧ t.stage = .ended := by
  rw [← h.paths, rest_of_finished hfinished, List.append_nil, List.getElem?_map] at hpath
  obtain ⟨t, ht, rfl⟩ := Option.map_eq_some_iff.1 hpath
  exact ⟨t, ht, rfl, h.ended hfinished t (List.mem_of_getElem? ht)⟩

/-- When a run has finished, there is one report on each file with a thread. -/
theorem Good.length_reports (h : s.Good x paths) (hfinished : s.finished = true) (file : Nat) :
    (s.board.reportsOf file).length = if file < s.threads.length then 1 else 0 := by
  split
  · rename_i hfile
    have ht := List.getElem?_eq_getElem hfile
    exact (h.threads file _ ht).length_reports (h.ended hfinished _ (List.getElem_mem hfile))
  · rename_i hfile
    rw [(h.unborn file (Nat.le_of_not_lt hfile)).2, List.length_nil]

/-- No line is lost, given twice or split: whatever the limits and the order of the steps, when a
run is over without having been cancelled and no sink breaks off, every sink was fed the lines of
the whole content of each file that was admitted, and the reports count them. -/
theorem no_line_lost {schedule : List Action} {number : Nat} {path : String}
    {content : List UInt8} (hsteady : x.audience.Steady)
    (hrun : (start x false paths).after x schedule = some s) (hfinished : s.finished = true)
    (hcalm : s.board.cancelled = false) (hpath : paths[number]? = some path)
    (hadmitted : x.admitted path (s.board.answers number) = .ok content) :
    s.Delivered x number path (logicalLines content) := by
  have hgood := (good_start false).after hsteady hrun hcalm
  obtain ⟨t, ht, rfl, hended⟩ := hgood.thread hfinished hpath
  have hfits := hgood.threads number t ht
  obtain ⟨hreports, harrived⟩ := hfits.arrived_of_ended hended hadmitted
  refine ⟨?_, t.report none, getElem?_reports (hgood.length_reports hfinished) hreports, rfl, rfl,
    ?_, hfits.success, ?_⟩
  · intro sink hsink
    rw [List.perm_iff_count]
    intro line
    exact harrived (.sink sink (· == line)) hsink
  · exact (harrived .counter trivial).trans (congrFun List.countP_true _)
  · intro sink kind hsink haccepts
    have hsuccess := harrived (.success sink kind) ⟨hsink, haccepts⟩
    have hlength : sink < t.tally.success.length := hfits.success ▸ hsink
    simp only [Post.arrived, List.getElem?_eq_getElem hlength, Option.getD_some] at hsuccess
    simp only [Thread.report, List.getElem?_eq_getElem hlength, hsuccess]
    rfl

/-- Two files of the same content, read byte by byte, and a sink that refuses one of their lines. -/
def twoFiles : Setup where
  limits := { Limits.default with
    maxConcurrentFiles := 2, chunkWorkers := 4, chunkSizeBytes := 1, batchLines := 2 }
  chunkWorkers := 1
  source := fun _ => .ok (.file [112, 13, 10, 9, 113, 10, 114])
  audience := .ofSinks .all
    [.all, ⟨fun line => if line = "r" then .error (.refused (.other line)) else .ok (),
      fun _ => false⟩]

/-- Both files are started, and from then on their threads take their steps by turns, as do the
tasks of each thread. -/
def byTurns : List Action :=
  let reading := List.replicate 15 Thread.Move.own
  let working := (List.replicate 12 [Thread.Move.work 0 0, .work 1 0]).flatten
  let ending := [Thread.Move.work 0 0, .work 0 0, .retire 1, .retire 0, .own, .own, .own]
  List.replicate 7 (.move .main) ++
    (reading ++ working ++ ending).flatMap (fun m => [.move (.file 0 m), .move (.file 1 m)]) ++
      [.move .main]

/-- The continuation in the file stays with its line, although every chunk was asked to be a
byte. -/
theorem no_line_lost_byTurns : ∃ s, (start twoFiles false ["a", "b"]).after twoFiles byTurns =
    some s ∧ s.Delivered twoFiles 1 "b" ["p\tq", "r"] := by
  have hsteady : twoFiles.audience.Steady := by
    apply Audience.steady_ofSinks
    intro s hs line payload
    rcases List.mem_cons.1 hs with rfl | hs
    · exact fun h => nomatch h
    · obtain rfl := List.mem_singleton.1 hs
      dsimp only
      split <;> simp
  obtain ⟨s, hrun⟩ : ∃ s, (start twoFiles false ["a", "b"]).after twoFiles byTurns = some s :=
    Option.isSome_iff_exists.1 (by decide +kernel)
  have hend : ((start twoFiles false ["a", "b"]).after twoFiles byTurns).map (fun s =>
      (s.finished, s.board.cancelled, s.board.answers 1)) =
      some (true, false, [none, none, none]) := by decide +kernel
  have hlines : logicalLines [112, 13, 10, 9, 113, 10, 114] = ["p\tq", "r"] := by decide +kernel
  rw [hrun, Option.map_some, Option.some.injEq, Prod.mk.injEq, Prod.mk.injEq] at hend
  obtain ⟨hfinished, hcalm, hanswers⟩ := hend
  have hadmitted : twoFiles.admitted "b" (s.board.answers 1) =
      .ok [112, 13, 10, 9, 113, 10, 114] := by
    rw [hanswers]
    rfl
  exact ⟨s, hrun, hlines ▸ no_line_lost hsteady hrun hfinished hcalm rfl hadmitted⟩

end State

end LogAudit.Ingest
