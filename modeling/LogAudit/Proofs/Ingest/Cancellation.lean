import LogAudit.Proofs.Ingest.Containment
import LogAudit.Proofs.Ingest.SingleBatch

/-!
# Cancellation

A run may be cancelled at any moment: before it starts, by the validator or a sink on any line, or
from outside. From then on no line is begun, and those that were begun are given to all sinks; so
when the run is over, every sink has got the lines that were begun or delivered at that moment, and
the report counts them (`State.cut_cleanly`).
-/

namespace LogAudit.Ingest

/-! ## A sink that was just asked -/

/-- When a sink is asked in the thread of a file, a worker of the thread has just asked it. -/
theorem Thread.justAsked_of_moves {x : Setup} (hsteady : x.audience.Steady) {file : Nat}
    {t t' : Thread} {b b' : Board} {happening : Happening}
    (hmoves : t.Moves x file b happening t' b') {e : Event} {sink : Nat}
    (hparty : e.party = .sink sink) (hevents : b'.eventsOf file = e :: b.eventsOf file) :
    t'.JustAsked sink e.line ∧ sink < x.audience.sinks := by
  have hnew : b'.eventsOf file ≠ b.eventsOf file := by
    rw [hevents]
    exact List.cons_ne_self e _
  cases hmoves with
  | suffer hreading hsuffer =>
    obtain ⟨-, stage, chunks, -, -, rfl⟩ := suffer_cases hreading hsuffer
    exact absurd rfl hnew
  | step hstep =>
    rcases step_cases hstep with hown | ⟨task, worker, k, k', d, hk, hwork, rfl, rfl⟩ |
      ⟨task, k, -, -, -, rfl⟩
    · rcases own_cases hown with ⟨stage, -, heffect⟩ | ⟨chunk, r, -, rfl⟩
      · cases heffect with
        | ask line =>
          rw [Board.eventsOf_ask] at hevents
          obtain ⟨rfl, -⟩ := List.cons.inj hevents
          exact absurd hparty nofun
        | _ => exact absurd rfl hnew
      · exact absurd rfl hnew
    · rcases Task.step_cases hwork with ⟨-, rfl, -⟩ | ⟨w, hw, -, -, rfl, rfl⟩
      · exact absurd rfl hnew
      · have hadvance := @Worker.advance_step x.audience file t.path ⟨b, t.tally⟩ hsteady w
        generalize w.step x.audience file t.path ⟨b, t.tally⟩ = stepped at hadvance hevents hnew ⊢
        obtain ⟨w', d'⟩ := stepped
        generalize hpage : d'.board.page file = p' at hadvance
        have hsame := congrArg Page.events hpage
        cases hadvance with
        | rest => exact absurd hsame hnew
        | begin => exact absurd hsame hnew
        | deliver => exact absurd hsame hnew
        | ask hasked hbefore hafter hcoming =>
          obtain ⟨rfl, -⟩ := List.cons.inj (hevents.symm.trans hsame)
          obtain rfl := Party.sink.inj hparty
          refine ⟨⟨_, List.mem_set (List.getElem?_eq_some_iff.1 hk).1 _, w', ?_, hafter⟩, hasked⟩
          exact List.mem_set (List.getElem?_eq_some_iff.1 hw).1 _
    · exact absurd rfl hnew

namespace State

variable {x : Setup} {paths : List String} {s s' : State}

/-- When a sink is asked in a run, a worker on the file has just asked it. -/
theorem justAsked_of_step (hsteady : x.audience.Steady) {m : Move} (hstep : s.step x m = some s')
    {e : Event} {sink : Nat} (hparty : e.party = .sink sink)
    (hevents : s'.board.events = e :: s.board.events) :
    (∃ t, s'.threads[e.file]? = some t ∧ t.JustAsked sink e.line) ∧ sink < x.audience.sinks ∧
      s'.board.fed e.file sink = e.line :: s.board.fed e.file sink := by
  have hfile : s'.board.eventsOf e.file = e :: s.board.eventsOf e.file := by
    rw [Board.eventsOf, hevents, List.filter_cons_of_pos (by simp), ← Board.eventsOf]
  have hfed : s'.board.fed e.file sink = e.line :: s.board.fed e.file sink := by
    rw [Board.fed, hfile, linesTo, List.filter_cons_of_pos (by simp [hparty])]
    rfl
  have hpasses : Passes x s (.action (.move m)) s' := passes_meet trivial hstep
  generalize hhappening : Happening.action (.move m) = happening at hpasses
  cases hpasses with
  | cancel => exact absurd hevents.symm (List.cons_ne_self e _)
  | main hrest => exact absurd hevents.symm (List.cons_ne_self e _)
  | spawn hmain => exact absurd hevents.symm (List.cons_ne_self e _)
  | @thread number t t' board _ ht hmoves =>
    by_cases hnumber : e.file = number
    · subst hnumber
      obtain ⟨hasked, hsink⟩ := Thread.justAsked_of_moves hsteady hmoves hparty hfile
      exact ⟨⟨t', List.getElem?_set_self (List.getElem?_eq_some_iff.1 ht).1, hasked⟩, hsink, hfed⟩
    · have hsame := congrArg Page.events (hmoves.page_of_ne hnumber)
      exact absurd (hfile.symm.trans hsame) (List.cons_ne_self e _)

/-! ## The end of a cancelled run -/

/-- The run is cancelled, and the main thread has not taken it for one that is not. -/
def Flagged (s : State) : Prop := s.board.cancelled = true ∧ ∀ flag, s.main = .done flag → flag

theorem Flagged.meet {happening : Happening} (horderly : happening.Orderly) (h : s.Flagged)
    (hmeet : s.meet x happening = some s') : s'.Flagged := by
  refine ⟨(passes_meet horderly hmeet).later h.1, ?_⟩
  obtain ⟨hcancelled, hdone⟩ := h
  rcases happening with ((_ | ⟨number, m⟩) | _) | (_ | ⟨number, mishap⟩)
  · simp only [State.meet, act, State.step, advance] at hmeet
    split at hmeet
    · obtain rfl := Option.some.inj hmeet
      rintro flag ⟨⟩
    · rw [hcancelled] at hmeet
      obtain rfl := Option.some.inj hmeet
      rintro flag ⟨⟩
    · obtain ⟨files, -, rfl⟩ := Option.map_eq_some_iff.1 hmeet
      rintro flag ⟨⟩
    · obtain rfl := Option.some.inj hmeet
      rintro flag ⟨⟩
    · split at hmeet
      · obtain rfl := Option.some.inj hmeet
        rintro flag hflag
        obtain rfl := Main.done.inj hflag
        exact hcancelled
      · cases hmeet
    · cases hmeet
  · simp only [State.meet, act, State.step, stepFile] at hmeet
    split at hmeet
    · cases hmeet
    · obtain ⟨_, -, rfl⟩ := Option.map_eq_some_iff.1 hmeet
      exact hdone
  · exact Option.some.inj hmeet ▸ hdone
  · exact absurd horderly id
  · simp only [State.meet, State.suffer] at hmeet
    split at hmeet
    · cases hmeet
    · obtain ⟨_, -, rfl⟩ := Option.map_eq_some_iff.1 hmeet
      exact hdone

/-- When a run is over that was cancelled before that, its result tells so. -/
theorem Flagged.result (h : s.Flagged) (hfinished : s.finished = true) :
    s.result.cancelled = true := by
  unfold finished at hfinished
  split at hfinished
  · rename_i flag hmain
    rw [State.result, hmain, h.2 flag hmain]
    rfl
  · cases hfinished

/-- The run was cancelled before it started, and nothing has happened. -/
structure Untouched (x : Setup) (paths : List String) (s : State) : Prop where
  threads : s.threads = []
  board : s.board = (start x true paths).board
  notWaiting : ∀ path pending, s.main ≠ .waiting path pending
  notStarting : ∀ path pending, s.main ≠ .starting path pending

theorem untouched_start : (start x true paths).Untouched x paths where
  threads := rfl
  board := rfl
  notWaiting := by rintro path pending ⟨⟩
  notStarting := by rintro path pending ⟨⟩

theorem Untouched.meet {happening : Happening} (h : s.Untouched x paths)
    (hmeet : s.meet x happening = some s') : s'.Untouched x paths := by
  obtain ⟨main, threads, board⟩ := s
  obtain ⟨hthreads, hboard, hwaiting, hstarting⟩ := h
  obtain rfl : threads = [] := hthreads
  obtain rfl : board = (start x true paths).board := hboard
  rcases happening with ((_ | ⟨number, m⟩) | _) | (_ | ⟨number, mishap⟩)
  · cases main with
    | looking pending => cases pending <;> exact Option.some.inj hmeet ▸ ⟨rfl, rfl, nofun, nofun⟩
    | waiting path pending => exact absurd rfl (hwaiting path pending)
    | starting path pending => exact absurd rfl (hstarting path pending)
    | joining => exact Option.some.inj hmeet ▸ ⟨rfl, rfl, nofun, nofun⟩
    | done flag => cases hmeet
  · cases hmeet
  · exact Option.some.inj hmeet ▸ ⟨rfl, rfl, hwaiting, hstarting⟩
  · cases main with
    | starting path pending => exact absurd rfl (hstarting path pending)
    | _ => cases hmeet
  · cases hmeet

/-- A balanced run can be brought to its end. -/
theorem Balanced.exists_finished {s : State} (h : s.Balanced x) :
    ∃ schedule s', s.after x schedule = some s' ∧ s'.finished = true := by
  cases hfinished : s.finished with
  | true => exact ⟨[], s, rfl, hfinished⟩
  | false =>
    obtain ⟨m, hsome⟩ := h.exists_step (Or.inl hfinished)
    obtain ⟨next, hstep⟩ := Option.isSome_iff_exists.1 hsome
    have hkept : next.Balanced x := @Balanced.act x s next h (.move m) hstep
    obtain ⟨schedule, s', hafter, hend⟩ := hkept.exists_finished
    exact ⟨.move m :: schedule, s', Option.bind_eq_some_iff.2 ⟨next, hstep, hafter⟩, hend⟩
termination_by s.left x.audience.sinks
decreasing_by exact step_left hstep

/-- A run over files that was cancelled at a moment or before that, and then came to its end with
what happened in a history, was cut cleanly. -/
structure CutCleanly (x : Setup) (paths : List String) (cancelled : Bool)
    (history : List Happening) (moment s : State) : Prop where
  /-- Each sink was fed the lines of a file that were begun or delivered at that moment, and no
  others. -/
  fed : ∀ file, ∀ sink < x.audience.sinks,
    (s.board.fed file sink).Perm (moment.dispatched file)
  /-- The report on a file counts these lines, -/
  counted : ∀ file report, s.result.files[file]? = some report →
    report.totalLines = (moment.dispatched file).length
  /-- Of all files together each sink was fed the same lines, -/
  fedAll : ∀ sink < x.audience.sinks, (linesTo sink s.board.events).Perm
    ((List.range paths.length).flatMap moment.dispatched)
  /-- and the report on the run counts them. -/
  total : ∀ elapsed, (s.result.report x.audience.sinks elapsed).totalLines =
    ((List.range paths.length).flatMap moment.dispatched).length
  /-- There are runs that nobody cancels, -/
  uncancelled : ∃ other, x.Uncancelled paths other
  /-- and each of them feeds these lines of a file, too, if the validator answers alike. -/
  contained : ∀ other, x.Uncancelled paths other → ∀ file,
    (∃ verdict, x.audience.ByLine verdict) ∨
      Alike (s.board.answers file) (other.board.answers file) →
    ∀ sink < x.audience.sinks, (s.board.fed file sink).Subperm (other.board.fed file sink)
  /-- So it is with all files together. -/
  containedAll : ∀ other, x.Uncancelled paths other →
    ((∃ verdict, x.audience.ByLine verdict) ∨
      ∀ file, Alike (s.board.answers file) (other.board.answers file)) →
    ∀ sink < x.audience.sinks,
      (linesTo sink s.board.events).Subperm (linesTo sink other.board.events)
  /-- No file is refused for a sample that was cut short. -/
  refused : ∀ file report text, s.result.files[file]? = some report → report.error = some text →
    ∃ error, error.message = text ∧
      x.Refuses report.path (FailsIn history file) (s.board.eventsOf file) error
  /-- The report tells that the run was cancelled. -/
  told : ∀ elapsed, (s.result.report x.audience.sinks elapsed).cancelled = true
  /-- Of a file of one batch all sinks were fed the same first lines in order. -/
  inOrder : ∀ file path content, paths[file]? = some path → x.open? path = .ok content →
    x.OneBatch content → ∃ started, started <+: logicalLines content ∧
      ∀ sink < x.audience.sinks, (s.board.fed file sink).reverse = started
  /-- If a sink was asked last before that moment, the line that it was asked about is the last
  one. -/
  upTo : ∀ (before : State) (m : Move) (e : Event) (sink : Nat) (path : String)
    (content : List UInt8), before.step x m = some moment →
    moment.board.events = e :: before.board.events → e.party = .sink sink →
    paths[e.file]? = some path → x.open? path = .ok content → x.OneBatch content →
    (before.board.fed e.file sink).reverse ++ [e.line] <+: logicalLines content ∧
      ∀ other < x.audience.sinks, (s.board.fed e.file other).reverse =
        (before.board.fed e.file sink).reverse ++ [e.line]
  /-- If the run was cancelled before it started, nothing was done. -/
  nothing : cancelled = true → s.result = ⟨[], [], [], [], true⟩ ∧ s.board.events = []

section Cut

variable {cancelled : Bool} {history before after : List Happening} {moment : State}

/-- The lines of a file of one batch that were started are the first ones, at any moment. -/
theorem inOrder_afterAll (hsteady : x.audience.Steady)
    (horderly : ∀ happening ∈ history, happening.Orderly)
    (hafter : (start x cancelled paths).afterAll x history = some s) {file : Nat} {t : Thread}
    {content : List UInt8} (ht : s.threads[file]? = some t) (hopen : x.open? t.path = .ok content)
    (hone : x.OneBatch content) :
    ∃ started, t.InOrder x.audience.sinks (logicalLines content) (s.board.eventsOf file)
      (s.board.deliveriesOf file) started := by
  have h : s.Paged fun _ t p => ∀ content, x.open? t.path = .ok content → x.OneBatch content →
      t.InTurn x content p.events p.deliveries :=
    paged_afterAll (fun _ path content _ _ => Thread.inTurn_start x path content)
      (fun hsettled hmoves h content hopen hone => by
        rw [hmoves.apart.path] at hopen
        exact (h content hopen hone).moves hsteady hopen hone hsettled hmoves) horderly hafter
  exact (h.threads file t ht content hopen hone).inOrder

/-- When a run is over, each sink was fed all lines of a file of one batch that were started. -/
theorem fed_of_inOrder (hbalanced : s.Balanced x) (hfinished : s.finished = true) {file : Nat}
    {t : Thread} {lines started : List String} (ht : s.threads[file]? = some t)
    (h : t.InOrder x.audience.sinks lines (s.board.eventsOf file) (s.board.deliveriesOf file)
      started) : ∀ sink < x.audience.sinks, (s.board.fed file sink).reverse = started := by
  have hnone := hbalanced.tasks_of_finished hfinished (List.mem_of_getElem? ht)
  cases h with
  | task htasks => exact absurd (hnone.symm.trans htasks) nofun
  | retired htasks hfed => exact hfed

/-- When a run is over, a file was refused for one of the reasons that have nothing to do with the
cancellation. -/
theorem refused_of_gated (hbooks : s.Books x paths) (hfinished : s.finished = true)
    (hgated : s.Paged fun file t p => (∃ fault, t.Told fault p.reports) ∧
      t.Gated x (FailsIn history file) s.board.cancelled p)
    {file : Nat} {report : FileReport} {text : String}
    (hreport : s.reports[file]? = some report) (herror : report.error = some text) :
    ∃ error : Error, error.message = text ∧
      x.Refuses report.path (FailsIn history file) (s.board.eventsOf file) error := by
  obtain ⟨t, -, ht, -⟩ := hbooks.getElem?_reports hfinished hreport
  obtain ⟨-, h⟩ := hgated.threads file t ht
  rw [Thread.Gated, hbooks.balanced.ended hfinished t (List.mem_of_getElem? ht)] at h
  obtain ⟨fault, hreports, hjudged⟩ := h
  have hfound := State.getElem?_reports (hbooks.length_reportsOf hfinished) hreports
  obtain rfl := Option.some.inj (hfound.symm.trans hreport)
  obtain ⟨error, rfl, hmessage⟩ := Option.map_eq_some_iff.1 herror
  exact ⟨error, hmessage, hjudged.1⟩

/-- When a run is over, all sinks were fed the same first lines of a file of one batch, in order. -/
theorem fed_inOrder (hsteady : x.audience.Steady)
    (horderly : ∀ happening ∈ history, happening.Orderly)
    (hafter : (start x cancelled paths).afterAll x history = some s) (hfinished : s.finished = true)
    {file : Nat} {path : String} {content : List UInt8} (hpath : paths[file]? = some path)
    (hopen : x.open? path = .ok content) (hone : x.OneBatch content) :
    ∃ started, started <+: logicalLines content ∧
      ∀ sink < x.audience.sinks, (s.board.fed file sink).reverse = started := by
  have hbooks := books_afterAll horderly hafter
  cases ht : s.threads[file]? with
  | none =>
    have hnone : s.board.eventsOf file = [] :=
      congrArg Page.events (hbooks.paged.unborn file (List.getElem?_eq_none_iff.1 ht))
    refine ⟨[], List.nil_prefix, fun sink _ => ?_⟩
    rw [Board.fed, hnone]
    rfl
  | some t =>
    obtain rfl := Option.some.inj (hpath.symm.trans (hbooks.named.getElem?_paths ht))
    obtain ⟨started, hin⟩ := inOrder_afterAll hsteady horderly hafter ht hopen hone
    exact ⟨started, hin.started_prefix, fed_of_inOrder hbooks.balanced hfinished ht hin⟩

/-- What a sink was fed when a cancelled run is over, is what was begun or delivered before. -/
theorem fed_perm_dispatched (hsteady : x.audience.Steady)
    (hbefore : ∀ happening ∈ before, happening.Orderly)
    (hmoment : (start x cancelled paths).afterAll x before = some moment)
    (hcancelled : moment.board.cancelled = true) (hafter : ∀ happening ∈ after, happening.Orderly)
    (hend : moment.afterAll x after = some s) (hfinished : s.finished = true) (file : Nat)
    {sink : Nat} (hsink : sink < x.audience.sinks) :
    (s.board.fed file sink).Perm (moment.dispatched file) := by
  have hrun : (start x cancelled paths).afterAll x (before ++ after) = some s := by
    rw [afterAll_append, hmoment]
    exact hend
  have horderly : ∀ happening ∈ before ++ after, happening.Orderly :=
    List.forall_mem_append.2 ⟨hbefore, hafter⟩
  have hbalanced : moment.Balanced x := (balanced_start cancelled paths).afterAll hmoment
  have hdispatched := dispatched_of_finished (hbalanced.afterAll hend) hfinished file
  have hfed := fed_perm_delivered hsteady horderly hrun hfinished file hsink
  rw [← hdispatched] at hfed
  exact hfed.trans (dispatched_perm hsteady hbalanced hcancelled hafter hend file)

/-- If a sink was asked last before the moment of a cancellation, the line that it was asked about
is the last one of a file of one batch that all sinks are fed. -/
theorem fed_upTo (hsteady : x.audience.Steady)
    (hbefore : ∀ happening ∈ before, happening.Orderly)
    (hmoment : (start x cancelled paths).afterAll x before = some moment)
    {last : State} {m : Move} {e : Event} {sink : Nat} (hstep : last.step x m = some moment)
    (hevents : moment.board.events = e :: last.board.events) (hparty : e.party = .sink sink)
    {path : String} {content : List UInt8} (hpath : paths[e.file]? = some path)
    (hopen : x.open? path = .ok content) (hone : x.OneBatch content)
    (hfed : ∀ sink < x.audience.sinks, (s.board.fed e.file sink).Perm (moment.dispatched e.file))
    (hinOrder : ∃ started, started <+: logicalLines content ∧
      ∀ sink < x.audience.sinks, (s.board.fed e.file sink).reverse = started) :
    (last.board.fed e.file sink).reverse ++ [e.line] <+: logicalLines content ∧
      ∀ other < x.audience.sinks, (s.board.fed e.file other).reverse =
        (last.board.fed e.file sink).reverse ++ [e.line] := by
  obtain ⟨⟨t, ht, hasked⟩, hsink, hline⟩ := justAsked_of_step hsteady hstep hparty hevents
  have hnamed : moment.Named paths := .afterAll hbefore hmoment
  obtain rfl := Option.some.inj (hpath.symm.trans (hnamed.getElem?_paths ht))
  obtain ⟨started, hin⟩ := inOrder_afterAll hsteady hbefore hmoment ht hopen hone
  have hstarted : (last.board.fed e.file sink).reverse ++ [e.line] = started := by
    rw [← List.reverse_cons, ← hline]
    exact hin.fed_of_justAsked hsink hasked
  obtain ⟨started', hprefix, hsame⟩ := hinOrder
  have hlength : started'.length = started.length := by
    rw [← hin.length_started, ← hsame sink hsink, List.length_reverse, (hfed sink hsink).length_eq,
      dispatched, ht, List.length_append, List.length_map]
    rfl
  -- Both are as many of the first lines of the file.
  have heq : started' = started := by
    rcases List.prefix_or_prefix_of_prefix hprefix hin.started_prefix with hle | hle
    · exact hle.eq_of_length hlength
    · exact (hle.eq_of_length hlength.symm).symm
  rw [hstarted]
  exact ⟨hin.started_prefix, fun other hother => (hsame other hother).trans heq⟩

/-- When a run is over that was cancelled before it started, nothing was done. -/
theorem result_of_untouched (h : s.Untouched x paths) (htold : s.result.cancelled = true) :
    s.result = ⟨[], [], [], [], true⟩ ∧ s.board.events = [] := by
  have hresult : s.result = ⟨[], [], [], [], s.result.cancelled⟩ := by
    simp [result, reports, h.board, start, Board.start]
  refine ⟨hresult.trans (by rw [htold]), ?_⟩
  rw [h.board]
  rfl

end Cut

/-- A run that is cancelled at any moment can be brought to its end, and whatever happens in it from
then on, as long as it is orderly, the run is cut cleanly. -/
theorem cut_cleanly (hsteady : x.audience.Steady) {cancelled : Bool} {before : List Happening}
    {moment : State} (hbefore : ∀ happening ∈ before, happening.Orderly)
    (hmoment : (start x cancelled paths).afterAll x before = some moment)
    (hcancelled : moment.board.cancelled = true) (hunfinished : moment.finished = false) :
    (∃ schedule s, moment.after x schedule = some s ∧ s.finished = true) ∧
      ∀ after s, (∀ happening ∈ after, happening.Orderly) → moment.afterAll x after = some s →
        s.finished = true → CutCleanly x paths cancelled (before ++ after) moment s := by
  have hbalanced : moment.Balanced x := (balanced_start cancelled paths).afterAll hmoment
  refine ⟨hbalanced.exists_finished, fun after s hafter hend hfinished => ?_⟩
  have hrun : (start x cancelled paths).afterAll x (before ++ after) = some s := by
    rw [afterAll_append, hmoment]
    exact hend
  have horderly : ∀ happening ∈ before ++ after, happening.Orderly :=
    List.forall_mem_append.2 ⟨hbefore, hafter⟩
  have hbooks : s.Books x paths := books_afterAll horderly hrun
  have hdelivered := dispatched_of_finished hbooks.balanced hfinished
  have hdispatched := dispatched_perm hsteady hbalanced hcancelled hafter hend
  have hfed : ∀ file, ∀ sink < x.audience.sinks,
      (s.board.fed file sink).Perm (moment.dispatched file) := fun file sink hsink =>
    fed_perm_dispatched hsteady hbefore hmoment hcancelled hafter hend hfinished file hsink
  have hunended : ∀ flag, moment.main = .done flag → flag := by
    intro flag hmain
    rw [finished, hmain] at hunfinished
    cases hunfinished
  have hflagged : s.Flagged :=
    preserved_afterAll_of (fun horderly _ _ hmeet h => h.meet horderly hmeet) hbalanced
      ⟨hcancelled, hunended⟩ hafter hend
  have htold : s.result.cancelled = true := hflagged.result hfinished
  exact {
    fed := hfed
    counted := fun file report hreport => by
      rw [(hbooks.counted hfinished hreport).1, ← (hdispatched file).length_eq, hdelivered,
        List.length_map]
    fedAll := fun sink hsink =>
      (hbooks.linesTo_perm sink).trans (.flatMap_left _ fun file _ => hfed file sink hsink)
    total := fun elapsed => by
      rw [hbooks.totalLines_eq_sum hfinished, List.length_flatMap]
      refine congrArg List.sum (List.map_congr_left fun file _ => ?_)
      rw [← (hdispatched file).length_eq, hdelivered, List.length_map]
    uncancelled := x.exists_uncancelled paths
    contained := fun other hother file halike sink hsink =>
      fed_subperm hsteady horderly hrun hfinished hother file halike hsink
    containedAll := fun other hother halike sink hsink =>
      linesTo_subperm hbooks hother fun file =>
        fed_subperm hsteady horderly hrun hfinished hother file (halike.imp_right (· file)) hsink
    refused := fun file report text =>
      refused_of_gated hbooks hfinished (gated_afterAll horderly hrun)
    told := fun elapsed => htold
    inOrder := fun file path content => fed_inOrder hsteady horderly hrun hfinished
    upTo := fun last m e sink path content hstep hevents hparty hpath hopen hone =>
      fed_upTo hsteady hbefore hmoment hstep hevents hparty hpath hopen hone (hfed e.file)
        (fed_inOrder hsteady horderly hrun hfinished hpath hopen hone)
    nothing := fun hearly => by
      subst hearly
      have huntouched : s.Untouched x paths :=
        @preserved_afterAll_of x (start x true paths) s (fun _ => True) (·.Untouched x paths)
          (fun _ _ _ hmeet h => h.meet hmeet) (balanced_start true paths) untouched_start
          (before ++ after) (fun _ _ => trivial) hrun
      exact result_of_untouched huntouched htold }

/-- Four lines in two batches, and a sink that has the run cancelled on the second line. -/
def cancellingSink : Setup where
  limits := { Limits.default with
    maxConcurrentFiles := 1, chunkWorkers := 2, validationSampleLines := 1, batchLines := 2 }
  chunkWorkers := 1
  source := fun _ => .ok (.file [112, 10, 113, 10, 114, 10, 115, 10])
  audience := .ofSinks .all [.all, ⟨fun _ => .ok (), (· == "q")⟩]

/-- A second worker has begun the third line when the sink is asked about the second one. -/
def midBatch : List Happening :=
  times 3 .main ++ times 7 (.file 0 .own) ++ times 3 (.file 0 (.work 0 0)) ++
    times 4 (.file 0 (.work 0 1)) ++ times 11 (.file 0 (.work 0 0))

/-- The fourth line is not begun, and whatever happens then, all sinks get the first three. -/
theorem cut_cleanly_midBatch :
    ∃ moment, (start cancellingSink false ["a"]).afterAll cancellingSink midBatch = some moment ∧
      moment.dispatched 0 = ["p", "q", "r"] ∧
      (∃ schedule s, moment.after cancellingSink schedule = some s ∧ s.finished = true) ∧
      ∀ after s, (∀ happening ∈ after, happening.Orderly) →
        moment.afterAll cancellingSink after = some s → s.finished = true →
          CutCleanly cancellingSink ["a"] false (midBatch ++ after) moment s := by
  have hsteady : cancellingSink.audience.Steady := Audience.steady_ofSinks (by simp [Sink.all])
  obtain ⟨moment, hmoment⟩ : ∃ moment, (start cancellingSink false ["a"]).afterAll cancellingSink
      midBatch = some moment := Option.isSome_iff_exists.1 (by decide +kernel)
  have hstate : ((start cancellingSink false ["a"]).afterAll cancellingSink midBatch).map
      (fun s => (s.board.cancelled, s.finished, s.dispatched 0)) =
        some (true, false, ["p", "q", "r"]) := by decide +kernel
  rw [hmoment, Option.map_some, Option.some.injEq, Prod.mk.injEq, Prod.mk.injEq] at hstate
  obtain ⟨hcancelled, hunfinished, hdispatched⟩ := hstate
  exact ⟨moment, hmoment, hdispatched,
    cut_cleanly hsteady (by decide) hmoment hcancelled hunfinished⟩

end State

end LogAudit.Ingest
