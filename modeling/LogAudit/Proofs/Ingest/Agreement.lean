import LogAudit.Proofs.Ingest.Accounts
import LogAudit.Proofs.Ingest.Totals
import Mathlib.Algebra.BigOperators.Group.List.Basic
import Mathlib.Data.List.Induction

/-!
# What the report of a run tells

Files end in any order, a path may be named more than once, the run may be cancelled at any moment,
and the validator and the sinks may break off on any line. In every finished run the report agrees
with what became of the lines (`State.report_agrees`): it has the files in their order, counts the
lines that were delivered and those that each sink accepted, and tells the errors of paths and the
outcomes by them.
-/

namespace LogAudit.Ingest

/-! ## What accounts come to -/

namespace Account

variable {file : Nat} (deliveries : List Delivery)

/-- Every delivery settles one line. -/
theorem settled_lines : lines.settled file deliveries = deliveries.length := by
  induction deliveries with
  | nil => rfl
  | cons d deliveries ih =>
    rw [List.length_cons, ← ih, Nat.add_comm]
    rfl

/-- A delivery settles a success for each sink that accepted it. -/
theorem settled_success (sink : Nat) :
    (success sink).settled file deliveries = acceptedBy deliveries sink := by
  induction deliveries with
  | nil => rfl
  | cons d deliveries ih =>
    rw [acceptedBy, List.countP_cons, ← acceptedBy, ← ih, Nat.add_comm]
    cases h : d.accepted sink <;> simp [settled, sumOver, weight, h]

/-- A delivery settles the questions that it put to the sinks. -/
theorem settled_question (sink : Nat) (line : String) (stop? : Option Stop) :
    (question sink line stop?).settled file deliveries =
      (deliveries.flatMap (Delivery.asked file)).count ⟨file, .sink sink, line, stop?⟩ := by
  induction deliveries with
  | nil => rfl
  | cons d deliveries ih =>
    rw [List.flatMap_cons, List.count_append, ← ih]
    rfl

end Account

/-- Counters that are what deliveries come to count the lines and those that each sink accepted. -/
theorem Tally.counted_of_booked {file sinks : Nat} {events : List Event} {tally : Tally}
    {deliveries : List Delivery} (hlength : tally.success.length = sinks)
    (hbooked : ∀ i : Account, i.Valid sinks →
      i.booked file events tally = i.settled file deliveries) :
    tally.total = deliveries.length ∧
      tally.success = (List.range sinks).map (acceptedBy deliveries) := by
  have hlines := hbooked .lines trivial
  rw [Account.settled_lines] at hlines
  refine ⟨hlines, List.ext_getElem? fun sink => ?_⟩
  by_cases hsink : sink < sinks
  · have hsuccess := hbooked (.success sink) hsink
    have hget := List.getElem?_eq_getElem (hlength.symm ▸ hsink)
    rw [Account.settled_success, Account.booked, hget, Option.getD_some] at hsuccess
    rw [hget, hsuccess, List.getElem?_map, List.getElem?_range hsink, Option.map_some]
  · have hmany : tally.success.length ≤ sink := by omega
    rw [List.getElem?_eq_none hmany, List.getElem?_eq_none (by simpa using hsink)]

/-- Sinks are asked about the lines that are delivered. -/
theorem Delivery.eq_of_mem_asked {file : Nat} {d : Delivery} {e : Event} (h : e ∈ d.asked file) :
    e.file = file ∧ ∃ sink, e.party = .sink sink := by
  rcases List.mem_append.1 h with h | h
  · obtain ⟨⟨answer, sink⟩, -, rfl⟩ := List.mem_map.1 h
    exact ⟨rfl, sink, rfl⟩
  · obtain ⟨payload, -, rfl⟩ := Option.map_eq_some_iff.1 (Option.mem_toList.1 h)
    exact ⟨rfl, _, rfl⟩

/-! ## What sinks are fed -/

/-- A sink is given what earlier and what later events give it. -/
theorem linesTo_append (sink : Nat) (events others : List Event) :
    linesTo sink (events ++ others) = linesTo sink events ++ linesTo sink others := by
  rw [linesTo, List.filter_append, List.map_append, ← linesTo, ← linesTo]

theorem linesTo_singleton (file number sink : Nat) (line : String) (stop? : Option Stop) :
    linesTo sink [⟨file, .sink number, line, stop?⟩] = if number = sink then [line] else [] := by
  by_cases hnumber : number = sink <;> simp [linesTo, hnumber]

/-- A line is given once to each sink that answered. -/
theorem linesTo_events (file sink : Nat) (line : String) (answers : List (Option Error)) :
    linesTo sink (Delivery.events file ⟨line, answers, none⟩) =
      if sink < answers.length then [line] else [] := by
  induction answers using List.reverseRecOn with
  | nil => simp [Delivery.events, linesTo]
  | append_singleton answers answer ih =>
    rw [Delivery.events_concat, linesTo_append, ih, linesTo_singleton, List.length_append,
      List.length_singleton]
    rcases Nat.lt_trichotomy sink answers.length with hless | hlast | hmore
    · rw [if_pos hless, if_neg (by omega), if_pos (by omega), List.append_nil]
    · rw [if_neg (by omega), if_pos hlast.symm, if_pos (by omega), List.nil_append]
    · rw [if_neg (by omega), if_neg (by omega), if_neg (by omega), List.nil_append]

/-- A line is given once to each sink that it reaches. -/
theorem linesTo_asked (file sink : Nat) (d : Delivery) :
    linesTo sink (d.asked file) = if d.reached sink then [d.line] else [] := by
  obtain ⟨line, answers, broken⟩ := d
  have hevents := linesTo_events file sink line answers
  cases broken with
  | none => simpa [Delivery.asked, Delivery.reached] using hevents
  | some payload =>
    have hasked : Delivery.asked file ⟨line, answers, some payload⟩ =
        Delivery.events file ⟨line, answers, none⟩ ++
          [⟨file, .sink answers.length, line, some (.panicked payload)⟩] := rfl
    rw [hasked, linesTo_append, hevents, linesTo_singleton, Delivery.reached]
    by_cases hless : sink < answers.length
    · rw [if_pos hless, if_neg (by omega)]
      simp [hless]
    · rw [if_neg hless, List.nil_append]
      simp only [hless, decide_false, Bool.false_or, Option.isSome_some, Bool.true_and, beq_iff_eq,
        @eq_comm _ sink]

/-- The questions of deliveries give a sink the lines that it saw. -/
theorem linesTo_flatMap_asked (file sink : Nat) (deliveries : List Delivery) :
    linesTo sink (deliveries.flatMap (Delivery.asked file)) = seenBy deliveries sink := by
  induction deliveries with
  | nil => rfl
  | cons d deliveries ih =>
    rw [List.flatMap_cons, linesTo_append, ih, linesTo_asked, seenBy, seenBy, List.filter_cons]
    split <;> rfl

/-! ## Finished runs -/

namespace State

/-- The books of a run: permits and names are in order, and the books of each file are kept. -/
structure Books (x : Setup) (paths : List String) (s : State) : Prop where
  balanced : s.Balanced x
  named : s.Named paths
  paged : s.Paged (Thread.Kept x)

variable {x : Setup} {paths : List String} {s : State}

/-- After any orderly history the books of a run are in order. -/
theorem books_afterAll {cancelled : Bool} {history : List Happening}
    (horderly : ∀ happening ∈ history, happening.Orderly)
    (hafter : (start x cancelled paths).afterAll x history = some s) : s.Books x paths where
  balanced := (balanced_start cancelled paths).afterAll hafter
  named := Named.afterAll horderly hafter
  paged := paged_afterAll Thread.kept_start (fun hsettled hmoves h => h.moves hsettled hmoves)
    horderly hafter

/-- When a run is over, the thread of a file has handed in one report on the file. -/
theorem Books.reportsOf_eq (h : s.Books x paths) (hfinished : s.finished = true) {file : Nat}
    {t : Thread} (ht : s.threads[file]? = some t) :
    ∃ fault, s.board.reportsOf file = [t.report fault] := by
  obtain ⟨fault, htold⟩ := (h.paged.threads file t ht).told
  rw [Thread.Told, h.balanced.ended hfinished t (List.mem_of_getElem? ht)] at htold
  exact ⟨fault, htold⟩

/-- After the end there is one report for each file. -/
theorem Books.length_reportsOf (h : s.Books x paths) (hfinished : s.finished = true) (file : Nat) :
    (s.board.reportsOf file).length = if file < s.threads.length then 1 else 0 := by
  split
  · rename_i hfile
    obtain ⟨fault, hreports⟩ := h.reportsOf_eq hfinished (List.getElem?_eq_getElem hfile)
    rw [hreports, List.length_singleton]
  · rename_i hfile
    have hblank := h.paged.unborn file (Nat.le_of_not_lt hfile)
    exact congrArg (·.reports.length) hblank

/-- After the end there are as many reports as files. -/
theorem Books.length_reports (h : s.Books x paths) (hfinished : s.finished = true) :
    s.reports.length = s.threads.length := by
  have hnumbers := congrArg List.length (map_fst_sorted (h.length_reportsOf hfinished))
  rw [List.length_map, List.length_range] at hnumbers
  rw [reports, List.length_map, hnumbers]

/-- The reports of a finished run are those of the threads. -/
theorem Books.getElem?_reports (h : s.Books x paths) (hfinished : s.finished = true) {file : Nat}
    {report : FileReport} (hreport : s.reports[file]? = some report) :
    ∃ t fault, s.threads[file]? = some t ∧ report = t.report fault := by
  have hfile := (List.getElem?_eq_some_iff.1 hreport).1
  rw [h.length_reports hfinished] at hfile
  have ht := List.getElem?_eq_getElem hfile
  obtain ⟨fault, hreports⟩ := h.reportsOf_eq hfinished ht
  have hfound := State.getElem?_reports (h.length_reportsOf hfinished) hreports
  exact ⟨_, fault, ht, Option.some.inj (hreport.symm.trans hfound)⟩

/-- After the end the reports have the paths of the files, in order. -/
theorem Books.map_path_reports (h : s.Books x paths) (hfinished : s.finished = true) :
    s.reports.map FileReport.path = s.threads.map Thread.path := by
  refine List.ext_getElem? fun file => ?_
  rw [List.getElem?_map, List.getElem?_map]
  cases hreport : s.reports[file]? with
  | none =>
    rw [List.getElem?_eq_none_iff, h.length_reports hfinished] at hreport
    rw [List.getElem?_eq_none hreport]
    rfl
  | some report =>
    obtain ⟨t, fault, ht, rfl⟩ := h.getElem?_reports hfinished hreport
    rw [ht]
    rfl

/-- When a run is over, what is in an account of a file has been delivered. -/
theorem Books.booked_eq (h : s.Books x paths) (hfinished : s.finished = true) {file : Nat}
    {t : Thread} (ht : s.threads[file]? = some t) {i : Account}
    (hvalid : i.Valid x.audience.sinks) : i.booked file (s.board.eventsOf file) t.tally =
      i.settled file (s.board.deliveriesOf file) := by
  have htasks := h.balanced.tasks_of_finished hfinished (List.mem_of_getElem? ht)
  have hbooked := (h.paged.threads file t ht).booked i hvalid
  rwa [htasks, sumOver, Nat.add_zero] at hbooked

/-- The report on a file counts the lines that were delivered and those that each sink accepted. -/
theorem Books.counted (h : s.Books x paths) (hfinished : s.finished = true) {file : Nat}
    {report : FileReport} (hreport : s.reports[file]? = some report) :
    report.totalLines = (s.board.deliveriesOf file).length ∧
    report.successLines =
      (List.range x.audience.sinks).map (acceptedBy (s.board.deliveriesOf file)) := by
  obtain ⟨t, fault, ht, rfl⟩ := h.getElem?_reports hfinished hreport
  exact Tally.counted_of_booked (h.paged.threads file t ht).success
    fun i hvalid => h.booked_eq hfinished ht hvalid

/-- The sinks were asked what the deliveries of a file tell. -/
theorem Books.asked_perm (h : s.Books x paths) (hfinished : s.finished = true) (file : Nat) :
    ((s.board.eventsOf file).filter (·.party != .validator)).Perm
      ((s.board.deliveriesOf file).flatMap (Delivery.asked file)) := by
  rcases Nat.lt_or_ge file s.threads.length with hfile | hfile
  · rw [List.perm_iff_count]
    intro e
    by_cases hsink : e.file = file ∧ ∃ sink, e.party = .sink sink
    · obtain ⟨_, party, line, stop?⟩ := e
      obtain ⟨rfl, sink, rfl⟩ := hsink
      have hbooked := h.booked_eq hfinished (List.getElem?_eq_getElem hfile)
        (i := .question sink line stop?) trivial
      rw [Account.settled_question] at hbooked
      rw [List.count_filter (by simp)]
      exact hbooked
    · have hasked : e ∉ (s.board.eventsOf file).filter (·.party != .validator) := by
        intro hmem
        obtain ⟨hmem, hparty⟩ := List.mem_filter.1 hmem
        refine hsink ⟨by simpa using (List.mem_filter.1 hmem).2, ?_⟩
        cases hother : e.party with
        | validator => simp [hother] at hparty
        | sink sink => exact ⟨sink, rfl⟩
      have hdelivered : e ∉ (s.board.deliveriesOf file).flatMap (Delivery.asked file) := by
        intro hmem
        obtain ⟨d, -, hmem⟩ := List.mem_flatMap.1 hmem
        exact hsink (Delivery.eq_of_mem_asked hmem)
      rw [List.count_eq_zero.2 hasked, List.count_eq_zero.2 hdelivered]
  · have hblank := h.paged.unborn file hfile
    have hevents : s.board.eventsOf file = [] := congrArg Page.events hblank
    have hdeliveries : s.board.deliveriesOf file = [] := congrArg Page.deliveries hblank
    rw [hevents, hdeliveries]
    exact List.Perm.refl _

/-- Each sink was fed the lines whose deliveries tell that it got them. -/
theorem Books.fed_perm (h : s.Books x paths) (hfinished : s.finished = true) (file sink : Nat) :
    (s.board.fed file sink).Perm (seenBy (s.board.deliveriesOf file) sink) := by
  have hfilter : linesTo sink ((s.board.eventsOf file).filter (·.party != .validator)) =
      s.board.fed file sink := by
    rw [Board.fed, linesTo, linesTo, List.filter_filter]
    refine congrArg (List.map Event.line) (List.filter_congr fun e _ => ?_)
    cases e.party <;> simp
  rw [← hfilter, ← linesTo_flatMap_asked file]
  exact ((h.asked_perm hfinished file).filter _).map _

/-! ## Sums over files -/

/-- A count that stands at a single place is the sum over all places. -/
theorem sum_range_ite {n k : Nat} (h : k < n) (count : Nat) :
    ((List.range n).map fun i => if k = i then count else 0).sum = count := by
  induction n with
  | zero => exact absurd h (Nat.not_lt_zero k)
  | succ n ih =>
    rw [List.range_succ, List.map_append, List.sum_append]
    rcases Nat.lt_succ_iff_lt_or_eq.1 h with hlt | rfl
    · simp [ih hlt, Nat.ne_of_lt hlt]
    · have hzero : ((List.range k).map fun i => if k = i then count else 0) =
          (List.range k).map fun _ => 0 :=
        List.map_congr_left fun i hi => if_neg (Nat.ne_of_gt (List.mem_range.1 hi))
      rw [hzero]
      simp

/-- The items of the first files together, as long as there are no others. -/
theorem sum_countP_filter {α : Type} (file : α → Nat) (p : α → Bool) {items : List α} {n : Nat}
    (h : ∀ item ∈ items, file item < n) :
    ((List.range n).map fun i => (items.filter (file · == i)).countP p).sum = items.countP p := by
  induction items with
  | nil => simp
  | cons item items ih =>
    obtain ⟨hfirst, hrest⟩ := List.forall_mem_cons.1 h
    have hsplit : ∀ i, ((item :: items).filter (file · == i)).countP p =
        (items.filter (file · == i)).countP p +
          if file item = i then (if p item then 1 else 0) else 0 := by
      intro i
      by_cases hi : file item = i
      · simp [hi, List.countP_cons]
      · simp [hi]
    simp only [hsplit]
    rw [List.sum_map_add, ih hrest, sum_range_ite hfirst, List.countP_cons]

variable {x : Setup} {paths : List String} {s : State}

/-- What the deliveries of each file tell comes together to what all deliveries tell. -/
theorem Books.sum_countP (h : s.Books x paths) (hfinished : s.finished = true)
    (p : Delivery → Bool) {count : FileReport → Nat}
    (hcount : ∀ file report, s.reports[file]? = some report →
      count report = (s.board.deliveriesOf file).countP p) :
    (s.reports.map count).sum = s.result.deliveries.countP p := by
  have hreports : s.reports.map count =
      (List.range s.threads.length).map fun file => (s.board.deliveriesOf file).countP p := by
    refine List.ext_getElem? fun file => ?_
    rw [List.getElem?_map, List.getElem?_map]
    cases hreport : s.reports[file]? with
    | none =>
      rw [List.getElem?_eq_none_iff, h.length_reports hfinished] at hreport
      rw [List.getElem?_eq_none (by simpa using hreport)]
      rfl
    | some report =>
      have hfile := (List.getElem?_eq_some_iff.1 hreport).1
      rw [h.length_reports hfinished] at hfile
      rw [List.getElem?_range hfile, Option.map_some, Option.map_some, hcount file report hreport]
  rw [hreports, result, List.map_reverse, List.countP_reverse, List.countP_map]
  simp only [Board.deliveriesOf, List.countP_map]
  exact sum_countP_filter Prod.fst (p ∘ Prod.snd) h.paged.delivery_lt

/-- The counts of a finished run are those of all that was delivered. -/
theorem Books.totalLines_eq (h : s.Books x paths) (hfinished : s.finished = true) (elapsed : Nat) :
    (s.result.report x.audience.sinks elapsed).totalLines = s.result.deliveries.length := by
  rw [RunResult.report, RunReport.totalLines_ofFiles, ← List.countP_true]
  refine h.sum_countP hfinished _ fun file report hreport => ?_
  rw [List.countP_true]
  exact (h.counted hfinished hreport).1

/-- The report counts for a sink the lines that it accepted. -/
theorem Books.getElem?_successLines (h : s.Books x paths) (hfinished : s.finished = true)
    (elapsed : Nat) {sink : Nat} (hsink : sink < x.audience.sinks) :
    (s.result.report x.audience.sinks elapsed).successLines[sink]? =
      some (acceptedBy s.result.deliveries sink) := by
  rw [RunResult.report, RunReport.getElem?_successLines hsink]
  refine congrArg some (h.sum_countP hfinished _ fun file report hreport => ?_)
  rw [(h.counted hfinished hreport).2, List.getElem?_map, List.getElem?_range hsink]
  rfl

/-- The outcome for a sink is told by the lines that were delivered. -/
theorem Books.outcome_eq (h : s.Books x paths) (hfinished : s.finished = true) (elapsed : Nat)
    {sink : Nat} (hsink : sink < x.audience.sinks) :
    (s.result.report x.audience.sinks elapsed).outcome sink =
      .classify (acceptedBy s.result.deliveries sink) s.result.deliveries.length := by
  rw [RunReport.outcome, h.getElem?_successLines hfinished elapsed hsink,
    h.totalLines_eq hfinished elapsed, Option.getD_some]

/-! ## The report -/

/-- The report on a run over files agrees with what became of their lines. -/
structure Agrees (x : Setup) (paths : List String) (s : State) (r : RunReport) : Prop where
  /-- The deliveries tell what the sinks were asked and what they answered. -/
  asked : ∀ file, ((s.board.eventsOf file).filter (·.party != .validator)).Perm
    ((s.board.deliveriesOf file).flatMap (Delivery.asked file))
  /-- The files are in the order in which they were named. -/
  order : r.files.map FileReport.path <+: paths
  /-- Only a run that is cancelled leaves files out. -/
  whole : s.board.cancelled = false → r.files.map FileReport.path = paths
  /-- The report on a file counts its deliveries. -/
  counted : ∀ file report, r.files[file]? = some report →
    report.totalLines = (s.board.deliveriesOf file).length ∧
    report.successLines = (List.range x.audience.sinks).map (acceptedBy (s.board.deliveriesOf file))
  /-- The counts of the run are the sums of those of its files. -/
  total : r.totalLines = (r.files.map FileReport.totalLines).sum
  success : r.successLines = (List.range x.audience.sinks).map fun sink =>
    (r.files.map fun report => (report.successLines[sink]?).getD 0).sum
  /-- No sink accepted more lines than there were. -/
  fileBound : ∀ report ∈ r.files, ∀ success ∈ report.successLines, success ≤ report.totalLines
  runBound : ∀ success ∈ r.successLines, success ≤ r.totalLines
  /-- A path has the error of the last report on it that has one. -/
  errors : ∀ path text, (path, text) ∈ r.fileErrors ↔ RunReport.LastError r.files path text
  paths : (r.fileErrors.map Prod.fst).Nodup ∧
    ∀ path, path ∈ r.fileErrors.map Prod.fst ↔
      ∃ report ∈ r.files, report.path = path ∧ report.error ≠ none
  /-- The outcome for a sink tells how many of the lines it accepted. -/
  noLines : ∀ sink < x.audience.sinks, r.outcome sink = .noLines ↔ s.result.deliveries = []
  complete : ∀ sink < x.audience.sinks, s.result.deliveries ≠ [] →
    (r.outcome sink = .complete ↔ ∀ d ∈ s.result.deliveries, d.accepted sink = true)
  unparsed : ∀ sink < x.audience.sinks, s.result.deliveries ≠ [] →
    (r.outcome sink = .unparsed ↔ ∀ d ∈ s.result.deliveries, d.accepted sink = false)

/-- In every finished run whose history is orderly, however its threads take their steps, whether it
is cancelled and whoever breaks off on whatever line, the report agrees with what became of the
lines. -/
theorem report_agrees {cancelled : Bool} {history : List Happening}
    (horderly : ∀ happening ∈ history, happening.Orderly)
    (hafter : (start x cancelled paths).afterAll x history = some s) (hfinished : s.finished = true)
    (elapsed : Nat) : s.Agrees x paths (s.result.report x.audience.sinks elapsed) := by
  have h := books_afterAll horderly hafter
  have hpaths := h.map_path_reports hfinished
  obtain ⟨dropped, hnamed, hdropped⟩ := h.named
  rw [rest_of_finished hfinished, List.nil_append] at hnamed
  have hbound : ∀ report ∈ s.reports, ∀ success ∈ report.successLines,
      success ≤ report.totalLines := by
    intro report hmem success hsuccess
    obtain ⟨file, hreport⟩ := List.getElem?_of_mem hmem
    obtain ⟨htotal, hcounts⟩ := h.counted hfinished hreport
    rw [hcounts] at hsuccess
    obtain ⟨sink, -, rfl⟩ := List.mem_map.1 hsuccess
    rw [htotal]
    exact List.countP_le_length
  exact {
    asked := h.asked_perm hfinished
    order := ⟨dropped, by rw [← hnamed, ← hpaths]; rfl⟩
    whole := fun hcalm => by
      rw [hdropped hcalm, List.append_nil] at hnamed
      exact hpaths.trans hnamed
    counted := fun file report => h.counted hfinished
    total := RunReport.totalLines_ofFiles
    success := RunReport.successLines_ofFiles
    fileBound := hbound
    runBound := RunReport.success_le_total hbound
    errors := fun _ _ => RunReport.mem_fileErrors
    paths := ⟨RunReport.nodup_map_fst_fileErrors, fun _ => RunReport.mem_map_fst_fileErrors⟩
    noLines := fun sink hsink => by
      rw [h.outcome_eq hfinished elapsed hsink, Outcome.classify_eq_noLines_iff,
        List.length_eq_zero_iff]
    complete := fun sink hsink hsome => by
      rw [h.outcome_eq hfinished elapsed hsink,
        Outcome.classify_eq_complete_iff (mt List.length_eq_zero_iff.1 hsome), acceptedBy,
        List.countP_eq_length]
    unparsed := fun sink hsink hsome => by
      rw [h.outcome_eq hfinished elapsed hsink,
        Outcome.classify_eq_unparsed_iff (mt List.length_eq_zero_iff.1 hsome), acceptedBy,
        List.countP_eq_zero]
      simp only [Bool.not_eq_true] }

/-- Files of two lines, and a sink that breaks off on the second of them. -/
def breakingSink : Setup where
  limits := { Limits.default with
    maxConcurrentFiles := 2, chunkWorkers := 4, validationSampleLines := 1, batchLines := 1 }
  chunkWorkers := 1
  source := fun _ => .ok (.file [112, 10, 113, 10])
  audience := .ofSinks .all
    [.all, ⟨fun line => if line = "q" then .error (.panicked .other) else .ok (), fun _ => false⟩]

/-- The first thread breaks off, the two batches of the second one are delivered by turns, and the
run is cancelled in the middle of both, before the third file is started. -/
def brokenAndCancelled : List Happening :=
  let byTurns := List.replicate 5 (times 1 (.file 1 (.work 0 0)) ++ times 1 (.file 1 (.work 0 1)))
  times 6 .main ++ [.incident (.file 0 (.failure (.ofPayload .other)))] ++ times 3 (.file 0 .own) ++
    times 8 (.file 1 .own) ++ byTurns.flatten ++ [.action .cancel] ++
    times 7 (.file 1 (.work 0 0)) ++ times 4 (.file 1 (.work 0 1)) ++
    times 1 (.file 1 (.work 0 2)) ++ times 1 (.file 1 (.retire 0)) ++ times 3 (.file 1 .own) ++
    times 2 .main

/-- The report agrees although a path is named twice, a thread and a sink break off, and the run is
cancelled. -/
theorem report_agrees_brokenAndCancelled :
    ∃ s, (start breakingSink false ["a", "a", "b"]).afterAll breakingSink brokenAndCancelled =
      some s ∧ s.finished = true ∧
      s.Agrees breakingSink ["a", "a", "b"] (s.result.report breakingSink.audience.sinks 7) := by
  obtain ⟨s, hafter⟩ : ∃ s, (start breakingSink false ["a", "a", "b"]).afterAll breakingSink
      brokenAndCancelled = some s := Option.isSome_iff_exists.1 (by decide +kernel)
  have hend : ((start breakingSink false ["a", "a", "b"]).afterAll breakingSink
      brokenAndCancelled).map finished = some true := by decide +kernel
  rw [hafter, Option.map_some, Option.some.injEq] at hend
  exact ⟨s, hafter, hend, report_agrees (by decide) hafter hend 7⟩

end State

end LogAudit.Ingest
