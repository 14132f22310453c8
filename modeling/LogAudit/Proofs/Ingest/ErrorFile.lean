import LogAudit.Proofs.Disk
import LogAudit.Proofs.Ingest.Containment
import LogAudit.Proofs.Json.RoundTrip
import LogAudit.Proofs.Text.Encoding
import LogAudit.Run

/-!
# The error file

In every run that is not cancelled and in which no sink breaks off, and in whatever order its
threads take their steps and append their records, the error file consists of lines with one object
on each (`Framed`), and these are one object for each line that was delivered and refused and one
for each file whose report has an error (`State.errorFile_complete`).
-/

namespace LogAudit

open LogAudit.Text

/-! ## Records on their lines -/

namespace ErrorRecord

/-- The names and texts that a record has in the error file. -/
def fields (r : ErrorRecord) : List (String × String) :=
  [("error", r.error.message), ("kind", r.error.kind)] ++
    (r.line.map fun line => ("line", line)).toList ++ [("path", r.path)]

/-- The object of a record has its fields. -/
theorem toJson_eq (r : ErrorRecord) : r.toJson = .record (Json.textFields r.fields) := by
  obtain ⟨path, _ | line, error⟩ := r <;> rfl

end ErrorRecord

/-- Bytes are those of a text whose lines hold one object each, and every line ends. -/
def Framed (bytes : List UInt8) (objects : List (List (String × String))) : Prop :=
  ∃ lines : List String,
    Utf8.decode? bytes = some (lines.flatMap fun line => line.toList ++ ['\n']) ∧
    (∀ line ∈ lines, '\n' ∉ line.toList) ∧ lines.map Json.readObject? = objects.map some

/-- Whatever characters they hold, records stand on lines of their own and are read back. -/
theorem framed_toLine (records : List ErrorRecord) :
    Framed (records.flatMap fun r => Utf8.encode r.toLine) (records.map ErrorRecord.fields) := by
  have hbytes : (records.flatMap fun r => Utf8.encode r.toLine) =
      Utf8.encode (String.join (records.map ErrorRecord.toLine)) := by
    rw [Utf8.encode_eq, String.toList_join, List.flatMap_map, List.flatMap_assoc]
    simp only [Utf8.encode_eq]
  refine ⟨records.map fun r => r.toJson.compact, ?_, ?_, ?_⟩
  · rw [hbytes, Utf8.decode?_encode, String.toList_join, List.flatMap_map, List.flatMap_map]
    simp [ErrorRecord.toLine]
  · intro line hline
    obtain ⟨r, -, rfl⟩ := List.mem_map.1 hline
    rw [r.toJson_eq]
    exact Json.newline_not_mem_compact r.fields
  · rw [List.map_map, List.map_map]
    refine List.map_congr_left fun r _ => ?_
    rw [Function.comp_apply, r.toJson_eq, Json.readObject?_compact, Function.comp_apply]

/-- Records that are written to a file stand behind what it held, one after the other. -/
theorem writeErrors_holds {d : Disk} {path : String} {old : List UInt8} (h : d.Holds path old)
    (records : List ErrorRecord) :
    ((writeErrors path records : StateM Disk Unit).run d).2.Holds path
      (old ++ records.flatMap fun r => Utf8.encode r.toLine) := by
  induction records generalizing d old with
  | nil =>
    rw [List.flatMap_nil, List.append_nil]
    exact h
  | cons r records ih =>
    obtain ⟨d', hadd, hold⟩ := h.add (Utf8.encode r.toLine)
    have hwrite : (writeRecord path r : StateM Disk Unit).run d = ((), d') := by
      change ((Disk.change (·.add path (Utf8.encode r.toLine))).run d >>= fun a => pure ((), a.2)) = _
      rw [StateT.run, Disk.change, hadd]
      rfl
    rw [writeErrors, List.forM_cons, StateT.run_bind, hwrite, List.flatMap_cons,
      ← List.append_assoc]
    exact ih hold

/-! ## Plans over a tree of files -/

/-- What is looked up is what stands in the tree, which stays as it is. -/
theorem lookUp_run (d : Disk) (paths : List String) :
    (lookUp paths : StateM Disk (List (String × Except OsError Node))).run d =
      (paths.map fun path => (path, d.open? path), d) := by
  induction paths with
  | nil => rfl
  | cons path paths ih =>
    have hfirst : (Machine.open? path : StateM Disk (Except OsError Node)).run d =
        (d.open? path, d) := rfl
    rw [lookUp, Disk.run_bind, hfirst, Disk.run_bind, ih]
    rfl

namespace Plan

/-- What a plan finds under its paths. -/
def source (p : Plan) (d : Disk) : Ingest.Source :=
  found (p.settings.logFiles.map fun path => (path, d.open? path))

/-- A plan ingests what it finds, and then writes the failures to its error file. -/
theorem run_eq (p : Plan) {out : String} (hout : p.settings.errorsOut = some out) (d : Disk) :
    (p.run false : StateM Disk RunSummary).run d =
      (p.summary (p.ingest (p.source d) false) 0, ((writeErrors out
        (p.ingest (p.source d) false).errorRecords : StateM Disk Unit).run d).2) := by
  have hstart : (Machine.micros : StateM Disk Nat).run d = (0, d) := rfl
  rw [run, Disk.run_bind, hstart, if_neg Bool.false_ne_true, Disk.run_bind, lookUp_run, hout]
  rfl

/-- No sink of a plan has a run cancelled. -/
theorem heedless_setup (p : Plan) (source : Ingest.Source) :
    (p.engine.setup source).heedless = p.engine.setup source := by
  have hsinks (number : Nat) (line : String) :
      (((p.analyses.map Audit.Analysis.sink)[number]?).getD Ingest.Sink.all).cancels line = false := by
    rw [List.getElem?_map]
    cases p.analyses[number]? <;> rfl
  have hreply : (p.engine.setup source).audience.heedless = (p.engine.setup source).audience := by
    refine congrArg (Ingest.Audience.mk _) (funext fun _ => funext fun party => funext fun line => ?_)
    cases party with
    | validator => rfl
    | sink number =>
      refine congrArg (Ingest.Reply.mk _) (hsinks number line).symm
  rw [Ingest.Setup.heedless, hreply]

end Plan

namespace Ingest

/-! ## Finished runs -/

namespace State

variable {x : Setup} {paths : List String} {s : State} {files : List (String × Option Error)}

/-- The workers of a finished run hold nothing. -/
theorem Ledger.holds_eq_zero (h : s.Ledger x paths) (hfinished : s.finished = true) (i : Item) :
    s.holds i = 0 := by
  apply sumOver_eq_zero
  rintro ⟨t, file⟩ hmem
  have ht : t ∈ s.threads := List.fst_mem_of_mem_zipIdx hmem
  have htasks := h.balanced.tasks_of_finished hfinished ht
  simp only [Thread.holds, htasks, sumOver]

/-- The records of a finished run are those that its deliveries and the faults of its files ask
for. -/
theorem Ledger.records_perm (h : s.Ledger x paths) (hfiles : s.Faults files)
    (hfinished : s.finished = true) :
    s.board.records.Perm (s.board.lineRecords paths ++ files.filterMap fileRecord?) := by
  rw [List.perm_iff_count]
  rintro ⟨path, line, error⟩
  rw [List.count_append]
  cases line with
  | none =>
    have hlines : (⟨path, none, error⟩ : ErrorRecord) ∉ s.board.lineRecords paths := by
      intro hmem
      obtain ⟨⟨file, d⟩, -, hrecord⟩ := List.mem_filterMap.1 hmem
      obtain ⟨found, -, hrecord⟩ := Option.bind_eq_some_iff.1 hrecord
      obtain ⟨cause, -, hrecord⟩ := Option.map_eq_some_iff.1 hrecord
      exact absurd hrecord nofun
    rw [hfiles.records _ rfl, List.count_eq_zero.2 hlines, Nat.zero_add]
  | some line =>
    have hnone : (⟨path, some line, error⟩ : ErrorRecord) ∉ files.filterMap fileRecord? := by
      intro hmem
      obtain ⟨⟨found, fault⟩, -, hrecord⟩ := List.mem_filterMap.1 hmem
      obtain ⟨cause, -, hrecord⟩ := Option.map_eq_some_iff.1 hrecord
      exact absurd hrecord nofun
    have hlines := h.lines (.failure path line error)
    rw [h.holds_eq_zero hfinished] at hlines
    rw [List.count_eq_zero.2 hnone]
    exact hlines.symm

/-- The sinks of a finished run were asked about the lines that were delivered, and gave the answers
of the deliveries. -/
theorem Ledger.answered_perm (h : s.Ledger x paths) (hfinished : s.finished = true) :
    (s.board.events.filter (·.party != .validator)).Perm s.board.answered := by
  rw [List.perm_iff_count]
  rintro ⟨file, party, line, stop?⟩
  cases party with
  | validator =>
    have hasked : (⟨file, .validator, line, stop?⟩ : Event) ∉
        s.board.events.filter (·.party != .validator) := by simp
    have hanswered : (⟨file, .validator, line, stop?⟩ : Event) ∉ s.board.answered := by
      intro hmem
      obtain ⟨⟨other, d⟩, -, hevent⟩ := List.mem_flatMap.1 hmem
      obtain ⟨⟨answer, sink⟩, -, hevent⟩ := List.mem_map.1 hevent
      exact absurd hevent nofun
    rw [List.count_eq_zero.2 hasked, List.count_eq_zero.2 hanswered]
  | sink number =>
    have hlines := h.lines (.answer file number line stop?)
    rw [h.holds_eq_zero hfinished] at hlines
    simp only [Item.arisen, Item.settled, Item.inRecords, Item.inEvents] at hlines
    rw [List.count_filter (by simp)]
    omega

/-- A finished run that is not cancelled has dropped no files. -/
theorem Ledger.map_fst (h : s.Ledger x paths) (hfiles : s.Faults files)
    (hfinished : s.finished = true) (hcalm : s.board.cancelled = false) :
    files.map Prod.fst = paths := by
  obtain ⟨dropped, hpaths, hdropped⟩ := h.paths
  rw [hfiles.paths, ← hpaths, rest_of_finished hfinished, hdropped hcalm, List.append_nil,
    List.append_nil]

/-- When a run has finished, the report on a file is the only one and tells its fault. -/
theorem Ledger.reportsOf_eq (h : s.Ledger x paths) (hfiles : s.Faults files)
    (hfinished : s.finished = true) {file : Nat} {t : Thread} (ht : s.threads[file]? = some t) :
    ∃ fault, files[file]? = some (t.path, fault) ∧
      s.board.reportsOf file = [t.report fault] := by
  have hpath : (files.map Prod.fst)[file]? = some t.path := by
    rw [hfiles.paths, List.getElem?_map, ht]
    rfl
  rw [List.getElem?_map] at hpath
  obtain ⟨⟨path, fault⟩, hfile, rfl⟩ := Option.map_eq_some_iff.1 hpath
  have htold := hfiles.told file t t.path fault ht hfile
  rw [Thread.Told, h.balanced.ended hfinished t (List.mem_of_getElem? ht)] at htold
  exact ⟨fault, hfile, htold⟩

/-- The reports of a finished run are on its files and tell their faults. -/
theorem Ledger.map_files (h : s.Ledger x paths) (hfiles : s.Faults files)
    (hfinished : s.finished = true) : s.result.files.map (fun r => (r.path, r.error)) =
      files.map fun (path, fault) => (path, fault.map Error.message) := by
  have hone : ∀ file, (s.board.reportsOf file).length =
      if file < s.threads.length then 1 else 0 := by
    intro file
    split
    · rename_i hfile
      obtain ⟨fault, -, hreports⟩ :=
        h.reportsOf_eq hfiles hfinished (List.getElem?_eq_getElem hfile)
      rw [hreports, List.length_singleton]
    · rename_i hfile
      rw [h.unborn file (Nat.le_of_not_lt hfile), List.length_nil]
  have hlength : s.reports.length = s.threads.length := by
    have hnumbers := congrArg List.length (map_fst_sorted hone)
    rw [List.length_map, List.length_range] at hnumbers
    rw [reports, List.length_map, hnumbers]
  have hthreads : files.length = s.threads.length := by
    simpa using congrArg List.length hfiles.paths
  apply List.ext_getElem?
  intro file
  rw [List.getElem?_map, List.getElem?_map]
  cases ht : s.threads[file]? with
  | none =>
    have hnone := List.getElem?_eq_none_iff.1 ht
    have hreport : s.result.files[file]? = none := List.getElem?_eq_none (hlength ▸ hnone)
    rw [hreport, List.getElem?_eq_none (hthreads ▸ hnone)]
    rfl
  | some t =>
    obtain ⟨fault, hfile, hreports⟩ := h.reportsOf_eq hfiles hfinished ht
    have hreport : s.result.files[file]? = some (t.report fault) := getElem?_reports hone hreports
    rw [hreport, hfile]
    rfl

/-- What the records of a run over some paths are about, given the faults of the files under
them. -/
structure Recorded (x : Setup) (paths : List String) (s : State)
    (files : List (String × Option Error)) (written : List ErrorRecord) : Prop where
  /-- Every line that was delivered was answered by every sink. -/
  whole : s.board.Whole paths.length x.audience.sinks
  /-- The answers are those that the sinks gave, and they were asked about no other lines. -/
  answered : (s.board.events.filter (·.party != .validator)).Perm s.board.answered
  /-- The failure of a line is that of the first sink that refused it. -/
  refused : ∀ file d, (file, d) ∈ s.board.deliveries →
    ∀ cause, d.refusal? = some cause ↔ d.FirstRefusal cause
  /-- The files are those that were named. -/
  named : files.map Prod.fst = paths
  /-- The report on a file has the text of its fault, or no error if it has none. -/
  reported : s.result.files.map (fun r => (r.path, r.error)) =
    files.map fun (path, fault) => (path, fault.map Error.message)
  /-- There is a record for each delivery of a line that was refused, and one for each file with a
  fault. -/
  records : written.Perm
    (s.board.deliveries.filterMap (lineRecord? paths) ++ files.filterMap fileRecord?)

/-- The file of a path consists of lines with one object on each, which are what is to be recorded of
a run over some paths, in some order. -/
def Complete (x : Setup) (paths : List String) (s : State) (d : Disk) (out : String) : Prop :=
  ∃ bytes written files, d.open? out = .ok (.file bytes) ∧
    Framed bytes (written.map ErrorRecord.fields) ∧ s.Recorded x paths files written

/-- When a run is over without having been cancelled, no sink breaks off and nothing else goes wrong
but reading files, its records are what is to be recorded of it. -/
theorem exists_recorded {history : List Happening} {written : List ErrorRecord}
    (hsteady : x.audience.Steady) (horderly : ∀ happening ∈ history, happening.Orderly)
    (hrun : (start x false paths).afterAll x history = some s) (hfinished : s.finished = true)
    (hcalm : s.board.cancelled = false) (hwritten : written.Perm s.result.errorRecords) :
    ∃ files, s.Recorded x paths files written := by
  have hledger := (ledger_start false paths).afterAll hsteady horderly hrun
  obtain ⟨files, hfiles⟩ := hledger.files
  refine ⟨files, hledger.whole, hledger.answered_perm hfinished, ?_,
    hledger.map_fst hfiles hfinished hcalm, hledger.map_files hfiles hfinished, ?_⟩
  · intro file d hmem cause
    exact d.refusal?_eq_some_iff (hledger.whole file d hmem).2.1 cause
  · have hrecords : written.Perm s.board.records := hwritten.trans (List.reverse_perm _)
    exact hrecords.trans (hledger.records_perm hfiles hfinished)

/-- Records that are written to an empty file are the lines of it. -/
theorem Recorded.complete {files : List (String × Option Error)} {written : List ErrorRecord}
    {d : Disk} {out : String} (h : s.Recorded x paths files written) (hempty : d.Holds out []) :
    s.Complete x paths ((writeErrors out written : StateM Disk Unit).run d).2 out :=
  ⟨_, written, files, (writeErrors_holds hempty written).open?_eq, framed_toLine written, h⟩

/-- The error file is complete and well framed, once it was made ready and is empty: when a run is
over without having been cancelled, no sink breaks off and nothing else goes wrong but reading
files, what its threads have written, in whatever order, are lines of their own, one for each line
that was refused and one for each file whose report has an error. So are the lines that a plan
leaves in the file that it names. -/
theorem errorFile_complete {out : String} {before d : Disk}
    (hready : (Machine.prepare out : StateM Disk (Except OsError Unit)).run before = (.ok (), d))
    (hfresh : d.open? out = .ok (.file [])) :
    (∀ {x : Setup} {paths : List String} {s : State} {history : List Happening}
      {written : List ErrorRecord}, x.audience.Steady →
      (∀ happening ∈ history, happening.Orderly) →
      (start x false paths).afterAll x history = some s → s.finished = true →
      s.board.cancelled = false → written.Perm s.result.errorRecords →
      s.Complete x paths ((writeErrors out written : StateM Disk Unit).run d).2 out) ∧
    ∀ p : Plan, p.settings.errorsOut = some out →
      let x := p.engine.setup (p.source d)
      x.audience.Steady → ∃ s schedule elapsed,
        (start x false p.settings.logFiles).after x schedule = some s ∧ s.finished = true ∧
        ((p.run false : StateM Disk RunSummary).run d).1 = p.summary s.result elapsed ∧
        s.Complete x p.settings.logFiles ((p.run false : StateM Disk RunSummary).run d).2 out := by
  have hempty : d.Holds out [] := by
    obtain ⟨old, hold⟩ := Machine.exists_holds_of_prepare hready
    rw [hold.open?_eq] at hfresh
    cases hfresh
    exact hold
  constructor
  · intro x paths s history written hsteady horderly hrun hfinished hcalm hwritten
    obtain ⟨files, hrecorded⟩ :=
      exists_recorded hsteady horderly hrun hfinished hcalm hwritten
    exact hrecorded.complete hempty
  · intro p hout x hsteady
    obtain ⟨schedule, hafter⟩ := exists_after_finish (x := x) (start x false p.settings.logFiles)
    have hfinished := finished_finish (x := x) false p.settings.logFiles
    have hcalm : ((start x false p.settings.logFiles).finish x).board.cancelled = false := by
      have hheedless := cancelled_finish_heedless (x := x) (start x false p.settings.logFiles)
      rwa [show x.heedless = x from p.heedless_setup _] at hheedless
    have horderly : ∀ happening ∈ schedule.map Happening.action, happening.Orderly := by
      intro happening hmem
      obtain ⟨action, -, rfl⟩ := List.mem_map.1 hmem
      trivial
    obtain ⟨files, hrecorded⟩ := exists_recorded hsteady horderly
      ((afterAll_map_action _ schedule).trans hafter) hfinished hcalm (.refl _)
    refine ⟨_, schedule, 0, hafter, hfinished, ?_⟩
    rw [p.run_eq hout]
    exact ⟨rfl, hrecorded.complete hempty⟩

/-- A line of a quote and a bell that two of three sinks refuse, and a folder. -/
def refusedLine : Setup where
  limits := Limits.default
  chunkWorkers := 1
  source := fun path => if path = "a" then .ok (.file [34, 7, 10]) else .ok .folder
  audience := .ofSinks .all
    [.all, ⟨fun _ => .error (.refused (.other "first\n")), fun _ => false⟩,
      ⟨fun _ => .error (.refused (.other "second")), fun _ => false⟩]

/-- After its first chunk the file cannot be read any further. Meanwhile the folder is rejected. -/
def unreadable : List Happening :=
  let own := fun file => Happening.action (.move (.file file .own))
  let work := Happening.action (.move (.file 0 (.work 0 0)))
  List.replicate 7 (.action (.move .main)) ++ List.replicate 7 (own 0) ++
    [.incident (.file 0 .cut)] ++ List.replicate 7 work ++ List.replicate 4 (own 1) ++
    List.replicate 7 work ++ [.action (.move (.file 0 (.retire 0))),
      .incident (.file 0 (.failure (.io "Input/output error")))] ++
    List.replicate 3 (own 0) ++ [.action (.move .main)]

/-- A plan that looks for passwords in one file. -/
def onePlan : Plan where
  settings := ⟨"%u ", ["a"], none, none, false, ["password_leak"], [], [], some "out/errors"⟩
  limits := Limits.default
  template := ⟨[.token .user, .literal ' '], Nat.zero_le 1⟩
  analyzers := [.passwordLeak]

/-- The line that was refused and both files have records, which may be written in another order
than they were asked for. A plan over a missing file leaves its error file complete. -/
theorem errorFile_complete_unreadable : ∃ d s,
    (Machine.prepare "out/errors" : StateM Disk _).run .empty = (.ok (), d) ∧
    (start refusedLine false ["a", "\\"]).afterAll refusedLine unreadable = some s ∧
    (s.Complete refusedLine ["a", "\\"] ((writeErrors "out/errors"
      [⟨"a", some "\"\x07", .other "first\n"⟩,
        ⟨"\\", none, .fileRejected "\\" "not a regular file"⟩,
        ⟨"a", none, .io "Input/output error"⟩] : StateM Disk Unit).run d).2 "out/errors") ∧
    ∃ s, State.Complete (onePlan.engine.setup (onePlan.source d)) ["a"] s
      ((onePlan.run false : StateM Disk RunSummary).run d).2 "out/errors" := by
  let d : Disk := ⟨[(["out", "errors"], .file []), (["out"], .folder)]⟩
  have hready : (Machine.prepare "out/errors" : StateM Disk _).run .empty = (.ok (), d) :=
    Prod.ext (by decide +kernel) (by decide +kernel)
  obtain ⟨hall, hplan⟩ := errorFile_complete hready (by decide +kernel)
  have hsteady : refusedLine.audience.Steady := by
    apply Audience.steady_ofSinks
    intro s hs line payload
    simp only [List.mem_cons, List.not_mem_nil, or_false] at hs
    obtain rfl | rfl | rfl := hs <;> exact nofun
  have horderly : ∀ happening ∈ unreadable, happening.Orderly := by decide
  obtain ⟨s, hrun⟩ : ∃ s, (start refusedLine false ["a", "\\"]).afterAll refusedLine
      unreadable = some s := Option.isSome_iff_exists.1 (by decide +kernel)
  have hend : ((start refusedLine false ["a", "\\"]).afterAll refusedLine unreadable).map
      (fun s => (s.finished, s.board.cancelled, s.result.errorRecords)) =
      some (true, false, [⟨"\\", none, .fileRejected "\\" "not a regular file"⟩,
        ⟨"a", some "\"\x07", .other "first\n"⟩,
        ⟨"a", none, .io "Input/output error"⟩]) := by decide +kernel
  rw [hrun, Option.map_some, Option.some.injEq, Prod.mk.injEq, Prod.mk.injEq] at hend
  obtain ⟨hfinished, hcalm, hrecords⟩ := hend
  have hplanSteady (source : Source) : (onePlan.engine.setup source).audience.Steady := by
    apply Audience.steady_ofSinks
    intro sink hsink line payload
    obtain rfl := List.mem_singleton.1 hsink
    simp only [Audit.Analysis.sink, Audit.Analysis.verdict, Audit.Running.feed]
    split
    · exact nofun
    · split <;> exact nofun
  obtain ⟨s', -, -, -, -, -, hcomplete⟩ := hplan onePlan rfl (hplanSteady _)
  refine ⟨_, s, hready, hrun, ?_, s', hcomplete⟩
  refine hall hsteady horderly hrun hfinished hcalm ?_
  rw [hrecords]
  exact .swap _ _ _

end State

end Ingest

end LogAudit
