import LogAudit.Proofs.Audit.Setup
import LogAudit.Proofs.Ingest.Completion
import LogAudit.Proofs.Ingest.Totals
import LogAudit.Run

/-!
# Failing fast

Whether a run fails is decided before any log file is opened: by the template, by the first command
at fault, or by an error file that cannot be made ready (`Failure`). Everything else is told in the
summary, with one entry for each command (`audit_fails_fast`). What is asked of the machine is kept
in a journal, and the machine may answer by all that was asked before.
-/

namespace LogAudit

open LogAudit.Line LogAudit.Audit LogAudit.Ingest

/-! ## Machines with a journal -/

/-- What a program asks of its machine. -/
inductive Call where
  | look (path : String)
  | makeFolders (path : String)
  | add (path : String) (content : List UInt8)
  | clock
  deriving DecidableEq, Repr

/-- How a machine answers after what was asked before, the last question first. -/
structure World where
  look : List Call → String → Except OsError Node
  makeFolders : List Call → String → Except OsError Unit
  add : List Call → String → List UInt8 → Except OsError Unit
  clock : List Call → Nat

/-- Programs in a world, with a journal of what was asked. -/
abbrev Journaled := ReaderT World (StateM (List Call))

instance : Machine Journaled where
  open? path := fun w calls => (w.look calls path, .look path :: calls)
  makeFolders path := fun w calls => (w.makeFolders calls path, .makeFolders path :: calls)
  add path content := fun w calls => (w.add calls path content, .add path content :: calls)
  micros := fun w calls => (w.clock calls, .clock :: calls)

namespace Journaled

variable {α β : Type} (w : World) (calls : List Call)

@[simp] theorem pure_apply (a : α) : (pure a : Journaled α) w calls = (a, calls) := rfl

@[simp] theorem bind_apply (p : Journaled α) (q : α → Journaled β) :
    (p >>= q) w calls = q (p w calls).1 w (p w calls).2 := rfl

@[simp] theorem makeFolders_apply (path : String) :
    (Machine.makeFolders path : Journaled _) w calls =
      (w.makeFolders calls path, .makeFolders path :: calls) := rfl

@[simp] theorem add_apply (path : String) (content : List UInt8) :
    (Machine.add path content : Journaled _) w calls =
      (w.add calls path content, .add path content :: calls) := rfl

end Journaled

/-- The world refuses to make the error file ready: it does not create the directory that the path
of the file names, or does not open the file. A path that names no directory needs none. -/
inductive World.Refuses (w : World) (path : String) (refusal : OsError) : Prop where
  | folder {folder : String} (hfolder : Disk.folder? path = some folder)
    (hrefused : w.makeFolders [] folder = .error refusal)
  | file {folder : String} (hfolder : Disk.folder? path = some folder)
    (hmade : w.makeFolders [] folder = .ok ())
    (hrefused : w.add [.makeFolders folder] path [] = .error refusal)
  | bareFile (hbare : Disk.folder? path = none) (hrefused : w.add [] path [] = .error refusal)

/-- What the world shows under paths that are looked up one after the other, after what was asked
before. -/
def World.shown (w : World) : List Call → List String → List (String × Except OsError Node)
  | _, [] => []
  | calls, path :: paths => (path, w.look calls path) :: w.shown (.look path :: calls) paths

/-- What a run finds under the paths of its log files, which it looks up when its error file is
ready. A run that is cancelled from the start looks nothing up. -/
def World.source (w : World) (settings : Settings) (cancelled : Bool) : Source :=
  let ready := ((prepareErrors settings.errorsOut : Journaled _) w []).2
  found (if cancelled then [] else w.shown (.clock :: ready) settings.logFiles)

/-! ## Failures -/

/-- The template is none, or else a command is at fault. -/
inductive PlanFailure (settings : Settings) : Error → Prop where
  | template {cause : TemplateError} (h : Template.ofString? settings.template = .error cause) :
    PlanFailure settings (.template cause.message)
  | command {template : Template} {cause : SetupError}
    (htemplate : Template.ofString? settings.template = .ok template)
    (hfirst : FirstFault template settings [] settings.commands cause) :
    PlanFailure settings (.config cause.message)

/-- A run that can be planned fails if its error file cannot be made ready. -/
inductive Failure (w : World) (settings : Settings) : Error → Prop where
  | plan {error : Error} (h : PlanFailure settings error) : Failure w settings error
  | errorFile {path : String} {refusal : OsError} (hplan : ∀ error, ¬ PlanFailure settings error)
    (hout : settings.errorsOut = some path) (hrefused : w.Refuses path refusal) :
    Failure w settings (.config ("无法创建错误文件 " ++ path ++ ": " ++ refusal.message))

/-- Commands of a configuration without faults are known. -/
theorem Config.known_of_check {config : Config} (hcheck : config.check = .ok config) :
    ∀ command ∈ config.parser.commands, command ∈ commandNames := by
  intro command hcommand
  by_contra hunknown
  have hfind : (config.parser.commands.find? (!commandNames.contains ·)).isSome :=
    List.find?_isSome.2 ⟨command, hcommand, by simpa using hunknown⟩
  obtain ⟨found, hfound⟩ := Option.isSome_iff_exists.1 hfind
  have hfault : config.fault? ≠ none := by
    simp only [fault?, hfound]
    repeat' split
    all_goals simp
  unfold check at hcheck
  split at hcheck
  · exact absurd hcheck nofun
  · rename_i hnone
    exact hfault hnone

namespace Plan

variable {settings : Settings} {limits : Limits} {detector : Detector}

/-- A run cannot be planned exactly if the template or a command is at fault. -/
theorem ofSettings_eq_error_iff (hknown : ∀ command ∈ settings.commands, command ∈ commandNames)
    {error : Error} :
    ofSettings settings limits detector = .error error ↔ PlanFailure settings error := by
  unfold ofSettings
  constructor
  · intro h
    split at h
    · rename_i cause htemplate
      exact Except.error.inj h ▸ .template htemplate
    · rename_i template htemplate
      split at h
      · rename_i cause hcause
        exact Except.error.inj h ▸
          .command htemplate ((Analyzer.ofSettings_eq_error_iff hknown).1 hcause)
      · exact absurd h nofun
  · rintro (⟨htemplate⟩ | ⟨htemplate, hfirst⟩)
    · rw [htemplate]
    · rw [htemplate]
      have hcause : Analyzer.ofSettings _ settings detector = _ :=
        (Analyzer.ofSettings_eq_error_iff hknown).2 hfirst
      simp only [hcause]

/-- The analyzers of a plan are those of the commands. -/
theorem map_name_of_ofSettings (hknown : ∀ command ∈ settings.commands, command ∈ commandNames)
    {p : Plan} (h : ofSettings settings limits detector = .ok p) :
    p.settings = settings ∧ p.analyzers.map Analyzer.name = settings.commands := by
  unfold ofSettings at h
  split at h
  · exact absurd h nofun
  · split at h
    · exact absurd h nofun
    · rename_i analyzers hanalyzers
      obtain rfl := Except.ok.inj h
      exact ⟨rfl, Analyzer.map_name_ofSettings hknown hanalyzers⟩

end Plan

/-! ## Summaries -/

/-- A summary has one entry for each command, in order, with the counts of the report at its
place. -/
structure RunSummary.Aligned (summary : RunSummary) (commands : List String) : Prop where
  names : summary.analyzers.map AnalyzerSummary.name = commands
  counts : ∀ i entry, summary.analyzers[i]? = some entry →
    summary.report.successLines[i]? = some entry.successLines ∧
      entry.outcome = summary.report.outcome i

/-- What a summary tells of an analyzer. -/
theorem Plan.getElem?_summary (p : Plan) (r : RunResult) (elapsed i : Nat) :
    (p.summary r elapsed).analyzers[i]? = p.analyses[i]?.map fun analysis =>
      { name := analysis.analyzer.name
        successLines := (((r.report p.analyzers.length elapsed).successLines)[i]?).getD 0
        outcome := (r.report p.analyzers.length elapsed).outcome i
        result := analysis.result (seenBy r.deliveries i) } := by
  simp [summary, List.getElem?_zipIdx, Function.comp_def]

theorem Plan.aligned_summary (p : Plan) (r : RunResult) (elapsed : Nat) :
    (p.summary r elapsed).Aligned (p.analyzers.map Analyzer.name) where
  names := by
    refine List.ext_getElem? fun i => ?_
    rw [List.getElem?_map, p.getElem?_summary, analyses, List.getElem?_map, List.getElem?_map]
    cases p.analyzers[i]? <;> rfl
  counts := by
    intro i entry hentry
    rw [p.getElem?_summary] at hentry
    obtain ⟨analysis, hanalysis, rfl⟩ := Option.map_eq_some_iff.1 hentry
    have hi : i < p.analyzers.length := by
      simpa [analyses] using (List.getElem?_eq_some_iff.1 hanalysis).1
    have hsome : (r.report p.analyzers.length elapsed).successLines[i]? = some _ :=
      RunReport.getElem?_successLines hi
    refine ⟨?_, rfl⟩
    rw [hsome]
    exact hsome

/-! ## The journal of a run -/

/-- A file is not made ready exactly if the world refuses it. -/
theorem prepare_eq_error_iff {w : World} {path : String} {refusal : OsError} :
    ((Machine.prepare path : Journaled _) w []).1 = .error refusal ↔ w.Refuses path refusal := by
  cases hfolder : Disk.folder? path with
  | none =>
    simp only [Machine.prepare, hfolder, Journaled.add_apply]
    constructor
    · exact .bareFile hfolder
    · rintro (⟨hother, -⟩ | ⟨hother, -, -⟩ | ⟨-, hrefused⟩)
      · cases hfolder.symm.trans hother
      · cases hfolder.symm.trans hother
      · exact hrefused
  | some folder =>
    simp only [Machine.prepare, hfolder, Journaled.bind_apply, Journaled.makeFolders_apply]
    constructor
    · intro h
      cases hmade : w.makeFolders [] folder with
      | error other =>
        rw [hmade] at h
        obtain rfl := Except.error.inj h
        exact .folder hfolder hmade
      | ok =>
        rw [hmade] at h
        exact .file hfolder hmade h
    · rintro (⟨hother, hrefused⟩ | ⟨hother, hmade, hrefused⟩ | ⟨hother, -⟩)
      · obtain rfl := Option.some.inj (hfolder.symm.trans hother)
        rw [hrefused]
        rfl
      · obtain rfl := Option.some.inj (hfolder.symm.trans hother)
        rw [hmade]
        exact hrefused
      · cases hfolder.symm.trans hother

/-- The error file is not made ready exactly if the world refuses it. -/
theorem prepareErrors_eq_error_iff {w : World} {out : Option String} {error : Error} :
    ((prepareErrors out : Journaled _) w []).1 = .error error ↔
      ∃ path refusal, out = some path ∧ w.Refuses path refusal ∧
        error = .config ("无法创建错误文件 " ++ path ++ ": " ++ refusal.message) := by
  cases out with
  | none => simp [prepareErrors]
  | some path =>
    have hrefuses := @prepare_eq_error_iff w path
    simp only [prepareErrors, Journaled.bind_apply]
    cases hprepare : ((Machine.prepare path : Journaled _) w []).1 with
    | error refusal =>
      have hone : ∀ other, w.Refuses path other ↔ other = refusal := fun other => by
        rw [← hrefuses, hprepare, Except.error.injEq, eq_comm]
      simp [hone, @eq_comm _ _ error]
    | ok =>
      have hnone : ∀ other, ¬ w.Refuses path other := fun other => by
        rw [← hrefuses, hprepare]
        exact nofun
      simp [hnone]

/-- A run that can be planned fails exactly for the error file. -/
theorem failure_iff_of_plan {w : World} {settings : Settings} {error : Error}
    (hplan : ∀ error, ¬ PlanFailure settings error) : Failure w settings error ↔
      ((prepareErrors settings.errorsOut : Journaled _) w []).1 = .error error := by
  rw [prepareErrors_eq_error_iff]
  constructor
  · rintro (hfailure | ⟨-, hout, hrefused⟩)
    · exact absurd hfailure (hplan error)
    · exact ⟨_, _, hout, hrefused, rfl⟩
  · rintro ⟨path, refusal, hout, hrefused, rfl⟩
    exact .errorFile hplan hout hrefused

/-- What is looked up is what the world shows. -/
theorem lookUp_fst (w : World) (calls : List Call) (paths : List String) :
    ((lookUp paths : Journaled _) w calls).1 = w.shown calls paths := by
  induction paths generalizing calls with
  | nil => rfl
  | cons path paths ih =>
    have hothers := ih (.look path :: calls)
    rw [World.shown, ← hothers]
    rfl

/-- A run that is carried out ingests what the machine shows it, and tells what became of that. -/
theorem exists_run_eq_summary (p : Plan) (cancelled : Bool) (w : World) (calls : List Call) :
    ∃ elapsed, ((p.run cancelled : Journaled RunSummary) w calls).1 =
      p.summary (p.ingest (found (if cancelled then [] else
        w.shown (.clock :: calls) p.settings.logFiles)) cancelled) elapsed := by
  have hlook := lookUp_fst w (.clock :: calls) p.settings.logFiles
  simp only [Plan.run, Journaled.bind_apply]
  cases cancelled with
  | true => cases p.settings.errorsOut <;> exact ⟨_, rfl⟩
  | false =>
    rw [if_neg Bool.false_ne_true, ← hlook]
    cases p.settings.errorsOut <;> exact ⟨_, rfl⟩

/-- What a run asks of the machine comes after the plan. -/
theorem audit_eq_of_plan_error {config : Config} {detector : Detector} {error : Error}
    (h : Plan.ofSettings config.parser config.engine detector = .error error) (cancelled : Bool)
    (w : World) : (audit config detector cancelled : Journaled _) w [] = (.error error, []) := by
  simp only [audit, h]
  rfl

/-- A run that can be planned fails for the error file, or else its plan is carried out. -/
theorem audit_fst_of_plan {config : Config} {detector : Detector} {p : Plan}
    (h : Plan.ofSettings config.parser config.engine detector = .ok p) (cancelled : Bool)
    (w : World) :
    ((audit config detector cancelled : Journaled _) w []).1 =
      match ((prepareErrors p.settings.errorsOut : Journaled _) w []).1 with
      | .error error => .error error
      | .ok () => .ok ((p.run cancelled : Journaled RunSummary) w
          ((prepareErrors p.settings.errorsOut : Journaled _) w []).2).1 := by
  simp only [audit, h, Journaled.bind_apply]
  rcases (prepareErrors p.settings.errorsOut : Journaled _) w [] with ⟨_ | _, calls⟩ <;> rfl

/-- A configuration without faults fails a run exactly if its template is none, or else a command is
at fault, the first of them counting, or else the error file cannot be made ready. If it is the
template or a command, the machine was asked nothing. Otherwise, whatever stands under the paths of
the log files, the run of the plan over them goes on to its end and the summary has one entry for
each command. -/
theorem audit_fails_fast {config : Config} (hcheck : config.check = .ok config)
    (detector : Detector) (cancelled : Bool) (w : World) :
    (∀ error, ((audit config detector cancelled : Journaled _) w []).1 = .error error ↔
      Failure w config.parser error) ∧
    ((∃ error, PlanFailure config.parser error) →
      ((audit config detector cancelled : Journaled _) w []).2 = []) ∧
    ((∀ error, ¬ Failure w config.parser error) → ∃ plan summary,
      Plan.ofSettings config.parser config.engine detector = .ok plan ∧
      ((audit config detector cancelled : Journaled _) w []).1 = .ok summary ∧
      summary.Aligned config.parser.commands ∧
      let x := plan.engine.setup (w.source config.parser cancelled)
      ∃ schedule s elapsed, (State.start x cancelled config.parser.logFiles).after x schedule =
        some s ∧ s.finished = true ∧
        summary.report = s.result.report config.parser.commands.length elapsed) := by
  have hknown := Config.known_of_check hcheck
  cases hplan : Plan.ofSettings config.parser config.engine detector with
  | error error =>
    have hfailure := (Plan.ofSettings_eq_error_iff hknown).1 hplan
    rw [audit_eq_of_plan_error hplan]
    refine ⟨fun other => ⟨fun h => Except.error.inj h ▸ .plan hfailure, ?_⟩, fun _ => rfl,
      fun hsound => absurd (.plan hfailure) (hsound error)⟩
    rintro (hother | ⟨hnone, -, -⟩)
    · have herror := hplan.symm.trans ((Plan.ofSettings_eq_error_iff hknown).2 hother)
      rw [Except.error.inj herror]
    · exact absurd hfailure (hnone error)
  | ok p =>
    have hsound : ∀ error, ¬ PlanFailure config.parser error := by
      intro error hfailure
      exact nomatch hplan.symm.trans ((Plan.ofSettings_eq_error_iff hknown).2 hfailure)
    obtain ⟨hsettings, hnames⟩ := Plan.map_name_of_ofSettings hknown hplan
    rw [audit_fst_of_plan hplan, hsettings]
    simp only [failure_iff_of_plan hsound]
    refine ⟨fun error => ?_, fun ⟨error, hfailure⟩ => absurd hfailure (hsound error), fun hready => ?_⟩
    · split <;> simp [*]
    · split
      · rename_i error herror
        exact absurd herror (hready error)
      · obtain ⟨elapsed, hsummary⟩ := exists_run_eq_summary p cancelled w
          ((prepareErrors config.parser.errorsOut : Journaled _) w []).2
        have hlength : p.analyzers.length = config.parser.commands.length := by
          rw [← hnames, List.length_map]
        refine ⟨p, _, rfl, rfl, ?_, ?_⟩
        · rw [hsummary, ← hnames]
          exact p.aligned_summary _ _
        · obtain ⟨schedule, hafter⟩ := State.exists_after_finish
            (x := p.engine.setup (w.source config.parser cancelled))
            (State.start _ cancelled config.parser.logFiles)
          refine ⟨schedule, _, elapsed, hafter, State.finished_finish cancelled _, ?_⟩
          rw [hsummary, ← hlength, ← hsettings]
          rfl

/-! ## Two runs -/

/-- Settings for one file and an error file, the prefix being up to `template`. -/
def Config.ofTemplate (template : String) : Config where
  log := .default
  parser := ⟨template, ["pg.log"], none, none, false, ["password_leak", "unique_ips", "pii"], [], [],
    some "out/errors.jsonl"⟩
  engine := .default

/-- A world without files that lets everything be written. -/
def World.empty : World where
  look _ _ := .error .notFound
  makeFolders _ _ := .ok ()
  add _ _ _ := .ok ()
  clock calls := calls.length

/-- Where the prefix does not tell the host, a command is at fault and the machine is asked nothing.
Where it does, there is a summary, although the only file is missing. -/
theorem audit_fails_fast_hostless :
    (Config.ofTemplate "%m ").check = .ok (Config.ofTemplate "%m ") ∧
    (audit (Config.ofTemplate "%m ") columnNames false : Journaled _) World.empty [] =
      (.error (.config SetupError.hostMissing.message), []) ∧
    (Config.ofTemplate "%h ").check = .ok (Config.ofTemplate "%h ") ∧
    ∃ summary, ((audit (Config.ofTemplate "%h ") columnNames false : Journaled _)
        World.empty []).1 = .ok summary ∧
      summary.Aligned ["password_leak", "unique_ips", "pii"] := by
  have hbad : (Config.ofTemplate "%m ").check = .ok (Config.ofTemplate "%m ") := by rfl
  have hgood : (Config.ofTemplate "%h ").check = .ok (Config.ofTemplate "%h ") := by rfl
  have htemplate : Template.ofString? "%m " =
      .ok ⟨[.token .timestampMillis, .literal ' '], by decide⟩ := by cbv
  have hrefused : Analyzer.ofSettings ⟨[.token .timestampMillis, .literal ' '], by decide⟩
      (Config.ofTemplate "%m ").parser columnNames = .error .hostMissing := by rfl
  have hfailure := PlanFailure.command htemplate
    ((Analyzer.ofSettings_eq_error_iff (Config.known_of_check hbad)).1 hrefused)
  have hplanned : (Plan.ofSettings (Config.ofTemplate "%h ").parser .default
      columnNames).toBool = true := by cbv
  have hsound : ∀ error, ¬ Failure World.empty (Config.ofTemplate "%h ").parser error := by
    rintro error (hplan | ⟨-, -, hrefused⟩)
    · rw [(Plan.ofSettings_eq_error_iff (Config.known_of_check hgood)).2 hplan] at hplanned
      cases hplanned
    · rcases hrefused with ⟨-, ⟨⟩⟩ | ⟨-, -, ⟨⟩⟩ | ⟨-, ⟨⟩⟩
  obtain ⟨hanswer, hjournal, -⟩ := audit_fails_fast hbad columnNames false World.empty
  obtain ⟨-, -, hsummary⟩ := audit_fails_fast hgood columnNames false World.empty
  obtain ⟨_, summary, -, hok, haligned, -⟩ := hsummary hsound
  exact ⟨hbad, Prod.ext ((hanswer _).2 (.plan hfailure)) (hjournal ⟨_, hfailure⟩), hgood, summary,
    hok, haligned⟩

end LogAudit
