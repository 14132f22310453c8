import LogAudit.Audit.Analysis
import LogAudit.Config.Decode
import LogAudit.Ingest.Engine
import LogAudit.Summary

/-!
# Runs

A run is planned before any file is touched: the template is read and the analyzers are set up, and
only that, and an error file that cannot be opened, can fail a run. After that whatever the files
hold is told in the summary.
-/

namespace LogAudit

open LogAudit.Line LogAudit.Time LogAudit.Audit LogAudit.Ingest

/-- A run that can be started. -/
structure Plan where
  settings : Settings
  limits : Limits
  template : Template
  analyzers : List Analyzer

namespace Plan

/-- The plan for settings and limits, with a detector of personal data. -/
def ofSettings (settings : Settings) (limits : Limits) (detector : Detector) : Except Error Plan :=
  match Template.ofString? settings.template with
  | .error cause => .error (.template cause.message)
  | .ok template =>
    match Analyzer.ofSettings template settings detector with
    | .error cause => .error (.config cause.message)
    | .ok analyzers => .ok ⟨settings, limits, template, analyzers⟩

/-- The analyses, one for each command. -/
def analyses (p : Plan) : List Analysis :=
  p.analyzers.map fun analyzer => ⟨p.template, p.settings.window, analyzer⟩

/-- The analyses before the first line, timestamps being tried in `style` first. -/
def session (p : Plan) (style : ZoneStyle) : Session := ⟨style, p.analyses.map Analysis.start⟩

/-- The engine that gives the lines of files to the analyses. -/
def engine (p : Plan) : Engine where
  limits := p.limits
  validator := templateSink p.template
  sinks := p.analyses.map Analysis.sink

/-- Ingest the log files. -/
def ingest (p : Plan) (source : Source) (cancelled : Bool) : RunResult :=
  p.engine.run source cancelled p.settings.logFiles

/-- The summary of a run. -/
def summary (p : Plan) (r : RunResult) (elapsedMicros : Nat) : RunSummary :=
  let report := r.report p.analyzers.length elapsedMicros
  { report
    analyzers := p.analyses.zipIdx.map fun (analysis, sink) =>
      { name := analysis.analyzer.name
        successLines := (report.successLines[sink]?).getD 0
        outcome := report.outcome sink
        result := analysis.result (seenBy r.deliveries sink) } }

end Plan

section

variable {m : Type → Type} [Monad m] [Machine m]

/-- Make the error file ready, if there is to be one. -/
def prepareErrors : Option String → m (Except Error Unit)
  | none => return .ok ()
  | some path => do
    match ← Machine.prepare path with
    | .ok () => return .ok ()
    | .error refusal =>
      return .error (.config ("无法创建错误文件 " ++ path ++ ": " ++ refusal.message))

/-- What stands under each of some paths. -/
def lookUp : List String → m (List (String × Except OsError Node))
  | [] => return []
  | path :: paths => do
    let node ← Machine.open? path
    let others ← lookUp paths
    return (path, node) :: others

/-- Find what was looked up. -/
def found (nodes : List (String × Except OsError Node)) (path : String) : Except OsError Node :=
  (nodes.lookup path).getD (.error .notFound)

/-- Carry a plan out. -/
def Plan.run (p : Plan) (cancelled : Bool) : m RunSummary := do
  let start ← Machine.micros
  let nodes ← if cancelled then pure [] else lookUp p.settings.logFiles
  let result := p.ingest (found nodes) cancelled
  if let some path := p.settings.errorsOut then
    writeErrors path result.errorRecords
  let stop ← Machine.micros
  return p.summary result (stop - start)

/-- Analyse the log files of a configuration. -/
def audit (config : Config) (detector : Detector) (cancelled : Bool) :
    m (Except Error RunSummary) := do
  match Plan.ofSettings config.parser config.engine detector with
  | .error error => return .error error
  | .ok plan =>
    match ← prepareErrors plan.settings.errorsOut with
    | .error error => return .error error
    | .ok () => return .ok (← plan.run cancelled)

/-- Load a configuration from a file. -/
def Config.load (path : String) : m (Except Error Config) := do
  match ← Machine.read path with
  | .error refusal => return .error (.io refusal.message)
  | .ok content =>
    match Text.Utf8.decode? content with
    | none => return .error (.io "stream did not contain valid UTF-8")
    | some text => return Config.ofToml (String.ofList text)

end

end LogAudit
