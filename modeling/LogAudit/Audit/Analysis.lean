import LogAudit.Audit.Analyzer
import LogAudit.Ingest.Delivery

/-!
# Analysis of lines

An analyzer is given lines by way of a template and a window of time. A line that the template does
not read is refused; a record of another time is accepted and passed over. The analyses of a session
share the style of timestamps that is tried first.
-/

namespace LogAudit.Audit

open LogAudit.Line LogAudit.Time LogAudit.Ingest

/-- The sink that accepts the lines that a template reads. -/
def templateSink (template : Template) : Sink where
  verdict line :=
    match template.record line with
    | .error cause => .error (.refused (.line cause))
    | .ok _ => .ok ()
  cancels _ := false

/-- An analyzer for lines. -/
structure Analysis where
  template : Template
  window : Window
  analyzer : Analyzer

/-- An analysis that is under way, with what its analyzer has collected. -/
structure Running where
  analysis : Analysis
  state : analysis.analyzer.State

namespace Running

/-- Give a line to an analysis, timestamps being tried in `style` first: the answer, the style to
try first next time, and the analysis afterwards. -/
def feed (r : Running) (style : ZoneStyle) (line : String) :
    Except Stop Unit × ZoneStyle × Running :=
  match r.analysis.template.read style line with
  | (.error cause, style) => (.error (.refused (.line cause)), style, r)
  | (.ok record, style) =>
    if r.analysis.window.contains record.time then
      let (state, answer) := r.analysis.analyzer.feed r.state record
      (answer, style, { r with state })
    else (.ok (), style, r)

/-- Give lines to an analysis one after the other. -/
def feedAll : ZoneStyle → Running → List String → Running
  | _, r, [] => r
  | style, r, line :: lines =>
    let (_, style, r) := r.feed style line
    feedAll style r lines

/-- The result so far. -/
def result (r : Running) : Result := r.analysis.analyzer.result r.state

end Running

namespace Analysis

/-- The analysis before its first line. -/
def start (a : Analysis) : Running := ⟨a, a.analyzer.start⟩

/-- Take a line, or fail on it. -/
def verdict (a : Analysis) (line : String) : Except Stop Unit := (a.start.feed .numeric line).1

/-- The sink of an analysis. -/
def sink (a : Analysis) : Sink := ⟨a.verdict, fun _ => false⟩

/-- The result after some lines. -/
def result (a : Analysis) (lines : List String) : Result :=
  (Running.feedAll .numeric a.start lines).result

end Analysis

/-- Analyses that share one reader of lines. -/
structure Session where
  /-- The style in which timestamps are tried first. -/
  style : ZoneStyle
  running : List Running

namespace Session

/-- Give a line to analyses in order, each starting with the style that the one before it left. -/
def feedEach (line : String) :
    ZoneStyle → List Running → List (Except Stop Unit) × ZoneStyle × List Running
  | style, [] => ([], style, [])
  | style, r :: rs =>
    let (answer, style, r) := r.feed style line
    let (answers, style, rs) := feedEach line style rs
    (answer :: answers, style, r :: rs)

/-- Give a line to all analyses: their answers, and the session afterwards. -/
def feed (s : Session) (line : String) : List (Except Stop Unit) × Session :=
  let (answers, style, running) := feedEach line s.style s.running
  (answers, ⟨style, running⟩)

/-- Give lines to all analyses: the answers to each line, and the session afterwards. -/
def feedAll : Session → List String → List (List (Except Stop Unit)) × Session
  | s, [] => ([], s)
  | s, line :: lines =>
    let (answers, s) := s.feed line
    let (others, s) := feedAll s lines
    (answers :: others, s)

/-- The results so far. -/
def results (s : Session) : List Result := s.running.map Running.result

end Session

end LogAudit.Audit
