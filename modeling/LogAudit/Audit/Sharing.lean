import LogAudit.Audit.Analysis

/-!
# Analyses that share a reader with the validator

The validator and the analyses of a run are asked in the order in which the threads of the run come
to them, and all of them read with one reader. In which style it tries a timestamp first depends on
all that was asked before, and on how far other questions are, so it may be any function of the
questions before.
-/

namespace LogAudit.Audit

open LogAudit.Line LogAudit.Time LogAudit.Ingest

/-- The sink that accepts the lines that a template reads, timestamps being tried in `style`
first. -/
def readerSink (template : Template) (style : ZoneStyle) : Sink where
  verdict line :=
    match (template.read style line).1 with
    | .error cause => .error (.refused (.line cause))
    | .ok _ => .ok ()
  cancels _ := false

/-- An analysis under way as a sink, timestamps being tried in `style` first. -/
def Running.sink (r : Running) (style : ZoneStyle) : Sink where
  verdict line := (r.feed style line).1
  cancels _ := false

section

variable (template : Template) (analyses : List Analysis) (style : List Event → ZoneStyle)

/-- The analyses after some questions, the last of which is the first of the list. -/
def runningAfter : List Event → List Running
  | [] => analyses.map Analysis.start
  | event :: earlier =>
    match event.party with
    | .validator => runningAfter earlier
    | .sink number =>
      (runningAfter earlier).modify number fun r => (r.feed (style earlier) event.line).2.2

/-- The validator and the analyses of a run with their common reader. -/
def sharingAudience : Audience where
  sinks := analyses.length
  reply events party line :=
    match party with
    | .validator => (readerSink template (style events)).reply line
    | .sink number =>
      (((runningAfter analyses style events)[number]?.map
        (·.sink (style events))).getD Sink.all).reply line

end

end LogAudit.Audit
