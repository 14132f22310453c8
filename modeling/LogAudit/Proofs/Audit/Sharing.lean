import LogAudit.Audit.Sharing
import LogAudit.Proofs.Audit.SessionOrder
import LogAudit.Proofs.Line.SharedReader

/-!
# Runs do not depend on the style of timestamps

The validator and the analyses of a run share one reader. Whichever style it tries first at each
question, they reply as if every line were the first one (`sharingAudience_eq`), and an analysis
collects what it collects from its lines alone (`runningAfter_getElem?`). So what is known of runs
with parties that reply to each line by itself holds of the parties of a plan.
-/

namespace LogAudit.Audit

open LogAudit.Line LogAudit.Time LogAudit.Ingest

/-- The validator replies in the same way in every style. -/
theorem readerSink_eq (t : Template) (style : ZoneStyle) : readerSink t style = templateSink t := by
  have hverdict : ∀ line, (readerSink t style).verdict line = (templateSink t).verdict line := by
    intro line
    have hread := t.read_fst style line
    cases hrecord : t.record line with
    | error cause => simp only [readerSink, templateSink, hread, hrecord]
    | ok record => simp only [readerSink, templateSink, hread, hrecord]
  exact congrArg (Sink.mk · fun _ => false) (funext hverdict)

namespace Running

/-- An analysis under way replies as it does before its first line. -/
theorem sink_eq (r : Running) (style : ZoneStyle) : r.sink style = r.analysis.sink := by
  rw [sink, Analysis.sink, funext fun line => r.feed_answer style line]

/-- What an analysis has collected from some lines is what it collects from them one after the
other. -/
theorem feedAll_afterLines (a : Analysis) (before : List String) (style : ZoneStyle)
    (lines : List String) :
    feedAll style (a.afterLines before) lines = a.afterLines (before ++ lines) := by
  induction lines generalizing style before with
  | nil => rw [List.append_nil, feedAll]
  | cons line lines ih =>
    calc feedAll style (a.afterLines before) (line :: lines)
        = feedAll ((a.afterLines before).feed style line).2.1
            ((a.afterLines before).feed style line).2.2 lines := rfl
      _ = a.afterLines (before ++ line :: lines) := by
        rw [feed_afterLines, ih, List.append_assoc, List.singleton_append]

end Running

theorem Analysis.result_eq (a : Analysis) (lines : List String) :
    a.result lines = (a.afterLines lines).result :=
  congrArg Running.result (Running.feedAll_afterLines a [] .numeric lines)

/-- The lines that a sink was given, in their order, where the last question is the first of the
list. -/
def linesOf (number : Nat) (events : List Event) : List String :=
  (events.reverse.filter (·.party = .sink number)).map Event.line

/-- A question adds its line to the lines of the sink that was asked. -/
theorem linesOf_cons (number : Nat) (event : Event) (earlier : List Event) :
    linesOf number (event :: earlier) =
      linesOf number earlier ++ if event.party = .sink number then [event.line] else [] := by
  by_cases hparty : event.party = .sink number <;> simp [linesOf, hparty]

section

variable (template : Template) (analyses : List Analysis) (style : List Event → ZoneStyle)

/-- An analysis has collected what it collects from the lines that it was given. -/
theorem runningAfter_getElem? (events : List Event) (number : Nat) :
    (runningAfter analyses style events)[number]? =
      analyses[number]?.map (·.afterLines (linesOf number events)) := by
  induction events with
  | nil => exact List.getElem?_map
  | cons event earlier ih =>
    rw [linesOf_cons, runningAfter]
    cases hparty : event.party with
    | validator => simpa using ih
    | sink asked =>
      simp only [List.getElem?_modify, ih]
      by_cases hsame : asked = number
      · simp [hsame, Option.map_map, Function.comp_def, Running.feed_afterLines]
      · simp [hsame]

/-- The parties with a common reader reply to each line by itself. -/
theorem sharingAudience_eq :
    sharingAudience template analyses style =
      .ofSinks (templateSink template) (analyses.map Analysis.sink) := by
  have hreply : ∀ events party line,
      (sharingAudience template analyses style).reply events party line =
        (Audience.ofSinks (templateSink template) (analyses.map Analysis.sink)).reply
          events party line := by
    intro events party line
    cases party with
    | validator => exact congrArg (·.reply line) (readerSink_eq template (style events))
    | sink number =>
      simp only [sharingAudience, Audience.ofSinks, runningAfter_getElem?, Option.map_map,
        Function.comp_def, Running.sink_eq, List.getElem?_map]
      rfl
  have hsinks : analyses.length = (analyses.map Analysis.sink).length := List.length_map _ |>.symm
  rw [Audience.ofSinks, ← hsinks]
  exact congrArg (Audience.mk analyses.length) (funext₃ hreply)

end

end LogAudit.Audit

namespace LogAudit.Plan

open LogAudit.Audit LogAudit.Line LogAudit.Time LogAudit.Ingest

/-- What came before a line, and what other threads do meanwhile, decides nothing about it. Lines
that are read one after the other give their records; so do the lines of threads that share a
reader, whatever turns they take and whenever the shared style becomes another one; no timestamp is
read in both styles; and the validator and the analyses of a plan reply, and collect, as if each
line were read alone. -/
theorem history_independent (p : Plan) :
    (∀ style lines, (p.template.readAll style lines).map Prod.fst =
      lines.map p.template.record) ∧
    (∀ (style : ZoneStyle) (work : List (List String)) (turns : List SharedReader.Turn)
        (number : Nat) (lines : List String), work[number]? = some lines →
      ∃ thread, ((SharedReader.start p.template style work).after turns).threads[number]? =
          some thread ∧
        thread.answers = (lines.take thread.answers.length).map p.template.record ∧
        (3 * lines.length ≤ turns.count (.thread number) →
          thread.answers = lines.map p.template.record)) ∧
    (∀ text, ZoneStyle.numeric.parse text = none ∨ ZoneStyle.named.parse text = none) ∧
    ∀ style : List Event → ZoneStyle,
      (∀ source, { p.engine.setup source with
        audience := sharingAudience p.template p.analyses style } = p.engine.setup source) ∧
      ∀ (events : List Event) (number : Nat),
        (runningAfter p.analyses style events)[number]?.map Running.result =
          p.analyses[number]?.map fun a => a.result (linesOf number events) := by
  refine ⟨p.template.readAll_fst, ?_, ?_, fun style => ⟨fun source => ?_, fun events number => ?_⟩⟩
  · intro style work turns number lines hwork
    exact SharedReader.answers_after p.template style work turns hwork
  · intro text
    cases hnumeric : ZoneStyle.numeric.parse text with
    | none => exact .inl rfl
    | some t => exact .inr (ZoneStyle.parse_other_eq_none hnumeric)
  · rw [sharingAudience_eq]
    rfl
  · rw [runningAfter_getElem?, Option.map_map]
    exact congrArg (p.analyses[number]?.map ·) (funext fun a => (a.result_eq _).symm)

end LogAudit.Plan
