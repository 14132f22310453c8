import LogAudit.Proofs.Audit.Collected
import LogAudit.Proofs.Line.TimeStyle
import LogAudit.Run

/-!
# The order of lines in a session

The analyses of a session read every line with one reader, whose state depends on the lines before
it. Still each line gets the answer that it would get alone, and the results are those of the
records that the lines give, so that neither the order of the lines nor a line that comes again
shows in them.
-/

namespace LogAudit.Audit

open LogAudit.Line LogAudit.Time

namespace Analysis

/-- The record of a line if it is to be analysed. -/
def record? (a : Analysis) (line : String) : Option Record :=
  (a.template.record line).toOption.filter fun r => a.window.contains r.time

/-- An analysis with what it has collected from some lines. -/
def afterLines (a : Analysis) (lines : List String) : Running :=
  ⟨a, a.analyzer.feedAll a.analyzer.start (lines.filterMap a.record?)⟩

end Analysis

namespace Running

/-- The answer to a line is the one that it gets alone. -/
theorem feed_answer (r : Running) (style : ZoneStyle) (line : String) :
    (r.feed style line).1 = r.analysis.verdict line := by
  have hread := r.analysis.template.read_fst style line
  have hread' := r.analysis.template.read_fst .numeric line
  simp only [Analysis.verdict, feed, Analysis.start]
  rcases hs : r.analysis.template.read style line with ⟨answer, style'⟩
  rcases hn : r.analysis.template.read .numeric line with ⟨answer', style''⟩
  rw [hs] at hread
  rw [hn] at hread'
  obtain rfl : answer' = answer := hread'.trans hread.symm
  cases answer' with
  | error cause => rfl
  | ok record =>
    by_cases hwindow : r.analysis.window.contains record.time = true
    · simp only [hwindow, if_true]
      exact r.analysis.analyzer.feed_snd _ _ _
    · simp only [hwindow, Bool.false_eq_true, if_false]

/-- A line adds its record, if it has one that is to be analysed. -/
theorem feed_afterLines (a : Analysis) (lines : List String) (style : ZoneStyle) (line : String) :
    ((a.afterLines lines).feed style line).2.2 = a.afterLines (lines ++ [line]) := by
  have hread := a.template.read_fst style line
  simp only [feed, Analysis.afterLines]
  rcases hs : a.template.read style line with ⟨answer, style'⟩
  rw [hs] at hread
  rw [List.filterMap_append, List.filterMap_cons, List.filterMap_nil, Analysis.record?, ← hread]
  cases answer with
  | error cause => simp [Except.toOption]
  | ok record =>
    by_cases hwindow : a.window.contains record.time = true
    · simp [Except.toOption, Option.filter, hwindow, Analyzer.feedAll]
    · simp [Except.toOption, Option.filter, hwindow]

end Running

namespace Session

/-- Every analysis is asked, and takes the line. -/
theorem feedEach_afterLines (analyses : List Analysis) (lines : List String) (style : ZoneStyle)
    (line : String) :
    (feedEach line style (analyses.map (·.afterLines lines))).1 =
        analyses.map (·.verdict line) ∧
      (feedEach line style (analyses.map (·.afterLines lines))).2.2 =
        analyses.map (·.afterLines (lines ++ [line])) := by
  induction analyses generalizing style with
  | nil => exact ⟨rfl, rfl⟩
  | cons a analyses ih =>
    have hanswer := (a.afterLines lines).feed_answer style line
    have hstate := Running.feed_afterLines a lines style line
    obtain ⟨hanswers, hstates⟩ := ih ((a.afterLines lines).feed style line).2.1
    constructor
    · exact List.cons_eq_cons.2 ⟨hanswer, hanswers⟩
    · exact List.cons_eq_cons.2 ⟨hstate, hstates⟩

/-- What a session answers to some lines, and where its analyses are afterwards. -/
theorem feedAll_afterLines (analyses : List Analysis) (before : List String) (style : ZoneStyle)
    (lines : List String) :
    (feedAll ⟨style, analyses.map (·.afterLines before)⟩ lines).1 =
        lines.map (fun line => analyses.map (·.verdict line)) ∧
      (feedAll ⟨style, analyses.map (·.afterLines before)⟩ lines).2.running =
        analyses.map (·.afterLines (before ++ lines)) := by
  induction lines generalizing style before with
  | nil =>
    rw [List.append_nil]
    exact ⟨rfl, rfl⟩
  | cons line lines ih =>
    obtain ⟨hanswers, hstates⟩ := feedEach_afterLines analyses before style line
    obtain ⟨hothers, hrunning⟩ := ih (before ++ [line])
      (feedEach line style (analyses.map (·.afterLines before))).2.1
    rw [← hstates] at hothers hrunning
    rw [List.append_assoc] at hrunning
    constructor
    · exact List.cons_eq_cons.2 ⟨hanswers, hothers⟩
    · exact hrunning

end Session

end LogAudit.Audit

namespace LogAudit.Plan

open LogAudit.Audit LogAudit.Line LogAudit.Time

/-- The plan with a window that every time is in. -/
def windowless (p : Plan) : Plan :=
  { p with settings := { p.settings with start := none, stop := none } }

/-- A line is read by the template and its time is in the window. -/
def admits (p : Plan) (line : String) : Bool :=
  (p.template.record line).toOption.any fun r => p.settings.window.contains r.time

/-- The answers of a session to some lines. -/
def answers (p : Plan) (style : ZoneStyle) (lines : List String) :
    List (List (Except Stop Unit)) :=
  ((p.session style).feedAll lines).1

/-- The results of a session after some lines. -/
def resultsAfter (p : Plan) (style : ZoneStyle) (lines : List String) : List Result :=
  ((p.session style).feedAll lines).2.results

theorem answers_eq (p : Plan) (style : ZoneStyle) (lines : List String) :
    p.answers style lines = lines.map fun line => p.analyses.map (·.verdict line) :=
  (Session.feedAll_afterLines p.analyses [] style lines).1

theorem resultsAfter_eq (p : Plan) (style : ZoneStyle) (lines : List String) :
    p.resultsAfter style lines =
      p.analyses.map fun a => a.analyzer.resultOf (lines.filterMap a.record?) := by
  have hrunning := (Session.feedAll_afterLines p.analyses [] style lines).2
  rw [resultsAfter, Session.results, session]
  erw [hrunning]
  rw [List.map_map]
  rfl

/-- Without a window, the lines that were admitted give the records that all lines gave with it. -/
theorem resultsAfter_windowless (p : Plan) (style style' : ZoneStyle) (lines : List String) :
    p.windowless.resultsAfter style' (lines.filter p.admits) = p.resultsAfter style lines := by
  rw [resultsAfter_eq, resultsAfter_eq, analyses, analyses, List.map_map, List.map_map]
  apply List.map_congr_left
  intro analyzer _
  have hfilter : ∀ o : Option Record,
      (if o.any (fun r => p.settings.window.contains r.time) = true then
        o.filter fun r => p.windowless.settings.window.contains r.time else none) =
      o.filter fun r => p.settings.window.contains r.time := by
    intro o
    cases o with
    | none => rfl
    | some r =>
      have hall : p.windowless.settings.window.contains r.time = true := by
        cases r.time <;> rfl
      by_cases hwindow : p.settings.window.contains r.time = true
      · simp [Option.filter, hwindow, hall]
      · simp [Option.filter, hwindow]
  have hrecords : (lines.filter p.admits).filterMap
      (Analysis.record? ⟨p.template, p.windowless.settings.window, analyzer⟩) =
      lines.filterMap (Analysis.record? ⟨p.template, p.settings.window, analyzer⟩) := by
    rw [List.filterMap_filter]
    exact List.filterMap_congr fun line _ => hfilter (p.template.record line).toOption
  exact congrArg analyzer.resultOf hrecords

/-- In every plan, whatever the lines and whichever styles of timestamps were met before: each line
gets the answer that it would get alone; lines in another order give the same results, the order of
occurrences aside; the results are those of a plan without a window for the lines that are read and
in the window; and lines that were taken before change no set in the results. -/
theorem session_order (p : Plan) (style style' : ZoneStyle) (lines : List String) :
    p.answers style lines = lines.map (fun line => p.analyses.map (·.verdict line)) ∧
      (∀ lines' : List String, lines'.Perm lines →
        List.Forall₂ Result.Agrees (p.resultsAfter style' lines') (p.resultsAfter style lines)) ∧
      p.windowless.resultsAfter style' (lines.filter p.admits) = p.resultsAfter style lines ∧
      ∀ again : List String, (∀ line ∈ again, line ∈ lines) →
        List.Forall₂ Result.SameSets (p.resultsAfter style' (lines ++ again))
          (p.resultsAfter style lines) := by
  refine ⟨p.answers_eq style lines, ?_, p.resultsAfter_windowless style style' lines, ?_⟩
  · intro lines' hperm
    rw [resultsAfter_eq, resultsAfter_eq, List.forall₂_map_left_iff, List.forall₂_map_right_iff]
    exact List.forall₂_same.2 fun a _ => a.analyzer.agrees_of_perm (hperm.filterMap _)
  · intro again hagain
    rw [resultsAfter_eq, resultsAfter_eq, List.forall₂_map_left_iff, List.forall₂_map_right_iff]
    refine List.forall₂_same.2 fun a _ => a.analyzer.sameSets_of_mem_iff fun r => ?_
    simp only [List.mem_filterMap, List.mem_append]
    constructor
    · rintro ⟨line, hline | hline, hr⟩
      · exact ⟨line, hline, hr⟩
      · exact ⟨line, hagain line hline, hr⟩
    · rintro ⟨line, hline, hr⟩
      exact ⟨line, Or.inl hline, hr⟩

end LogAudit.Plan
