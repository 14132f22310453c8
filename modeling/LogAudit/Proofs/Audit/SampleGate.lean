import LogAudit.Audit.Analysis
import LogAudit.Proofs.Ingest.SampleRatio
import LogAudit.Proofs.Line.Layout

/-!
# Samples of what a template reads

A sample is taken of the lines of a file as they stand there, and not of what is delivered. Where
every delivered line is read by the template, a sampled line is refused if it is a continuation or
empty, or if it is not read without its continuations (`Sample.fault?_eq_validationFailed_iff`). So
a record with many continuations has its file refused (`longRecord_refused`).
-/

namespace LogAudit

open LogAudit.Text LogAudit.Line LogAudit.Ingest

/-! ## What no template reads -/

namespace Line.Template

/-- No template finds anything in the empty text: a line has a colon. -/
theorem search_nil (t : Template) : t.pattern.search [] = none := by
  refine Pattern.search_eq_none_iff.2 fun skipped tail rest hempty hreads => ?_
  obtain ⟨-, rfl⟩ := List.append_eq_nil_iff.1 hempty.symm
  obtain ⟨-, x, -, hline⟩ := reads_pattern_iff.1 hreads
  simp [Layout.line] at hline

/-- Empty lines and continuations have no record. -/
theorem exists_record_eq_error {t : Template} {line : String}
    (h : line = "" ∨ line.toList.head? = some '\t') : ∃ cause, t.record line = .error cause := by
  rcases h with rfl | htab
  · have hempty : "".toList = [] := rfl
    exact ⟨.invalidFormat, by rw [record, read, hempty, search_nil]; rfl⟩
  · exact ⟨.strayContinuation, by rw [record, read, if_pos htab]⟩

end Line.Template

namespace Audit

/-- The sink of a template neither breaks off nor has the run cancelled. -/
theorem calm_templateSink (t : Template) : (templateSink t).Calm where
  unbroken line payload h := by
    dsimp only [templateSink] at h
    split at h <;> exact absurd h (by simp)
  keepsOn _ := rfl

/-- A template accepts neither empty lines nor continuations. -/
theorem accepts_templateSink_eq_false {t : Template} {line : String}
    (h : line = "" ∨ line.toList.head? = some '\t') : (templateSink t).accepts line = false := by
  obtain ⟨cause, hcause⟩ := Template.exists_record_eq_error (t := t) h
  simp only [Sink.accepts, templateSink, hcause]
  rfl

end Audit

namespace Ingest

open LogAudit.Audit

/-- The line counts against a validator that accepts all that is delivered: nothing is delivered
where it stands, or else something longer, and the line is not accepted by itself. -/
def FileLine.countsAgainst (v : Sink) (l : FileLine) : Bool :=
  match l.delivered? with
  | none => true
  | some whole => whole != l.text && !v.accepts l.text

namespace Sample

variable {t : Template} {content : List UInt8}

/-- Too many lines of a sample failed. -/
theorem sampleFault?_eq_validationFailed_iff {path : String} {percent sampled failed : Nat}
    (hfailed : failed ≤ sampled) {sampled' failed' : Nat} :
    sampleFault? path percent sampled failed = some (.validationFailed path failed' sampled') ↔
      sampled' = sampled ∧ failed' = failed ∧ exceedsThreshold sampled failed percent = true := by
  unfold sampleFault?
  split
  · rename_i hnone
    have hfew : ¬ exceedsThreshold sampled failed percent = true := by
      simp [exceedsThreshold, hnone, Nat.le_zero.1 (hnone ▸ hfailed)]
    simp [hfew]
  · split
    · rename_i hmany
      simp [hmany, eq_comm, and_comm]
    · rename_i hfew
      simp [hfew]

/-- The lines that a template refuses are those that count against it. -/
theorem not_accepts_eq_countsAgainst
    (haccepts : ∀ line ∈ logicalLines content, (templateSink t).accepts line = true)
    {l : FileLine} (hl : l ∈ fileLines content) :
    (!(templateSink t).accepts l.text) = l.countsAgainst (templateSink t) := by
  unfold FileLine.countsAgainst
  split
  · rename_i hnone
    rw [accepts_templateSink_eq_false (FileLine.text_of_delivered?_eq_none hl hnone), Bool.not_false]
  · rename_i whole hwhole
    by_cases hsame : whole = l.text
    · have hdelivered : l.text ∈ logicalLines content := by
        rw [logicalLines_eq_filterMap, ← hsame]
        exact List.mem_filterMap.2 ⟨l, hl, hwhole⟩
      simp [hsame, haccepts _ hdelivered]
    · simp [hsame]

/-- Where a template reads all that is delivered of a file, the file is refused for its lines
exactly if too many of those sampled count against the template. -/
theorem fault?_eq_validationFailed_iff
    (haccepts : ∀ line ∈ logicalLines content, (templateSink t).accepts line = true)
    (count percent : Nat) (path : String) (failed sampled : Nat) :
    (take (templateSink t) count false content).fault? path percent =
        some (.validationFailed path failed sampled) ↔
      sampled = ((fileLines content).take count).length ∧
      failed = ((fileLines content).take count).countP (·.countsAgainst (templateSink t)) ∧
      exceedsThreshold sampled failed percent = true := by
  obtain ⟨hlines, hfailed, hended⟩ := take_eq (calm_templateSink t) count content
  have hcount : ((fileLines content).take count).countP (fun l => !(templateSink t).accepts l.text) =
      ((fileLines content).take count).countP (·.countsAgainst (templateSink t)) :=
    List.countP_congr fun l hl => by
      rw [not_accepts_eq_countsAgainst haccepts (List.mem_of_mem_take hl)]
  rw [fault?, size, hlines, hfailed, hended, hcount, List.length_map, SampleEnd.fault?,
    sampleFault?_eq_validationFailed_iff List.countP_le_length]
  constructor
  · rintro ⟨rfl, rfl, hmany⟩
    exact ⟨rfl, rfl, hmany⟩
  · rintro ⟨rfl, rfl, hmany⟩
    exact ⟨rfl, rfl, hmany⟩

/-- The prefix `%u `. -/
def userPrefix : Template := ⟨[.token .user, .literal ' '], by decide⟩

/-- An empty line between two records counts against the template. -/
theorem fault?_eq_validationFailed_iff_emptyLine :
    let content := Utf8.encode "bob LOG:  hello\n\nann LOG:  hello\n"
    (∀ line ∈ logicalLines content, (templateSink userPrefix).accepts line = true) ∧
    (take (templateSink userPrefix) 100 false content).fault? "pg.log" 33 =
      some (.validationFailed "pg.log" 1 3) := by
  intro content
  have haccepts : ∀ line ∈ logicalLines content, (templateSink userPrefix).accepts line = true := by
    decide +kernel
  exact ⟨haccepts, (fault?_eq_validationFailed_iff haccepts 100 33 "pg.log" 1 3).2
    ⟨by decide +kernel, by decide +kernel, by decide⟩⟩

/-- A record of five lines, as a server writes it. -/
def longRecord : List UInt8 :=
  Utf8.encode "bob LOG:  statement: SELECT 1\n\tUNION\n\tSELECT 2\n\tUNION\n\tSELECT 3\n"

/-- The record is read by the template, and its file is refused for four lines of five. -/
theorem longRecord_refused :
    Template.ofString? "%u " = .ok userPrefix ∧
    logicalLines longRecord =
      ["bob LOG:  statement: SELECT 1\tUNION\tSELECT 2\tUNION\tSELECT 3"] ∧
    (∀ line ∈ logicalLines longRecord, (templateSink userPrefix).accepts line = true) ∧
    (take (templateSink userPrefix) 100 false longRecord).fault? "pg.log" 70 =
      some (.validationFailed "pg.log" 4 5) := by
  refine ⟨rfl, ?_, ?_, ?_⟩ <;> decide +kernel

end Sample

end Ingest

end LogAudit
