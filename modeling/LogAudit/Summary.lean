import LogAudit.Audit.Analyzer
import LogAudit.Decimal.Shortest
import LogAudit.Json
import LogAudit.Report

/-!
# Summaries

What a run answers: the report on its files, and for each analyzer its counts and its result. A
summary is written as one JSON object.
-/

namespace LogAudit

/-- What became of one analyzer. -/
structure AnalyzerSummary where
  name : String
  successLines : Nat
  outcome : Outcome
  result : Audit.Result
  deriving DecidableEq, Repr

/-- What became of a run. -/
structure RunSummary where
  report : RunReport
  analyzers : List AnalyzerSummary
  deriving DecidableEq, Repr

namespace Json

/-- A count. -/
def count (n : Nat) : Json := .number (toString n)

/-- Texts. -/
def texts (items : List String) : Json := .list (items.map .text)

end Json

/-- The object of an outcome. -/
def Outcome.toJson (o : Outcome) : Json :=
  .record (("status", .text o.status) :: match o with
    | .part success total =>
      [("percent", .number (Decimal.floatText (Outcome.percent success total)))]
    | _ => [])

/-- The object of a report on a file. -/
def FileReport.toJson (r : FileReport) : Json :=
  .record [("path", .text r.path), ("total_lines", .count r.totalLines),
    ("success_lines", .list (r.successLines.map .count)),
    ("error", (r.error.map Json.text).getD .null)]

/-- The object of a report on a run. -/
def RunReport.toJson (r : RunReport) : Json :=
  .record [("total_lines", .count r.totalLines),
    ("success_lines", .list (r.successLines.map .count)),
    ("files", .list (r.files.map FileReport.toJson)),
    ("file_errors", .record (r.fileErrors.map fun (path, text) => (path, .text text))),
    ("elapsed", .count r.elapsedMillis), ("cancelled", .truth r.cancelled)]

namespace Audit

/-- The object of a leak. -/
def Leak.toJson (l : Leak) : Json :=
  .record [("query", .text l.query), ("password", .text l.password)]

/-- The object of a pair. -/
def pairJson (p : Sql.Pair) : Json :=
  .record [("column", .text p.column), ("value", .text p.value)]

/-- The name of the analyzer that has a result, and the fields of the result. -/
def Result.fields : Result → String × List (String × Json)
  | uniqueIps ips => ("unique_ips", [("ips", .texts ips)])
  | inactiveUsers known seen inactive =>
    ("inactive_users", [("known_users", .texts known), ("users_from_log", .texts seen),
      ("inactive_users", .texts inactive)])
  | passwordLeak leaks => ("password_leak", [("leaks", .list (leaks.map Leak.toJson))])
  | unusedRules lines => ("hba_unused_lines", [("unused_lines", .list (lines.map .count))])
  | personalData labels =>
    ("pii", [("labels", .record (labels.map fun (label, pairs) =>
      (label, .list (pairs.map pairJson))))])
  | injection findings => ("sql_injection", [("findings", .texts findings)])

/-- The object of a result. -/
def Result.toJson (r : Result) : Json := .record (("analyzer", .text r.fields.1) :: r.fields.2)

end Audit

/-- The object of what became of an analyzer. -/
def AnalyzerSummary.toJson (a : AnalyzerSummary) : Json :=
  .record [("name", .text a.name), ("success_lines", .count a.successLines),
    ("outcome", a.outcome.toJson), ("result", a.result.toJson)]

/-- The object of a summary. -/
def RunSummary.toJson (s : RunSummary) : Json :=
  .record [("report", s.report.toJson),
    ("analyzers", .list (s.analyzers.map AnalyzerSummary.toJson))]

end LogAudit
