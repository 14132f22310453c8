import LogAudit.Logging
import LogAudit.Run

/-!
# The command line

The program takes the path of a configuration, analyses the log files that it names, and writes the
summary. Where it fails it complains, and ends with status one.
-/

namespace LogAudit.CommandLine

/-- The path of the configuration unless told otherwise. -/
def defaultPath : String := "config.toml"

/-- How the program ends: with a summary or without, and with lines of complaint. -/
structure Ending where
  status : Nat
  summary : Option RunSummary
  complaints : List String
  deriving DecidableEq, Repr

/-- The program fails with lines of complaint. -/
def Ending.failure (complaints : List String) : Ending := ⟨1, none, complaints⟩

/-- The program fails with an error, whose text may have several lines. -/
def Ending.ofMessage (message : String) : Ending := .failure (("Error: " ++ message).splitOn "\n")

/-- The program succeeds. -/
def Ending.success (summary : RunSummary) : Ending :=
  ⟨0, some summary, if summary.report.cancelled then ["运行被取消，以上为部分结果"] else []⟩

variable {m : Type → Type} [Monad m] [Machine m]

/-- Start the log in a directory. -/
def startLog (config : LogConfig) : m (Except LogError Unit) := do
  match ← Machine.makeFolders config.logDir with
  | .error refusal => return .error (.io refusal.message)
  | .ok () =>
    let folder := if config.logDir = "" then "" else config.logDir ++ "/"
    let _ ← Machine.add (folder ++ "log-audit") []
    return .ok ()

/-- Analyse the log files of a configuration, the log being started first. -/
def auditLogged (config : Config) (detector : Audit.Detector) (cancelled : Bool) : m Ending := do
  match LogConfig.ofSection config.log with
  | .error cause => return .ofMessage cause.message
  | .ok log =>
    match ← startLog log with
    | .error cause => return .ofMessage cause.message
    | .ok () =>
      match ← audit config detector cancelled with
      | .error error => return .ofMessage error.message
      | .ok summary => return .success summary

/-- Run the program with some arguments, of which only the first counts. -/
def run (args : List String) (detector : Audit.Detector) (cancelled : Bool) : m Ending := do
  let path := args.headD defaultPath
  match ← Config.load path with
  | .error error =>
    return .failure ["Error: 加载配置文件失败: " ++ path, "", "Caused by:", "    " ++ error.message]
  | .ok config => auditLogged config detector cancelled

end LogAudit.CommandLine
