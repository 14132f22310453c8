import LogAudit.Config.Settings

/-!
# The program's own log

The level, the directory and the console flag of the program's own log. Levels are read by name in
any case, or by number.
-/

namespace LogAudit

/-- How much is logged. -/
inductive LogLevel where
  | error
  | warn
  | info
  | debug
  | trace
  deriving DecidableEq, Repr

namespace LogLevel

/-- The level with a number. -/
def ofNumber? : Nat → Option LogLevel
  | 1 => some error
  | 2 => some warn
  | 3 => some info
  | 4 => some debug
  | 5 => some trace
  | _ => none

/-- The level with a name, in any case. -/
def ofName? (name : String) : Option LogLevel :=
  match String.ofList (name.toList.map Char.toLower) with
  | "error" => some error
  | "warn" => some warn
  | "info" => some info
  | "debug" => some debug
  | "trace" => some trace
  | _ => none

/-- The number that digits write, with a plus sign in front or none. -/
def number? (text : String) : Option Nat :=
  let digits := match text.toList with
    | '+' :: s => s
    | s => s
  if digits.isEmpty || !digits.all Char.isDigit then none
  else some (digits.foldl (fun n c => n * 10 + (c.toNat - 48)) 0)

/-- The level by its name or number. -/
def ofString? (text : String) : Option LogLevel :=
  ((number? text).bind ofNumber?).orElse fun _ => ofName? text

/-- The name of the level. -/
def name : LogLevel → String
  | error => "ERROR"
  | warn => "WARN"
  | info => "INFO"
  | debug => "DEBUG"
  | trace => "TRACE"

end LogLevel

/-- How the program logs. -/
structure LogConfig where
  level : LogLevel
  logDir : String
  enableStdout : Bool
  deriving DecidableEq, Repr

namespace LogConfig

/-- Logging unless told otherwise. -/
def default : LogConfig := ⟨.info, "logs", true⟩

/-- Logging as a section of the settings tells it. -/
def ofSection (s : LogSection) : Except LogError LogConfig :=
  match LogLevel.ofString? s.level with
  | some level => .ok ⟨level, s.logDir, s.enableStdout⟩
  | none => .error (.config ("无效的日志级别: " ++ s.level))

end LogConfig

end LogAudit
