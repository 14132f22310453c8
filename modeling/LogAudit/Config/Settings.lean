import LogAudit.Access.Rule
import LogAudit.Error
import LogAudit.Time.Instant

/-!
# Settings

What a run is told: how to log, which files to analyse by which template and with which commands,
and the limits of the work. `Config.check` finds the first setting that makes no sense.
-/

namespace LogAudit

open LogAudit.Time LogAudit.Access

/-- How the program logs its own work. -/
structure LogSection where
  enableStdout : Bool
  logDir : String
  level : String
  deriving DecidableEq, Repr

/-- What is analysed, and how. -/
structure Settings where
  template : String
  logFiles : List String
  start : Option Instant
  stop : Option Instant
  /-- The server logs connections. -/
  logConnections : Bool
  commands : List String
  hbaRules : List Rule
  knownUsers : List String
  /-- The file for errors, if there is to be one. -/
  errorsOut : Option String
  deriving DecidableEq, Repr

/-- The limits of the work. Zero workers stand for a number that fits the machine. -/
structure Limits where
  maxConcurrentFiles : Nat
  chunkWorkers : Nat
  chunkSizeBytes : Nat
  batchLines : Nat
  validationSampleLines : Nat
  validationFailurePercent : Nat
  maxFileSizeBytes : Nat
  deriving DecidableEq, Repr

/-- A whole configuration. -/
structure Config where
  log : LogSection
  parser : Settings
  engine : Limits
  deriving DecidableEq, Repr

/-- Logging unless told otherwise. -/
def LogSection.default : LogSection := ⟨true, "logs", "info"⟩

/-- The limits unless told otherwise. -/
def Limits.default : Limits where
  maxConcurrentFiles := 10
  chunkWorkers := 0
  chunkSizeBytes := 250 * 1024
  batchLines := 30
  validationSampleLines := 100
  validationFailurePercent := 70
  maxFileSizeBytes := 50 * 1024 * 1024 * 1024

/-- The time that records must be of. -/
def Settings.window (s : Settings) : Window := ⟨s.start, s.stop⟩

/-- The commands that there are. -/
def commandNames : List String :=
  ["unique_ips", "inactive_users", "password_leak", "hba_unused_lines", "pii", "sql_injection"]

/-- The levels that logging can be set to. -/
def logLevels : List String := ["trace", "debug", "info", "warn", "error"]

/-- The limits that must not be zero, with their names. -/
def Limits.named (l : Limits) : List (String × Nat) :=
  [("max_concurrent_files", l.maxConcurrentFiles), ("chunk_size_bytes", l.chunkSizeBytes),
    ("batch_lines", l.batchLines), ("validation_sample_lines", l.validationSampleLines),
    ("validation_failure_percent", l.validationFailurePercent),
    ("max_file_size_bytes", l.maxFileSizeBytes)]

/-- The start of a window that ends before it, with the end. -/
def Settings.reversed? (s : Settings) : Option (Instant × Instant) :=
  match s.start, s.stop with
  | some start, some stop => if start.le stop then none else some (start, stop)
  | _, _ => none

/-- What is wrong with a configuration, the first fault counting. -/
def Config.fault? (c : Config) : Option String :=
  if !logLevels.contains c.log.level then some ("无效的日志级别: " ++ c.log.level)
  else if c.parser.template = "" then some "log_line_prefix 不能为空"
  else if c.parser.logFiles.isEmpty then some "没有配置任何日志文件"
  else if c.parser.commands.isEmpty then some "没有配置任何分析命令"
  else match c.parser.commands.find? (!commandNames.contains ·) with
    | some command => some ("未知的分析命令: " ++ command)
    | none =>
      match c.parser.reversed? with
      | some (start, stop) =>
        some ("开始时间 " ++ start.display ++ " 晚于结束时间 " ++ stop.display)
      | none =>
        match c.engine.named.find? fun limit => limit.2 == 0 with
        | some (name, _) => some (name ++ " 不能为0")
        | none =>
          if 100 < c.engine.validationFailurePercent then
            some "validation_failure_percent 不能超过100"
          else none

/-- A configuration without faults. -/
def Config.check (c : Config) : Except Error Config :=
  match c.fault? with
  | some text => .error (.config text)
  | none => .ok c

end LogAudit
