import LogAudit.Config.Settings
import LogAudit.Time.Moment
import LogAudit.Toml.Parse

/-!
# Reading settings off documents

Each structure of the settings is read from a table with the names of its fields. Entries with other
names do not count.
-/

namespace LogAudit

open LogAudit.Time LogAudit.Access Document

/-- A time. -/
def Document.instant? (document : Document) : Option Instant := do
  Moment.parse (← document.text?).toList

/-- Texts. -/
def Document.texts? : Document → Option (List String) := Document.list? Document.text?

/-- A rule. -/
def Access.Rule.ofDocument? (document : Document) : Option Rule := do
  let entries ← document.entries? ["line", "database", "user", "address", "netmask"]
  return {
    line := ← required entries "line" natural?
    database := ← required entries "database" text?
    user := ← required entries "user" text?
    address := ← withDefault entries "address" text? ""
    netmask := ← withDefault entries "netmask" (nullable text?) none }

/-- The settings of logging, all of which must be given. -/
def LogSection.ofDocument? (document : Document) : Option LogSection := do
  let entries ← document.entries? ["enable_stdout", "log_dir", "level"]
  return {
    enableStdout := ← required entries "enable_stdout" truth?
    logDir := ← required entries "log_dir" text?
    level := ← required entries "level" text? }

/-- What is analysed. -/
def Settings.ofDocument? (document : Document) : Option Settings := do
  let entries ← document.entries?
    ["log_line_prefix", "log_files", "begin", "end", "log_connections", "commands", "hba_rules",
      "known_users", "errors_out"]
  return {
    template := ← required entries "log_line_prefix" text?
    logFiles := ← required entries "log_files" texts?
    start := ← withDefault entries "begin" (nullable instant?) none
    stop := ← withDefault entries "end" (nullable instant?) none
    logConnections := ← withDefault entries "log_connections" truth? false
    commands := ← required entries "commands" texts?
    hbaRules := ← withDefault entries "hba_rules" (list? Rule.ofDocument?) []
    knownUsers := ← withDefault entries "known_users" texts? []
    errorsOut := ← withDefault entries "errors_out" (nullable text?) none }

/-- The limits. -/
def Limits.ofDocument? (document : Document) : Option Limits := do
  let entries ← document.entries?
    ["max_concurrent_files", "chunk_workers", "chunk_size_bytes", "batch_lines",
      "validation_sample_lines", "validation_failure_percent", "max_file_size_bytes"]
  let limit (name : String) (value : Nat) : Option Nat := withDefault entries name natural? value
  return {
    maxConcurrentFiles := ← limit "max_concurrent_files" Limits.default.maxConcurrentFiles
    chunkWorkers := ← limit "chunk_workers" Limits.default.chunkWorkers
    chunkSizeBytes := ← limit "chunk_size_bytes" Limits.default.chunkSizeBytes
    batchLines := ← limit "batch_lines" Limits.default.batchLines
    validationSampleLines := ← limit "validation_sample_lines" Limits.default.validationSampleLines
    validationFailurePercent :=
      ← limit "validation_failure_percent" Limits.default.validationFailurePercent
    maxFileSizeBytes := ← limit "max_file_size_bytes" Limits.default.maxFileSizeBytes }

/-- A configuration, which is not yet checked. -/
def Config.ofDocument? (document : Document) : Option Config := do
  let entries ← document.entries? ["log", "parser", "engine"]
  return {
    log := ← withDefault entries "log" LogSection.ofDocument? LogSection.default
    parser := ← required entries "parser" Settings.ofDocument?
    engine := ← withDefault entries "engine" Limits.ofDocument? Limits.default }

/-- The configuration in a document. -/
def Config.decode (document : Document) : Except Error Config :=
  match Config.ofDocument? document with
  | some config => config.check
  | none => .error (.document "invalid configuration")

/-- The configuration in a TOML text. -/
def Config.ofToml (text : String) : Except Error Config :=
  match (Toml.parse? text).bind fun entries => Config.ofDocument? (.table entries) with
  | some config => config.check
  | none => .error (.configSyntax "TOML parse error")

end LogAudit
