import LogAudit.Access.RuleTable
import LogAudit.Audit.Connection
import LogAudit.Audit.Injection
import LogAudit.Audit.Password
import LogAudit.Audit.Personal
import LogAudit.Config.Settings
import LogAudit.Text.Order
import Std.Data.TreeSet

/-!
# Analyzers

An analyzer answers one question about the records of a log. It takes them one after the other and
collects what its result is made of. Only the search for personal data can fail on a record, and a
record that it fails on adds nothing.
-/

namespace LogAudit.Audit

open LogAudit.Text LogAudit.Line LogAudit.Access

/-- An analyzer with what it needs to know beforehand. -/
inductive Analyzer where
  /-- The hosts of clients: told by the prefix, or by messages about connections. -/
  | uniqueIps (inPrefix logged : Bool)
  /-- The known users that do not show up. -/
  | inactiveUsers (inPrefix logged : Bool) (known : List String)
  | passwordLeak
  /-- The lines of access rules that no connection used. -/
  | unusedRules (rules : List AddressRule)
  | personalData (detector : Detector)
  | injection

/-- The answer of an analyzer. -/
inductive Result where
  | uniqueIps (ips : List String)
  | inactiveUsers (known seen inactive : List String)
  | passwordLeak (leaks : List Leak)
  | unusedRules (lines : List Nat)
  | personalData (labels : List (String × List Sql.Pair))
  | injection (findings : List String)
  deriving DecidableEq, Repr

/-- Why an analyzer cannot work with the settings. -/
inductive SetupError where
  /-- Nothing tells the hosts of clients. -/
  | hostMissing
  /-- Nothing tells the users. -/
  | userMissing
  /-- The prefix does not tell both user and database. -/
  | accountMissing
  | rule (cause : RuleError)
  /-- Personal data is searched for a second time. -/
  | repeatedPersonalData
  | unknownCommand (name : String)
  deriving DecidableEq, Repr

/-- The text of a setup error. -/
def SetupError.message : SetupError → String
  | hostMissing =>
    "Please set log_line_prefix to \x27%h\x27 or \x27%r\x27 or enable log_connections"
  | userMissing => "Please set log_line_prefix to \x27%u\x27 or enable log_connections"
  | accountMissing => "In logline prefix, please set \x27%u\x27 and \x27%d\x27"
  | rule cause => cause.message
  | repeatedPersonalData => "pii 分析器只能配置一次"
  | unknownCommand name => "未知的分析命令: " ++ name

/-- There is nothing to tell. -/
def Result.isEmpty : Result → Bool
  | uniqueIps ips => ips.isEmpty
  | inactiveUsers _ seen inactive => seen.isEmpty && inactive.isEmpty
  | passwordLeak leaks => leaks.isEmpty
  | unusedRules lines => lines.isEmpty
  | personalData labels => labels.isEmpty
  | injection findings => findings.isEmpty

/-- A set of texts that grows. -/
abbrev TextSet := Std.TreeSet String

/-- Add texts to those that were collected. -/
def TextSet.collect (texts : TextSet) (shown : List String) : TextSet :=
  shown.foldl Std.TreeSet.insert texts

namespace Analyzer

/-- The name of an analyzer, which is also its command. -/
def name : Analyzer → String
  | uniqueIps _ _ => "unique_ips"
  | inactiveUsers _ _ _ => "inactive_users"
  | passwordLeak => "password_leak"
  | unusedRules _ => "hba_unused_lines"
  | personalData _ => "pii"
  | injection => "sql_injection"

/-- The analyzer of unused rules. It needs the host, the user and the database of each
connection. -/
def unusedRules? (template : Template) (rules : List Rule) : Except SetupError Analyzer :=
  if !template.has .host then .error .hostMissing
  else if !(template.has .user && template.has .database) then .error .accountMissing
  else match AddressRule.compile rules with
    | .ok compiled => .ok (unusedRules compiled)
    | .error cause => .error (.rule cause)

/-- The analyzer of a command, for a template and settings. -/
def ofCommand (template : Template) (settings : Settings) (detector : Detector) (command : String) :
    Except SetupError Analyzer :=
  let logged := settings.logConnections
  match command with
  | "unique_ips" =>
    if template.has .host || logged then .ok (uniqueIps (template.has .host) logged)
    else .error .hostMissing
  | "inactive_users" =>
    if template.has .user || logged then
      .ok (inactiveUsers (template.has .user) logged settings.knownUsers)
    else .error .userMissing
  | "password_leak" => .ok passwordLeak
  | "hba_unused_lines" => unusedRules? template settings.hbaRules
  | "pii" => .ok (personalData detector)
  | "sql_injection" => .ok injection
  | name => .error (.unknownCommand name)

/-- The analyzers of commands, in order. `personal` tells that personal data is searched for
already; the first command that cannot be set up counts. -/
def ofCommands (template : Template) (settings : Settings) (detector : Detector) :
    Bool → List String → Except SetupError (List Analyzer)
  | _, [] => .ok []
  | personal, command :: commands =>
    if personal && command == "pii" then .error .repeatedPersonalData
    else do
      let analyzer ← ofCommand template settings detector command
      let others ← ofCommands template settings detector (personal || command == "pii") commands
      return analyzer :: others

/-- The analyzers of settings. -/
def ofSettings (template : Template) (settings : Settings) (detector : Detector) :
    Except SetupError (List Analyzer) :=
  ofCommands template settings detector false settings.commands

/-- The labelled pairs in the statement of a record. -/
def labelledOfRecord (detector : Detector) (r : Record) : Except Stop (List Labelled) :=
  match Sql.statementOfMessage? r.description with
  | some sql => labelledOfStatement detector sql
  | none => .ok []

/-- The known users that do not show up, in ascending order. -/
def inactive (known : List String) (seen : TextSet) : List String :=
  textSet (known.filter (!seen.contains ·))

/-- What an analyzer collects. -/
def State : Analyzer → Type
  | uniqueIps _ _ => TextSet
  | inactiveUsers _ _ _ => TextSet
  | passwordLeak => List Leak
  | unusedRules _ => RuleTable
  | personalData _ => LabelTable
  | injection => TextSet

/-- What an analyzer has before the first record. -/
def start : (a : Analyzer) → a.State
  | uniqueIps _ _ => (∅ : TextSet)
  | inactiveUsers _ _ _ => (∅ : TextSet)
  | passwordLeak => ([] : List Leak)
  | unusedRules rules => RuleTable.ofRules rules
  | personalData _ => (∅ : LabelTable)
  | injection => (∅ : TextSet)

/-- Take a record: what is collected then, and whether the analyzer failed. -/
def feed : (a : Analyzer) → a.State → Record → a.State × Except Stop Unit
  | uniqueIps inPrefix logged, ips, r =>
    (TextSet.collect ips (host? inPrefix logged r).toList, .ok ())
  | inactiveUsers inPrefix logged _, seen, r =>
    (TextSet.collect seen (user? inPrefix logged r).toList, .ok ())
  | passwordLeak, leaks, r => (List.append leaks (leak? r.description).toList, .ok ())
  | unusedRules _, table, r => ((connection? r).toList.foldl RuleTable.record table, .ok ())
  | personalData detector, labels, r =>
    match labelledOfRecord detector r with
    | .ok pairs => (pairs.foldl LabelTable.add labels, .ok ())
    | .error stop => (labels, .error stop)
  | injection, texts, r => (TextSet.collect texts (findings r), .ok ())

/-- The result of what was collected. -/
def result : (a : Analyzer) → a.State → Result
  | uniqueIps _ _, ips => .uniqueIps (Std.TreeSet.toList ips)
  | inactiveUsers _ _ known, seen =>
    .inactiveUsers known (Std.TreeSet.toList seen) (inactive known seen)
  | passwordLeak, leaks => .passwordLeak leaks
  | unusedRules _, table => .unusedRules (RuleTable.unusedLines table)
  | personalData _, labels => .personalData (Std.TreeMap.toList labels)
  | injection, texts => .injection (Std.TreeSet.toList texts)

end Analyzer

end LogAudit.Audit
