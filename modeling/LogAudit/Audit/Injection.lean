import LogAudit.Audit.Phrase
import LogAudit.Line.Record
import LogAudit.Sql.Message

/-!
# Signs of attacks

Queries that probe the catalogue of users, messages about failed authentication, and codes of errors
that probing statements run into.
-/

namespace LogAudit.Audit

open LogAudit.Text LogAudit.Line

/-- Queries that read users or their passwords. -/
def probePatterns : List Pattern :=
  [phrase "SELECT usename FROM pg_user",
    phrase "SELECT DISTINCT~(~usename~) FROM pg_user ORDER BY usename OFFSET # LIMIT 1",
    phrase "SELECT COUNT~(~DISTINCT~(~usename~)~) FROM pg_user",
    phrase "SELECT usename~,~passwd FROM pg_shadow",
    phrase "SELECT DISTINCT~(~passwd~) FROM pg_shadow WHERE usename~=~@ OFFSET # LIMIT 1",
    phrase "SELECT COUNT~(~DISTINCT~(~passwd~)~) FROM pg_shadow WHERE usename~=~@"]

/-- Messages about clients that were turned away. -/
def refusalPatterns : List Pattern :=
  [phrase "no pg_hba.conf entry for host \", user \", database \"",
    phrase "password authentication failed for user \"",
    phrase "user \" does not exist",
    phrase "role \" does not exist",
    phrase "database \" does not exist",
    phrase "Connection to Server Failed: Connection Refused"]

/-- Codes of errors in the syntax of statements, in the names they use, and in permissions. -/
def suspiciousCodes : List String :=
  ["42000", "42601", "42501", "3F000", "28000", "28P01", "42809", "42703", "42883", "42P01",
    "42P02", "42704"]

/-- What a record shows of an attack. -/
def findings (r : Record) : List String :=
  let message := r.description
  let probes := (Sql.statementOfMessage? message).toList.filter fun query =>
    probePatterns.any (·.occursIn query.toList)
  let refusals := if refusalPatterns.any (·.occursIn message.toList) then [message] else []
  let codes := match r.errorCode with
    | .ok code =>
      if suspiciousCodes.contains code then ["Error code found from logfile " ++ code] else []
    | .error _ => []
  probes ++ refusals ++ codes

end LogAudit.Audit
