import LogAudit.Line.Record
import LogAudit.Access.Rule

/-!
# Connections in the log

Hosts and users are told by the prefix of a line, or else by the messages that a server writes when
it logs connections.
-/

namespace LogAudit.Audit

open LogAudit.Text LogAudit.Line

/-- A received connection; group 3 is the host. -/
def receivedPattern : Pattern :=
  .sequence [.text "connection received:", .someBlanks, .text "host=",
    .optional (.group 3 (.atLeastOne Pattern.isInk)), .someBlanks, .text "port="]

/-- An authorized connection with the name of its application; group 3 is the user. -/
def authorizedPattern : Pattern :=
  .sequence [.text "connection authorized:", .someBlanks, .text "user=",
    .group 3 (.many Pattern.isInk), .someBlanks, .text "database=", .many Pattern.isInk,
    .someBlanks, .text "application_name="]

/-- The text that a message holds in group 3 of a pattern. -/
def messageField? (pattern : Pattern) (message : String) : Option String := do
  let captures ← pattern.search message.toList
  return String.ofList (← captures.text? 3)

/-- The client's host: that of the prefix, if the template has one, or else that of the message, if
connections are logged. -/
def host? (inPrefix logged : Bool) (r : Record) : Option String :=
  match inPrefix, r.host with
  | true, .ok host => some host
  | _, _ => if logged then messageField? receivedPattern r.description else none

/-- The user, found in the same way. -/
def user? (inPrefix logged : Bool) (r : Record) : Option String :=
  match inPrefix, r.user with
  | true, .ok user => some user
  | _, _ => if logged then messageField? authorizedPattern r.description else none

/-- The connection of a line whose prefix tells database, user and host. -/
def connection? (r : Record) : Option Access.Connection :=
  match r.user, r.host, r.database with
  | .ok user, .ok host, .ok database => some ⟨database, user, host⟩
  | _, _, _ => none

end LogAudit.Audit
