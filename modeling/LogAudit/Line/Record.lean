import LogAudit.Line.Template
import LogAudit.Time.Stamp

/-!
# Records of log lines

`Template.read` matches a line against a template and gives a record, whose accessors tell the
fields of the prefix, the level and the message. The reader remembers which style of timestamp it
met last and tries that style first; since no timestamp is read by both styles, this never changes a
record.
-/

namespace LogAudit.Line

open LogAudit.Text LogAudit.Time

/-- Why a line gives no record. -/
inductive LineError where
  /-- The line is not written by the template. -/
  | invalidFormat
  /-- The timestamp denotes no time. -/
  | time (text : String)
  /-- The line continues another one and stands alone. -/
  | strayContinuation
  deriving DecidableEq, Repr

/-- Why a record does not tell a field. -/
inductive FieldError where
  /-- The template has no token for the slot. -/
  | notConfigured (slot : Slot)
  /-- The line leaves the field empty or unknown. -/
  | invalidValue (slot : Slot)
  deriving DecidableEq, Repr

/-- The name of a slot in messages. -/
def Slot.name : Slot → String
  | time => "time"
  | processId => "process id"
  | sessionLine => "session line"
  | user => "user"
  | database => "database"
  | application => "application"
  | host => "host"
  | virtualTxn => "virtual txn"
  | txnId => "txn id"
  | errorCode => "error code"
  | sessionId => "session id"
  | backendType => "backend type"

/-- The text of a line error. -/
def LineError.message : LineError → String
  | invalidFormat => "invalid log format"
  | time text => "unable to parse time: " ++ text
  | strayContinuation => "stray continuation line"

/-- The text of a field error. -/
def FieldError.message : FieldError → String
  | notConfigured slot => "field not configured: " ++ slot.name
  | invalidValue slot => "invalid value for " ++ slot.name

/-- What a server writes for a field that it does not know. -/
def unknownField : String := "[unknown]"

/-- A line that was read by a template. -/
structure Record where
  template : Template
  captures : Captures
  time : Option Instant

namespace Record

/-- The text of a group, empty if the line passed it over. -/
def groupText (r : Record) (number : Nat) : String :=
  String.ofList ((r.captures.text? number).getD [])

/-- The field of a slot, unless it is missing, empty or unknown. -/
def field (r : Record) (slot : Slot) : Except FieldError String :=
  match r.template.group? slot with
  | none => .error (.notConfigured slot)
  | some number =>
    let text := r.groupText number
    if text = "" ∨ text = unknownField then .error (.invalidValue slot) else .ok text

/-- The user of the session. -/
def user (r : Record) : Except FieldError String := r.field .user

/-- The database of the session. -/
def database (r : Record) : Except FieldError String := r.field .database

/-- The client's host, without a port in parentheses. -/
def host (r : Record) : Except FieldError String :=
  (r.field .host).map fun text => String.ofList (text.toList.takeWhile (· != '('))

/-- The client's name for itself. -/
def application (r : Record) : Except FieldError String := r.field .application

/-- The code of the error condition. -/
def errorCode (r : Record) : Except FieldError String := r.field .errorCode

/-- The number of the server process. -/
def processId (r : Record) : Except FieldError String := r.field .processId

/-- The identifier of the session. -/
def sessionId (r : Record) : Except FieldError String := r.field .sessionId

/-- The level of the line. -/
def level (r : Record) : String := r.groupText r.template.levelGroup

/-- The message of the line. -/
def description (r : Record) : String := r.groupText r.template.descriptionGroup

end Record

/-- The instant of a timestamp, in the given style or else in the other one, and the style to try
first next time. -/
def readTime (style : ZoneStyle) (text : List Char) : Option Instant × ZoneStyle :=
  match style.parse text with
  | some t => (some t, style)
  | none => (style.other.parse text, style.other)

/-- Read a line by a template, trying timestamps in `style` first. -/
def Template.read (t : Template) (style : ZoneStyle) (line : String) :
    Except LineError Record × ZoneStyle :=
  if line.toList.head? = some '\t' then (.error .strayContinuation, style)
  else match t.pattern.search line.toList with
    | none => (.error .invalidFormat, style)
    | some captures =>
      match (t.group? .time).bind captures.text? with
      | none => (.ok ⟨t, captures, none⟩, style)
      | some [] => (.ok ⟨t, captures, none⟩, style)
      | some text =>
        match readTime style text with
        | (some time, style) => (.ok ⟨t, captures, some time⟩, style)
        | (none, style) => (.error (.time (String.ofList text)), style)

/-- The record of a line, timestamps being tried with an offset first. -/
def Template.record (t : Template) (line : String) : Except LineError Record :=
  (t.read .numeric line).1

/-- Read lines one after the other, each starting with the style that the one before it left. -/
def Template.readAll (t : Template) :
    ZoneStyle → List String → List (Except LineError Record × ZoneStyle)
  | _, [] => []
  | style, line :: lines =>
    let answer := t.read style line
    answer :: t.readAll answer.2 lines

end LogAudit.Line
