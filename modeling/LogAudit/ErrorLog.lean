import LogAudit.Error
import LogAudit.Json
import LogAudit.Machine
import LogAudit.Text.Utf8

/-!
# The error file

Failures are written down as one JSON object a line: the path of the file that they are about, the
kind and the text of the error, and for the failure of a line the line itself. The file is only ever
added to.
-/

namespace LogAudit

/-- A failure of a file or of a line in it. -/
structure ErrorRecord where
  path : String
  /-- The line, if the failure is one of a line. -/
  line : Option String
  error : Error
  deriving DecidableEq, Repr

namespace ErrorRecord

/-- The object of a failure, with its fields in alphabetical order. -/
def toJson (r : ErrorRecord) : Json :=
  .record ([("error", .text r.error.message), ("kind", .text r.error.kind)]
    ++ (r.line.map fun line => ("line", Json.text line)).toList ++ [("path", .text r.path)])

/-- The line of a failure. -/
def toLine (r : ErrorRecord) : String := r.toJson.compact ++ "\n"

end ErrorRecord

variable {m : Type → Type} [Monad m] [Machine m]

/-- Add a failure to the error file of a path. A failure to write it down is passed over. -/
def writeRecord (path : String) (r : ErrorRecord) : m Unit := do
  let _ ← Machine.add path (Text.Utf8.encode r.toLine)

/-- Add failures to the error file of a path, one after the other. -/
def writeErrors (path : String) (records : List ErrorRecord) : m Unit :=
  forM records (writeRecord path)

end LogAudit
