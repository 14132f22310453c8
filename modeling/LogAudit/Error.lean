import LogAudit.Access.Rule
import LogAudit.Line.Record
import LogAudit.Sql.Pairs

/-!
# Errors

Every failure of the program is one of the causes below, and `Error.message` is its wording.
-/

namespace LogAudit

open LogAudit.Line LogAudit.Sql

/-- Why logging cannot be set up. -/
inductive LogError where
  | io (text : String)
  | config (text : String)
  deriving DecidableEq, Repr

/-- What a computation that was broken off left behind. -/
inductive Payload where
  | text (text : String)
  | other
  deriving DecidableEq, Repr

/-- The causes of failures. -/
inductive Error where
  /-- The operating system refused. -/
  | io (text : String)
  /-- The expression of the template of line prefixes is none; its compiler says why. -/
  | template (text : String)
  /-- A configuration is not written as one; its reader says why. -/
  | configSyntax (text : String)
  /-- A document does not have the form of a configuration; its reader says why. -/
  | document (text : String)
  /-- A configuration is contradictory or incomplete. -/
  | config (text : String)
  /-- A file is not read at all. -/
  | fileRejected (path reason : String)
  /-- Too many lines of a sample are not written by the template. -/
  | validationFailed (path : String) (failed sampled : Nat)
  | line (cause : LineError)
  | extract (cause : ExtractError)
  /-- A computation was broken off. -/
  | fault (text : String)
  | log (cause : LogError)
  | other (text : String)
  deriving DecidableEq, Repr

/-- Why a computation is not finished. -/
inductive Stop where
  /-- It ends with an error. -/
  | refused (cause : Error)
  /-- It is broken off. -/
  | panicked (payload : Payload)
  deriving DecidableEq, Repr

/-- The text of a logging error. -/
def LogError.message : LogError → String
  | io text => "IO错误: " ++ text
  | config text => "日志配置错误: " ++ text

/-- The text that a broken computation left, or that it left none. -/
def Payload.message : Payload → String
  | text t => t
  | other => "unknown panic payload"

namespace Error

/-- The error of a computation that was broken off. -/
def ofPayload (payload : Payload) : Error := fault payload.message

/-- The text of an error. -/
def message : Error → String
  | io text => "IO错误: " ++ text
  | template text => "正则表达式错误: " ++ text
  | configSyntax text => "配置文件解析错误: " ++ text
  | document text => "JSON错误: " ++ text
  | config text => "配置错误: " ++ text
  | fileRejected path reason => "文件被拒绝 " ++ path ++ ": " ++ reason
  | validationFailed path failed sampled =>
    "logline prefix is wrong: " ++ path ++ " (" ++ toString failed ++ "/" ++ toString sampled
      ++ " sampled lines failed)"
  | line cause => cause.message
  | extract cause => cause.message
  | fault text => "处理单元异常终止: " ++ text
  | log cause => "日志错误: " ++ cause.message
  | other text => "未知错误: " ++ text

/-- The operating system refused. -/
def isIo : Error → Bool
  | io _ => true
  | _ => false

/-- The configuration is to blame. -/
def isConfig : Error → Bool
  | config _ => true
  | _ => false

/-- A file is not read. -/
def isFileRejected : Error → Bool
  | fileRejected _ _ => true
  | _ => false

/-- A sample of lines is not written by the template. -/
def isValidationFailed : Error → Bool
  | validationFailed _ _ _ => true
  | _ => false

/-- A line gives no record. -/
def isLine : Error → Bool
  | line _ => true
  | _ => false

/-- A computation was broken off. -/
def isFault : Error → Bool
  | fault _ => true
  | _ => false

/-- The word for the kind of an error in the error file. -/
def kind : Error → String
  | fileRejected _ _ => "file_rejected"
  | validationFailed _ _ _ => "validation_failed"
  | fault _ => "fault"
  | io _ => "io"
  | line _ => "line"
  | extract _ => "extract"
  | _ => "other"

end Error

end LogAudit
