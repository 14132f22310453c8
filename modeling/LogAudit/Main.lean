import LogAudit.CommandLine

/-!
# The program

The command line on a real machine.
-/

namespace LogAudit

/-- The refusal that an error of the operating system stands for. -/
def OsError.ofIo : IO.Error → OsError
  | .noFileOrDirectory _ _ _ => notFound
  | .alreadyExists _ _ _ => fileExists
  | .inappropriateType _ code _ => if code = 21 then isDirectory else notDirectory
  | error => other (toString error)

/-- Do something, or tell the refusal. -/
def attempt {α : Type} (act : IO α) : IO (Except OsError α) := do
  try
    return .ok (← act)
  catch error => return .error (.ofIo error)

instance : Machine IO where
  open? path := do
    match ← attempt (IO.FS.readBinFile path) with
    | .ok content => return .ok (.file content.toList)
    | .error .isDirectory => return .ok .folder
    | .error refusal => return .error refusal
  makeFolders path := if path = "" then return .ok () else attempt (IO.FS.createDirAll path)
  add path content := attempt do
    let file ← IO.FS.Handle.mk path .append
    file.write ⟨content.toArray⟩
  micros := return (← IO.monoNanosNow) / 1000

end LogAudit

open LogAudit in
/-- Run the program. -/
def main (args : List String) : IO UInt32 := do
  let ending ← CommandLine.run args Audit.columnNames false
  if let some summary := ending.summary then
    IO.println (summary.toJson.pretty 0)
  for complaint in ending.complaints do
    IO.eprintln complaint
  return ending.status.toUInt32
