import LogAudit.Disk

/-!
# Machines

What a program needs of the machine that it runs on: files and a clock. A tree of files as a value
is a machine too, one on which no time passes.
-/

namespace LogAudit

/-- Programs of type `m α` run on a machine with files and a clock. -/
class Machine (m : Type → Type) where
  /-- What stands under a path. -/
  open? : String → m (Except OsError Node)
  /-- Create the directory of a path and all above it. -/
  makeFolders : String → m (Except OsError Unit)
  /-- Add content to the end of a file, creating the file if it is missing. -/
  add : String → List UInt8 → m (Except OsError Unit)
  /-- The microseconds since some moment. -/
  micros : m Nat

namespace Disk

/-- Change a tree of files, or leave it as it is where that is refused. -/
def change (act : Disk → Except OsError Disk) : StateM Disk (Except OsError Unit) := fun d =>
  match act d with
  | .ok changed => (.ok (), changed)
  | .error refusal => (.error refusal, d)

end Disk

instance : Machine (StateM Disk) where
  open? path := fun d => (d.open? path, d)
  makeFolders path := Disk.change (·.makeFolders path)
  add path content := Disk.change (·.add path content)
  micros := fun d => (0, d)

namespace Machine

variable {m : Type → Type} [Monad m] [Machine m]

/-- The content of a file. -/
def read (path : String) : m (Except OsError (List UInt8)) := do
  match ← open? path with
  | .ok (.file content) => return .ok content
  | .ok .folder => return .error .isDirectory
  | .error refusal => return .error refusal

/-- Make a file ready for adding to, with the directories above it if its path names any. -/
def prepare (path : String) : m (Except OsError Unit) := do
  match Disk.folder? path with
  | none => add path []
  | some folder =>
    match ← makeFolders folder with
    | .error refusal => return .error refusal
    | .ok () => add path []

end Machine

end LogAudit
