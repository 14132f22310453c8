/-!
# Files and directories

A tree of files as a value, with the operations that a run needs: looking a path up, creating the
directories of a path, and opening a file for adding to its end. Paths have slashes between their
parts and start at the root of the tree.
-/

namespace LogAudit

/-- Why the operating system refuses. -/
inductive OsError where
  | notFound
  | fileExists
  | notDirectory
  | isDirectory
  /-- Anything else, with its text. -/
  | other (text : String)
  deriving DecidableEq, Repr

/-- The text of the refusal, with its number. -/
def OsError.message : OsError → String
  | notFound => "No such file or directory (os error 2)"
  | fileExists => "File exists (os error 17)"
  | notDirectory => "Not a directory (os error 20)"
  | isDirectory => "Is a directory (os error 21)"
  | other text => text

/-- What stands under a path. -/
inductive Node where
  | file (content : List UInt8)
  | folder
  deriving DecidableEq, Repr

/-- A tree of files: what stands under each path below the root. -/
structure Disk where
  nodes : List (List String × Node)
  deriving DecidableEq, Repr

namespace Disk

/-- The tree without files. -/
def empty : Disk := ⟨[]⟩

/-- What stands under a place. The root is a directory. -/
def node? (d : Disk) (place : List String) : Option Node :=
  if place.isEmpty then some .folder else d.nodes.lookup place

/-- Put something under a place. -/
def put (d : Disk) (place : List String) (node : Node) : Disk :=
  ⟨(place, node) :: d.nodes.filter (·.1 != place)⟩

/-- The parts of a path. -/
def parts (path : String) : List String := path.splitToList (· == '/')

/-- Follow the parts of a path from a place. -/
def follow (d : Disk) : List String → List String → Except OsError (List String)
  | place, [] => .ok place
  | place, part :: rest =>
    match d.node? place with
    | none => .error .notFound
    | some (.file _) => .error .notDirectory
    | some .folder =>
      if part = "" ∨ part = "." then follow d place rest
      else if part = ".." then follow d place.dropLast rest
      else if (d.node? (place ++ [part])).isSome then follow d (place ++ [part]) rest
      else .error .notFound

/-- The place of a path at which something stands. -/
def place (d : Disk) (path : String) : Except OsError (List String) :=
  if path = "" then .error .notFound else d.follow [] (parts path)

/-- What stands under a path. -/
def open? (d : Disk) (path : String) : Except OsError Node := do
  let place ← d.place path
  match d.node? place with
  | some node => .ok node
  | none => .error .notFound

/-- Create the missing directories on the way along the parts of a path. -/
def makeAlong (d : Disk) : List String → List String → Except OsError Disk
  | _, [] => .ok d
  | place, part :: rest =>
    if part = "" ∨ part = "." then makeAlong d place rest
    else if part = ".." then makeAlong d place.dropLast rest
    else
      let next := place ++ [part]
      match d.node? next with
      | some .folder => makeAlong d next rest
      | some (.file _) =>
        .error (if rest.all (· == "") then .fileExists else .notDirectory)
      | none => makeAlong (d.put next .folder) next rest

/-- Create the directory of a path and all above it. -/
def makeFolders (d : Disk) (path : String) : Except OsError Disk := d.makeAlong [] (parts path)

/-- Parts without those at the end that name nothing: empty ones and points. -/
def trimParts (parts : List String) : List String :=
  (parts.reverse.dropWhile fun part => part == "" || part == ".").reverse

/-- The directory in which the last part of a path stands, if the path names one. It starts at the
root if the path does. -/
def folder? (path : String) : Option String :=
  match parts path with
  | [] => none
  | first :: others =>
    match trimParts others with
    | [] => none
    | named =>
      let folder := trimParts named.dropLast
      if first = "" ∧ folder = [] then some "/" else some ("/".intercalate (first :: folder))

/-- Open a file for adding to its end, creating it if it is missing, and tell its place. A path that
ends with a slash can only be that of a directory. -/
def openForAdding (d : Disk) (path : String) : Except OsError (Disk × List String) :=
  if path = "" then .error .notFound
  else match (parts path).reverse.dropWhile (· == "") with
    | [] => .error .isDirectory
    | last :: front => do
      let folder ← d.follow [] front.reverse
      match d.node? folder with
      | some .folder =>
        if (parts path).getLast? = some "" ∨ last = "." ∨ last = ".." then .error .isDirectory
        else
          let place := folder ++ [last]
          match d.node? place with
          | some .folder => .error .isDirectory
          | some (.file _) => .ok (d, place)
          | none => .ok (d.put place (.file []), place)
      | _ => .error .notDirectory

/-- Add content to the end of the file of a path. -/
def add (d : Disk) (path : String) (content : List UInt8) : Except OsError Disk := do
  let (d, place) ← d.openForAdding path
  match d.node? place with
  | some (.file old) => return d.put place (.file (old ++ content))
  | _ => return d

/-- A file stands directly in the directory of a path. -/
def holdsFile (d : Disk) (path : String) : Bool :=
  match d.place path with
  | .ok place => d.nodes.any fun (p, node) =>
    p.dropLast == place && (match node with
      | .file _ => true
      | .folder => false)
  | .error _ => false

end Disk

end LogAudit
