import LogAudit.Document

/-!
# Tables of a TOML document

A table may be opened by a header, by the keys of other tables, or only on the way to another one.
How it was opened decides what may still be added to it: a header opens a table once, and keys with
points add only to tables that such keys opened.
-/

namespace LogAudit.Toml

/-- What stands under a key. -/
inductive Item where
  /-- A finished value. -/
  | value (document : Document)
  /-- A table; `onTheWay` if no header opened it, `byKey` if a key with points did. -/
  | table (onTheWay byKey : Bool) (entries : List (String × Item))
  /-- Tables that share a header in double brackets. -/
  | tables (elements : List (List (String × Item)))

/-- The items of a table by their keys. -/
abbrev Entries := List (String × Item)

namespace Entries

/-- The item under a key. -/
def find? (entries : Entries) (key : String) : Option Item := entries.lookup key

/-- Put an item under a key. -/
def put (entries : Entries) (key : String) (item : Item) : Entries :=
  if (entries.find? key).isSome then
    entries.map fun entry => if entry.1 == key then (key, item) else entry
  else entries ++ [(key, item)]

/-- Take away what stands under a key. -/
def remove (entries : Entries) (key : String) : Entries := entries.filter (·.1 != key)

/-- Change the table at the end of a path, opening the tables on the way. The change is told whether
a key with points opened the table; `byKey` says that the path is such a key itself. -/
def descend (byKey : Bool) (change : Bool → Entries → Option Entries) :
    List String → Bool → Entries → Option Entries
  | [], opened, entries => change opened entries
  | key :: path, _, entries =>
    match entries.find? key with
    | none => do
      let inner ← descend byKey change path byKey []
      return entries.put key (.table true byKey inner)
    | some (.value _) => none
    | some (.tables elements) =>
      match elements.getLast? with
      | none => none
      | some last => do
        let inner ← descend byKey change path false last
        return entries.put key (.tables (elements.dropLast ++ [inner]))
    | some (.table onTheWay opened inner) =>
      if byKey && !onTheWay then none
      else do
        let inner ← descend byKey change path opened inner
        return entries.put key (.table onTheWay opened inner)

/-- Put a value under a key whose last part is `name`. Nothing may stand there yet. -/
def assign (entries : Entries) (path : List String) (name : String) (document : Document) :
    Option Entries :=
  entries.descend true
    (fun opened inner =>
      if opened == path.isEmpty || (inner.find? name).isSome then none
      else some (inner.put name (.value document)))
    path false

end Entries

mutual

/-- The document of an item. -/
def Item.toDocument : Item → Document
  | .value document => document
  | .table _ _ entries => .table (Item.entriesToDocuments entries)
  | .tables elements => .list (Item.elementsToDocuments elements)

/-- The documents of entries. -/
def Item.entriesToDocuments : List (String × Item) → List (String × Document)
  | [] => []
  | (key, item) :: entries => (key, item.toDocument) :: Item.entriesToDocuments entries

/-- The documents of tables. -/
def Item.elementsToDocuments : List (List (String × Item)) → List Document
  | [] => []
  | entries :: elements =>
    .table (Item.entriesToDocuments entries) :: Item.elementsToDocuments elements

end

/-- A document that is being read: the tables that are finished, the path of the table that is being
filled, whether it is one of several with its header, and its entries so far. -/
structure Progress where
  finished : Entries
  path : List String
  several : Bool
  current : Entries

namespace Progress

/-- Nothing has been read. -/
def start : Progress := ⟨[], [], false, []⟩

/-- Add an entry to the table that is being filled. -/
def assign (p : Progress) (path : List String) (name : String) (document : Document) :
    Option Progress := do
  return { p with current := ← p.current.assign path name document }

/-- Finish the table that is being filled. -/
def finish (p : Progress) : Option Entries :=
  match p.path.getLast? with
  | none => some p.current
  | some name =>
    p.finished.descend false
      (fun _ inner =>
        if p.several then
          match inner.find? name with
          | some (.tables elements) => some (inner.put name (.tables (elements ++ [p.current])))
          | some _ => none
          | none => some (inner.put name (.tables [p.current]))
        else some (inner.put name (.table false false p.current)))
      p.path.dropLast false

/-- Open a table by its header. A table that was opened only on the way keeps its entries. -/
def openTable (p : Progress) (path : List String) : Option Progress := do
  let finished ← p.finish
  let name ← path.getLast?
  let found ← findUnder finished path.dropLast name
  let opened ← match found with
    | none => some []
    | some (.table true false entries) => some entries
    | some _ => none
  let finished ←
    finished.descend false (fun _ inner => some (inner.remove name)) path.dropLast false
  return ⟨finished, path, false, opened⟩
where
  /-- The item under a name in the table at the end of a path; `none` if the path leads through a
  value. -/
  findUnder : Entries → List String → String → Option (Option Item)
    | entries, [], name => some (entries.find? name)
    | entries, key :: path, name =>
      match entries.find? key with
      | none => some none
      | some (.value _) => none
      | some (.tables elements) => (elements.getLast?).bind fun last => findUnder last path name
      | some (.table _ _ inner) => findUnder inner path name

/-- Open one more table by a header in double brackets. -/
def openElement (p : Progress) (path : List String) : Option Progress := do
  let finished ← p.finish
  let name ← path.getLast?
  let finished ← finished.descend false
    (fun _ inner =>
      match inner.find? name with
      | none => some (inner.put name (.tables []))
      | some (.tables _) => some inner
      | some _ => none)
    path.dropLast false
  return ⟨finished, path, true, []⟩

end Progress

end LogAudit.Toml
