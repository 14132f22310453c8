/-!
# Documents

What configurations are written in: values of a few kinds, lists of them and tables with named
entries. The two notations that configurations come in are read into documents, and a configuration
is read off a document.
-/

namespace LogAudit

/-- A value in a configuration. -/
inductive Document where
  | null
  | truth (value : Bool)
  | whole (value : Int)
  /-- A number that is not written as a whole one. -/
  | fraction
  | text (value : String)
  /-- A date or a time, written without quotes. -/
  | time
  | list (items : List Document)
  | table (entries : List (String × Document))

namespace Document

/-- The entry of a table under a name. -/
def field? (entries : List (String × Document)) (name : String) : Option Document :=
  entries.lookup name

/-- The entries of a structure with these names. A list gives them in order. -/
def entries? (names : List String) : Document → Option (List (String × Document))
  | table entries => some entries
  | list items => if items.length ≤ names.length then some (names.zip items) else none
  | _ => none

/-- A text. -/
def text? : Document → Option String
  | text value => some value
  | _ => none

/-- A truth value. -/
def truth? : Document → Option Bool
  | truth value => some value
  | _ => none

/-- A whole number that fits into 64 bits without a sign. -/
def natural? : Document → Option Nat
  | whole value => if 0 ≤ value && value < 0x10000000000000000 then some value.toNat else none
  | _ => none

/-- A list whose items are all read. -/
def list? {α : Type} (item : Document → Option α) : Document → Option (List α)
  | list items => items.mapM item
  | _ => none

/-- A value that may be null. -/
def nullable {α : Type} (read : Document → Option α) : Document → Option (Option α)
  | null => some none
  | document => (read document).map some

/-- An entry that must be there. -/
def required {α : Type} (entries : List (String × Document)) (name : String)
    (read : Document → Option α) : Option α := (field? entries name).bind read

/-- An entry that has a default. -/
def withDefault {α : Type} (entries : List (String × Document)) (name : String)
    (read : Document → Option α) (default : α) : Option α :=
  match field? entries name with
  | some document => read document
  | none => some default

end Document

end LogAudit
