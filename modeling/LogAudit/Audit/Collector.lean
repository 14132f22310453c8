import LogAudit.Audit.Personal

/-!
# Collecting personal data

A collector takes statements one after the other. It asks a detector for the label of each pair of a
statement and keeps the labelled pairs in a table behind a lock. The lock is taken only when every
answer is there, so that nothing can break off while it is held.
-/

namespace LogAudit.Audit

open LogAudit.Sql

/-- A detector that may remember what it was asked: it is given the earlier pairs, the last one
first. -/
abbrev Adviser := List Pair → Detector

/-- A pair with the label that it is given, if that is one. An empty label is none. -/
def Labelled.of? (pair : Pair) : Option String → Option Labelled
  | none => none
  | some label => if label = "" then none else some ⟨label, pair⟩

/-- A value behind a lock. -/
structure Guarded (α : Type) where
  value : α
  /-- Somebody broke off while holding the lock. Nobody gets it any more. -/
  poisoned : Bool

namespace Guarded

variable {α : Type}

/-- Work on the value while holding the lock. What was done before breaking off stays. -/
def hold (g : Guarded α) (work : α → α × Except Stop Unit) : Guarded α :=
  if g.poisoned then g
  else match work g.value with
    | (value, .error (.panicked _)) => ⟨value, true⟩
    | (value, _) => ⟨value, false⟩

/-- What is seen of the value by taking the lock, or else a default. -/
def read (g : Guarded α) (default : α) : α := if g.poisoned then default else g.value

end Guarded

/-- What was asked so far, the last pair first, and the labelled pairs. -/
structure Collector where
  asked : List Pair
  kept : Guarded LabelTable

namespace Collector

/-- Nothing was asked yet. -/
def fresh : Collector := ⟨[], ⟨∅, false⟩⟩

/-- The labels with their pairs. -/
def labels (c : Collector) : LabelTable := c.kept.read ∅

/-- Ask for the label of a pair. -/
def ask (adviser : Adviser) (c : Collector) (pair : Pair) :
    Collector × Except Stop (Option String) :=
  ({ c with asked := pair :: c.asked }, adviser c.asked pair.column pair.value)

/-- Ask for the labels of pairs in order, as long as there are answers. -/
def askAll (adviser : Adviser) : Collector → List Pair → Collector × Except Stop (List Labelled)
  | c, [] => (c, .ok [])
  | c, pair :: pairs =>
    match c.ask adviser pair with
    | (c, .error stop) => (c, .error stop)
    | (c, .ok label) =>
      let (c, others) := askAll adviser c pairs
      (c, others.map ((Labelled.of? pair label).toList ++ ·))

/-- Put labelled pairs into the table, in order. -/
def keep (c : Collector) (labelled : List Labelled) : Collector :=
  { c with kept := c.kept.hold fun table => (labelled.foldl LabelTable.add table, .ok ()) }

/-- Take a statement. -/
def process (adviser : Adviser) (c : Collector) (sql : String) : Collector × Except Stop Unit :=
  if sql = "" then (c, .ok ())
  else match extract Statement.readAll sql with
    | .error cause => (c, .error (.refused (.extract cause)))
    | .ok found => match c.askAll adviser found.pairs with
      | (c, .error stop) => (c, .error stop)
      | (c, .ok labelled) => (if labelled.isEmpty then c else c.keep labelled, .ok ())

/-- Take statements in order, whatever becomes of each. -/
def processAll (adviser : Adviser) (c : Collector) (statements : List String) : Collector :=
  statements.foldl (fun c sql => (c.process adviser sql).1) c

end Collector

end LogAudit.Audit
