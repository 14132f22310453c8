/-!
# Gates

A gate lets a limited number of workers in at a time. Whoever gets in holds a permit and gives it
back when leaving. The gate only counts; `Admission` keeps the permits beside it.
-/

namespace LogAudit.Resource

/-- A gate with its limit, the number of workers inside, and the largest number that ever was. -/
structure Gate where
  limit : Nat
  inFlight : Nat
  peak : Nat
  deriving DecidableEq, Repr

namespace Gate

/-- An empty gate. At least one worker can get in. -/
def ofLimit (limit : Nat) : Gate := ⟨max limit 1, 0, 0⟩

/-- Take a place inside if there is room. -/
def take? (g : Gate) : Option Gate :=
  if g.inFlight < g.limit then some { g with inFlight := g.inFlight + 1 } else none

/-- Note how many workers are inside. -/
def mark (g : Gate) : Gate := { g with peak := max g.peak g.inFlight }

/-- Let a worker in if there is room. -/
def enter? (g : Gate) : Option Gate := g.take?.map mark

/-- Let a worker out. -/
def leave (g : Gate) : Gate := { g with inFlight := g.inFlight - 1 }

end Gate

/-- A gate and the permits that were asked for, in order, each with the flag that it is held. -/
structure Admission where
  gate : Gate
  permits : List Bool
  deriving DecidableEq, Repr

namespace Admission

/-- A gate that nobody has asked for a permit. -/
def ofLimit (limit : Nat) : Admission := ⟨.ofLimit limit, []⟩

/-- Ask for a permit without waiting, and tell whether it was given. A refusal has a place among the
permits too. -/
def tryAcquire (a : Admission) : Admission × Bool :=
  match a.gate.enter? with
  | some gate => (⟨gate, a.permits ++ [true]⟩, true)
  | none => (⟨a.gate, a.permits ++ [false]⟩, false)

/-- Ask for a permit; nothing where that has to wait. -/
def acquire? (a : Admission) : Option Admission :=
  a.gate.enter?.map fun gate => ⟨gate, a.permits ++ [true]⟩

/-- Give a permit back, and tell whether it was held. -/
def release (a : Admission) (permit : Nat) : Admission × Bool :=
  if a.permits[permit]? = some true then (⟨a.gate.leave, a.permits.set permit false⟩, true)
  else (a, false)

end Admission

end LogAudit.Resource
