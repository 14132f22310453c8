/-!
# Pools

A pool lends objects and takes them back. An object that comes back is emptied and kept for the
next holder, unless it has grown too large or enough of them are kept already. Holders of leases
act at the same time. What they share are the idle objects, behind a lock, and the number of
objects that were made; every step of a holder is one access to either of them, so a lease that
finds no idle object takes two steps (`Lending.step`).
-/

namespace LogAudit.Resource

/-- Objects that can be used again. -/
class Recycle (α : Type) where
  /-- A new object in which so much fits without growing. -/
  withCapacity : Nat → α
  /-- Take everything out. -/
  clear : α → α
  /-- How much fits in without growing. -/
  capacity : α → Nat
  /-- How much is in an object. -/
  size : α → Nat

/-- Nothing is in new objects and in those that were emptied, and what is emptied does not
shrink. -/
class LawfulRecycle (α : Type) [Recycle α] : Prop where
  size_withCapacity (capacity : Nat) : Recycle.size (Recycle.withCapacity capacity : α) = 0
  size_clear (object : α) : Recycle.size (Recycle.clear object) = 0
  capacity_clear (object : α) : Recycle.capacity (Recycle.clear object) = Recycle.capacity object

/-- A buffer of bytes. A text is held as its bytes. -/
structure Buffer where
  bytes : List UInt8
  /-- How many bytes fit in without growing. -/
  capacity : Nat
  deriving DecidableEq, Repr

namespace Buffer

/-- Add bytes at the end. A buffer that is too small at least doubles. -/
def append (b : Buffer) (bytes : List UInt8) : Buffer :=
  let needed := b.bytes.length + bytes.length
  { bytes := b.bytes ++ bytes
    capacity := if needed ≤ b.capacity then b.capacity else max (max (2 * b.capacity) needed) 8 }

instance : Recycle Buffer where
  withCapacity capacity := ⟨[], capacity⟩
  clear b := { b with bytes := [] }
  capacity := Buffer.capacity
  size b := b.bytes.length

instance : LawfulRecycle Buffer where
  size_withCapacity _ := rfl
  size_clear _ := rfl
  capacity_clear _ := rfl

end Buffer

/-- An object of a pool with the number that it got when it was made. -/
structure Item (α : Type) where
  number : Nat
  object : α
  deriving DecidableEq, Repr

/-- A pool. -/
structure Pool (α : Type) where
  /-- The capacity of new objects. -/
  initialCapacity : Nat
  /-- How many idle objects are kept. -/
  maxRetained : Nat
  /-- The idle objects, the one that came back last in front. -/
  idle : List (Item α)
  /-- How many objects were made. -/
  created : Nat
  deriving DecidableEq, Repr

namespace Pool

variable {α : Type}

/-- A pool that has lent nothing. -/
def new (initialCapacity maxRetained : Nat) : Pool α := ⟨initialCapacity, maxRetained, [], 0⟩

/-- The largest capacity of an object that is kept: four times that of a new one, within 64 bits. -/
def maxCapacity (p : Pool α) : Nat := min (4 * p.initialCapacity) 0xFFFFFFFFFFFFFFFF

/-- Take an idle object, if there is one. -/
def take? (p : Pool α) : Option (Item α × Pool α) :=
  match p.idle with
  | [] => none
  | item :: idle => some (item, { p with idle })

variable [Recycle α]

/-- Make an object and count it. -/
def make (p : Pool α) : Item α × Pool α :=
  (⟨p.created, Recycle.withCapacity p.initialCapacity⟩, { p with created := p.created + 1 })

/-- Empty an object that came back and keep it, unless it is too large or there is no room. -/
def keep? (p : Pool α) (item : Item α) : Option (Pool α) :=
  if p.maxCapacity < Recycle.capacity item.object then none
  else if p.idle.length < p.maxRetained then
    some { p with idle := { item with object := Recycle.clear item.object } :: p.idle }
  else none

end Pool

/-- How far a lease has come. -/
inductive Lease (α : Type) where
  /-- No object was idle, and one is to be made. -/
  | wanting
  /-- The holder has an object. -/
  | held (item : Item α)
  /-- It is over, and the pool has kept the object. -/
  | returned
  /-- It is over, and the object was discarded. -/
  | discarded (item : Item α)
  deriving DecidableEq, Repr

/-- A pool and all leases, in the order in which they were asked for. -/
structure Lending (α : Type) where
  pool : Pool α
  leases : List (Lease α)
  deriving DecidableEq, Repr

namespace Lending

/-- A step of a holder. -/
inductive Move (α : Type) where
  /-- Ask for a lease, and take an idle object if there is one. -/
  | ask
  /-- Make the object of a lease that found none. -/
  | make (lease : Nat)
  /-- Change the object of a lease. -/
  | write (lease : Nat) (change : α → α)
  /-- End a lease. -/
  | release (lease : Nat)

variable {α : Type}

/-- A new pool, of which nothing was asked. -/
def ofLimits (initialCapacity maxRetained : Nat) : Lending α := ⟨.new initialCapacity maxRetained, []⟩

/-- The object that the holder of a lease has. -/
def held? (s : Lending α) (lease : Nat) : Option (Item α) :=
  match s.leases[lease]? with
  | some (.held item) => some item
  | _ => none

variable [Recycle α]

/-- A step of a holder. It changes nothing where it does not apply. -/
def step (s : Lending α) : Move α → Lending α
  | .ask =>
    match s.pool.take? with
    | some (item, pool) => ⟨pool, s.leases ++ [.held item]⟩
    | none => ⟨s.pool, s.leases ++ [.wanting]⟩
  | .make lease =>
    match s.leases[lease]? with
    | some .wanting =>
      let (item, pool) := s.pool.make
      ⟨pool, s.leases.set lease (.held item)⟩
    | _ => s
  | .write lease change =>
    match s.held? lease with
    | some item =>
      ⟨s.pool, s.leases.set lease (.held { item with object := change item.object })⟩
    | none => s
  | .release lease =>
    match s.held? lease with
    | some item =>
      match s.pool.keep? item with
      | some pool => ⟨pool, s.leases.set lease .returned⟩
      | none => ⟨s.pool, s.leases.set lease (.discarded item)⟩
    | none => s

/-- Many steps, one after the other. -/
def after (s : Lending α) (history : List (Move α)) : Lending α := history.foldl step s

/-- A lease that nobody gets in the way of. -/
def lease (s : Lending α) : Lending α := s.after [.ask, .make s.leases.length]

end Lending

end LogAudit.Resource
