import LogAudit.Network.Address

/-!
# Blocks of addresses

A block is the addresses of one family that share their first bits with a given address. It is
written as an address and a number of bits, or as an address and a mask of that many ones.
-/

namespace LogAudit.Network

/-- The addresses of the family of `address` that agree with it in the first `length` bits. -/
structure Block where
  address : Address
  length : Nat
  deriving DecidableEq, Repr

namespace Block

/-- The address belongs to the block. -/
def contains (block : Block) (address : Address) : Bool :=
  match block.address, address with
  | .v4 a, .v4 b => a >>> (32 - block.length) == b >>> (32 - block.length)
  | .v6 a, .v6 b => a >>> (128 - block.length) == b >>> (128 - block.length)
  | _, _ => false

/-- An address, a slash and a number of bits, which has at most two or three digits. Numbers may
have zeros in front. -/
def parse? (text : String) : Option Block :=
  let s := text.toList
  let v4 : Option Block := do
    let (n, s) ← Address.dotted true s
    let (length, s) ← Address.number 10 2 (← Address.mark '/' s)
    if length ≤ 32 && s.isEmpty then some ⟨.v4 (.ofNat 32 n), length⟩ else none
  let v6 : Option Block := do
    let (n, s) ← Address.grouped true (8 - ·) s
    let (length, s) ← Address.number 10 3 (← Address.mark '/' s)
    if length ≤ 128 && s.isEmpty then some ⟨.v6 (.ofNat 128 n), length⟩ else none
  v4.orElse fun _ => v6

/-- The mask of `length` ones in front. -/
def mask (width length : Nat) : BitVec width := BitVec.allOnes width <<< (width - length)

/-- The number of ones of a mask that has them all in front. -/
def maskLength? {width : Nat} (bits : BitVec width) : Option Nat :=
  (List.range (width + 1)).find? fun length => mask width length == bits

/-- The block of an address and a mask of the same family. -/
def ofMask? (address mask : Address) : Option Block :=
  match address, mask with
  | .v4 _, .v4 bits => (maskLength? bits).map (⟨address, ·⟩)
  | .v6 _, .v6 bits => (maskLength? bits).map (⟨address, ·⟩)
  | _, _ => none

end Block

end LogAudit.Network
