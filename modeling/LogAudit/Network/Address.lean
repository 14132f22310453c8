/-!
# Internet addresses

Addresses of both families as bit vectors, with their written forms: four decimal numbers with
points, and up to eight hexadecimal groups with colons, one run of which may be left out and whose
last two may be written as four decimal numbers.
-/

namespace LogAudit.Network

/-- An address of either family. -/
inductive Address where
  | v4 (bits : BitVec 32)
  | v6 (bits : BitVec 128)
  deriving DecidableEq, Repr

namespace Address

/-- The value of a digit of a base up to sixteen. -/
def digit? (base : Nat) (c : Char) : Option Nat :=
  let value :=
    if c.isDigit then c.toNat - 48
    else if 'a' ≤ c && c ≤ 'f' then c.toNat - 87
    else if 'A' ≤ c && c ≤ 'F' then c.toNat - 55
    else base
  if value < base then some value else none

/-- A character is a digit of a base. -/
def isDigit (base : Nat) (c : Char) : Bool := (digit? base c).isSome

/-- A number of at most `width` digits. -/
def number (base width : Nat) (s : List Char) : Option (Nat × List Char) :=
  let digits := s.takeWhile (isDigit base)
  if digits.isEmpty || width < digits.length then none
  else some (digits.foldl (fun n c => n * base + (digit? base c).getD 0) 0,
    s.dropWhile (isDigit base))

/-- A decimal number below 256. Unless `zeros` allows it, it has no needless zero in front. -/
def octet (zeros : Bool) (s : List Char) : Option (Nat × List Char) := do
  let (n, rest) ← number 10 3 s
  if n < 256 && (zeros || s.head? != some '0' || s.length == rest.length + 1) then some (n, rest)
  else none

/-- A fixed character. -/
def mark (c : Char) : List Char → Option (List Char)
  | d :: s => if d == c then some s else none
  | [] => none

/-- Four decimal numbers with points between them, as one number. -/
def dotted (zeros : Bool) (s : List Char) : Option (Nat × List Char) := do
  let (a, s) ← octet zeros s
  let (b, s) ← octet zeros (← mark '.' s)
  let (c, s) ← octet zeros (← mark '.' s)
  let (d, s) ← octet zeros (← mark '.' s)
  return (((a * 256 + b) * 256 + c) * 256 + d, s)

/-- Up to `limit` hexadecimal groups with colons between them. The last two may be written as four
decimal numbers, which the flag tells. -/
def groups (zeros : Bool) : Nat → Bool → List Char → List Nat × Bool × List Char
  | 0, _, s => ([], false, s)
  | limit + 1, first, s =>
    let start := if first then some s else mark ':' s
    match (if limit = 0 then none else start.bind (dotted zeros)) with
    | some (n, rest) => ([n / 65536, n % 65536], true, rest)
    | none =>
      match start.bind (number 16 4) with
      | some (n, rest) =>
        let (others, embedded, rest) := groups zeros limit false rest
        (n :: others, embedded, rest)
      | none => ([], false, s)

/-- The number written by groups of sixteen bits. -/
def ofGroups (groups : List Nat) : Nat := groups.foldl (fun n g => n * 65536 + g) 0

/-- Eight groups, or fewer with two colons for the missing ones. After the colons at most `left h`
groups may follow if `h` stand before them. -/
def grouped (zeros : Bool) (left : Nat → Nat) (s : List Char) : Option (Nat × List Char) :=
  let (head, embedded, s) := groups zeros 8 true s
  if head.length = 8 then some (ofGroups head, s)
  else if embedded then none
  else do
    let s ← mark ':' s
    let s ← mark ':' s
    let (tail, _, s) := groups zeros (left head.length) true s
    return (ofGroups (head ++ List.replicate (8 - head.length - tail.length) 0 ++ tail), s)

/-- An address. The two colons stand for at least one group. -/
def parse? (text : String) : Option Address :=
  let s := text.toList
  match dotted false s with
  | some (n, []) => some (.v4 (.ofNat 32 n))
  | _ =>
    match grouped false (7 - ·) s with
    | some (n, []) => some (.v6 (.ofNat 128 n))
    | _ => none

/-- The address is one of the host itself. -/
def isLoopback : Address → Bool
  | v4 bits => bits >>> 24 == 127
  | v6 bits => bits == 1

/-- The address is of a network that is not public. -/
def isPrivate : Address → Bool
  | v4 bits => bits >>> 24 == 10 || bits >>> 20 == 0xAC1 || bits >>> 16 == 0xC0A8
  | v6 _ => false

end Address

end LogAudit.Network
