/-!
# UTF-8

A sequence of bytes denotes characters by the table of lead bytes: each lead byte fixes how many
bytes follow and which values the second may take. `Utf8.decode?` accepts well-formed text only,
`Utf8.decodeLossy` reads one replacement character for each longest beginning of a sequence that is
not completed.
-/

namespace LogAudit.Text.Utf8

/-- What a lead byte announces: the bits it contributes, the bounds of the second byte, and the
number of bytes after the second. -/
structure Lead where
  bits : Nat
  low : Nat
  high : Nat
  more : Nat

/-- The table of lead bytes; overlong forms, surrogates and values past the last code point are
kept out by the bounds of the second byte. -/
def lead? (b : UInt8) : Option Lead :=
  let n := b.toNat
  if 0xC2 ≤ n && n ≤ 0xDF then some ⟨n - 0xC0, 0x80, 0xBF, 0⟩
  else if n == 0xE0 then some ⟨0, 0xA0, 0xBF, 1⟩
  else if n == 0xED then some ⟨0xD, 0x80, 0x9F, 1⟩
  else if 0xE1 ≤ n && n ≤ 0xEF then some ⟨n - 0xE0, 0x80, 0xBF, 1⟩
  else if n == 0xF0 then some ⟨0, 0x90, 0xBF, 2⟩
  else if 0xF1 ≤ n && n ≤ 0xF3 then some ⟨n - 0xF0, 0x80, 0xBF, 2⟩
  else if n == 0xF4 then some ⟨4, 0x80, 0x8F, 2⟩
  else none

/-- Read `more` continuation bytes onto `acc`; the flag tells whether all of them were there. -/
def continuation : Nat → Nat → List UInt8 → Bool × Nat × List UInt8
  | 0, acc, bytes => (true, acc, bytes)
  | _ + 1, acc, [] => (false, acc, [])
  | more + 1, acc, b :: bytes =>
    if 0x80 ≤ b.toNat && b.toNat ≤ 0xBF then
      continuation more (acc * 64 + (b.toNat - 0x80)) bytes
    else (false, acc, b :: bytes)

/-- Continuation bytes are only taken away. -/
theorem length_continuation (more acc : Nat) (bytes : List UInt8) :
    (continuation more acc bytes).2.2.length ≤ bytes.length := by
  fun_induction continuation more acc bytes <;> simp_all <;> omega

/-- The first character of a non-empty sequence, `none` where it is ill-formed, and the rest. -/
def step (b : UInt8) (bytes : List UInt8) : Option Char × List UInt8 :=
  if b.toNat < 0x80 then (some (Char.ofNat b.toNat), bytes)
  else match lead? b with
    | none => (none, bytes)
    | some lead =>
      match bytes with
      | [] => (none, [])
      | second :: rest =>
        if lead.low ≤ second.toNat && second.toNat ≤ lead.high then
          match continuation lead.more (lead.bits * 64 + (second.toNat - 0x80)) rest with
          | (true, value, rest) => (some (Char.ofNat value), rest)
          | (false, _, rest) => (none, rest)
        else (none, second :: rest)

/-- Reading a character never lengthens what is left. -/
theorem length_step (b : UInt8) (bytes : List UInt8) :
    (step b bytes).2.length ≤ bytes.length := by
  unfold step
  split
  · exact Nat.le_refl _
  · split
    · exact Nat.le_refl _
    · rename_i lead _
      cases bytes with
      | nil => exact Nat.le_refl _
      | cons second rest =>
        dsimp only
        split
        · have h := length_continuation lead.more (lead.bits * 64 + (second.toNat - 0x80)) rest
          split <;> rename_i heq <;> rw [heq] at h <;> simp at h ⊢ <;> omega
        · exact Nat.le_refl _

/-- The characters of a sequence in order, `none` standing for each ill-formed part. -/
def scan : List UInt8 → List (Option Char)
  | [] => []
  | b :: bytes => (step b bytes).1 :: scan (step b bytes).2
termination_by bytes => bytes.length
decreasing_by
  have := length_step b bytes
  simp; omega

/-- Decode, each ill-formed part giving one replacement character. -/
def decodeLossy (bytes : List UInt8) : List Char :=
  (scan bytes).map fun c => c.getD '\uFFFD'

/-- Decode well-formed text; anything else is refused. -/
def decode? (bytes : List UInt8) : Option (List Char) := (scan bytes).mapM id

/-- The bytes of a text. -/
def encode (s : String) : List UInt8 := s.toUTF8.toList

end LogAudit.Text.Utf8
