import LogAudit.Json

/-!
# Reading objects of texts

The objects that are read have texts for values. Their texts may use every escape, with two code
units for a character past the first plane, and there may be blanks between the parts.
-/

namespace LogAudit.Json

/-- The value of a digit of base sixteen. -/
def hexValue? (c : Char) : Option Nat :=
  if '0' ≤ c ∧ c ≤ '9' then some (c.toNat - 48)
  else if 'a' ≤ c ∧ c ≤ 'f' then some (c.toNat - 87)
  else if 'A' ≤ c ∧ c ≤ 'F' then some (c.toNat - 55)
  else none

/-- The code unit of four digits. -/
def unit? (a b c d : Char) : Option Nat :=
  match hexValue? a, hexValue? b, hexValue? c, hexValue? d with
  | some a, some b, some c, some d => some (((a * 16 + b) * 16 + c) * 16 + d)
  | _, _, _, _ => none

/-- The character of a short escape. -/
def shortEscape? : Char → Option Char
  | '"' => some '"'
  | '\\' => some '\\'
  | '/' => some '/'
  | 'b' => some '\x08'
  | 'f' => some '\x0c'
  | 'n' => some '\n'
  | 'r' => some '\r'
  | 't' => some '\t'
  | _ => none

/-- The character of a code unit that stands alone. -/
def alone? (unit : Nat) : Option Char :=
  if 0xD800 ≤ unit ∧ unit ≤ 0xDFFF then none else some (Char.ofNat unit)

/-- The character of two code units. -/
def paired? (high low : Nat) : Option Char :=
  if 0xD800 ≤ high ∧ high ≤ 0xDBFF ∧ 0xDC00 ≤ low ∧ low ≤ 0xDFFF then
    some (Char.ofNat (0x10000 + (high - 0xD800) * 0x400 + (low - 0xDC00)))
  else none

/-- Put a character before the text that was read. -/
def prepend (c : Char) : List Char × List Char → List Char × List Char
  | (chars, rest) => (c :: chars, rest)

/-- Read a text up to the quote that ends it. -/
def readText : List Char → Option (List Char × List Char)
  | '"' :: rest => some ([], rest)
  | '\\' :: 'u' :: a :: b :: c :: d :: rest =>
    match (unit? a b c d).bind alone? with
    | some char => (readText rest).map (prepend char)
    | none =>
      match unit? a b c d, rest with
      | some high, '\\' :: 'u' :: a :: b :: c :: d :: rest =>
        match (unit? a b c d).bind (paired? high) with
        | some char => (readText rest).map (prepend char)
        | none => none
      | _, _ => none
  | '\\' :: c :: rest =>
    match shortEscape? c with
    | some char => (readText rest).map (prepend char)
    | none => none
  | c :: rest => if c.toNat < 32 then none else (readText rest).map (prepend c)
  | [] => none

/-- Leave blanks out. -/
def skipSpace (chars : List Char) : List Char :=
  chars.dropWhile fun c => c == ' ' || c == '\n' || c == '\r' || c == '\t'

/-- Read a text with its quotes, and leave out the blanks after it. -/
def readQuoted : List Char → Option (List Char × List Char)
  | '"' :: chars => (readText chars).map fun (inside, rest) => (inside, skipSpace rest)
  | _ => none

/-- Read a name and the text that it has, and leave out the blanks after it. -/
def readMember (chars : List Char) : Option ((String × String) × List Char) :=
  match readQuoted chars with
  | some (name, ':' :: rest) => (readQuoted (skipSpace rest)).map fun (value, rest) =>
    ((String.ofList name, String.ofList value), rest)
  | _ => none

theorem length_skipSpace (chars : List Char) : (skipSpace chars).length ≤ chars.length :=
  (List.dropWhile_sublist _).length_le

/-- What is left after a text is shorter. -/
theorem length_readText {chars inside rest : List Char}
    (h : readText chars = some (inside, rest)) : rest.length < chars.length := by
  have hmap : ∀ {c : Char} {result : Option (List Char × List Char)} {length : Nat},
      (∀ {inside rest}, result = some (inside, rest) → rest.length < length) →
      ∀ {inside rest}, result.map (prepend c) = some (inside, rest) → rest.length < length := by
    intro c result length ih inside rest h
    obtain ⟨⟨_, _⟩, hread, h⟩ := Option.map_eq_some_iff.1 h
    obtain ⟨-, rfl⟩ := Prod.mk.inj h
    exact ih hread
  fun_induction readText chars generalizing inside rest with
  | case1 rest' =>
    obtain ⟨-, rfl⟩ := Prod.mk.inj (Option.some.inj h)
    simp
  | case2 a b c d rest' char _ ih | case3 a b c d _ high a' b' c' d' rest' _ char _ ih
  | case6 c rest' _ char _ ih | case9 c rest' _ _ _ _ ih =>
    have hless := hmap ih h
    simp only [List.length_cons]
    omega
  | _ => exact absurd h nofun

theorem length_readQuoted {chars inside rest : List Char}
    (h : readQuoted chars = some (inside, rest)) : rest.length < chars.length := by
  unfold readQuoted at h
  split at h
  · obtain ⟨⟨_, left⟩, hread, h⟩ := Option.map_eq_some_iff.1 h
    obtain ⟨-, rfl⟩ := Prod.mk.inj h
    have hless := length_readText hread
    have hskip := length_skipSpace left
    simp only [List.length_cons]
    omega
  · exact absurd h nofun

/-- What is left after a member is shorter. -/
theorem length_readMember {chars rest : List Char} {member : String × String}
    (h : readMember chars = some (member, rest)) : rest.length < chars.length := by
  unfold readMember at h
  split at h
  · rename_i left hname
    obtain ⟨⟨_, _⟩, hvalue, h⟩ := Option.map_eq_some_iff.1 h
    obtain ⟨-, rfl⟩ := Prod.mk.inj h
    have hfirst := length_readQuoted hname
    have hskip := length_skipSpace left
    have hsecond := length_readQuoted hvalue
    simp only [List.length_cons] at hfirst
    omega
  · exact absurd h nofun

/-- Read members up to the brace that ends them. -/
def readMembers (chars : List Char) : Option (List (String × String) × List Char) :=
  match _hmember : readMember chars with
  | some (member, '\x7d' :: rest) => some ([member], skipSpace rest)
  | some (member, ',' :: rest) => (readMembers (skipSpace rest)).map fun (members, rest) =>
    (member :: members, rest)
  | _ => none
termination_by chars.length
decreasing_by
  have hless := length_readMember _hmember
  have hskip := length_skipSpace rest
  simp only [List.length_cons] at hless
  omega

/-- Read what follows the brace that opens an object. Nothing but blanks may stand after the one
that closes it. -/
def readInside : List Char → Option (List (String × String))
  | '\x7d' :: rest => if skipSpace rest = [] then some [] else none
  | chars =>
    match readMembers chars with
    | some (members, []) => some members
    | _ => none

/-- Read an object whose values are texts. -/
def readObject? (s : String) : Option (List (String × String)) :=
  match skipSpace s.toList with
  | '\x7b' :: chars => readInside (skipSpace chars)
  | _ => none

end LogAudit.Json
