import LogAudit.Text.Alphabetic
import LogAudit.Text.DecimalDigit
import LogAudit.Text.Joining

/-!
# Character classes

The classes that line templates, search patterns and statements are written with: decimal digits,
word characters, blanks and alphabetic characters, each over the whole of Unicode. The ASCII part is
decided by comparison, so that the tables are only consulted for other characters.
-/

namespace LogAudit.Text

/-- The decimal digits of every script. -/
def isDecimal (c : Char) : Bool :=
  if c.toNat < 128 then c.isDigit else decimalRanges.contains c

/-- Letters, and the marks that belong to their spelling. -/
def isAlphabetic (c : Char) : Bool :=
  if c.toNat < 128 then c.isAlpha else alphabeticRanges.contains c

/-- What a word is made of: letters, digits, marks, connectors such as `_` and the join controls. -/
def isWord (c : Char) : Bool :=
  if c.toNat < 128 then c.isAlphanum || c == '_'
  else alphabeticRanges.contains c || decimalRanges.contains c || joiningRanges.contains c

/-- White space: the ASCII controls from tab to carriage return, the space, and its relatives in
the rest of Unicode. -/
def isBlank (c : Char) : Bool :=
  (9 ≤ c.toNat && c.toNat ≤ 13) || c == ' ' || c.toNat == 0x85 || c.toNat == 0xA0
    || c.toNat == 0x1680 || (0x2000 ≤ c.toNat && c.toNat ≤ 0x200A) || c.toNat == 0x2028
    || c.toNat == 0x2029 || c.toNat == 0x202F || c.toNat == 0x205F || c.toNat == 0x3000

/-- A decimal digit may stand in a word. -/
theorem isWord_of_isDecimal {c : Char} (h : isDecimal c = true) : isWord c = true := by
  unfold isDecimal at h
  unfold isWord
  split
  · rw [if_pos ‹_›] at h
    simp [Char.isAlphanum, h]
  · rw [if_neg ‹_›] at h
    simp [h]

/-- A blank does not stand in a word. -/
theorem isWord_eq_false_of_isBlank {c : Char} (h : isBlank c = true) : isWord c = false := by
  have hblanks : ∀ n ∈ [9, 10, 11, 12, 13, 0x20, 0x85, 0xA0, 0x1680, 0x2000, 0x2001, 0x2002, 0x2003,
      0x2004, 0x2005, 0x2006, 0x2007, 0x2008, 0x2009, 0x200A, 0x2028, 0x2029, 0x202F, 0x205F,
      0x3000], isWord (Char.ofNat n) = false := by decide +kernel
  have hspace : (c == ' ') = true ↔ c.toNat = 0x20 := by
    rw [beq_iff_eq]
    exact ⟨fun hc => hc ▸ rfl, fun hc => Char.toNat_inj.1 hc⟩
  rw [← Char.ofNat_toNat c]
  apply hblanks
  simp only [isBlank, Bool.or_eq_true, hspace, Bool.and_eq_true, decide_eq_true_eq,
    beq_iff_eq] at h
  simp only [List.mem_cons, List.not_mem_nil, or_false]
  omega

/-- Drop the blanks in front. -/
def trimLeft (s : List Char) : List Char := s.dropWhile isBlank

/-- Drop the blanks on both sides. -/
def trim (s : List Char) : List Char := (trimLeft (trimLeft s).reverse).reverse

end LogAudit.Text
