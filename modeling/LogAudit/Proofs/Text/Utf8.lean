import LogAudit.Text.Utf8
import Mathlib.Algebra.Order.Ring.Nat

/-!
# Decoding in parts

No sequence of bytes takes an ASCII byte in, so decoding starts anew at each of them: what was
decoded before does not depend on what comes after it (`decodeLossy_append_cons`,
`decodeLossy_append`). A text has ASCII characters only where its bytes are.
-/

namespace LogAudit.Text.Utf8

variable {bytes more : List UInt8} {l : UInt8}

/-- Continuation bytes are read up to an ASCII byte at most. -/
theorem continuation_append_cons (hl : l.toNat < 0x80) (n acc : Nat) :
    continuation n acc (bytes ++ l :: more) = ((continuation n acc bytes).1,
      (continuation n acc bytes).2.1, (continuation n acc bytes).2.2 ++ l :: more) := by
  induction n generalizing acc bytes with
  | zero => rw [continuation, continuation]
  | succ n ih =>
    cases bytes with
    | nil =>
      have hout : (decide (0x80 ≤ l.toNat) && decide (l.toNat ≤ 0xBF)) = false := by
        simp [Nat.not_le.2 hl]
      simp only [List.nil_append, continuation, hout, Bool.false_eq_true, if_false]
    | cons b bytes =>
      rw [List.cons_append]
      by_cases hb : 0x80 ≤ b.toNat ∧ b.toNat ≤ 0xBF
      · simp only [continuation, hb, decide_true, Bool.and_self, if_true]
        exact ih _
      · have hout : (decide (0x80 ≤ b.toNat) && decide (b.toNat ≤ 0xBF)) = false := by
          simpa using hb
        simp only [continuation, hout, Bool.false_eq_true, if_false, List.cons_append]

/-- A lead byte with its second byte stands for no ASCII character. -/
theorem le_of_lead? {b second : UInt8} {lead : Lead} (h : lead? b = some lead)
    (hsecond : lead.low ≤ second.toNat) :
    0x80 ≤ lead.low ∧ 0x80 ≤ (lead.bits * 64 + (second.toNat - 0x80)) * 64 ^ lead.more := by
  simp only [lead?] at h
  repeat' split at h
  all_goals simp only [reduceCtorEq, Option.some.injEq] at h
  all_goals
    subst h
    simp only [Bool.and_eq_true, decide_eq_true_eq, beq_iff_eq] at *
    omega

/-- A character is read no further than up to an ASCII byte. -/
theorem step_append_cons (hl : l.toNat < 0x80) (b : UInt8) :
    step b (bytes ++ l :: more) = ((step b bytes).1, (step b bytes).2 ++ l :: more) := by
  by_cases hb : b.toNat < 0x80
  · simp only [step, hb, if_true]
  · simp only [step, hb, if_false]
    cases hlead : lead? b with
    | none => rfl
    | some lead =>
      cases bytes with
      | nil =>
        have hlow : ¬ lead.low ≤ l.toNat := fun h => by
          have := (le_of_lead? hlead h).1
          omega
        simp [hlow]
      | cons second rest =>
        rw [List.cons_append]
        dsimp only
        split
        · rw [continuation_append_cons hl]
          rcases continuation lead.more (lead.bits * 64 + (second.toNat - 0x80)) rest with
            ⟨_ | _, value, left⟩ <;> rfl
        · rfl

/-- Reading continuation bytes onto a number does not make it smaller. -/
theorem le_continuation {n acc value : Nat} {rest : List UInt8}
    (h : continuation n acc bytes = (true, value, rest)) : acc * 64 ^ n ≤ value := by
  induction n generalizing acc bytes with
  | zero =>
    rw [continuation] at h
    simp at h
    omega
  | succ n ih =>
    cases bytes with
    | nil => exact absurd h (by simp [continuation])
    | cons b bytes =>
      rw [continuation] at h
      split at h
      · have hrest := ih h
        have hmul : acc * 64 ^ (n + 1) ≤ (acc * 64 + (b.toNat - 0x80)) * 64 ^ n := by
          rw [Nat.pow_succ, Nat.mul_comm (64 ^ n), ← Nat.mul_assoc]
          exact Nat.mul_le_mul_right _ (Nat.le_add_right _ _)
        omega
      · exact absurd h (by simp)

theorem step_ascii {b : UInt8} (hb : b.toNat < 0x80) (bytes : List UInt8) :
    step b bytes = (some (Char.ofNat b.toNat), bytes) := by
  rw [step, if_pos hb]

/-- Scanning starts anew at an ASCII byte. -/
theorem scan_append_cons (hl : l.toNat < 0x80) :
    scan (bytes ++ l :: more) = scan bytes ++ some (Char.ofNat l.toNat) :: scan more := by
  induction bytes using scan.induct with
  | case1 => simp only [List.nil_append, scan, step_ascii hl]
  | case2 b bytes ih => rw [List.cons_append, scan, step_append_cons hl, ih, scan, List.cons_append]

/-- A number stands for itself as a character, or for none. -/
theorem toNat_ofNat (n : Nat) : (Char.ofNat n).toNat = n ∨ (Char.ofNat n).toNat = 0 := by
  by_cases hvalid : n.isValidChar
  · exact Or.inl (congrArg Char.toNat (dif_pos hvalid))
  · exact Or.inr (congrArg Char.toNat (dif_neg hvalid))

/-- Other than ASCII bytes do not stand for ASCII characters. -/
theorem toNat_step {b : UInt8} (hb : 0x80 ≤ b.toNat) (bytes : List UInt8) :
    0x80 ≤ ((step b bytes).1.getD '\uFFFD').toNat ∨ ((step b bytes).1.getD '\uFFFD').toNat = 0 := by
  have hreplaced : 0x80 ≤ '\uFFFD'.toNat := by decide
  rw [step, if_neg (Nat.not_lt.2 hb)]
  cases hlead : lead? b with
  | none => exact Or.inl hreplaced
  | some lead =>
    cases bytes with
    | nil => exact Or.inl hreplaced
    | cons second rest =>
      dsimp only
      split
      · rename_i hsecond
        have hlow : lead.low ≤ second.toNat := by simp at hsecond; exact hsecond.1
        have hvalue := (le_of_lead? hlead hlow).2
        split
        · rename_i value left hread
          have hle := le_continuation hread
          have hchar := toNat_ofNat value
          rw [Option.getD_some]
          omega
        · exact Or.inl hreplaced
      · exact Or.inl hreplaced

/-- A decoded text starts with an ASCII character only if its bytes do. -/
theorem head?_decodeLossy {c : Char} (h : (decodeLossy bytes).head? = some c) (hc : c.toNat < 0x80)
    (hc' : 0 < c.toNat) : ∃ b, bytes.head? = some b ∧ b.toNat = c.toNat := by
  cases bytes with
  | nil => exact absurd h (by simp [decodeLossy, scan])
  | cons b bytes =>
    rw [decodeLossy, scan, List.map_cons, List.head?_cons, Option.some.injEq] at h
    refine ⟨b, rfl, ?_⟩
    by_cases hb : b.toNat < 0x80
    · rw [step_ascii hb, Option.getD_some] at h
      have hvalue := toNat_ofNat b.toNat
      rw [h] at hvalue
      omega
    · have hfar : 0x80 ≤ ((step b bytes).1.getD '\uFFFD').toNat ∨
          ((step b bytes).1.getD '\uFFFD').toNat = 0 := toNat_step (Nat.le_of_not_lt hb) bytes
      rw [h] at hfar
      omega

/-- Decoding starts anew at an ASCII byte. -/
theorem decodeLossy_append_cons (hl : l.toNat < 0x80) :
    decodeLossy (bytes ++ l :: more) =
      decodeLossy bytes ++ Char.ofNat l.toNat :: decodeLossy more := by
  rw [decodeLossy, scan_append_cons hl, List.map_append, List.map_cons, Option.getD_some,
    decodeLossy, decodeLossy]

theorem decodeLossy_nil : decodeLossy [] = [] := by rw [decodeLossy, scan, List.map_nil]

/-- What is decoded up to an ASCII byte does not depend on what comes after it. -/
theorem decodeLossy_append (h : bytes.getLast? = some l) (hl : l.toNat < 0x80) :
    decodeLossy (bytes ++ more) = decodeLossy bytes ++ decodeLossy more := by
  obtain ⟨front, rfl⟩ := List.getLast?_eq_some_iff.1 h
  rw [List.append_assoc, List.singleton_append, decodeLossy_append_cons hl,
    decodeLossy_append_cons hl, decodeLossy_nil, List.append_assoc, List.singleton_append]

/-- A decoded text whose last byte is ASCII ends with that character. -/
theorem getLast?_decodeLossy (h : bytes.getLast? = some l) (hl : l.toNat < 0x80) :
    (decodeLossy bytes).getLast? = some (Char.ofNat l.toNat) := by
  obtain ⟨front, rfl⟩ := List.getLast?_eq_some_iff.1 h
  rw [decodeLossy_append_cons hl, decodeLossy_nil, List.getLast?_concat]

/-- What is left of continuation bytes is a rest of them. -/
theorem continuation_suffix (n acc : Nat) (bytes : List UInt8) :
    (continuation n acc bytes).2.2 <:+ bytes := by
  fun_induction continuation n acc bytes with
  | case1 => exact List.suffix_rfl
  | case2 => exact List.suffix_rfl
  | case3 n acc b bytes _ ih => exact ih.trans (List.suffix_cons _ _)
  | case4 => exact List.suffix_rfl

/-- Bytes after a character were there before it. -/
theorem step_suffix (b : UInt8) (bytes : List UInt8) : (step b bytes).2 <:+ bytes := by
  unfold step
  split
  · exact List.suffix_rfl
  · split
    · exact List.suffix_rfl
    · rename_i lead _
      cases bytes with
      | nil => exact List.suffix_rfl
      | cons second rest =>
        dsimp only
        split
        · have h := continuation_suffix lead.more (lead.bits * 64 + (second.toNat - 0x80)) rest
          split <;> rename_i heq <;> rw [heq] at h <;> exact h.trans (List.suffix_cons _ _)
        · exact List.suffix_rfl

/-- An ASCII character other than NUL stands for a byte. -/
theorem exists_of_mem_decodeLossy {c : Char} (h : c ∈ decodeLossy bytes) (hc : c.toNat < 0x80)
    (hc' : 0 < c.toNat) : ∃ b ∈ bytes, b.toNat = c.toNat := by
  induction bytes using scan.induct with
  | case1 => exact absurd h (by simp [decodeLossy_nil])
  | case2 b bytes ih =>
    rw [decodeLossy, scan, List.map_cons, ← decodeLossy, List.mem_cons] at h
    rcases h with hhead | hrest
    · have hfront : (decodeLossy (b :: bytes)).head? = some c := by
        rw [decodeLossy, scan, List.map_cons, List.head?_cons, hhead]
      obtain ⟨first, hfirst, hvalue⟩ := head?_decodeLossy hfront hc hc'
      exact ⟨first, List.mem_of_mem_head? hfirst, hvalue⟩
    · obtain ⟨found, hfound, hvalue⟩ := ih hrest
      exact ⟨found, List.mem_cons_of_mem _ ((step_suffix b bytes).subset hfound), hvalue⟩

end LogAudit.Text.Utf8
