import LogAudit.Text.Order

/-!
# Sets of texts

A set of texts has the members of the list that it is made from (`mem_textSet`), and each text is
less than those after it (`pairwise_textSet`), so that none is repeated.
-/

namespace LogAudit.Text

/-- What was collected before does not matter to the loop. -/
theorem eraseRepsBy_loop {α : Type} (r : α → α → Bool) (a : α) (members before : List α) :
    List.eraseRepsBy.loop r a members before =
      before.reverse ++ List.eraseRepsBy.loop r a members [] := by
  induction members generalizing a before with
  | nil => simp [List.eraseRepsBy.loop]
  | cons b members ih =>
    simp only [List.eraseRepsBy.loop]
    split
    · exact ih a before
    · rw [ih b (a :: before), ih b [a]]
      simp

section Repetitions

variable {α : Type} [BEq α] [LawfulBEq α]

/-- Of two equal neighbours the second is erased. -/
theorem eraseReps_cons_self (a : α) (members : List α) :
    (a :: a :: members).eraseReps = (a :: members).eraseReps := by
  simp [List.eraseReps, List.eraseRepsBy, List.eraseRepsBy.loop]

/-- A member that is not repeated stays. -/
theorem eraseReps_cons_of_ne {a b : α} (h : a ≠ b) (members : List α) :
    (a :: b :: members).eraseReps = a :: (b :: members).eraseReps := by
  have hne : (a == b) = false := by simpa using h
  simp only [List.eraseReps, List.eraseRepsBy, List.eraseRepsBy.loop, hne]
  exact eraseRepsBy_loop _ b members [a]

/-- Erasing repetitions keeps the members. -/
theorem mem_eraseReps {c : α} : {members : List α} → (c ∈ members.eraseReps ↔ c ∈ members)
  | [] => Iff.rfl
  | [a] => Iff.rfl
  | a :: b :: members => by
    by_cases h : a = b
    · subst h
      rw [eraseReps_cons_self, mem_eraseReps]
      simp
    · rw [eraseReps_cons_of_ne h, List.mem_cons, mem_eraseReps, ← List.mem_cons]

end Repetitions

/-- Without its repetitions a sorted list of texts ascends strictly. -/
theorem pairwise_eraseReps :
    {members : List String} → members.Pairwise (· ≤ ·) → members.eraseReps.Pairwise (· < ·)
  | [], _ => List.Pairwise.nil
  | [a], _ => List.pairwise_singleton _ a
  | a :: b :: members, hsorted => by
    have hrest := pairwise_eraseReps (List.pairwise_cons.1 hsorted).2
    by_cases h : a = b
    · subst h
      rwa [eraseReps_cons_self]
    · rw [eraseReps_cons_of_ne h]
      refine List.pairwise_cons.2 ⟨fun c hc => ?_, hrest⟩
      obtain ⟨hfirst, hsecond⟩ := List.pairwise_cons.1 hsorted
      have hab : a ≤ b := hfirst b List.mem_cons_self
      have hbc : b ≤ c := by
        rcases List.mem_cons.1 (mem_eraseReps.1 hc) with rfl | hc
        · exact String.le_refl c
        · exact (List.pairwise_cons.1 hsecond).1 c hc
      refine String.not_le.1 fun hca => h ?_
      exact String.le_antisymm hab (String.le_trans hbc hca)

/-- A set has the members of the list that it is made from. -/
theorem mem_textSet {text : String} {members : List String} :
    text ∈ textSet members ↔ text ∈ members := by
  rw [textSet, ascending, mem_eraseReps, (List.mergeSort_perm _ _).mem_iff]

theorem textLe_iff {a b : String} : textLe a b = true ↔ a ≤ b := by
  rw [textLe, Bool.not_eq_true', decide_eq_false_iff_not, String.not_lt]

/-- Each text of a set is less than those after it. -/
theorem pairwise_textSet (members : List String) : (textSet members).Pairwise (· < ·) := by
  have htrans : ∀ a b c : String, textLe a b → textLe b c → textLe a c := fun a b c => by
    simpa only [textLe_iff] using String.le_trans
  have htotal : ∀ a b : String, textLe a b || textLe b a := fun a b => by
    simpa only [Bool.or_eq_true, textLe_iff] using String.le_total a b
  exact pairwise_eraseReps
    ((List.pairwise_mergeSort htrans htotal members).imp fun hle => textLe_iff.1 hle)

end LogAudit.Text
