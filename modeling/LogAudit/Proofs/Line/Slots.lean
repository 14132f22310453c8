import LogAudit.Line.Template

/-!
# The last token for a slot

Of several tokens of a template for one slot the last one counts. `Template.lastIndex?` finds its
position (`lastIndex?_eq_some_iff`), and nothing only if no token is for the slot.
-/

namespace LogAudit.Line.Template

/-- A field has no last place exactly if no token writes it. -/
theorem lastIndex?_eq_none_iff {slot : Slot} {tokens : List Token} :
    lastIndex? slot tokens = none ↔ ∀ token ∈ tokens, token.slot ≠ slot := by
  induction tokens with
  | nil => simp [lastIndex?]
  | cons token tokens ih =>
    rw [List.forall_mem_cons, ← ih, lastIndex?]
    cases lastIndex? slot tokens with
    | some index => simp
    | none => by_cases hslot : token.slot = slot <;> simp [hslot]

/-- The position is that of a token for the slot, and none of those behind it is for the slot. -/
def IsLast (slot : Slot) (tokens : List Token) (index : Nat) : Prop :=
  (∃ token, tokens[index]? = some token ∧ token.slot = slot) ∧
    ∀ later token, index < later → tokens[later]? = some token → token.slot ≠ slot

/-- The place that is found is the last one. -/
theorem isLast_of_lastIndex? {slot : Slot} {tokens : List Token} {index : Nat}
    (h : lastIndex? slot tokens = some index) : IsLast slot tokens index := by
  induction tokens generalizing index with
  | nil => exact absurd h (by simp [lastIndex?])
  | cons token tokens ih =>
    rw [lastIndex?] at h
    cases hlater : lastIndex? slot tokens with
    | some last =>
      rw [hlater] at h
      obtain rfl : last + 1 = index := Option.some.inj h
      obtain ⟨hlast, hnone⟩ := ih hlater
      refine ⟨hlast, fun later token hlt htoken => ?_⟩
      obtain ⟨k, rfl⟩ := Nat.exists_eq_succ_of_ne_zero (Nat.ne_of_gt (Nat.zero_lt_of_lt hlt))
      exact hnone k token (Nat.lt_of_succ_lt_succ hlt) htoken
    | none =>
      rw [hlater] at h
      by_cases hslot : token.slot = slot
      · simp only [hslot, if_true, Option.some.injEq] at h
        subst h
        refine ⟨⟨token, rfl, hslot⟩, fun later other hlt hother => ?_⟩
        obtain ⟨k, rfl⟩ := Nat.exists_eq_succ_of_ne_zero (Nat.ne_of_gt hlt)
        exact lastIndex?_eq_none_iff.1 hlater other (List.mem_of_getElem? hother)
      · simp [hslot] at h

/-- The last place is found exactly where it is. -/
theorem lastIndex?_eq_some_iff {slot : Slot} {tokens : List Token} {index : Nat} :
    lastIndex? slot tokens = some index ↔ IsLast slot tokens index := by
  refine ⟨isLast_of_lastIndex?, ?_⟩
  rintro ⟨⟨token, htoken, hslot⟩, hnone⟩
  cases hlast : lastIndex? slot tokens with
  | none =>
    exact absurd hslot (lastIndex?_eq_none_iff.1 hlast token (List.mem_of_getElem? htoken))
  | some last =>
    obtain ⟨⟨other, hother, hslot'⟩, hnone'⟩ := isLast_of_lastIndex? hlast
    rcases Nat.lt_trichotomy last index with hlt | rfl | hlt
    · exact absurd hslot (hnone' index token hlt htoken)
    · rfl
    · exact absurd hslot' (hnone last other hlt hother)

end LogAudit.Line.Template
