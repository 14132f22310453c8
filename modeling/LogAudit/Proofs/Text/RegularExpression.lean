import LogAudit.Proofs.Text.Search
import LogAudit.Text.RegularExpression

/-!
# What regular expressions are read as

Patterns that are built differently may match alike (`Pattern.Same`): so do the patterns of a
sequence and of its parts. The groups of a pattern in the order in which they open are
`Pattern.groups`. An expression is read piece by piece (`Reading.run_append`), and an escaped
character is read as itself (`Reading.run_escape`).
-/

namespace LogAudit.Text

namespace Pattern

/-! ## Patterns that match alike -/

/-- Two patterns match in the same order and record the same, whatever follows them. -/
def Same (p q : Pattern) : Prop :=
  ∀ (α : Type) (next : List Char → Captures → Option α) (s : List Char) (captures : Captures),
    p.run next s captures = q.run next s captures

namespace Same

variable {p q r p' q' : Pattern}

/-- A pattern is the same as itself. -/
theorem refl (p : Pattern) : p.Same p := fun _ _ _ _ => rfl

/-- Being the same goes both ways. -/
theorem symm (h : p.Same q) : q.Same p := fun α next s captures => (h α next s captures).symm

/-- What is the same as the same is the same. -/
theorem trans (h : p.Same q) (h' : q.Same r) : p.Same r :=
  fun α next s captures => (h α next s captures).trans (h' α next s captures)

/-- Parts that are the same make sequences that are. -/
theorem andThen (h : p.Same p') (h' : q.Same q') : (p.andThen q).Same (p'.andThen q') := by
  intro α next s captures
  have hnext : q.run next = q'.run next :=
    funext fun s => funext fun captures => h' α next s captures
  rw [run, run, hnext, h]

/-- Parts that are the same make alternatives that are. -/
theorem orElse (h : p.Same p') (h' : q.Same q') : (p.orElse q).Same (p'.orElse q') := by
  intro α next s captures
  rw [run, run, h, h']

/-- A part that is the same may be left out in the same way. -/
theorem optional (h : p.Same p') : p.optional.Same p'.optional := h.orElse (refl empty)

/-- A part that is the same is recorded in the same way. -/
theorem group (h : p.Same p') (number : Nat) : (p.group number).Same (p'.group number) := by
  intro α next s captures
  rw [run, run, h]

/-- Patterns that match alike describe the same. -/
theorem reads (h : p.Same q) {s rest : List Char} (hreads : p.Reads s rest) : q.Reads s rest := by
  have hfound : (p.run (fun rest' _ => if rest' = rest then some () else none) s []).isSome :=
    isSome_run_of_reads hreads (fun _ => by simp) []
  rw [h] at hfound
  obtain ⟨_, hrun⟩ := Option.isSome_iff_exists.1 hfound
  obtain ⟨rest', _, hreads', hrest⟩ := run_reads hrun
  by_cases hsame : rest' = rest
  · exact hsame ▸ hreads'
  · rw [if_neg hsame] at hrest
    exact absurd hrest (by simp)

/-- Patterns that are the same read the same texts. -/
theorem reads_iff (h : p.Same q) {s rest : List Char} : p.Reads s rest ↔ q.Reads s rest :=
  ⟨h.reads, h.symm.reads⟩

end Same

/-- A sequence is its first part and the others behind it. -/
theorem same_sequence_cons (p : Pattern) (ps : List Pattern) :
    (sequence (p :: ps)).Same (p.andThen (sequence ps)) := by
  cases ps with
  | nil => exact fun _ _ _ _ => rfl
  | cons q ps => exact .refl _

/-- A sequence is its first parts and the others behind them. -/
theorem same_sequence_append (ps qs : List Pattern) :
    (sequence (ps ++ qs)).Same ((sequence ps).andThen (sequence qs)) := by
  induction ps with
  | nil => exact .refl _
  | cons p ps ih =>
    have hcons : (sequence (p :: (ps ++ qs))).Same
        (p.andThen ((sequence ps).andThen (sequence qs))) :=
      (same_sequence_cons p _).trans ((Same.refl p).andThen ih)
    exact hcons.trans ((same_sequence_cons p ps).symm.andThen (.refl (sequence qs)))

/-! ## Groups -/

/-- The numbers and the contents of the groups of a pattern, in the order in which they open. -/
def groups : Pattern → List (Nat × Pattern)
  | andThen first second => first.groups ++ second.groups
  | orElse first second => first.groups ++ second.groups
  | group number body => (number, body) :: body.groups
  | _ => []

/-- The groups of a sequence are those of its parts, in order. -/
theorem groups_sequence (ps : List Pattern) : (sequence ps).groups = ps.flatMap groups := by
  induction ps with
  | nil => rfl
  | cons p ps ih =>
    cases ps with
    | nil => exact (List.append_nil _).symm
    | cons q ps => exact congrArg (p.groups ++ ·) ih

/-- An optional part has its own groups. -/
theorem groups_optional (p : Pattern) : p.optional.groups = p.groups := List.append_nil _

end Pattern

namespace RegularExpression.Reading

/-! ## Reading piece by piece -/

/-- Reading goes on behind a character that was read. -/
theorem run_cons {x y : Reading} {c : Char} (h : x.step c = .ok y) (s : List Char) :
    x.run (c :: s) = y.run s := by
  rw [run, List.foldlM_cons, h]
  rfl

/-- An expression is read in two goes as in one. -/
theorem run_append (x : Reading) (s u : List Char) :
    x.run (s ++ u) = (x.run s).bind fun y => y.run u := List.foldlM_append

/-- What was read of a front does not matter to what is read behind it. -/
theorem run_of_run {x y : Reading} {s u : List Char} (h : x.run s = .ok y) :
    x.run (s ++ u) = y.run u := by
  rw [run_append, h]
  rfl

/-- A character that has no meaning of its own is read as itself. -/
theorem readText_of_not_isMeta (x : Reading) {c : Char} (hc : isMeta c = false) :
    x.readText c = .ok (x.push (.once (.char c))) := by
  unfold readText
  split
  all_goals first | rfl | exact absurd hc (by decide)

/-- A character with a meaning stands for itself behind a backslash. -/
theorem escaped?_of_isMeta {c : Char} (hc : isMeta c = true) : escaped? c = some (· == c) := by
  unfold escaped?
  cases hclass : class? c with
  | none => rw [if_pos hc]
  | some member =>
    unfold class? at hclass
    split at hclass
    all_goals first | exact absurd hc (by decide) | exact absurd hclass (by simp)

/-- An escaped character is read as itself. -/
theorem run_escape (x : Reading) (hmode : x.mode = .text) (c : Char) :
    x.run (escape c).toList = .ok (x.push (.once (.char c))) := by
  unfold escape
  by_cases hc : isMeta c = true
  · have hbackslash : x.step '\\' = .ok (x.become .backslash) := by
      rw [step, hmode]
      rfl
    have hstep : (x.become .backslash).step c = .ok (x.push (.once (.char c))) := by
      simp only [step, become, escaped?_of_isMeta hc]
      rfl
    rw [if_pos hc, String.toList_ofList, run_cons hbackslash, run_cons hstep]
    rfl
  · have hstep : x.step c = .ok (x.push (.once (.char c))) := by
      rw [step, hmode]
      exact x.readText_of_not_isMeta (Bool.eq_false_iff.2 hc)
    rw [if_neg hc, String.toList_ofList, run_cons hstep]
    rfl

end RegularExpression.Reading

end LogAudit.Text
