import LogAudit.Proofs.Text.Search
import Mathlib.Data.List.Forall2

/-!
# First occurrences

What a pattern describes may stand in a text at several places. A search looks at the first of them
only, so that a group of its match tells what stands there (`Pattern.Finds.search_eq_some_iff`).
-/

namespace LogAudit.Text

/-- A text stands somewhere in `s`, where `Begins` says with what a text begins. -/
def OccursIn (Begins : List Char → List Char → Prop) (s text : List Char) : Prop :=
  ∃ skipped tail, s = skipped ++ tail ∧ Begins tail text

/-- A text stands in `s` before any other one. -/
def FirstIn (Begins : List Char → List Char → Prop) (s text : List Char) : Prop :=
  ∃ skipped tail, s = skipped ++ tail ∧ Begins tail text ∧
    ∀ u v other, skipped = u ++ v → v ≠ [] → ¬ Begins (v ++ tail) other

section

variable {Begins : List Char → List Char → Prop} {s text : List Char}

theorem FirstIn.occursIn (h : FirstIn Begins s text) : OccursIn Begins s text := by
  obtain ⟨skipped, tail, hsplit, hbegins, -⟩ := h
  exact ⟨skipped, tail, hsplit, hbegins⟩

/-- Where a text occurs, there is a first one. -/
theorem OccursIn.exists_firstIn (h : OccursIn Begins s text) : ∃ first, FirstIn Begins s first := by
  obtain ⟨skipped, tail, rfl, hbegins⟩ := h
  induction skipped with
  | nil =>
    refine ⟨text, [], tail, rfl, hbegins, fun u v other hsplit hv => ?_⟩
    exact absurd (List.append_eq_nil_iff.1 hsplit.symm).2 hv
  | cons c skipped ih =>
    by_cases hfront : ∃ first, Begins (c :: skipped ++ tail) first
    · obtain ⟨first, hfirst⟩ := hfront
      refine ⟨first, [], _, rfl, hfirst, fun u v other hsplit hv => ?_⟩
      exact absurd (List.append_eq_nil_iff.1 hsplit.symm).2 hv
    · obtain ⟨first, before, rest, hsplit, hfirst, hnone⟩ := ih
      refine ⟨first, c :: before, rest, by rw [List.cons_append, hsplit]; rfl, hfirst, ?_⟩
      rintro (_ | ⟨d, u⟩) v other hv hne hother
      · obtain rfl : c :: before = v := hv
        rw [List.cons_append, ← hsplit] at hother
        exact hfront ⟨other, hother⟩
      · exact hnone u v other (List.cons.inj hv).2 hne hother

/-- Where at each place at most one text stands, there is at most one first text. -/
theorem FirstIn.unique (hunique : ∀ s text other, Begins s text → Begins s other → text = other)
    {other : List Char} (h : FirstIn Begins s text) (h' : FirstIn Begins s other) :
    text = other := by
  obtain ⟨skipped, tail, rfl, hbegins, hnone⟩ := h
  obtain ⟨skipped', tail', hsplit, hbegins', hnone'⟩ := h'
  rcases List.append_eq_append_iff.1 hsplit with ⟨v, rfl, rfl⟩ | ⟨v, rfl, rfl⟩
  · by_cases hv : v = []
    · subst hv
      exact hunique _ _ _ hbegins hbegins'
    · exact absurd hbegins (hnone' skipped v text rfl hv)
  · by_cases hv : v = []
    · subst hv
      exact hunique _ _ _ hbegins hbegins'
    · exact absurd hbegins' (hnone skipped' v other rfl hv)

end

/-- A text of a class in front of something else is all of the class that there is. -/
theorem append_inj_of_class {member : Char → Bool} {w w' s s' : List Char}
    (hw : ∀ c ∈ w, member c = true) (hw' : ∀ c ∈ w', member c = true)
    (hs : ∀ c ∈ s.head?, member c = false) (hs' : ∀ c ∈ s'.head?, member c = false)
    (h : w ++ s = w' ++ s') : w = w' ∧ s = s' := by
  have hfront : ∀ {w s : List Char}, (∀ c ∈ w, member c = true) →
      (∀ c ∈ s.head?, member c = false) → (w ++ s).takeWhile member = w := by
    intro w s hw hs
    rw [List.takeWhile_append_of_pos hw]
    cases s with
    | nil => simp
    | cons c s => simp [hs c rfl]
  have hsame := congrArg (List.takeWhile member) h
  rw [hfront hw hs, hfront hw' hs'] at hsame
  subst hsame
  exact ⟨rfl, List.append_cancel_left h⟩

namespace Pattern

/-- A pattern looks for something, and a group of its match tells the text that it found. -/
structure Finds (p : Pattern) (number : Nat) (Begins : List Char → List Char → Prop) : Prop where
  /-- Whatever it matches begins with the text of the group. -/
  exists_text : ∀ {s rest : List Char} {found : Captures}, p.Records s rest found →
    ∃ text, Begins s text ∧ found.text? number = some text
  /-- It matches whatever begins with such a text. -/
  reads : ∀ {s text : List Char}, Begins s text → ∃ rest, p.Reads s rest
  /-- Nothing begins with two of them. -/
  unique : ∀ s text other, Begins s text → Begins s other → text = other

namespace Finds

variable {p : Pattern} {number : Nat} {Begins : List Char → List Char → Prop}

/-- What a search tells is what stands in the text first. -/
theorem firstIn_of_search (h : p.Finds number Begins) {s : List Char} {captures : Captures}
    (hsearch : p.search s = some captures) :
    ∃ text, FirstIn Begins s text ∧ captures.text? number = some text := by
  obtain ⟨skipped, tail, rest, rfl, hrecords, hnone⟩ := exists_of_search hsearch
  obtain ⟨text, hbegins, htext⟩ := h.exists_text hrecords
  refine ⟨text, ⟨skipped, tail, rfl, hbegins, fun u v other hsplit hv hother => ?_⟩, htext⟩
  obtain ⟨rest', hreads⟩ := h.reads hother
  exact hnone u v rest' hsplit hv hreads

/-- A search tells a text exactly if it stands first. -/
theorem search_eq_some_iff (h : p.Finds number Begins) {s text : List Char} :
    (p.search s).bind (·.text? number) = some text ↔ FirstIn Begins s text := by
  constructor
  · intro hfound
    obtain ⟨captures, hsearch, htext⟩ := Option.bind_eq_some_iff.1 hfound
    obtain ⟨first, hfirst, htext'⟩ := h.firstIn_of_search hsearch
    obtain rfl := Option.some.inj (htext.symm.trans htext')
    exact hfirst
  · intro hfirst
    cases hsearch : p.search s with
    | none =>
      obtain ⟨skipped, tail, hsplit, hbegins⟩ := hfirst.occursIn
      obtain ⟨rest, hreads⟩ := h.reads hbegins
      exact absurd hreads (search_eq_none_iff.1 hsearch skipped tail rest hsplit)
    | some captures =>
      obtain ⟨other, hother, htext⟩ := h.firstIn_of_search hsearch
      rw [hother.unique h.unique hfirst] at htext
      exact htext

end Finds

/-! ## One group among other patterns -/

/-- A sequence describes what its first pattern does, and then what the others do. -/
theorem reads_sequence_cons {p : Pattern} {ps : List Pattern} {s rest : List Char} :
    (sequence (p :: ps)).Reads s rest ↔
      ∃ middle, p.Reads s middle ∧ (sequence ps).Reads middle rest := by
  cases ps with
  | nil =>
    constructor
    · exact fun h => ⟨rest, h, rfl⟩
    · rintro ⟨middle, h, hend⟩
      obtain rfl : middle = rest := hend
      exact h
  | cons q ps => exact Iff.rfl

section Sequence

variable {front back : List Pattern} {body : Pattern} {number : Nat}

theorem isPlain_sequence {ps : List Pattern} (h : ∀ p ∈ ps, p.isPlain = true) :
    (sequence ps).isPlain = true := by
  induction ps with
  | nil => rfl
  | cons p ps ih =>
    obtain ⟨hp, hps⟩ := List.forall_mem_cons.1 h
    cases ps with
    | nil => exact hp
    | cons q ps => exact Bool.and_eq_true_iff.2 ⟨hp, ih hps⟩

/-- The only group of a sequence tells what its pattern describes, between what is described by the
patterns in front of it and by those behind it. -/
theorem Records.exists_group (hfront : ∀ p ∈ front, p.isPlain = true)
    (hbody : body.isPlain = true) (hback : ∀ p ∈ back, p.isPlain = true) (hne : back ≠ [])
    {s rest : List Char} {found : Captures}
    (h : (sequence (front ++ group number body :: back)).Records s rest found) :
    ∃ text middle, (sequence front).Reads s (text ++ middle) ∧ body.Reads text [] ∧
      (sequence back).Reads middle rest ∧ found.text? number = some text := by
  induction front generalizing s found with
  | nil =>
    rw [List.nil_append, sequence_cons hne] at h
    obtain ⟨middle, before, after, hgroup, hrest, rfl⟩ := h
    obtain ⟨text, rfl, htext, htells⟩ := hgroup.exists_text hbody
    obtain rfl := hrest.of_isPlain (isPlain_sequence hback)
    refine ⟨text, middle, rfl, htext, hrest.reads, ?_⟩
    simpa using htells number
  | cons p front ih =>
    obtain ⟨hp, hfront⟩ := List.forall_mem_cons.1 hfront
    rw [List.cons_append, sequence_cons (by simp)] at h
    obtain ⟨next, before, after, hfirst, hothers, rfl⟩ := h
    obtain rfl := hfirst.of_isPlain hp
    obtain ⟨text, middle, hreads, htext, hrest, htells⟩ := ih hfront hothers
    exact ⟨text, middle, reads_sequence_cons.2 ⟨next, hfirst.reads, hreads⟩, htext, hrest,
      by rwa [List.append_nil]⟩

/-- A sequence with one group looks for what is described by the pattern of the group, where the
other patterns of the sequence describe what is around it. -/
theorem finds_sequence (front back : List Pattern) (hfront : ∀ p ∈ front, p.isPlain = true)
    (hbody : body.isPlain = true) (hback : ∀ p ∈ back, p.isPlain = true) (hne : back ≠ [])
    {Begins : List Char → List Char → Prop}
    (hbegins : ∀ s text, Begins s text ↔ ∃ middle rest, (sequence front).Reads s (text ++ middle) ∧
      body.Reads text [] ∧ (sequence back).Reads middle rest)
    (hunique : ∀ s text other, Begins s text → Begins s other → text = other) :
    (sequence (front ++ group number body :: back)).Finds number Begins where
  exists_text h := by
    obtain ⟨text, middle, hfirst, htext, hrest, htells⟩ := h.exists_group hfront hbody hback hne
    exact ⟨text, (hbegins _ text).2 ⟨middle, _, hfirst, htext, hrest⟩, htells⟩
  reads h := by
    obtain ⟨middle, rest, hfirst, htext, hrest⟩ := (hbegins _ _).1 h
    refine ⟨rest, (reads_sequence_append (by simp)).2 ⟨_, hfirst, ?_⟩⟩
    rw [sequence_cons hne]
    exact ⟨middle, (reads_append_iff hbody middle).2 htext, hrest⟩
  unique := hunique

end Sequence

/-! ## Words and gaps -/

/-- Blanks between two words. -/
def IsGap (gap : List Char) : Prop := gap ≠ [] ∧ ∀ c ∈ gap, isBlank c = true

theorem IsGap.isBlank_head {gap : List Char} (h : IsGap gap) (s : List Char) :
    ∀ c ∈ (gap ++ s).head?, isBlank c = true := by
  obtain ⟨hne, hblanks⟩ := h
  cases gap with
  | nil => exact absurd rfl hne
  | cons d gap =>
    rintro c ⟨⟩
    exact hblanks d List.mem_cons_self

theorem reads_someBlanks_iff {s rest : List Char} :
    someBlanks.Reads s rest ↔ ∃ gap, IsGap gap ∧ s = gap ++ rest := by
  rw [someBlanks, reads_atLeastOne_iff]
  exact exists_congr fun gap => and_comm

/-- Letters one after the other, each of which may be written in several ways. -/
theorem reads_letters_iff {same : Char → Char → Bool} {letters s rest : List Char} :
    (sequence (letters.map fun letter => one (same letter))).Reads s rest ↔
      ∃ w, List.Forall₂ (fun letter c => same letter c = true) letters w ∧ s = w ++ rest := by
  induction letters generalizing s with
  | nil => simp [sequence, Reads]
  | cons letter letters ih =>
    rw [List.map_cons, reads_sequence_cons]
    constructor
    · rintro ⟨middle, ⟨c, hc, rfl⟩, hrest⟩
      obtain ⟨w, hw, rfl⟩ := ih.1 hrest
      exact ⟨c :: w, .cons hc hw, rfl⟩
    · rintro ⟨_, hw, rfl⟩
      cases hw with
      | cons hc hw => exact ⟨_, ⟨_, hc, rfl⟩, ih.2 ⟨_, hw, rfl⟩⟩

end Pattern

end LogAudit.Text
