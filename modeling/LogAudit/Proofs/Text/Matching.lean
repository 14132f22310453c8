import LogAudit.Text.Pattern

/-!
# How patterns match

`Pattern.Reads` says which fronts of a text a pattern describes, without an order among them, and
`Pattern.Records` which groups are recorded on the way; every match found by `Pattern.run` is one of
these. `Pattern.Takes` says which of them is tried first where what follows can go on from it.
Between the two, a match is known once all that is tried before it is known to fail.
-/

namespace LogAudit.Text.Pattern

/-! ## What a pattern describes -/

/-- A pattern describes the front of `s` that leaves `rest`. -/
def Reads : Pattern → List Char → List Char → Prop
  | empty, s, rest => s = rest
  | one member, s, rest => ∃ c, member c = true ∧ s = c :: rest
  | many member, s, rest => ∃ w, (∀ c ∈ w, member c = true) ∧ s = w ++ rest
  | manyLazy member, s, rest => ∃ w, (∀ c ∈ w, member c = true) ∧ s = w ++ rest
  | andThen first second, s, rest => ∃ middle, first.Reads s middle ∧ second.Reads middle rest
  | orElse first second, s, rest => first.Reads s rest ∨ second.Reads s rest
  | group _ body, s, rest => body.Reads s rest
  | atEnd, s, rest => s = [] ∧ rest = []

/-- What is left by skipping members of a class. -/
theorem mem_rests {member : Char → Bool} {s rest : List Char} {shorter : List (List Char)} :
    rest ∈ rests member s shorter ↔
      (∃ w, (∀ c ∈ w, member c = true) ∧ s = w ++ rest) ∨ rest ∈ shorter := by
  induction s generalizing shorter with
  | nil =>
    rw [rests, List.mem_cons]
    refine or_congr ⟨?_, ?_⟩ Iff.rfl
    · rintro rfl
      exact ⟨[], by simp, rfl⟩
    · rintro ⟨w, -, hw⟩
      exact (List.append_eq_nil_iff.1 hw.symm).2
  | cons c s ih =>
    have hfront : (∃ w, (∀ d ∈ w, member d = true) ∧ c :: s = w ++ rest) ↔
        rest = c :: s ∨ member c = true ∧ ∃ w, (∀ d ∈ w, member d = true) ∧ s = w ++ rest := by
      constructor
      · rintro ⟨w, hw, hsplit⟩
        cases w with
        | nil => exact Or.inl hsplit.symm
        | cons d w =>
          rw [List.cons_append, List.cons_eq_cons] at hsplit
          obtain ⟨rfl, hsplit⟩ := hsplit
          exact Or.inr ⟨hw c List.mem_cons_self, w,
            fun d hd => hw d (List.mem_cons_of_mem _ hd), hsplit⟩
      · rintro (rfl | ⟨hc, w, hw, rfl⟩)
        · exact ⟨[], by simp, rfl⟩
        · exact ⟨c :: w, List.forall_mem_cons.2 ⟨hc, hw⟩, rfl⟩
    rw [rests, hfront]
    by_cases hc : member c = true
    · rw [if_pos hc, ih, List.mem_cons]
      simp only [hc, true_and]
      exact ⟨fun h => h.elim (fun h => Or.inl (Or.inr h))
          (fun h => h.elim (fun h => Or.inl (Or.inl h)) Or.inr),
        fun h => h.elim (fun h => h.elim (fun h => Or.inr (Or.inl h)) Or.inl)
          (fun h => Or.inr (Or.inr h))⟩
    · rw [if_neg hc, List.mem_cons]
      simp only [hc, false_and, or_false, Bool.false_eq_true]

/-- A pattern matches the front of `s` that leaves `rest`, and records these groups on the way, the
latest first. -/
def Records : Pattern → List Char → List Char → Captures → Prop
  | andThen first second, s, rest, found => ∃ middle before after,
      first.Records s middle before ∧ second.Records middle rest after ∧ found = after ++ before
  | orElse first second, s, rest, found =>
      first.Records s rest found ∨ second.Records s rest found
  | group number body, s, rest, found =>
      ∃ inner, body.Records s rest inner ∧ found = (number, ⟨s, rest⟩) :: inner
  | p, s, rest, found => p.Reads s rest ∧ found = []

/-- What a pattern matches is what it describes. -/
theorem Records.reads {p : Pattern} {s rest : List Char} {found : Captures}
    (h : p.Records s rest found) : p.Reads s rest := by
  induction p generalizing s rest found with
  | andThen first second ihfirst ihsecond =>
    obtain ⟨middle, before, after, hfirst, hsecond, -⟩ := h
    exact ⟨middle, ihfirst hfirst, ihsecond hsecond⟩
  | orElse first second ihfirst ihsecond => exact h.imp ihfirst ihsecond
  | group number body ih =>
    obtain ⟨inner, hbody, -⟩ := h
    exact ih hbody
  | empty => exact h.1
  | one member => exact h.1
  | many member => exact h.1
  | manyLazy member => exact h.1
  | atEnd => exact h.1

/-- Whatever a pattern describes, it matches. -/
theorem Reads.exists_records {p : Pattern} {s rest : List Char} (h : p.Reads s rest) :
    ∃ found, p.Records s rest found := by
  induction p generalizing s rest with
  | andThen first second ihfirst ihsecond =>
    obtain ⟨middle, hfirst, hsecond⟩ := h
    obtain ⟨before, hbefore⟩ := ihfirst hfirst
    obtain ⟨after, hafter⟩ := ihsecond hsecond
    exact ⟨after ++ before, middle, before, after, hbefore, hafter, rfl⟩
  | orElse first second ihfirst ihsecond =>
    rcases h with h | h
    · exact (ihfirst h).imp fun _ => Or.inl
    · exact (ihsecond h).imp fun _ => Or.inr
  | group number body ih =>
    obtain ⟨inner, hinner⟩ := ih h
    exact ⟨(number, ⟨s, rest⟩) :: inner, inner, hinner, rfl⟩
  | empty => exact ⟨[], h, rfl⟩
  | one member => exact ⟨[], h, rfl⟩
  | many member => exact ⟨[], h, rfl⟩
  | manyLazy member => exact ⟨[], h, rfl⟩
  | atEnd => exact ⟨[], h, rfl⟩

/-- Every match leaves something on which the match goes on, with the groups that it recorded. -/
theorem run_records {α : Type} {p : Pattern} {next : List Char → Captures → Option α}
    {s : List Char} {captures : Captures} {r : α} (h : p.run next s captures = some r) :
    ∃ rest found, p.Records s rest found ∧ next rest (found ++ captures) = some r := by
  induction p generalizing next s captures with
  | empty => exact ⟨s, [], ⟨rfl, rfl⟩, h⟩
  | one member =>
    cases s with
    | nil => exact absurd h (by simp [run])
    | cons c s =>
      rw [run] at h
      split at h
      · exact ⟨s, [], ⟨⟨c, ‹_›, rfl⟩, rfl⟩, h⟩
      · exact absurd h (by simp)
  | many member =>
    obtain ⟨rest, hrest, hnext⟩ := List.exists_of_findSome?_eq_some h
    have hsplit := (mem_rests.1 hrest).resolve_right List.not_mem_nil
    exact ⟨rest, [], ⟨hsplit, rfl⟩, hnext⟩
  | manyLazy member =>
    obtain ⟨rest, hrest, hnext⟩ := List.exists_of_findSome?_eq_some h
    have hsplit := (mem_rests.1 (List.mem_reverse.1 hrest)).resolve_right List.not_mem_nil
    exact ⟨rest, [], ⟨hsplit, rfl⟩, hnext⟩
  | andThen first second ihfirst ihsecond =>
    obtain ⟨middle, before, hfirst, hnext⟩ := ihfirst h
    obtain ⟨rest, after, hsecond, hnext'⟩ := ihsecond hnext
    rw [← List.append_assoc] at hnext'
    exact ⟨rest, after ++ before, ⟨middle, before, after, hfirst, hsecond, rfl⟩, hnext'⟩
  | orElse first second ihfirst ihsecond =>
    rw [run] at h
    cases hf : first.run next s captures with
    | some r' =>
      rw [hf, Option.orElse_some, Option.some.injEq] at h
      subst h
      obtain ⟨rest, found, hrecords, hnext⟩ := ihfirst hf
      exact ⟨rest, found, Or.inl hrecords, hnext⟩
    | none =>
      rw [hf, Option.orElse_none] at h
      obtain ⟨rest, found, hrecords, hnext⟩ := ihsecond h
      exact ⟨rest, found, Or.inr hrecords, hnext⟩
  | group number body ih =>
    obtain ⟨rest, inner, hrecords, hnext⟩ := ih h
    exact ⟨rest, (number, ⟨s, rest⟩) :: inner, ⟨inner, hrecords, rfl⟩, hnext⟩
  | atEnd =>
    rw [run] at h
    split at h
    · have hs : s = [] := List.isEmpty_iff.1 ‹_›
      exact ⟨s, [], ⟨⟨hs, hs⟩, rfl⟩, h⟩
    · exact absurd h (by simp)

/-- Every match leaves something on which the match goes on. -/
theorem run_reads {α : Type} {p : Pattern} {next : List Char → Captures → Option α}
    {s : List Char} {captures : Captures} {r : α} (h : p.run next s captures = some r) :
    ∃ rest captures', p.Reads s rest ∧ next rest captures' = some r := by
  obtain ⟨rest, found, hrecords, hnext⟩ := run_records h
  exact ⟨rest, found ++ captures, hrecords.reads, hnext⟩

/-- A pattern describes all of a text if it is matched up to the end. -/
theorem reads_of_isSome_run {p : Pattern} {s : List Char}
    (h : (p.run (fun rest _ => if rest = [] then some () else none) s []).isSome) :
    p.Reads s [] := by
  obtain ⟨r, hr⟩ := Option.isSome_iff_exists.1 h
  obtain ⟨rest, captures, hreads, hnext⟩ := run_reads hr
  split at hnext
  · rwa [‹rest = []›] at hreads
  · exact absurd hnext (by simp)

/-- A pattern fails where it describes nothing from which the match could go on. -/
theorem run_eq_none {α : Type} {p : Pattern} {next : List Char → Captures → Option α}
    {s : List Char} (h : ∀ rest, p.Reads s rest → ∀ captures, next rest captures = none)
    (captures : Captures) : p.run next s captures = none := by
  cases hrun : p.run next s captures with
  | none => rfl
  | some r =>
    obtain ⟨rest, captures', hreads, hnext⟩ := run_reads hrun
    rw [h rest hreads captures'] at hnext
    exact absurd hnext (by simp)

/-- What a pattern describes is a front of the text. -/
theorem Reads.exists_append {p : Pattern} {s rest : List Char} (h : p.Reads s rest) :
    ∃ w, s = w ++ rest := by
  induction p generalizing s rest with
  | empty => exact ⟨[], h⟩
  | one member =>
    obtain ⟨c, -, rfl⟩ := h
    exact ⟨[c], rfl⟩
  | many member =>
    obtain ⟨w, -, rfl⟩ := h
    exact ⟨w, rfl⟩
  | manyLazy member =>
    obtain ⟨w, -, rfl⟩ := h
    exact ⟨w, rfl⟩
  | andThen first second ihfirst ihsecond =>
    obtain ⟨middle, hfirst, hsecond⟩ := h
    obtain ⟨u, rfl⟩ := ihfirst hfirst
    obtain ⟨v, rfl⟩ := ihsecond hsecond
    exact ⟨u ++ v, (List.append_assoc u v rest).symm⟩
  | orElse first second ihfirst ihsecond =>
    rcases h with h | h
    · exact ihfirst h
    · exact ihsecond h
  | group number body ih => exact ih h
  | atEnd =>
    obtain ⟨rfl, rfl⟩ := h
    exact ⟨[], rfl⟩

/-- A pattern describes nothing but characters of a class. -/
def Within (member : Char → Bool) : Pattern → Prop
  | empty => True
  | one own => ∀ c, own c = true → member c = true
  | many own => ∀ c, own c = true → member c = true
  | manyLazy own => ∀ c, own c = true → member c = true
  | andThen first second => first.Within member ∧ second.Within member
  | orElse first second => first.Within member ∧ second.Within member
  | group _ body => body.Within member
  | atEnd => True

/-- The front that a pattern within a class describes is of that class. -/
theorem Reads.of_within {member : Char → Bool} {p : Pattern} (hp : p.Within member)
    {s rest : List Char} (h : p.Reads s rest) :
    ∃ w, (∀ c ∈ w, member c = true) ∧ s = w ++ rest := by
  induction p generalizing s rest with
  | empty => exact ⟨[], by simp, h⟩
  | one own =>
    obtain ⟨c, hc, rfl⟩ := h
    exact ⟨[c], by simpa using hp c hc, rfl⟩
  | many own =>
    obtain ⟨w, hw, rfl⟩ := h
    exact ⟨w, fun c hc => hp c (hw c hc), rfl⟩
  | manyLazy own =>
    obtain ⟨w, hw, rfl⟩ := h
    exact ⟨w, fun c hc => hp c (hw c hc), rfl⟩
  | andThen first second ihfirst ihsecond =>
    obtain ⟨middle, hfirst, hsecond⟩ := h
    obtain ⟨u, hu, rfl⟩ := ihfirst hp.1 hfirst
    obtain ⟨v, hv, rfl⟩ := ihsecond hp.2 hsecond
    refine ⟨u ++ v, fun c hc => ?_, (List.append_assoc u v rest).symm⟩
    rcases List.mem_append.1 hc with hc | hc
    · exact hu c hc
    · exact hv c hc
  | orElse first second ihfirst ihsecond =>
    rcases h with h | h
    · exact ihfirst hp.1 h
    · exact ihsecond hp.2 h
  | group number body ih => exact ih hp h
  | atEnd =>
    obtain ⟨rfl, rfl⟩ := h
    exact ⟨[], by simp, rfl⟩

/-! ## What is tried first -/

/-- Skipping one member more. -/
theorem rests_cons {member : Char → Bool} {c : Char} (hc : member c = true) (s : List Char)
    (shorter : List (List Char)) :
    rests member (c :: s) shorter = rests member s [] ++ (c :: s) :: shorter := by
  have hshorter : ∀ (s : List Char) (shorter : List (List Char)),
      rests member s shorter = rests member s [] ++ shorter := by
    intro s
    induction s with
    | nil => exact fun shorter => rfl
    | cons d s ih =>
      intro shorter
      rw [rests, rests]
      split
      · rw [ih, ih [d :: s], List.append_assoc, List.singleton_append]
      · rfl
  rw [rests, if_pos hc, hshorter]

/-- Of the rests after a repetition, those after more repetitions come before. -/
theorem rests_append {member : Char → Bool} {w : List Char} (hw : ∀ c ∈ w, member c = true)
    (s : List Char) :
    ∃ shorter, rests member (w ++ s) [] = rests member s [] ++ shorter ∧
      ∀ rest ∈ shorter, ∃ u v, v ≠ [] ∧ w = u ++ v ∧ rest = v ++ s := by
  induction w with
  | nil => exact ⟨[], (List.append_nil _).symm, by simp⟩
  | cons c w ih =>
    obtain ⟨hc, hw⟩ := List.forall_mem_cons.1 hw
    obtain ⟨shorter, hrests, hshorter⟩ := ih hw
    refine ⟨shorter ++ [c :: (w ++ s)], ?_, ?_⟩
    · rw [List.cons_append, rests_cons hc, hrests, List.append_assoc]
    · intro rest hrest
      rcases List.mem_append.1 hrest with hrest | hrest
      · obtain ⟨u, v, hv, rfl, rfl⟩ := hshorter rest hrest
        exact ⟨c :: u, v, hv, rfl, rfl⟩
      · obtain rfl := List.mem_singleton.1 hrest
        exact ⟨[], c :: w, by simp, rfl, rfl⟩

/-- The rest after no repetition comes last, after those of one repetition or more. -/
theorem rests_eq (member : Char → Bool) (s : List Char) :
    ∃ longer, rests member s [] = longer ++ [s] ∧
      ∀ rest ∈ longer, ∃ w, w ≠ [] ∧ (∀ c ∈ w, member c = true) ∧ s = w ++ rest := by
  cases s with
  | nil => exact ⟨[], rfl, by simp⟩
  | cons c s =>
    by_cases hc : member c = true
    · refine ⟨rests member s [], rests_cons hc s [], fun rest hrest => ?_⟩
      obtain ⟨w, hw, rfl⟩ := (mem_rests.1 hrest).resolve_right List.not_mem_nil
      exact ⟨c :: w, by simp, List.forall_mem_cons.2 ⟨hc, hw⟩, rfl⟩
    · exact ⟨[], by rw [rests, if_neg hc]; rfl, by simp⟩

/-- A repetition ends where the match goes on, if it cannot go on after more repetitions. -/
theorem run_many {α : Type} {member : Char → Bool} {next : List Char → Captures → Option α}
    {w s : List Char} {captures : Captures} {r : α} (hw : ∀ c ∈ w, member c = true)
    (hlonger : ∀ u rest, u ≠ [] → (∀ c ∈ u, member c = true) → s = u ++ rest →
      next rest captures = none) (h : next s captures = some r) :
    (many member).run next (w ++ s) captures = some r := by
  obtain ⟨shorter, hrests, -⟩ := rests_append hw s
  obtain ⟨longer, hlast, hmore⟩ := rests_eq member s
  have hnone : longer.findSome? (fun rest => next rest captures) = none := by
    rw [List.findSome?_eq_none_iff]
    intro rest hrest
    obtain ⟨u, hu, hmember, hsplit⟩ := hmore rest hrest
    exact hlonger u rest hu hmember hsplit
  rw [run, hrests, hlast, List.findSome?_append, List.findSome?_append, hnone]
  simp [h]

/-- A lazy repetition ends where the match goes on, if it cannot go on after fewer repetitions. -/
theorem run_manyLazy {α : Type} {member : Char → Bool} {next : List Char → Captures → Option α}
    {w s : List Char} {captures : Captures} {r : α} (hw : ∀ c ∈ w, member c = true)
    (hshorter : ∀ u v, v ≠ [] → w = u ++ v → next (v ++ s) captures = none)
    (h : next s captures = some r) : (manyLazy member).run next (w ++ s) captures = some r := by
  obtain ⟨shorter, hrests, hfewer⟩ := rests_append hw s
  obtain ⟨longer, hlast, -⟩ := rests_eq member s
  have hnone : shorter.reverse.findSome? (fun rest => next rest captures) = none := by
    rw [List.findSome?_eq_none_iff]
    intro rest hrest
    obtain ⟨u, v, hv, hsplit, rfl⟩ := hfewer rest (List.mem_reverse.1 hrest)
    exact hshorter u v hv hsplit
  rw [run, hrests, hlast, List.reverse_append, List.reverse_append, List.findSome?_append, hnone]
  simp [h]

theorem run_one {α : Type} {member : Char → Bool} {c : Char} (hc : member c = true)
    (next : List Char → Captures → Option α) (s : List Char) (captures : Captures) :
    (one member).run next (c :: s) captures = next s captures := by
  rw [run, if_pos hc]

/-- Wherever the match can go on at `rest`, with these groups recorded, the pattern leads there. -/
structure Takes (p : Pattern) (s rest : List Char) (recorded : Captures) : Prop where
  leads : ∀ {α : Type} (next : List Char → Captures → Option α) (captures : Captures) (r : α),
    next rest (recorded ++ captures) = some r → p.run next s captures = some r

theorem takes_empty (s : List Char) : empty.Takes s s [] := ⟨fun _ _ _ h => h⟩

/-- A class takes a member. -/
theorem takes_one {member : Char → Bool} {c : Char} (hc : member c = true) (s : List Char) :
    (one member).Takes (c :: s) s [] := by
  constructor
  intro α next captures r h
  rw [run_one hc]
  exact h

/-- A repetition takes all members of the class that there are. -/
theorem takes_many {member : Char → Bool} {w s : List Char} (hw : ∀ c ∈ w, member c = true)
    (hs : ∀ c ∈ s.head?, member c = false) : (many member).Takes (w ++ s) s [] := by
  constructor
  intro α next captures r h
  apply run_many hw _ h
  rintro (_ | ⟨c, u⟩) rest hu hmember rfl
  · exact absurd rfl hu
  · have hc := hmember c List.mem_cons_self
    rw [hs c rfl] at hc
    exact absurd hc (by simp)

/-- A sequence takes what its parts take one after the other. -/
theorem Takes.andThen {first second : Pattern} {s middle rest : List Char}
    {recorded recorded' : Captures} (hfirst : first.Takes s middle recorded)
    (hsecond : second.Takes middle rest recorded') :
    (first.andThen second).Takes s rest (recorded' ++ recorded) := by
  constructor
  intro α next captures r h
  rw [List.append_assoc] at h
  exact hfirst.leads _ _ _ (hsecond.leads _ _ _ h)

/-- Alternatives take what the first of them takes. -/
theorem Takes.orElse {first : Pattern} {s rest : List Char} {recorded : Captures}
    (hfirst : first.Takes s rest recorded) (second : Pattern) :
    (first.orElse second).Takes s rest recorded := by
  constructor
  intro α next captures r h
  rw [run, hfirst.leads _ _ _ h, Option.orElse_some]

/-- The second alternative counts where the first describes nothing. -/
theorem Takes.orElse_right {first second : Pattern} {s rest : List Char} {recorded : Captures}
    (hfirst : ∀ rest, ¬ first.Reads s rest) (hsecond : second.Takes s rest recorded) :
    (first.orElse second).Takes s rest recorded := by
  constructor
  intro α next captures r h
  rw [run, run_eq_none (fun rest hreads => absurd hreads (hfirst rest)), Option.orElse_none]
  exact hsecond.leads _ _ _ h

/-- A group takes what its body takes, and records it. -/
theorem Takes.group {body : Pattern} {s rest : List Char} {recorded : Captures}
    (hbody : body.Takes s rest recorded) (number : Nat) :
    (body.group number).Takes s rest ((number, ⟨s, rest⟩) :: recorded) := by
  constructor
  intro α next captures r h
  exact hbody.leads _ _ _ h

/-- At least one member, and all that there are. -/
theorem takes_atLeastOne {member : Char → Bool} {w s : List Char} (hne : w ≠ [])
    (hw : ∀ c ∈ w, member c = true) (hs : ∀ c ∈ s.head?, member c = false) :
    (atLeastOne member).Takes (w ++ s) s [] := by
  obtain ⟨c, w, rfl⟩ := List.exists_cons_of_ne_nil hne
  obtain ⟨hc, hw⟩ := List.forall_mem_cons.1 hw
  exact (takes_one hc (w ++ s)).andThen (takes_many hw hs)

/-- A sequence that takes nothing but single members. -/
theorem takes_times {member : Char → Bool} {w : List Char} (hw : ∀ c ∈ w, member c = true)
    (s : List Char) : (times w.length member).Takes (w ++ s) s [] := by
  induction w with
  | nil => exact takes_empty s
  | cons c w ih =>
    obtain ⟨hc, hw⟩ := List.forall_mem_cons.1 hw
    cases w with
    | nil => exact takes_one hc s
    | cons d w => exact (takes_one hc (d :: w ++ s)).andThen (ih hw)

/-- A sequence with at least two members is its head before its tail. -/
theorem sequence_cons {p : Pattern} {ps : List Pattern} (hps : ps ≠ []) :
    sequence (p :: ps) = p.andThen (sequence ps) := by
  cases ps with
  | nil => exact absurd rfl hps
  | cons q ps => rfl

/-! ## Sequences -/

/-- Two lists of patterns, one after the other. -/
theorem reads_sequence_append {ps qs : List Pattern} (hqs : qs ≠ []) {s rest : List Char} :
    (sequence (ps ++ qs)).Reads s rest ↔
      ∃ middle, (sequence ps).Reads s middle ∧ (sequence qs).Reads middle rest := by
  induction ps generalizing s with
  | nil =>
    constructor
    · exact fun h => ⟨s, rfl, h⟩
    · rintro ⟨middle, hmiddle, h⟩
      obtain rfl : s = middle := hmiddle
      exact h
  | cons p ps ih =>
    rw [List.cons_append, sequence_cons (by simp [hqs])]
    cases ps with
    | nil => exact Iff.rfl
    | cons q ps =>
      rw [sequence_cons (by simp)]
      simp only [Reads, ih]
      constructor
      · rintro ⟨first, hp, middle, hps, hrest⟩
        exact ⟨middle, ⟨first, hp, hps⟩, hrest⟩
      · rintro ⟨middle, ⟨first, hp, hps⟩, hrest⟩
        exact ⟨first, hp, middle, hps, hrest⟩

/-- What a list of patterns takes, and then another. -/
theorem takes_sequence_append {ps qs : List Pattern} (hqs : qs ≠ []) {s middle rest : List Char}
    {recorded : Captures} (hps : (sequence ps).Takes s middle [])
    (hrest : (sequence qs).Takes middle rest recorded) :
    (sequence (ps ++ qs)).Takes s rest recorded := by
  constructor
  intro α next captures r h
  have hboth := (hps.andThen hrest).leads next captures r (by rwa [List.append_nil])
  rw [run] at hboth
  have hrun : ∀ (ps : List Pattern) (s : List Char) (captures : Captures),
      (sequence (ps ++ qs)).run next s captures =
        (sequence ps).run ((sequence qs).run next) s captures := by
    intro ps
    induction ps with
    | nil => exact fun s captures => rfl
    | cons p ps ih =>
      intro s captures
      rw [List.cons_append, sequence_cons (by simp [hqs]), run]
      have hfun : (sequence (ps ++ qs)).run next = (sequence ps).run ((sequence qs).run next) := by
        funext s captures
        exact ih s captures
      rw [hfun]
      cases ps with
      | nil => rfl
      | cons q ps => rfl
  rw [hrun]
  exact hboth

/-- A pattern of single characters, which describes at most one front of a text. -/
def Rigid : Pattern → Prop
  | empty => True
  | one _ => True
  | andThen first second => first.Rigid ∧ second.Rigid
  | _ => False

/-- A sequence of rigid patterns is rigid. -/
theorem rigid_sequence {ps : List Pattern} (h : ∀ p ∈ ps, p.Rigid) : (sequence ps).Rigid := by
  induction ps with
  | nil => trivial
  | cons p ps ih =>
    obtain ⟨hp, hps⟩ := List.forall_mem_cons.1 h
    cases ps with
    | nil => exact hp
    | cons q ps => exact ⟨hp, ih hps⟩

/-- A number of members is rigid. -/
theorem rigid_times (n : Nat) (member : Char → Bool) : (times n member).Rigid :=
  rigid_sequence fun _ hp => (List.eq_of_mem_replicate hp) ▸ trivial

/-- A pattern of single characters takes what it describes, whatever comes after. -/
theorem Rigid.takes {p : Pattern} (hp : p.Rigid) {s middle : List Char}
    (h : p.Reads s middle) (rest : List Char) : p.Takes (s ++ rest) (middle ++ rest) [] := by
  induction p generalizing s middle with
  | empty =>
    obtain rfl : s = middle := h
    exact takes_empty _
  | one member =>
    obtain ⟨c, hc, rfl⟩ := h
    exact takes_one hc _
  | andThen first second ihfirst ihsecond =>
    obtain ⟨between, hfirst, hsecond⟩ := h
    exact (ihfirst hp.1 hfirst).andThen (ihsecond hp.2 hsecond)
  | many member => exact hp.elim
  | manyLazy member => exact hp.elim
  | orElse first second => exact hp.elim
  | group number body => exact hp.elim
  | atEnd => exact hp.elim

/-- A literal character takes itself. -/
theorem takes_char (c : Char) (s : List Char) : (char c).Takes (c :: s) s [] := by
  have hc : (fun d : Char => d == c) c = true := beq_self_eq_true c
  exact @takes_one (fun d => d == c) c hc s

/-- A literal text takes itself. -/
theorem takes_text (text : String) (s : List Char) :
    (Pattern.text text).Takes (text.toList ++ s) s [] := by
  rw [Pattern.text]
  induction text.toList with
  | nil => exact takes_empty s
  | cons c w ih =>
    cases w with
    | nil => exact takes_char c s
    | cons d w => exact (takes_char c (d :: w ++ s)).andThen ih

/-- A literal text describes itself. -/
theorem eq_append_of_reads_text {text : String} {s rest : List Char}
    (h : (Pattern.text text).Reads s rest) : s = text.toList ++ rest := by
  rw [Pattern.text] at h
  generalize text.toList = letters at h ⊢
  induction letters generalizing s with
  | nil => exact h
  | cons c w ih =>
    have hchar : ∀ {s middle : List Char}, (char c).Reads s middle → s = c :: middle := by
      rintro s middle ⟨d, hd, rfl⟩
      rw [eq_of_beq hd]
    cases w with
    | nil => exact hchar h
    | cons d w =>
      obtain ⟨middle, hfirst, hothers⟩ := h
      rw [hchar hfirst, ih hothers]
      rfl

/-- Of several texts, one is taken if none of the others is at the front. -/
theorem takes_firstOf {texts : List String} {text : String} (h : text ∈ texts) {rest : List Char}
    (hothers : ∀ other ∈ texts, (∃ rest', text.toList ++ rest = other.toList ++ rest') →
      other = text) :
    (firstOf (texts.map Pattern.text)).Takes (text.toList ++ rest) rest [] := by
  induction texts with
  | nil => exact absurd h List.not_mem_nil
  | cons other texts ih =>
    obtain ⟨hother, htexts⟩ := List.forall_mem_cons.1 hothers
    by_cases he : other = text
    · subst he
      cases texts with
      | nil => exact takes_text other rest
      | cons next texts => exact (takes_text other rest).orElse _
    · have hmem := (List.mem_cons.1 h).resolve_left fun heq => he heq.symm
      cases texts with
      | nil => exact absurd hmem List.not_mem_nil
      | cons next texts =>
        apply Takes.orElse_right
        · intro rest' hreads
          exact he (hother ⟨rest', eq_append_of_reads_text hreads⟩)
        · exact ih hmem htexts

/-- The end is taken where nothing follows. -/
theorem takes_atEnd : atEnd.Takes [] [] [] := by
  constructor
  intro α next captures r h
  exact h

/-- A match at the front of the text is the one that a search finds. -/
theorem search_of_matchStart {p : Pattern} {s : List Char} {captures : Captures}
    (h : p.matchStart s = some captures) : p.search s = some captures := by
  obtain ⟨longer, hrests, -⟩ := rests_eq (fun _ => true) s
  rw [search, hrests, List.reverse_append, List.reverse_singleton, List.singleton_append,
    List.findSome?_cons, h]

end LogAudit.Text.Pattern
