import LogAudit.Proofs.Text.Matching

/-!
# What a search finds

A search fails exactly if no part of the text from some character on is described
(`search_eq_none_iff`). A match that it finds starts at the first character from which the pattern
describes something (`exists_of_search`), and the groups of a match can be read off its parts
(`Captures.Tells`).
-/

namespace LogAudit.Text

namespace Pattern

/-! ## Completeness -/

/-- A match is found wherever the pattern describes something from which the match goes on. -/
theorem isSome_run_of_reads {α : Type} {p : Pattern} {next : List Char → Captures → Option α}
    {s rest : List Char} (h : p.Reads s rest) (hnext : ∀ captures, (next rest captures).isSome)
    (captures : Captures) : (p.run next s captures).isSome := by
  induction p generalizing next s rest captures with
  | empty =>
    obtain rfl : s = rest := h
    exact hnext captures
  | one member =>
    obtain ⟨c, hc, rfl⟩ := h
    rw [run_one hc]
    exact hnext captures
  | many member =>
    rw [run, List.findSome?_isSome_iff]
    exact ⟨rest, mem_rests.2 (Or.inl h), hnext captures⟩
  | manyLazy member =>
    rw [run, List.findSome?_isSome_iff]
    exact ⟨rest, List.mem_reverse.2 (mem_rests.2 (Or.inl h)), hnext captures⟩
  | andThen first second ihfirst ihsecond =>
    obtain ⟨middle, hfirst, hsecond⟩ := h
    exact ihfirst hfirst (ihsecond hsecond hnext) captures
  | orElse first second ihfirst ihsecond =>
    rw [run]
    cases hf : first.run next s captures with
    | some r => rfl
    | none =>
      rcases h with h | h
      · have hfound := ihfirst h hnext captures
        rw [hf] at hfound
        exact absurd hfound (by simp)
      · exact ihsecond h hnext captures
  | group number body ih =>
    rw [run]
    apply ih h
    exact fun _ => hnext _
  | atEnd =>
    obtain ⟨rfl, rfl⟩ := h
    exact hnext captures

/-- No match starts where nothing is described. -/
theorem matchStart_eq_none_iff {p : Pattern} {s : List Char} :
    p.matchStart s = none ↔ ∀ rest, ¬ p.Reads s rest := by
  constructor
  · intro hnone rest hreads
    have hfound : (p.matchStart s).isSome := isSome_run_of_reads hreads (fun _ => rfl) []
    rw [hnone] at hfound
    exact absurd hfound (by simp)
  · exact fun h => run_eq_none (fun rest hreads => absurd hreads (h rest)) []

/-- A search tries the front of the text, and then goes on behind its first character. -/
theorem search_cons (p : Pattern) (c : Char) (s : List Char) :
    p.search (c :: s) = (p.matchStart (c :: s)).orElse fun _ => p.search s := by
  have hrests := @rests_cons (fun _ => true) c rfl s []
  rw [search, hrests, List.reverse_append, List.reverse_singleton, List.singleton_append,
    List.findSome?_cons]
  cases p.matchStart (c :: s) <;> rfl

theorem search_nil (p : Pattern) : p.search [] = p.matchStart [] := by
  rw [search, rests, List.reverse_singleton, List.findSome?_singleton]

/-- A search fails where nothing is described from any character on. -/
theorem search_eq_none_iff {p : Pattern} {s : List Char} :
    p.search s = none ↔ ∀ skipped tail rest, s = skipped ++ tail → ¬ p.Reads tail rest := by
  induction s with
  | nil =>
    rw [search_nil, matchStart_eq_none_iff]
    constructor
    · rintro h skipped tail rest hsplit
      obtain ⟨-, rfl⟩ := List.append_eq_nil_iff.1 hsplit.symm
      exact h rest
    · exact fun h rest => h [] [] rest rfl
  | cons c s ih =>
    rw [search_cons]
    constructor
    · intro hnone skipped tail rest hsplit
      cases hstart : p.matchStart (c :: s) with
      | some captures => rw [hstart] at hnone; exact absurd hnone (by simp)
      | none =>
        rw [hstart, Option.orElse_none] at hnone
        cases skipped with
        | nil =>
          obtain rfl : c :: s = tail := hsplit
          exact matchStart_eq_none_iff.1 hstart rest
        | cons d skipped =>
          obtain ⟨-, hsplit⟩ := List.cons_eq_cons.1 hsplit
          exact ih.1 hnone skipped tail rest hsplit
    · intro h
      rw [matchStart_eq_none_iff.2 fun rest => h [] (c :: s) rest rfl, Option.orElse_none]
      exact ih.2 fun skipped tail rest hsplit => h (c :: skipped) tail rest (by rw [hsplit]; rfl)

/-- What a search finds starts where the pattern describes something for the first time. -/
theorem exists_of_search {p : Pattern} {s : List Char} {captures : Captures}
    (h : p.search s = some captures) :
    ∃ skipped tail rest, s = skipped ++ tail ∧ p.Records tail rest captures ∧
      ∀ u v rest', skipped = u ++ v → v ≠ [] → ¬ p.Reads (v ++ tail) rest' := by
  have hstart : ∀ {s}, p.matchStart s = some captures → ∃ rest, p.Records s rest captures := by
    intro s hmatch
    obtain ⟨rest, found, hrecords, hnext⟩ := run_records hmatch
    obtain rfl : found ++ [] = captures := Option.some.inj hnext
    exact ⟨rest, by rwa [List.append_nil]⟩
  induction s with
  | nil =>
    rw [search_nil] at h
    obtain ⟨rest, hrecords⟩ := hstart h
    refine ⟨[], [], rest, rfl, hrecords, fun u v rest' hsplit hv => ?_⟩
    exact absurd (List.append_eq_nil_iff.1 hsplit.symm).2 hv
  | cons c s ih =>
    rw [search_cons] at h
    cases hfront : p.matchStart (c :: s) with
    | some found =>
      rw [hfront, Option.orElse_some, Option.some.injEq] at h
      subst h
      obtain ⟨rest, hrecords⟩ := hstart hfront
      refine ⟨[], c :: s, rest, rfl, hrecords, fun u v rest' hsplit hv => ?_⟩
      exact absurd (List.append_eq_nil_iff.1 hsplit.symm).2 hv
    | none =>
      rw [hfront, Option.orElse_none] at h
      obtain ⟨skipped, tail, rest, rfl, hrecords, hfirst⟩ := ih h
      refine ⟨c :: skipped, tail, rest, rfl, hrecords, fun u v rest' hsplit hv => ?_⟩
      cases u with
      | nil =>
        obtain rfl : c :: skipped = v := hsplit
        exact matchStart_eq_none_iff.1 hfront rest'
      | cons d u =>
        obtain ⟨-, hsplit⟩ := List.cons_eq_cons.1 hsplit
        exact hfirst u v rest' hsplit hv

end Pattern

/-! ## The groups of a match -/

namespace Captures

/-- From a number on, these are the texts of the groups, `none` where a group was passed over; and
there are no other groups. -/
def Tells (captures : Captures) (number : Nat) (texts : List (Option (List Char))) : Prop :=
  ∀ m, captures.text? m = if number ≤ m then texts[m - number]?.join else none

theorem text?_append (later earlier : Captures) (number : Nat) :
    text? (later ++ earlier) number = (later.text? number).or (earlier.text? number) := by
  rw [text?, List.lookup_append]
  cases h : later.lookup number <;> simp [text?, h]

theorem tells_nil (number : Nat) : Tells [] number [] := by
  intro m
  simp [text?]

/-- One group. -/
theorem tells_singleton (number : Nat) (text rest : List Char) :
    Tells [(number, ⟨text ++ rest, rest⟩)] number [some text] := by
  intro m
  have htext := Span.text_append text rest
  by_cases hm : m = number
  · subst hm
    simp [text?, htext]
  · have hother : (m == number) = false := by simpa using hm
    have hnone : number ≤ m → [some text][m - number]? = none :=
      fun hle => List.getElem?_eq_none (by rw [List.length_singleton]; omega)
    rw [text?, List.lookup_cons, hother]
    by_cases hle : number ≤ m
    · rw [if_pos hle, hnone hle]
      rfl
    · rw [if_neg hle]
      rfl

/-- A group that was passed over. -/
theorem tells_none (number : Nat) : Tells [] number [none] := by
  intro m
  rcases h : m - number with _ | k <;> simp [text?]

/-- Groups with numbers after those of the groups before. -/
theorem Tells.append {later earlier : Captures} {number : Nat}
    {texts texts' : List (Option (List Char))} (hearlier : earlier.Tells number texts)
    (hlater : later.Tells (number + texts.length) texts') :
    Tells (later ++ earlier) number (texts ++ texts') := by
  intro m
  rw [text?_append, hearlier m, hlater m]
  by_cases hlow : m < number
  · simp [show ¬ number ≤ m by omega, show ¬ number + texts.length ≤ m by omega]
  · by_cases hhigh : number + texts.length ≤ m
    · have hright : (texts ++ texts')[m - number]? = texts'[m - (number + texts.length)]? := by
        rw [List.getElem?_append_right (by omega)]
        congr 1
        omega
      have hnone : texts[m - number]? = none := List.getElem?_eq_none (by omega)
      simp [show number ≤ m by omega, hhigh, hright, hnone]
    · have hleft : (texts ++ texts')[m - number]? = texts[m - number]? :=
        List.getElem?_append_left (by omega)
      simp [show number ≤ m by omega, hhigh, hleft]

end Captures

namespace Pattern

/-! ## Patterns without groups -/

/-- The pattern records nothing and does not look at the end of the text. -/
def isPlain : Pattern → Bool
  | andThen first second | orElse first second => first.isPlain && second.isPlain
  | group _ _ | atEnd => false
  | _ => true

theorem Records.of_isPlain {p : Pattern} (hp : p.isPlain = true) {s rest : List Char}
    {found : Captures} (h : p.Records s rest found) : found = [] := by
  induction p generalizing s rest found with
  | andThen first second ihfirst ihsecond =>
    obtain ⟨hp, hp'⟩ := Bool.and_eq_true_iff.1 hp
    obtain ⟨middle, before, after, hfirst, hsecond, rfl⟩ := h
    rw [ihfirst hp hfirst, ihsecond hp' hsecond]
    rfl
  | orElse first second ihfirst ihsecond =>
    obtain ⟨hp, hp'⟩ := Bool.and_eq_true_iff.1 hp
    exact h.elim (ihfirst hp) (ihsecond hp')
  | group number body => exact absurd hp (by simp [isPlain])
  | atEnd => exact absurd hp (by simp [isPlain])
  | empty => exact h.2
  | one member => exact h.2
  | many member => exact h.2
  | manyLazy member => exact h.2

/-- What comes after a front does not matter to a pattern that does not look at the end. -/
theorem reads_append_iff {p : Pattern} (hp : p.isPlain = true) {s middle : List Char}
    (rest : List Char) : p.Reads (s ++ rest) (middle ++ rest) ↔ p.Reads s middle := by
  have hsplit : ∀ w : List Char, s ++ rest = w ++ (middle ++ rest) ↔ s = w ++ middle := by
    intro w
    rw [← List.append_assoc, List.append_left_inj]
  induction p generalizing s middle with
  | empty => exact List.append_left_inj rest
  | one member =>
    refine exists_congr fun c => and_congr_right fun _ => ?_
    exact hsplit [c]
  | many member => exact exists_congr fun w => and_congr_right fun _ => hsplit w
  | manyLazy member => exact exists_congr fun w => and_congr_right fun _ => hsplit w
  | andThen first second ihfirst ihsecond =>
    obtain ⟨hp, hp'⟩ := Bool.and_eq_true_iff.1 hp
    have hfirst : ∀ {s middle : List Char},
        first.Reads (s ++ rest) (middle ++ rest) ↔ first.Reads s middle :=
      fun {s middle} => ihfirst hp fun w => by rw [← List.append_assoc, List.append_left_inj]
    have hsecond : ∀ {s middle : List Char},
        second.Reads (s ++ rest) (middle ++ rest) ↔ second.Reads s middle :=
      fun {s middle} => ihsecond hp' fun w => by rw [← List.append_assoc, List.append_left_inj]
    constructor
    · rintro ⟨between, hf, hs⟩
      obtain ⟨w, rfl⟩ := hs.exists_append
      rw [← List.append_assoc] at hf hs
      exact ⟨w ++ middle, hfirst.1 hf, hsecond.1 hs⟩
    · rintro ⟨between, hf, hs⟩
      exact ⟨between ++ rest, hfirst.2 hf, hsecond.2 hs⟩
  | orElse first second ihfirst ihsecond =>
    obtain ⟨hp, hp'⟩ := Bool.and_eq_true_iff.1 hp
    exact or_congr (ihfirst hp hsplit) (ihsecond hp' hsplit)
  | group number body => exact absurd hp (by simp [isPlain])
  | atEnd => exact absurd hp (by simp [isPlain])

/-- A front that a pattern describes is a text that it describes wholly. -/
theorem reads_iff_exists_text {p : Pattern} (hp : p.isPlain = true) {s rest : List Char} :
    p.Reads s rest ↔ ∃ text, s = text ++ rest ∧ p.Reads text [] := by
  constructor
  · intro h
    obtain ⟨text, rfl⟩ := h.exists_append
    exact ⟨text, rfl, (reads_append_iff hp rest).1 h⟩
  · rintro ⟨text, rfl, h⟩
    exact (reads_append_iff hp rest).2 h

/-- A group without groups inside records its text. -/
theorem Records.exists_text {p : Pattern} (hp : p.isPlain = true) {number : Nat}
    {s rest : List Char} {found : Captures} (h : (group number p).Records s rest found) :
    ∃ text, s = text ++ rest ∧ p.Reads text [] ∧ found.Tells number [some text] := by
  obtain ⟨inner, hbody, rfl⟩ := h
  obtain rfl := hbody.of_isPlain hp
  obtain ⟨text, rfl, hreads⟩ := (reads_iff_exists_text hp).1 hbody.reads
  exact ⟨text, rfl, hreads, Captures.tells_singleton number text rest⟩

/-- Any number of members of a class. -/
theorem reads_many_iff {member : Char → Bool} {text : List Char} :
    (many member).Reads text [] ↔ ∀ c ∈ text, member c = true := by
  constructor
  · rintro ⟨w, hw, rfl⟩
    rwa [List.append_nil]
  · exact fun h => ⟨text, h, (List.append_nil text).symm⟩

/-- At least one member of a class. -/
theorem reads_atLeastOne_iff {member : Char → Bool} {s rest : List Char} :
    (atLeastOne member).Reads s rest ↔
      ∃ w, s = w ++ rest ∧ w ≠ [] ∧ ∀ c ∈ w, member c = true := by
  constructor
  · rintro ⟨_, ⟨c, hc, rfl⟩, w, hw, rfl⟩
    exact ⟨c :: w, rfl, List.cons_ne_nil c w, List.forall_mem_cons.2 ⟨hc, hw⟩⟩
  · rintro ⟨w, rfl, hne, hw⟩
    obtain ⟨c, w, rfl⟩ := List.exists_cons_of_ne_nil hne
    obtain ⟨hc, hw⟩ := List.forall_mem_cons.1 hw
    exact ⟨w ++ rest, ⟨c, hc, rfl⟩, w, hw, rfl⟩

/-- A literal character describes itself, and nothing else. -/
theorem reads_char_iff {c : Char} {s rest : List Char} :
    (char c).Reads s rest ↔ s = c :: rest := by
  constructor
  · rintro ⟨d, hd, rfl⟩
    rw [eq_of_beq hd]
  · rintro rfl
    exact ⟨c, beq_self_eq_true c, rfl⟩

/-- A literal text describes itself, and nothing else. -/
theorem reads_text_iff {text : String} {s rest : List Char} :
    (Pattern.text text).Reads s rest ↔ s = text.toList ++ rest := by
  refine ⟨eq_append_of_reads_text, ?_⟩
  rintro rfl
  rw [Pattern.text]
  induction text.toList with
  | nil => rfl
  | cons c w ih =>
    cases w with
    | nil => exact ⟨c, beq_self_eq_true c, rfl⟩
    | cons d w => exact ⟨_, ⟨c, beq_self_eq_true c, rfl⟩, ih⟩

/-- Several texts describe each of themselves. -/
theorem reads_firstOf_text {texts : List String} {s rest : List Char} :
    (firstOf (texts.map Pattern.text)).Reads s rest ↔
      ∃ text ∈ texts, s = text.toList ++ rest := by
  induction texts with
  | nil => simp [firstOf, Reads]
  | cons text texts ih =>
    cases texts with
    | nil => simp [firstOf, reads_text_iff]
    | cons other texts =>
      have hor : (firstOf ((text :: other :: texts).map Pattern.text)).Reads s rest ↔
          s = text.toList ++ rest ∨ ∃ text' ∈ other :: texts, s = text'.toList ++ rest :=
        or_congr reads_text_iff ih
      simp only [hor, List.mem_cons, exists_eq_or_imp]

end Pattern

end LogAudit.Text
