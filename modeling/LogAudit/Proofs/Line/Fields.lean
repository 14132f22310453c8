import LogAudit.Proofs.Line.Composition

/-!
# Where fields end

Some fields end where a character comes that cannot stand in them, and the search takes them as they
are. Others are taken too long at first, and the search comes back to where they end because the
rest of the template fails on what is left: the character after such a field is counted up to the
next blank, and past the end of the field there are fewer of it than the template asks for.
-/

namespace LogAudit.Line

open LogAudit.Text LogAudit.Time

/-! ## Counting up to a blank -/

/-- How often a character comes before the first blank. -/
def ahead (c : Char) (s : List Char) : Nat := (s.takeWhile Pattern.isInk).count c

theorem ahead_append {c : Char} {w : List Char} (hw : ∀ d ∈ w, Pattern.isInk d = true)
    (s : List Char) : ahead c (w ++ s) = w.count c + ahead c s := by
  rw [ahead, List.takeWhile_append_of_pos hw, List.count_append, ahead]

theorem ahead_cons_of_isBlank {c d : Char} (hd : isBlank d = true) (s : List Char) :
    ahead c (d :: s) = 0 := by
  rw [ahead, List.takeWhile_cons_of_neg (by simp [Pattern.isInk, hd])]
  rfl

/-- Past a blank nothing more is ahead. -/
theorem ahead_append_le {c : Char} {w : List Char} (hw : ∃ d ∈ w, isBlank d = true)
    (s : List Char) : ahead c (w ++ s) ≤ w.count c := by
  induction w with
  | nil => simp at hw
  | cons d w ih =>
    by_cases hd : isBlank d = true
    · rw [List.cons_append, ahead_cons_of_isBlank hd]
      exact Nat.zero_le _
    · have hink : Pattern.isInk d = true := by simpa [Pattern.isInk] using hd
      have hlater : ∃ d ∈ w, isBlank d = true := by
        obtain ⟨e, he, hblank⟩ := hw
        rcases List.mem_cons.1 he with rfl | he
        · exact absurd hblank hd
        · exact ⟨e, he, hblank⟩
      have hrest := ih hlater
      rw [List.cons_append, ahead, List.takeWhile_cons_of_pos hink, List.count_cons,
        List.count_cons]
      exact Nat.add_le_add_right hrest _

/-- How many of a character the literals ask for before a blank may come. -/
def awaited (c : Char) : List Piece → Nat
  | [] => 0
  | .literal d :: pieces => if isBlank d then 0 else (if d == c then 1 else 0) + awaited c pieces
  | .token token :: pieces => if token.mayHoldBlank then 0 else awaited c pieces
  | .mayStop :: _ => 0

/-- A token that stands for no blanks. -/
theorem Token.fragment_within {token : Token} (h : token.mayHoldBlank = false) (number : Nat) :
    (token.fragment number).Within Pattern.isInk := by
  have hink : ∀ c, Pattern.isInk c = true → Pattern.isInk c = true := fun _ h => h
  have hword : ∀ c, isWord c = true → Pattern.isInk c = true := fun _ => isInk_of_isWord
  have hdecimal : ∀ c, isDecimal c = true → Pattern.isInk c = true := fun _ => isInk_of_isDecimal
  have hchar : ∀ d, Pattern.isInk d = true → (Pattern.char d).Within Pattern.isInk := by
    intro d hd c hc
    rwa [eq_of_beq hc]
  cases token with
  | processId => exact ⟨hdecimal, hdecimal⟩
  | sessionLine => exact ⟨hdecimal, hdecimal⟩
  | txnId => exact ⟨hdecimal, hdecimal⟩
  | user => exact hink
  | database => exact hink
  | application => exact hink
  | host => exact ⟨⟨hink, hink⟩, trivial⟩
  | virtualTxn => exact ⟨⟨⟨hdecimal, hdecimal⟩, hchar '/' (by decide), hdecimal, hdecimal⟩, trivial⟩
  | errorCode => exact ⟨hword, hword, hword, hword, hword⟩
  | sessionId => exact ⟨⟨⟨hword, hword⟩, hchar '.' (by decide), hword, hword⟩, trivial⟩
  | timestampMillis => exact absurd h (by decide)
  | timestamp => exact absurd h (by decide)
  | sessionStart => exact absurd h (by decide)
  | hostWithPort => exact absurd h (by decide)
  | backendType => exact absurd h (by decide)

/-- Whatever pieces describe has the awaited characters ahead. -/
theorem awaited_le_of_reads {c : Char} {number : Nat} {pieces : List Piece} {s rest : List Char}
    (h : (Template.body number pieces).Reads s rest) : awaited c pieces ≤ ahead c s := by
  induction pieces generalizing number s with
  | nil => exact Nat.zero_le _
  | cons piece pieces ih =>
    cases piece with
    | literal d =>
      obtain ⟨middle, ⟨e, he, rfl⟩, hmiddle⟩ := h
      obtain rfl : e = d := eq_of_beq he
      rw [awaited]
      split
      · exact Nat.zero_le _
      · have hink : ∀ d ∈ [e], Pattern.isInk d = true := by
          simpa [Pattern.isInk] using ‹¬ isBlank e = true›
        have hahead := @ahead_append c _ hink middle
        rw [List.singleton_append, List.count_singleton] at hahead
        rw [hahead]
        exact Nat.add_le_add_left (ih hmiddle) _
    | token token =>
      obtain ⟨middle, htoken, hmiddle⟩ := h
      rw [awaited]
      split
      · exact Nat.zero_le _
      · have hwithin := Token.fragment_within (by simpa using ‹¬ token.mayHoldBlank = true›) number
        obtain ⟨w, hw, rfl⟩ := htoken.of_within hwithin
        rw [ahead_append hw]
        exact Nat.le_trans (ih hmiddle) (Nat.le_add_left _ _)
    | mayStop => exact Nat.zero_le _

/-- How many blanks the literals start with. -/
def leadingBlanks : List Piece → Nat
  | .literal d :: pieces => if isBlank d then leadingBlanks pieces + 1 else 0
  | _ => 0

/-- Whatever pieces describe starts with the blanks of their literals. -/
theorem leadingBlanks_le_of_reads {number : Nat} {pieces : List Piece} {s rest : List Char}
    (h : (Template.body number pieces).Reads s rest) :
    leadingBlanks pieces ≤ (s.takeWhile isBlank).length := by
  induction pieces generalizing s with
  | nil => exact Nat.zero_le _
  | cons piece pieces ih =>
    cases piece with
    | literal d =>
      obtain ⟨middle, ⟨e, he, rfl⟩, hmiddle⟩ := h
      obtain rfl : e = d := eq_of_beq he
      rw [leadingBlanks]
      split
      · rw [List.takeWhile_cons_of_pos ‹_›, List.length_cons]
        exact Nat.add_le_add_right (ih hmiddle) 1
      · exact Nat.zero_le _
    | token token => exact Nat.zero_le _
    | mayStop => exact Nat.zero_le _

/-! ## The line of a composition -/

section Shown

variable {texts : List (List Char)} {parts : List Part} {tail : List Char}

/-- What ends a field is ahead no more often than the literals ask for. -/
theorem ahead_shownText_le (h : Separable texts parts) (hsub : fieldTexts parts ⊆ texts) {c : Char}
    (hc : EndsField texts c) (htail : ahead c tail = 0) :
    ahead c (shownText parts ++ tail) ≤ awaited c (parts.map Part.piece) := by
  induction parts with
  | nil => exact Nat.le_of_eq htail
  | cons part parts ih =>
    rw [shownText, List.flatMap_cons, ← shownText, List.append_assoc]
    cases part with
    | literal d =>
      simp only [Part.shown, Part.piece, List.map_cons, List.singleton_append, awaited]
      split
      · exact Nat.le_of_eq (ahead_cons_of_isBlank ‹_› _)
      · have hink : ∀ d' ∈ [d], Pattern.isInk d' = true := by
          simpa [Pattern.isInk] using ‹¬ isBlank d = true›
        have hahead := @ahead_append c _ hink (shownText parts ++ tail)
        rw [List.singleton_append, List.count_singleton] at hahead
        rw [hahead]
        exact Nat.add_le_add_left (ih h.2 hsub) _
    | field token text =>
      obtain ⟨hadmits, hends, hparts⟩ := h
      obtain ⟨hmem, hlater⟩ := List.cons_subset.1 hsub
      have hcount : text.count c = 0 := List.count_eq_zero.2 (hc.2.2.2 text hmem)
      have hrest := ih hparts hlater
      have htimestamp : ∀ fraction, IsTimestamp fraction text →
          ahead c (text ++ (shownText parts ++ tail)) ≤ 0 := by
        intro fraction htime
        exact hcount ▸ ahead_append_le htime.exists_blank _
      cases hblank : token.mayHoldBlank with
      | false =>
        simp only [Part.shown, Part.piece, List.map_cons, awaited, hblank, Bool.false_eq_true,
          if_false]
        rw [ahead_append (hadmits.isInk hblank), hcount, Nat.zero_add]
        exact hrest
      | true =>
        simp only [Part.shown, Part.piece, List.map_cons, awaited, hblank, if_true]
        cases token with
        | timestampMillis => exact htimestamp _ hadmits
        | timestamp => exact htimestamp _ hadmits
        | sessionStart => exact htimestamp _ hadmits
        | hostWithPort =>
          obtain ⟨name, port, hname, hport, rfl⟩ := hadmits
          rw [ahead_append fun d hd => isInk_of_mem_hostWithPort hname hport hd, hcount,
            Nat.zero_add]
          rcases hends with rfl | ⟨d, others, rfl, hd⟩
          · exact Nat.le_of_eq htail
          · exact Nat.le_of_eq (ahead_cons_of_isBlank hd _)
        | backendType => exact hadmits.elim
        | _ => exact absurd hblank (by decide)

/-- The line starts with the blanks of its literals and no more. -/
theorem length_blanks_shownText_le (h : Separable texts parts)
    (htail : ∃ d others, tail = d :: others ∧ isBlank d = false) :
    ((shownText parts ++ tail).takeWhile isBlank).length ≤
      leadingBlanks (parts.map Part.piece) := by
  induction parts with
  | nil =>
    obtain ⟨d, others, rfl, hd⟩ := htail
    rw [shownText, List.flatMap_nil, List.nil_append, List.takeWhile_cons_of_neg (by simp [hd])]
    exact Nat.le_refl 0
  | cons part parts ih =>
    rw [shownText, List.flatMap_cons, ← shownText, List.append_assoc]
    cases part with
    | literal d =>
      simp only [Part.shown, Part.piece, List.map_cons, List.singleton_append, leadingBlanks]
      split
      · rw [List.takeWhile_cons_of_pos ‹_›, List.length_cons]
        exact Nat.add_le_add_right (ih h.2) 1
      · rw [List.takeWhile_cons_of_neg ‹_›]
        exact Nat.le_refl 0
    | field token text =>
      obtain ⟨c, others, rfl, hc⟩ := h.1.head
      rw [Part.shown, List.cons_append, List.takeWhile_cons_of_neg (by simp [hc])]
      exact Nat.zero_le _

end Shown

/-! ## Fields whose end shows -/

section Fragment

variable {text rest : List Char}

/-- A field of one class before a character that is not of it. -/
theorem takes_run {member : Char → Bool} (h : Run member text)
    (hrest : ∀ c ∈ rest.head?, member c = false) (number : Nat) :
    ((Pattern.atLeastOne member).group number).Takes (text ++ rest) rest
      [(number, ⟨text ++ rest, rest⟩)] :=
  (Pattern.takes_atLeastOne h.1 h.2 hrest).group number

/-- A field of two parts of a class with a character between them that is not of it. -/
theorem takes_pair {member : Char → Bool} {separator : Char} {a b : List Char}
    (ha : Run member a) (hb : Run member b) (hseparator : member separator = false)
    (hrest : ∀ c ∈ rest.head?, member c = false) (number : Nat) :
    (Pattern.optional (.group number (.sequence
      [.atLeastOne member, .char separator, .atLeastOne member]))).Takes
      (a ++ separator :: b ++ rest) rest [(number, ⟨a ++ separator :: b ++ rest, rest⟩)] := by
  have hfirst : (Pattern.atLeastOne member).Takes (a ++ separator :: (b ++ rest))
      (separator :: (b ++ rest)) [] :=
    Pattern.takes_atLeastOne ha.1 ha.2 (by simpa using hseparator)
  have hlast := Pattern.takes_atLeastOne hb.1 hb.2 hrest
  have hboth := hfirst.andThen ((Pattern.takes_char separator (b ++ rest)).andThen hlast)
  have hsplit : a ++ separator :: b ++ rest = a ++ separator :: (b ++ rest) := by
    rw [List.append_assoc, List.cons_append]
  rw [hsplit]
  exact (hboth.group number).orElse _

/-- A timestamp before a character that does not stand in a word. -/
theorem takes_timestamp {fraction : Pattern} (h : IsTimestamp fraction text)
    (hfraction : ∀ middle before, fraction.Reads middle (' ' :: before) →
      ∀ rest, fraction.Takes (middle ++ rest) (' ' :: before ++ rest) [])
    (hrest : ∀ c ∈ rest.head?, isWord c = false) (number : Nat) :
    ((Token.clock fraction).group number).Takes (text ++ rest) rest
      [(number, ⟨text ++ rest, rest⟩)] := by
  obtain ⟨middle, before, zone, hfront, hreads, hsign, hzone⟩ := h.split
  have hword := Pattern.takes_atLeastOne hzone.1 hzone.2 hrest
  have hbefore : (Pattern.optional (.one fun c => c == '-' || c == '+')).Takes (before ++ rest)
      (zone ++ rest) [] := by
    rcases hsign with ⟨c, hc, rfl⟩ | hsign
    · exact (Pattern.takes_one hc (zone ++ rest)).orElse _
    · obtain rfl : before = zone := hsign
      apply Pattern.Takes.orElse_right
      · rintro after ⟨c, hc, hsplit⟩
        obtain ⟨d, others, rfl, hd⟩ := hzone.head
        obtain ⟨rfl, -⟩ := List.cons_eq_cons.1 hsplit
        simp only [Bool.or_eq_true, beq_iff_eq] at hc
        rcases hc with rfl | rfl
        · exact absurd hd (by decide)
        · exact absurd hd (by decide)
      · exact Pattern.takes_empty _
  have hback : (Pattern.sequence (clockBack fraction)).Takes (middle ++ rest) rest [] :=
    (hfraction middle before hreads rest).andThen
      ((Pattern.takes_char ' ' (before ++ rest)).andThen (hbefore.andThen hword))
  have hclock :
      (Pattern.sequence (clockFront ++ clockBack fraction)).Takes (text ++ rest) rest [] :=
    Pattern.takes_sequence_append (by simp [clockBack]) (rigid_clockFront.takes hfront rest) hback
  exact Pattern.Takes.group hclock number

/-- The digits after the point of a second, before a space. -/
theorem takes_fraction {middle before : List Char}
    (h : Token.fraction.Reads middle (' ' :: before)) (rest : List Char) :
    Token.fraction.Takes (middle ++ rest) (' ' :: before ++ rest) [] := by
  obtain ⟨digits, ⟨c, hc, rfl⟩, others, ⟨d, hd, rfl⟩, w, hw, rfl⟩ := h
  obtain rfl : c = '.' := eq_of_beq hc
  have hdigits : (Pattern.atLeastOne isDecimal).Takes (d :: w ++ (' ' :: before ++ rest))
      (' ' :: before ++ rest) [] := by
    apply Pattern.takes_atLeastOne (by simp) (List.forall_mem_cons.2 ⟨hd, hw⟩)
    intro c hc
    obtain rfl : ' ' = c := by simpa using hc
    decide
  have hsplit : '.' :: d :: (w ++ ' ' :: before) ++ rest =
      '.' :: (d :: w ++ (' ' :: before ++ rest)) := by simp
  rw [hsplit]
  exact (Pattern.takes_char '.' _).andThen hdigits

/-- No fraction before a space. -/
theorem takes_no_fraction {middle before : List Char}
    (h : Pattern.empty.Reads middle (' ' :: before)) (rest : List Char) :
    Pattern.empty.Takes (middle ++ rest) (' ' :: before ++ rest) [] := by
  obtain rfl : middle = ' ' :: before := h
  exact Pattern.takes_empty _

theorem ne_of_isDecimal {c : Char} (h : isDecimal c = true) : c ≠ '(' ∧ c ≠ ')' ∧ c ≠ '\n' := by
  refine ⟨?_, ?_, ?_⟩ <;> rintro rfl <;> exact absurd h (by decide)

/-- Of a port in parentheses the opening one is the only one ahead. -/
theorem ahead_port {port : List Char} (hport : ∀ c ∈ port, isDecimal c = true)
    (hrest : ahead '(' rest = 0) : ahead '(' ('(' :: (port ++ ')' :: rest)) = 1 := by
  have hink : ∀ c ∈ '(' :: port ++ [')'], Pattern.isInk c = true := by
    intro c hc
    simp only [List.mem_append, List.mem_cons, List.not_mem_nil, or_false] at hc
    rcases hc with (rfl | hc) | rfl
    · decide
    · exact isInk_of_isDecimal (hport c hc)
    · decide
  have hcount : port.count '(' = 0 :=
    List.count_eq_zero.2 fun hc => (ne_of_isDecimal (hport _ hc)).1 rfl
  have happend := @ahead_append '(' _ hink rest
  rw [hrest, List.count_append, List.count_cons_self, hcount] at happend
  simpa using happend

/-- A port is taken up to the parenthesis after it. -/
theorem takes_port {port : List Char} (hport : ∀ c ∈ port, isDecimal c = true) (rest : List Char) :
    (Pattern.andThen (.manyLazy Pattern.inLine) (.char ')')).Takes (port ++ ')' :: rest) rest
      [] := by
  constructor
  intro α next captures r h
  apply Pattern.run_manyLazy
  · intro c hc
    simpa [Pattern.inLine] using (ne_of_isDecimal (hport c hc)).2.2
  · rintro u (_ | ⟨c, v⟩) hv rfl
    · exact absurd rfl hv
    · have hne := (ne_of_isDecimal (hport c (by simp))).2.1
      simp [Pattern.char, Pattern.run, hne]
  · exact (Pattern.takes_char ')' rest).leads _ _ _ h

/-- A host with its port, where no other parenthesis opens before the next blank. -/
theorem takes_hostWithPort {name port : List Char} (hname : IsHost name)
    (hport : ∀ c ∈ port, isDecimal c = true) (hrest : ahead '(' rest = 0) (number : Nat) :
    (Token.hostWithPort.fragment number).Takes (name ++ '(' :: port ++ [')'] ++ rest) rest
      [(number, ⟨name ++ '(' :: port ++ [')'] ++ rest, rest⟩)] := by
  obtain ⟨d, others, rfl, hd⟩ := hname.1.head
  have hothers : ∀ c ∈ others, Pattern.isInk c = true :=
    fun c hc => hname.1.2 c (List.mem_cons_of_mem _ hc)
  have hopen := ahead_port hport hrest
  have hsplit : d :: others ++ '(' :: port ++ [')'] ++ rest =
      d :: (others ++ '(' :: (port ++ ')' :: rest)) := by simp
  generalize d :: others ++ '(' :: port ++ [')'] ++ rest = whole at hsplit ⊢
  constructor
  intro α next captures r h
  have hmany : (Pattern.many Pattern.isInk).run ((Pattern.sequence
      [.char '(', .manyLazy Pattern.inLine, .char ')']).run (fun rest captures => next rest
        ((number, ⟨whole, rest⟩) :: captures)))
      (others ++ '(' :: (port ++ ')' :: rest)) captures = some r := by
    apply Pattern.run_many hothers
    · intro u after hu hink hafter
      apply Pattern.run_eq_none
      rintro _ ⟨middle, ⟨c, hc, rfl⟩, -⟩
      obtain rfl : c = '(' := eq_of_beq hc
      -- A second parenthesis would be ahead.
      obtain ⟨c, u, rfl⟩ := List.exists_cons_of_ne_nil hu
      obtain ⟨rfl, -⟩ := List.cons_eq_cons.1 hafter
      have hmore : ∀ c ∈ '(' :: u ++ ['('], Pattern.isInk c = true := by
        intro c hc
        rcases List.mem_append.1 hc with hc | hc
        · exact hink c hc
        · obtain rfl := List.mem_singleton.1 hc
          decide
      have htwo := @ahead_append '(' _ hmore middle
      rw [List.append_assoc, List.singleton_append, ← hafter, hopen, List.count_append,
        List.count_cons_self, List.count_singleton_self] at htwo
      omega
    · exact (Pattern.takes_char '(' _).leads _ _ _ ((takes_port hport rest).leads _ _ _ h)
  have hone : ∀ {next : List Char → Captures → Option α}, (Pattern.one Pattern.isInk).run next whole
      captures = next (others ++ '(' :: (port ++ ')' :: rest)) captures := by
    intro next
    rw [hsplit, Pattern.run_one hd]
  rw [Token.fragment, Pattern.optional, Pattern.run, Pattern.run, Pattern.sequence_cons (by simp),
    Pattern.run, Pattern.atLeastOne, Pattern.run, Pattern.run, hone, hmany, Option.orElse_some]

end Fragment

end LogAudit.Line
