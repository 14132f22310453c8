import LogAudit.Proofs.Line.Accessors
import LogAudit.Proofs.Line.Fields

/-!
# Reading composed lines

A line that is composed by a template is read back by it: every field, the level, the message and
the time are those of the composition. The groups that the search records are given by `recorded`
for the fields and by `recordedAfter` for what follows them.
-/

namespace LogAudit.Line

open LogAudit.Text LogAudit.Time

/-! ## The prefix -/

/-- The groups under which the fields of some parts are recorded, the last one first. -/
def recorded (tail : List Char) : Nat → List Part → Captures
  | _, [] => []
  | number, .literal _ :: parts => recorded tail number parts
  | number, .field _ text :: parts =>
    recorded tail (number + 1) parts ++
      [(number, ⟨text ++ (shownText parts ++ tail), shownText parts ++ tail⟩)]

/-- No character that ends a field is ahead in what follows the prefix, nor is a parenthesis. -/
def NoneAhead (tail : List Char) : Prop :=
  ∀ c : Char, c.isUpper = false → c.isDigit = false → c ≠ ':' → ahead c tail = 0

section Body

variable {texts : List (List Char)} {parts : List Part} {tail : List Char}

/-- Past the end of a field, too little is left for the parts after it. -/
theorem not_reads_of_longer {c : Char} (h : Separable texts (.literal c :: parts))
    (hsub : fieldTexts parts ⊆ texts) (hend : isBlank c = true ∨ EndsField texts c)
    (htail : NoneAhead tail) {u rest : List Char} (hu : u ≠ [])
    (hink : ∀ d ∈ u, Pattern.isInk d = true)
    (hsplit : shownText (.literal c :: parts) ++ tail = u ++ rest) (number : Nat)
    (after : List Char) :
    ¬ (Template.body number ((Part.literal c :: parts).map Part.piece)).Reads rest after := by
  obtain ⟨d, u, rfl⟩ := List.exists_cons_of_ne_nil hu
  have hshown : shownText (.literal c :: parts) ++ tail = c :: (shownText parts ++ tail) := rfl
  obtain rfl : c = d := (List.cons_eq_cons.1 (hshown.symm.trans hsplit)).1
  intro hreads
  rcases hend with hblank | hend
  · have hc := hink c List.mem_cons_self
    rw [Pattern.isInk, hblank] at hc
    exact absurd hc (by decide)
  · have hahead := ahead_shownText_le h hsub hend (htail c hend.1 hend.2.1 hend.2.2.1)
    have hawaited := @awaited_le_of_reads c _ _ _ _ hreads
    rw [hsplit, ahead_append hink, List.count_cons_self] at hahead
    omega

/-- A field without blanks, after which too little is left past its end. -/
theorem takes_blankless {text rest after : List Char} {body : Pattern} {later : Captures}
    (htext : ∀ c ∈ text, Pattern.isInk c = true)
    (hlonger : ∀ u rest', u ≠ [] → (∀ d ∈ u, Pattern.isInk d = true) → rest = u ++ rest' →
      ∀ after', ¬ body.Reads rest' after')
    (hbody : body.Takes rest after later) (number : Nat) :
    ((Pattern.group number (.many Pattern.isInk)).andThen body).Takes (text ++ rest) after
      (later ++ [(number, ⟨text ++ rest, rest⟩)]) := by
  constructor
  intro α next captures r h
  rw [List.append_assoc] at h
  rw [Pattern.run, Pattern.run]
  apply Pattern.run_many htext
  · intro u rest' hu hink hsplit
    exact Pattern.run_eq_none
      (fun after' hreads => absurd hreads (hlonger u rest' hu hink hsplit _)) _
  · exact hbody.leads _ _ _ h

/-- The same where the field may be missing. -/
theorem takes_blankless_optional {text rest after : List Char} {body : Pattern} {later : Captures}
    (htext : Run Pattern.isInk text)
    (hlonger : ∀ u rest', u ≠ [] → (∀ d ∈ u, Pattern.isInk d = true) → rest = u ++ rest' →
      ∀ after', ¬ body.Reads rest' after')
    (hbody : body.Takes rest after later) (number : Nat) :
    ((Pattern.optional (.group number (.atLeastOne Pattern.isInk))).andThen body).Takes
      (text ++ rest) after (later ++ [(number, ⟨text ++ rest, rest⟩)]) := by
  obtain ⟨c, others, rfl, hc⟩ := htext.head
  have hothers : ∀ d ∈ others, Pattern.isInk d = true :=
    fun d hd => htext.2 d (List.mem_cons_of_mem _ hd)
  constructor
  intro α next captures r h
  rw [List.append_assoc] at h
  have hmany : (Pattern.many Pattern.isInk).run (fun rest' captures' => body.run next rest'
      ((number, ⟨c :: others ++ rest, rest'⟩) :: captures')) (others ++ rest) captures =
        some r := by
    apply Pattern.run_many hothers
    · intro u rest' hu hink hsplit
      exact Pattern.run_eq_none
        (fun after' hreads => absurd hreads (hlonger u rest' hu hink hsplit _)) _
    · exact hbody.leads _ _ _ h
  rw [Pattern.run, Pattern.optional, Pattern.run, Pattern.run, Pattern.atLeastOne, Pattern.run,
    Pattern.run, List.cons_append, Pattern.run_one hc]
  rw [List.cons_append] at hmany
  rw [hmany, Option.orElse_some]

/-- A field whose end shows in the character after it, and then its other parts. -/
theorem takes_shown {token : Token} {text rest after : List Char} {body : Pattern}
    {later : Captures} {number : Nat}
    (htoken : (token.fragment number).Takes (text ++ rest) rest
      [(number, ⟨text ++ rest, rest⟩)]) (hbody : body.Takes rest after later) :
    ((token.fragment number).andThen body).Takes (text ++ rest) after
      (later ++ [(number, ⟨text ++ rest, rest⟩)]) :=
  htoken.andThen hbody

/-- The pattern of a prefix takes the prefix and records its fields. -/
theorem takes_body (h : Separable texts parts) (hsub : fieldTexts parts ⊆ texts)
    (htail : NoneAhead tail) (number : Nat) :
    (Template.body number (parts.map Part.piece)).Takes (shownText parts ++ tail) tail
      (recorded tail number parts) := by
  induction parts generalizing number with
  | nil => exact Pattern.takes_empty tail
  | cons part parts ih =>
    cases part with
    | literal c =>
      have hrest := (Pattern.takes_char c (shownText parts ++ tail)).andThen (ih h.2 hsub number)
      rwa [List.append_nil] at hrest
    | field token text =>
      obtain ⟨hadmits, hends, hparts⟩ := h
      have hlater : fieldTexts parts ⊆ texts := (List.cons_subset.1 hsub).2
      have hbody := ih hparts hlater (number + 1)
      have hsplit : shownText (.field token text :: parts) ++ tail =
          text ++ (shownText parts ++ tail) := List.append_assoc _ _ _
      rw [hsplit]
      -- The end of a field of words or digits shows in the literal after it.
      have hnext : (∃ c others, parts = .literal c :: others ∧ isWord c = false) →
          ∀ c ∈ (shownText parts ++ tail).head?, isWord c = false := by
        rintro ⟨d, others, rfl, hd⟩ c hc
        obtain rfl : d = c := Option.some.inj hc
        exact hd
      have hdecimal : (∃ c others, parts = .literal c :: others ∧ isWord c = false) →
          ∀ c ∈ (shownText parts ++ tail).head?, isDecimal c = false := by
        intro hliteral c hc
        cases hd : isDecimal c with
        | false => rfl
        | true => exact absurd (isWord_of_isDecimal hd) (by simp [hnext hliteral c hc])
      have hlonger : (∃ c others, parts = .literal c :: others ∧
            (isBlank c = true ∨ EndsField texts c)) →
          ∀ u rest', u ≠ [] → (∀ d ∈ u, Pattern.isInk d = true) →
            shownText parts ++ tail = u ++ rest' →
            ∀ after', ¬ (Template.body (number + 1) (parts.map Part.piece)).Reads rest' after' := by
        rintro ⟨c, others, rfl, hend⟩ u rest' hu hink hshown after'
        exact not_reads_of_longer hparts hlater hend htail hu hink hshown _ after'
      cases token with
      | user => exact takes_blankless hadmits.2 (hlonger hends) hbody number
      | database => exact takes_blankless hadmits.2 (hlonger hends) hbody number
      | application => exact takes_blankless hadmits.2 (hlonger hends) hbody number
      | host => exact takes_blankless_optional hadmits.1 (hlonger hends) hbody number
      | processId => exact takes_shown (takes_run hadmits (hdecimal hends) number) hbody
      | sessionLine => exact takes_shown (takes_run hadmits (hdecimal hends) number) hbody
      | txnId => exact takes_shown (takes_run hadmits (hdecimal hends) number) hbody
      | virtualTxn =>
        obtain ⟨a, b, ha, hb, rfl⟩ := hadmits
        exact takes_shown (takes_pair ha hb (by decide) (hdecimal hends) number) hbody
      | sessionId =>
        obtain ⟨a, b, ha, hb, rfl⟩ := hadmits
        exact takes_shown (takes_pair ha hb (by decide) (hnext hends) number) hbody
      | errorCode =>
        have hfive := (Pattern.takes_times hadmits.2 (shownText parts ++ tail)).group number
        rw [hadmits.1] at hfive
        exact takes_shown hfive hbody
      | timestampMillis =>
        exact takes_shown (takes_timestamp hadmits (fun _ _ => takes_fraction) (hnext hends) number)
          hbody
      | timestamp =>
        exact takes_shown (takes_timestamp hadmits (fun _ _ => takes_no_fraction) (hnext hends)
          number) hbody
      | sessionStart =>
        exact takes_shown (takes_timestamp hadmits (fun _ _ => takes_no_fraction) (hnext hends)
          number) hbody
      | hostWithPort =>
        obtain ⟨name, port, hname, hport, rfl⟩ := hadmits
        refine takes_shown (takes_hostWithPort hname hport ?_ number) hbody
        rcases hends with rfl | ⟨c, others, rfl, hc⟩
        · exact htail '(' (by decide) (by decide) (by decide)
        · exact ahead_cons_of_isBlank hc _
      | backendType => exact hadmits.elim

end Body

/-! ## The whole line -/

/-- Among the levels none is the start of another. -/
theorem eq_of_levelStarts : ∀ level ∈ Template.levels, ∀ level' ∈ Template.levels,
    level.toList <+: level'.toList → level = level' := by
  decide +kernel

/-- Levels are made of upper-case letters and digits. -/
theorem isUpper_or_isDigit_of_level : ∀ level ∈ Template.levels, level.toList ≠ [] ∧
    ∀ c ∈ level.toList, isWord c = true ∧ (c.isUpper = true ∨ c.isDigit = true) := by
  have hall : ∀ level ∈ Template.levels, level.toList ≠ [] ∧
      (level.toList.all fun c => isWord c && (c.isUpper || c.isDigit)) = true := by decide +kernel
  simpa only [List.all_eq_true, Bool.and_eq_true, Bool.or_eq_true] using hall

/-- The pattern of levels takes the level before a colon. -/
theorem takes_level {level : String} (h : level ∈ Template.levels) (rest : List Char) :
    (Pattern.firstOf (Template.levels.map .text)).Takes (level.toList ++ rest) rest [] := by
  apply Pattern.takes_firstOf h
  rintro other hother ⟨rest', hsplit⟩
  have hlevel : level.toList <+: level.toList ++ rest := List.prefix_append _ _
  have hprefix : other.toList <+: level.toList ++ rest := hsplit ▸ List.prefix_append _ _
  rcases List.prefix_or_prefix_of_prefix hprefix hlevel with hle | hle
  · exact eq_of_levelStarts other hother level h hle
  · exact (eq_of_levelStarts level h other hother hle).symm

namespace Composition

variable {x : Composition}

/-- The tokens of a prefix. -/
def tokens (x : Composition) : List Token := (x.parts.map Part.piece).filterMap Piece.token?

/-- The tokens of the template are those of the prefix. -/
theorem tokens_eq {t : Template} (ht : t.pieces = x.parts.map Part.piece) :
    t.tokens = x.tokens := by
  rw [Template.tokens, ht, tokens]

/-- What follows the prefix starts with a letter. -/
theorem Admissible.afterPrefix_head (h : x.Admissible) :
    ∃ d others, x.afterPrefix = d :: others ∧ isBlank d = false := by
  obtain ⟨hne, hword⟩ := isUpper_or_isDigit_of_level x.level h.level
  obtain ⟨d, others, hsplit⟩ := List.exists_cons_of_ne_nil hne
  refine ⟨d, others ++ ':' :: (x.gap ++ x.description), ?_, ?_⟩
  · rw [afterPrefix, hsplit, List.cons_append]
  · have hd := (hword d (hsplit ▸ List.mem_cons_self)).1
    simpa [Pattern.isInk] using isInk_of_isWord hd

/-- Up to the first blank after the prefix there are the level and its colon. -/
theorem Admissible.noneAhead (h : x.Admissible) : NoneAhead x.afterPrefix := by
  obtain ⟨-, hword⟩ := isUpper_or_isDigit_of_level x.level h.level
  obtain ⟨b, others, hgap, hb⟩ := h.gap.head
  intro c hupper hdigit hcolon
  have hink : ∀ d ∈ x.level.toList ++ [':'], Pattern.isInk d = true := by
    intro d hd
    rcases List.mem_append.1 hd with hd | hd
    · exact isInk_of_isWord (hword d hd).1
    · obtain rfl := List.mem_singleton.1 hd
      decide
  have hsplit : x.afterPrefix = x.level.toList ++ [':'] ++ (x.gap ++ x.description) := by
    rw [afterPrefix, List.append_assoc, List.singleton_append]
  have hcount : (x.level.toList ++ [':']).count c = 0 := by
    rw [List.count_eq_zero]
    intro hc
    rcases List.mem_append.1 hc with hc | hc
    · rcases (hword c hc).2 with hc | hc
      · rw [hupper] at hc
        exact absurd hc (by decide)
      · rw [hdigit] at hc
        exact absurd hc (by decide)
    · exact hcolon (List.mem_singleton.1 hc)
  rw [hsplit, ahead_append hink, hcount, hgap, List.cons_append, ahead_cons_of_isBlank hb]

/-- The groups that are recorded after the prefix. -/
def recordedAfter (x : Composition) : Captures :=
  [(x.tokens.length + 4, ⟨x.description, []⟩),
    (x.tokens.length + 3, ⟨x.afterPrefix, ':' :: (x.gap ++ x.description)⟩),
    (x.tokens.length + 2, ⟨x.afterPrefix, x.afterPrefix⟩)]

/-- The pattern after the prefix takes level, gap and message. -/
theorem Admissible.takes_afterPrefix (h : x.Admissible) :
    (Pattern.sequence [.group (x.tokens.length + 2) .blanks,
      .group (x.tokens.length + 3) (.firstOf (Template.levels.map .text)), .char ':', .someBlanks,
      .group (x.tokens.length + 4) (.many Pattern.inLine), .atEnd]).Takes x.afterPrefix []
      x.recordedAfter := by
  obtain ⟨d, others, hhead, hd⟩ := h.afterPrefix_head
  have hblanks : (Pattern.group (x.tokens.length + 2) .blanks).Takes x.afterPrefix x.afterPrefix
      [(x.tokens.length + 2, ⟨x.afterPrefix, x.afterPrefix⟩)] := by
    have hnone : ∀ c ∈ x.afterPrefix.head?, isBlank c = false := by
      rw [hhead]
      rintro c hc
      obtain rfl : d = c := Option.some.inj hc
      exact hd
    exact (Pattern.takes_many (by simp) hnone : (Pattern.many isBlank).Takes
      ([] ++ x.afterPrefix) x.afterPrefix []).group _
  have hlevel := (takes_level h.level (':' :: (x.gap ++ x.description))).group (x.tokens.length + 3)
  have hgap := Pattern.takes_atLeastOne h.gap.1 h.gap.2 h.description.2
  have hmessage : (Pattern.many Pattern.inLine).Takes x.description [] [] := by
    have hline : ∀ c ∈ x.description, Pattern.inLine c = true := by
      intro c hc
      simpa [Pattern.inLine] using h.description.1 c hc
    have hmany := @Pattern.takes_many _ _ [] hline (by simp)
    rwa [List.append_nil] at hmany
  exact hblanks.andThen (hlevel.andThen ((Pattern.takes_char ':' _).andThen (hgap.andThen
    ((hmessage.group (x.tokens.length + 4)).andThen Pattern.takes_atEnd))))

/-- All groups that are recorded in the line. -/
def captures (x : Composition) : Captures :=
  x.recordedAfter ++ recorded x.afterPrefix 2 x.parts ++ [(1, ⟨x.line.toList, x.line.toList⟩)]

/-- The search finds the groups of the composition. -/
theorem Admissible.search (h : x.Admissible) {t : Template}
    (ht : t.pieces = x.parts.map Part.piece) :
    t.pattern.search x.line.toList = some x.captures := by
  have hline : x.line.toList = shownText x.parts ++ x.afterPrefix := by
    rw [line, String.toList_ofList]
  have htokens := tokens_eq ht
  have hbody :=
    (takes_body h.separable (List.Subset.refl _) h.noneAhead 2).andThen h.takes_afterPrefix
  apply Pattern.search_of_matchStart
  have hblanks : (Pattern.many isBlank).run (fun rest captures =>
      ((Template.body 2 (x.parts.map Part.piece)).andThen (.sequence
        [.group (x.tokens.length + 2) .blanks,
          .group (x.tokens.length + 3) (.firstOf (Template.levels.map .text)), .char ':',
          .someBlanks, .group (x.tokens.length + 4) (.many Pattern.inLine), .atEnd])).run
        (fun _ captures => some captures) rest ((1, ⟨x.line.toList, rest⟩) :: captures))
      ([] ++ x.line.toList) [] = some x.captures := by
    apply Pattern.run_many (by simp)
    · intro u rest hu hblank hsplit
      apply Pattern.run_eq_none
      rintro after ⟨middle, hreads, -⟩
      -- Without all its blanks in front the rest of the line does not start like the prefix.
      have hleading := leadingBlanks_le_of_reads hreads
      have hblanks := length_blanks_shownText_le h.separable h.afterPrefix_head
      rw [← hline, hsplit, List.takeWhile_append_of_pos hblank, List.length_append] at hblanks
      have hpositive := List.length_pos_iff.2 hu
      omega
    · rw [hline]
      apply hbody.leads
      rw [captures, hline]
  rw [Pattern.matchStart, Template.pattern, ht, htokens, Template.descriptionGroup,
    Template.levelGroup, htokens]
  exact hblanks

end Composition

/-! ## The recorded fields -/

/-- No group is recorded under a number below the first. -/
theorem lookup_recorded_of_lt {tail : List Char} {parts : List Part} {number n : Nat}
    (h : n < number) : (recorded tail number parts).lookup n = none := by
  induction parts generalizing number with
  | nil => rfl
  | cons part parts ih =>
    cases part with
    | literal c => exact ih h
    | field token text =>
      rw [recorded, List.lookup_append, ih (Nat.lt_succ_of_lt h), Option.none_or]
      simpa using Nat.ne_of_lt h

/-- A slot that no field is for has no token. -/
theorem lastIndex?_eq_none {slot : Slot} {parts : List Part}
    (h : ∀ token text, .field token text ∈ parts → token.slot ≠ slot) :
    Template.lastIndex? slot ((parts.map Part.piece).filterMap Piece.token?) = none := by
  refine Template.lastIndex?_eq_none_iff.2 fun token htoken => ?_
  obtain ⟨piece, hpiece, hsome⟩ := List.mem_filterMap.1 htoken
  obtain ⟨part, hpart, rfl⟩ := List.mem_map.1 hpiece
  cases part with
  | literal c => exact absurd hsome (by simp [Part.piece, Piece.token?])
  | field other text =>
    obtain rfl : other = token := Option.some.inj hsome
    exact h other text hpart

/-- The field of a slot is recorded under the number of its token. -/
theorem lookup_recorded {tail : List Char} {parts : List Part}
    (hslots : (parts.filterMap Part.slot?).Nodup) {token : Token} {text : List Char}
    (h : .field token text ∈ parts) (number : Nat) :
    ∃ index more,
      Template.lastIndex? token.slot ((parts.map Part.piece).filterMap Piece.token?) = some index ∧
      index < ((parts.map Part.piece).filterMap Piece.token?).length ∧
      (recorded tail number parts).lookup (number + index) = some ⟨text ++ more, more⟩ := by
  induction parts generalizing number with
  | nil => exact absurd h List.not_mem_nil
  | cons part parts ih =>
    cases part with
    | literal c =>
      have hmem := (List.mem_cons.1 h).resolve_left (by simp)
      exact ih hslots hmem number
    | field first firstText =>
      have hcons : (Part.field first firstText :: parts).filterMap Part.slot? =
          first.slot :: parts.filterMap Part.slot? := rfl
      rw [hcons, List.nodup_cons] at hslots
      simp only [List.map_cons, Part.piece, List.filterMap_cons, Piece.token?, recorded,
        List.lookup_append, List.length_cons]
      rcases List.mem_cons.1 h with he | hmem
      · obtain ⟨rfl, rfl⟩ := Part.field.inj he
        have hnone : Template.lastIndex? token.slot
            ((parts.map Part.piece).filterMap Piece.token?) = none := by
          apply lastIndex?_eq_none
          intro other otherText hother hslot
          exact hslots.1 (List.mem_filterMap.2 ⟨_, hother, congrArg some hslot⟩)
        refine ⟨0, shownText parts ++ tail, ?_, Nat.succ_pos _, ?_⟩
        · simp only [Template.lastIndex?, hnone, if_true]
        · rw [Nat.add_zero, lookup_recorded_of_lt (Nat.lt_succ_self number), Option.none_or]
          simp
      · obtain ⟨index, more, hindex, hlt, hlookup⟩ := ih hslots.2 hmem (number + 1)
        refine ⟨index + 1, more, ?_, Nat.succ_lt_succ hlt, ?_⟩
        · simp only [Template.lastIndex?, hindex]
        · rw [Nat.add_comm index 1, ← Nat.add_assoc, hlookup, Option.some_or]

/-! ## The record -/

/-- A timestamp that is read in one style is read as that instant, whichever style comes first. -/
theorem readTime_of_parse {style style' : ZoneStyle} {text : List Char} {t : Instant}
    (h : style.parse text = some t) : (readTime style' text).1 = some t := by
  have hown : (readTime style text).1 = some t := by rw [readTime, h]
  rw [readTime_fst] at hown ⊢
  exact hown

/-- The text of a field for the time denotes an instant in one style. -/
theorem Token.Admits.exists_parse {token : Token} {text : List Char} (h : token.Admits text)
    (hslot : token.slot = .time) :
    ∃ (style : ZoneStyle) (time : Instant), style.parse text = some time := by
  cases token with
  | timestampMillis => exact h.2
  | timestamp => exact h.2
  | sessionStart => exact h.2
  | _ => exact absurd hslot (by decide)

namespace Composition

variable {x : Composition}

/-- A record tells a composition: the level, the message, and of every slot its field, or that there
is none. A field that reads `[unknown]` counts as unknown. -/
structure ToldBy (x : Composition) (r : Record) : Prop where
  level : r.level = x.level
  description : r.description = String.ofList x.description
  field : ∀ token text, Part.field token text ∈ x.parts → r.field token.slot =
    if String.ofList text = unknownField then .error (.invalidValue token.slot)
    else .ok (String.ofList text)
  noField : ∀ slot, (∀ token text, Part.field token text ∈ x.parts → token.slot ≠ slot) →
    r.field slot = .error (.notConfigured slot)
  host : ∀ name, Part.field .host name ∈ x.parts → r.host = .ok (String.ofList name)
  hostWithPort : ∀ name port, Part.field .hostWithPort (name ++ '(' :: port ++ [')']) ∈ x.parts →
    '(' ∉ name → r.host = .ok (String.ofList name)
  time : ∀ token text style t, Part.field token text ∈ x.parts → token.slot = .time →
    ZoneStyle.parse style text = some t → r.time = some t
  noTime : (∀ token text, Part.field token text ∈ x.parts → token.slot ≠ .time) → r.time = none

section Told

variable {t : Template}

/-- The text that is recorded for a field. -/
theorem Admissible.text?_field (h : x.Admissible) (ht : t.pieces = x.parts.map Part.piece)
    {token : Token} {text : List Char} (hfield : .field token text ∈ x.parts) :
    ∃ number, t.group? token.slot = some number ∧ x.captures.text? number = some text := by
  obtain ⟨index, more, hindex, hlt, hlookup⟩ := lookup_recorded h.slots hfield 2
  refine ⟨index + 2, ?_, ?_⟩
  · rw [Template.group?, Template.tokens, ht, hindex, Option.map_some]
  · have hafter : x.recordedAfter.lookup (2 + index) = none := by
      have hlength : index < x.tokens.length := hlt
      have hmessage : ((2 + index) == (x.tokens.length + 4)) = false := by
        rw [beq_eq_false_iff_ne]; omega
      have hlevel : ((2 + index) == (x.tokens.length + 3)) = false := by
        rw [beq_eq_false_iff_ne]; omega
      have hblanks : ((2 + index) == (x.tokens.length + 2)) = false := by
        rw [beq_eq_false_iff_ne]; omega
      simp only [recordedAfter, List.lookup_cons, hmessage, hlevel, hblanks, List.lookup_nil]
    rw [Captures.text?, Nat.add_comm index 2, captures, List.lookup_append, List.lookup_append,
      hafter, Option.none_or, hlookup, Option.some_or, Option.map_some, Span.text_append]

/-- A slot without a field has no group. -/
theorem Admissible.group?_eq_none (ht : t.pieces = x.parts.map Part.piece) {slot : Slot}
    (h : ∀ token text, Part.field token text ∈ x.parts → token.slot ≠ slot) :
    t.group? slot = none := by
  rw [Template.group?, Template.tokens, ht, lastIndex?_eq_none h, Option.map_none]

/-- Whatever the time, the groups of a composition tell everything else. -/
theorem Admissible.field_eq (h : x.Admissible) (ht : t.pieces = x.parts.map Part.piece)
    (time : Option Instant) {token : Token} {text : List Char}
    (hfield : .field token text ∈ x.parts) :
    (Record.mk t x.captures time).field token.slot =
      if String.ofList text = unknownField then .error (.invalidValue token.slot)
      else .ok (String.ofList text) := by
  obtain ⟨number, hnumber, htext⟩ := h.text?_field ht hfield
  have hgroup : (Record.mk t x.captures time).groupText number = String.ofList text := by
    rw [Record.groupText, htext, Option.getD_some]
  have hne : String.ofList text ≠ "" := by
    obtain ⟨c, others, rfl, -⟩ := (h.separable.admits hfield).head
    rw [Ne, ← String.toList_inj, String.toList_ofList]
    exact List.cons_ne_nil _ _
  simp only [Record.field, hnumber, hgroup, hne, false_or]

/-- The level is recorded. -/
theorem level_eq (ht : t.pieces = x.parts.map Part.piece)
    (time : Option Instant) : (Record.mk t x.captures time).level = x.level := by
  have hmessage : ((x.tokens.length + 3) == (x.tokens.length + 4)) = false := by
    rw [beq_eq_false_iff_ne]; omega
  have htext : x.captures.text? t.levelGroup = some x.level.toList := by
    rw [Captures.text?, captures, List.append_assoc, List.lookup_append, recordedAfter,
      Template.levelGroup, tokens_eq ht, List.lookup_cons, hmessage, List.lookup_cons_self,
      Option.some_or, Option.map_some, afterPrefix, Span.text_append]
  rw [Record.level, Record.groupText, htext, Option.getD_some, String.ofList_toList]

/-- The message is recorded. -/
theorem description_eq (ht : t.pieces = x.parts.map Part.piece)
    (time : Option Instant) :
    (Record.mk t x.captures time).description = String.ofList x.description := by
  have htext : x.captures.text? t.descriptionGroup = some x.description := by
    rw [Captures.text?, captures, List.append_assoc, List.lookup_append, recordedAfter,
      Template.descriptionGroup, Template.levelGroup, tokens_eq ht, List.lookup_cons_self,
      Option.some_or, Option.map_some]
    have hend := Span.text_append x.description []
    rw [List.append_nil] at hend
    exact congrArg some hend
  rw [Record.description, Record.groupText, htext, Option.getD_some]

/-- A record of the groups of a composition tells it, if it has the time. -/
theorem Admissible.toldBy (h : x.Admissible) (ht : t.pieces = x.parts.map Part.piece)
    {time : Option Instant}
    (htime : ∀ token text style t', Part.field token text ∈ x.parts → token.slot = .time →
      ZoneStyle.parse style text = some t' → time = some t')
    (hnone : (∀ token text, Part.field token text ∈ x.parts → token.slot ≠ .time) → time = none) :
    x.ToldBy ⟨t, x.captures, time⟩ where
  level := level_eq ht time
  description := description_eq ht time
  field := fun _ _ hfield => h.field_eq ht time hfield
  noField := by
    intro slot hslot
    rw [Record.field]
    simp only [group?_eq_none ht hslot]
  host := by
    intro name hfield
    obtain ⟨-, hopen, -, hknown⟩ : IsHost name := h.separable.admits hfield
    have hne : String.ofList name ≠ unknownField := by
      rwa [Ne, ← String.toList_inj, String.toList_ofList]
    have hhost : (Record.mk t x.captures time).field .host = .ok (String.ofList name) := by
      have htold := h.field_eq ht time hfield
      rwa [if_neg hne] at htold
    rw [Record.host, hhost, Except.map, String.toList_ofList]
    exact congrArg (fun text => Except.ok (String.ofList text)) (withoutPort_eq_self hopen)
  hostWithPort := by
    intro name port hfield hopen
    have hne : String.ofList (name ++ '(' :: port ++ [')']) ≠ unknownField := by
      intro he
      have hmem : '(' ∈ unknownField.toList := by
        rw [← he, String.toList_ofList]
        simp
      exact absurd hmem (by decide)
    have hhost : (Record.mk t x.captures time).field .host =
        .ok (String.ofList (name ++ '(' :: port ++ [')'])) := by
      have htold := h.field_eq ht time hfield
      rwa [if_neg hne] at htold
    rw [Record.host, hhost, Except.map, String.toList_ofList, List.append_assoc]
    exact congrArg (fun text => Except.ok (String.ofList text)) (withoutPort_append hopen _)
  time := htime
  noTime := hnone

/-- Two texts for one slot are the same. -/
theorem Admissible.text_unique (h : x.Admissible) (ht : t.pieces = x.parts.map Part.piece)
    {token token' : Token} {text text' : List Char} (hfield : .field token text ∈ x.parts)
    (hfield' : .field token' text' ∈ x.parts) (hslot : token.slot = token'.slot) :
    text = text' := by
  obtain ⟨number, hnumber, htext⟩ := h.text?_field ht hfield
  obtain ⟨number', hnumber', htext'⟩ := h.text?_field ht hfield'
  rw [hslot, hnumber'] at hnumber
  obtain rfl := Option.some.inj hnumber
  exact Option.some.inj (htext.symm.trans htext')

end Told

/-- The line of a composition is read by its template into a record that tells the composition,
whatever style of timestamps is tried first. -/
def RoundTrips (x : Composition) : Prop :=
  ∃ t, Template.ofString? x.template = .ok t ∧
    ∀ style, ∃ r, (t.read style x.line).1 = .ok r ∧ x.ToldBy r

/-- Round trip of template and line: what can be told apart is read back, unless the line starts
with a tab and so counts as a continuation. -/
theorem Admissible.roundTrip (h : x.Admissible) (htab : x.line.toList.head? ≠ some '\t') :
    x.RoundTrips := by
  obtain ⟨t, hof, ht⟩ := h.ofString?
  refine ⟨t, hof, fun style => ?_⟩
  have hsearch := h.search ht
  by_cases hfield : ∃ token text, Part.field token text ∈ x.parts ∧ token.slot = .time
  · obtain ⟨token, text, hfield, hslot⟩ := hfield
    obtain ⟨number, hnumber, htext⟩ := h.text?_field ht hfield
    rw [hslot] at hnumber
    have hadmits := h.separable.admits hfield
    obtain ⟨c, others, rfl, -⟩ := hadmits.head
    obtain ⟨style', time, hparse⟩ := hadmits.exists_parse hslot
    have hread : readTime style (c :: others) = (some time, (readTime style (c :: others)).2) :=
      Prod.ext (readTime_of_parse hparse) rfl
    refine ⟨⟨t, x.captures, some time⟩, ?_, h.toldBy ht ?_ ?_⟩
    · simp only [Template.read, htab, if_false, hsearch, hnumber, Option.bind_some, htext]
      rw [hread]
    · intro token' text' style'' time' hfield' hslot' hparse'
      obtain rfl := h.text_unique ht hfield hfield' (hslot.trans hslot'.symm)
      exact (@readTime_of_parse _ .numeric _ _ hparse).symm.trans (readTime_of_parse hparse')
    · exact fun hnone => absurd hslot (hnone token _ hfield)
  · have hnone : ∀ token text, Part.field token text ∈ x.parts → token.slot ≠ .time :=
      fun token text hmem hslot => hfield ⟨token, text, hmem, hslot⟩
    refine ⟨⟨t, x.captures, none⟩, ?_, h.toldBy ht ?_ (fun _ => rfl)⟩
    · simp only [Template.read, htab, if_false, hsearch, group?_eq_none ht hnone, Option.bind_none]
    · exact fun token text _ _ hmem hslot => absurd hslot (hnone token text hmem)

/-- A line with every kind of delimiter, whose level directly follows a host with its port and whose
message looks like a line itself. -/
def lookalike : Composition where
  parts := [.field .timestampMillis "2024-03-01 10:00:00.5 UTC".toList, .literal ' ', .literal '[',
    .field .processId "42".toList, .literal ']', .literal ' ', .field .user "bob".toList,
    .literal '@', .field .database "shop".toList, .literal ',',
    .field .hostWithPort ("10.0.0.7".toList ++ '(' :: "5432".toList ++ [')'])]
  level := "LOG"
  gap := "  ".toList
  description := "eve@bank,10.0.0.8(1)ERROR:  not this".toList

/-- A composition whose message looks like a line is read back. -/
theorem roundTrip_lookalike : lookalike.RoundTrips := by
  have hline : '\n' ∉ lookalike.description := by decide
  have hhead : ∀ c, lookalike.description.head? = some c → isBlank c = false := by
    intro c hc
    obtain rfl : 'e' = c := Option.some.inj hc
    decide
  refine Admissible.roundTrip ⟨?_, by decide, by decide, by decide,
    fun c hc => ne_of_mem_of_not_mem hc hline, hhead⟩ (by decide)
  have hclock : (Token.clock Token.fraction).Reads "2024-03-01 10:00:00.5 UTC".toList [] :=
    Pattern.reads_of_isSome_run (by decide +kernel)
  have hhost : IsHost "10.0.0.7".toList := ⟨by decide, by decide, by decide, by decide⟩
  have hport : ∀ c ∈ "5432".toList, isDecimal c = true := List.all_eq_true.1 (by decide)
  refine ⟨⟨hclock, .named, ⟨1709287200, 500000000⟩, by decide +kernel⟩,
    ⟨' ', _, rfl, by decide⟩, by decide, by decide, (by decide : Run _ _),
    ⟨']', _, rfl, by decide⟩, by decide, by decide, (by decide : Run _ _),
    ⟨'@', _, rfl, Or.inr ⟨by decide, by decide, by decide, by decide⟩⟩, by decide,
    (by decide : Run _ _), ⟨',', _, rfl, Or.inr ⟨by decide, by decide, by decide, by decide⟩⟩,
    by decide, ⟨_, _, hhost, hport, rfl⟩, Or.inl rfl, trivial⟩

/-- A line that starts with the tab of its template. -/
def tabbed : Composition where
  parts := [.literal '\t', .field .user "bob".toList, .literal ' ']
  level := "LOG"
  gap := "  ".toList
  description := "hi".toList

/-- A line in which a user ends with a parenthesis, in front of a host with its port. -/
def parenthesized : Composition where
  parts := [.field .user "bob".toList, .literal ')', .field .hostWithPort "h(5)".toList,
    .literal ' ']
  level := "LOG"
  gap := "  ".toList
  description := "hi".toList

/-- A line in front of which there is a tab is not read back, although its parts can be told apart;
nor is one with a delimiter that is neither in a user nor in a host nor in a port, but is written
after a port. -/
theorem not_roundTrip_tabbed_parenthesized :
    tabbed.Admissible ∧ ¬ tabbed.RoundTrips ∧
      (∀ c ∈ "bob".toList ++ "h".toList ++ "5".toList, c ≠ ')') ∧ ¬ parenthesized.RoundTrips := by
  have hline : '\n' ∉ tabbed.description := by decide
  have hhead : ∀ c, tabbed.description.head? = some c → isBlank c = false := by
    intro c hc
    obtain rfl : 'h' = c := Option.some.inj hc
    decide
  have hfields : ')' ∉ "bob".toList ++ "h".toList ++ "5".toList := by decide
  refine ⟨⟨?_, by decide, by decide, by decide, fun c hc => ne_of_mem_of_not_mem hc hline,
    hhead⟩, ?_, fun c hc => ne_of_mem_of_not_mem hc hfields, ?_⟩
  · exact ⟨by decide, (by decide : Run _ _), ⟨' ', _, rfl, Or.inl (by decide)⟩, by decide, trivial⟩
  · rintro ⟨t, -, hread⟩
    obtain ⟨r, hr, -⟩ := hread .numeric
    have hhead : tabbed.line.toList.head? = some '\t' := by decide
    rw [Template.read, if_pos hhead] at hr
    exact absurd hr (by simp)
  · rintro ⟨t, ht, hread⟩
    obtain ⟨r, hr, htold⟩ := hread .numeric
    have huser : r.user = .ok "bob" := htold.field .user _ List.mem_cons_self
    have hcaught : ((Template.ofString? parenthesized.template).toOption.bind fun t =>
        (t.read .numeric parenthesized.line).1.toOption.bind fun r => r.user.toOption) =
          some "bob)h(5" := by
      decide +kernel
    rw [ht, Except.toOption, Option.bind_some, hr, Except.toOption, Option.bind_some,
      huser] at hcaught
    exact absurd hcaught (by decide)

end Composition

end LogAudit.Line
