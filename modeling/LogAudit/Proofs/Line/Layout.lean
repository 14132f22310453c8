import LogAudit.Line.Record
import LogAudit.Proofs.Line.Slots
import LogAudit.Proofs.Text.Search

/-!
# How lines are laid out

A line that a template describes is blanks, the pieces of the template with a text for each token,
blanks, a level with a colon, and the message after a gap. `Layout` has these parts, `Layout.Fits`
says what they are by the template, and `Template.reads_pattern_iff` that the pattern of a template
describes exactly the lines of such layouts. A record tells the parts of a layout
(`Template.exists_layout_of_read`).
-/

namespace LogAudit.Line

open LogAudit.Text

/-! ## Fields -/

namespace Token

/-- The texts that are recorded for a token. -/
def content : Token → Pattern
  | timestampMillis => clock fraction
  | timestamp | sessionStart => clock .empty
  | processId | sessionLine | txnId => .atLeastOne isDecimal
  | user | database | application => .many Pattern.isInk
  | host => .atLeastOne Pattern.isInk
  | hostWithPort =>
    .sequence [.atLeastOne Pattern.isInk, .char '(', .manyLazy Pattern.inLine, .char ')']
  | virtualTxn => .sequence [.atLeastOne isDecimal, .char '/', .atLeastOne isDecimal]
  | errorCode => .times 5 isWord
  | sessionId => .sequence [.atLeastOne isWord, .char '.', .atLeastOne isWord]
  | backendType => .atLeastOne fun c => isWord c || c == ' '

/-- A line may leave the token out. -/
def mayBeAbsent : Token → Bool
  | host | hostWithPort | virtualTxn | sessionId => true
  | _ => false

theorem fragment_eq (token : Token) (number : Nat) :
    token.fragment number =
      if token.mayBeAbsent then .optional (.group number token.content)
      else .group number token.content := by
  cases token <;> rfl

theorem isPlain_content (token : Token) : token.content.isPlain = true := by
  cases token <;> rfl

end Token

/-! ## Prefixes -/

/-- What pieces show in a line, with the texts of their tokens in order, `none` for a token that is
left out. -/
inductive Shows : List Piece → List Char → List (Option (List Char)) → Prop where
  | nil : Shows [] [] []
  | literal {pieces : List Piece} {shown : List Char} {texts : List (Option (List Char))}
      (c : Char) (later : Shows pieces shown texts) :
      Shows (.literal c :: pieces) (c :: shown) texts
  | field {pieces : List Piece} {shown : List Char} {texts : List (Option (List Char))}
      {token : Token} {text : List Char} (described : token.content.Reads text [])
      (later : Shows pieces shown texts) :
      Shows (.token token :: pieces) (text ++ shown) (some text :: texts)
  | absent {pieces : List Piece} {shown : List Char} {texts : List (Option (List Char))}
      {token : Token} (mayBeAbsent : token.mayBeAbsent = true)
      (later : Shows pieces shown texts) :
      Shows (.token token :: pieces) shown (none :: texts)
  | goOn {pieces : List Piece} {shown : List Char} {texts : List (Option (List Char))}
      (later : Shows pieces shown texts) : Shows (.mayStop :: pieces) shown texts
  | stop (pieces : List Piece) :
      Shows (.mayStop :: pieces) [] ((pieces.filterMap Piece.token?).map fun _ => none)

/-- Each token has its text, or is left out. -/
theorem Shows.length_texts {pieces : List Piece} {shown : List Char}
    {texts : List (Option (List Char))} (h : Shows pieces shown texts) :
    texts.length = (pieces.filterMap Piece.token?).length := by
  induction h with
  | nil => rfl
  | literal c later ih => exact ih
  | field described later ih => exact congrArg (· + 1) ih
  | absent mayBeAbsent later ih => exact congrArg (· + 1) ih
  | goOn later ih => exact ih
  | stop pieces => exact List.length_map _

/-- Tokens that are left out are told by no groups. -/
theorem tells_absent {α : Type} (number : Nat) (tokens : List α) :
    Captures.Tells [] number (tokens.map fun _ => none) := by
  intro m
  have hnone : (tokens.map fun _ => (none : Option (List Char)))[m - number]?.join = none := by
    rw [List.getElem?_map]
    cases tokens[m - number]? <;> rfl
  rw [hnone, ite_self]
  rfl

section Body

variable {pieces : List Piece} {number : Nat} {s rest : List Char}

/-- What the pattern of some pieces matches is what they show, and its groups tell the texts of
their tokens. -/
theorem exists_shows_of_records {found : Captures}
    (h : (Template.body number pieces).Records s rest found) :
    ∃ shown texts, s = shown ++ rest ∧ Shows pieces shown texts ∧ found.Tells number texts := by
  induction pieces generalizing number s found with
  | nil =>
    obtain ⟨rfl, rfl⟩ := h
    exact ⟨[], [], rfl, .nil, Captures.tells_nil number⟩
  | cons piece pieces ih =>
    cases piece with
    | literal c =>
      obtain ⟨middle, before, after, ⟨⟨d, hd, rfl⟩, rfl⟩, hlater, rfl⟩ := h
      obtain rfl : d = c := eq_of_beq hd
      obtain ⟨shown, texts, rfl, hshows, htells⟩ := ih hlater
      exact ⟨d :: shown, texts, rfl, hshows.literal d, by rwa [List.append_nil]⟩
    | token token =>
      obtain ⟨middle, before, after, hfragment, hlater, rfl⟩ := h
      obtain ⟨shown, texts, rfl, hshows, htells⟩ := ih hlater
      have hgroup : (Pattern.group number token.content).Records s (shown ++ rest) before →
          ∃ shown' texts', s = shown' ++ rest ∧ Shows (.token token :: pieces) shown' texts' ∧
            (after ++ before).Tells number texts' := by
        intro h
        obtain ⟨text, rfl, hdescribed, htext⟩ := h.exists_text token.isPlain_content
        exact ⟨text ++ shown, some text :: texts, (List.append_assoc _ _ _).symm,
          hshows.field hdescribed, htext.append htells⟩
      rw [token.fragment_eq] at hfragment
      split at hfragment
      · rcases hfragment with hpresent | ⟨hsame, rfl⟩
        · exact hgroup hpresent
        · obtain rfl : s = shown ++ rest := hsame
          exact ⟨shown, none :: texts, rfl, hshows.absent ‹_›,
            (Captures.tells_none number).append htells⟩
      · exact hgroup hfragment
    | mayStop =>
      rcases h with hgoOn | ⟨rfl, rfl⟩
      · obtain ⟨shown, texts, rfl, hshows, htells⟩ := ih hgoOn
        exact ⟨shown, texts, rfl, hshows.goOn, htells⟩
      · exact ⟨[], _, rfl, .stop pieces, tells_absent number _⟩

/-- What pieces show is described by their pattern. -/
theorem Shows.reads {shown : List Char} {texts : List (Option (List Char))}
    (h : Shows pieces shown texts) (number : Nat) (rest : List Char) :
    (Template.body number pieces).Reads (shown ++ rest) rest := by
  induction h generalizing number with
  | nil => rfl
  | literal c later ih => exact ⟨_, ⟨c, beq_self_eq_true c, rfl⟩, ih number⟩
  | @field pieces shown texts token text described later ih =>
    refine ⟨shown ++ rest, ?_, ih (number + 1)⟩
    have hcontent : token.content.Reads (text ++ shown ++ rest) (shown ++ rest) := by
      rw [List.append_assoc]
      exact (Pattern.reads_iff_exists_text token.isPlain_content).2 ⟨text, rfl, described⟩
    rw [token.fragment_eq]
    split
    · exact Or.inl hcontent
    · exact hcontent
  | @absent pieces shown texts token mayBeAbsent later ih =>
    refine ⟨shown ++ rest, ?_, ih (number + 1)⟩
    rw [token.fragment_eq, if_pos mayBeAbsent]
    exact Or.inr rfl
  | goOn later ih => exact Or.inl (ih number)
  | stop pieces => exact Or.inr rfl

end Body

/-! ## Lines -/

/-- The parts of a line. -/
structure Layout where
  /-- Blanks in front. -/
  before : List Char
  /-- What the template shows. -/
  shown : List Char
  /-- The texts of the template's tokens in order, `none` for a token that is left out. -/
  texts : List (Option (List Char))
  /-- Blanks behind the prefix. -/
  after : List Char
  level : String
  /-- Blanks in front of the message. -/
  gap : List Char
  description : List Char

namespace Layout

/-- The line of a layout. -/
def line (x : Layout) : List Char :=
  x.before ++ (x.shown ++ (x.after ++ (x.level.toList ++ ':' :: (x.gap ++ x.description))))

/-- The texts that are recorded for a line, in the order of their groups. -/
def groups (x : Layout) : List (Option (List Char)) :=
  some x.before :: (x.texts ++ [some x.after, some x.level.toList, some x.description])

/-- The parts of a line are those that a template describes. -/
structure Fits (x : Layout) (t : Template) : Prop where
  before : ∀ c ∈ x.before, isBlank c = true
  shows : Shows t.pieces x.shown x.texts
  after : ∀ c ∈ x.after, isBlank c = true
  level : x.level ∈ Template.levels
  gap : x.gap ≠ [] ∧ ∀ c ∈ x.gap, isBlank c = true
  description : ∀ c ∈ x.description, c ≠ '\n'

/-- The text that a line has for a slot: the one of the last token for it. It is `none` if there is
no such token, and `some none` if the line leaves that token out. -/
def textFor (x : Layout) (t : Template) (slot : Slot) : Option (Option (List Char)) :=
  ((t.tokens.zip x.texts).filter fun field => field.1.slot = slot).getLast?.map Prod.snd

end Layout

namespace Template

theorem isPlain_levels : (Pattern.firstOf (levels.map Pattern.text)).isPlain = true := by decide

variable {t : Template} {line rest : List Char}

/-- What the pattern of a template matches is a line with its layout, and the groups tell its
parts. -/
theorem exists_layout_of_records {found : Captures} (h : t.pattern.Records line rest found) :
    ∃ x : Layout, x.Fits t ∧ x.line = line ∧ rest = [] ∧ found.Tells 1 x.groups := by
  obtain ⟨_, _, _, hbefore, h, rfl⟩ := h
  obtain ⟨_, _, _, hbody, h, rfl⟩ := h
  obtain ⟨_, _, _, hafter, h, rfl⟩ := h
  obtain ⟨_, _, _, hlevel, h, rfl⟩ := h
  obtain ⟨_, _, _, ⟨⟨colon, hcolon, rfl⟩, rfl⟩, h, rfl⟩ := h
  obtain ⟨_, _, _, hgap, ⟨_, _, _, hdescription, ⟨⟨rfl, rfl⟩, rfl⟩, rfl⟩, rfl⟩ := h
  obtain rfl : colon = ':' := eq_of_beq hcolon
  obtain ⟨before, rfl, hblank, hfirst⟩ := hbefore.exists_text rfl
  obtain ⟨shown, texts, rfl, hshows, htexts⟩ := exists_shows_of_records hbody
  obtain ⟨after, rfl, hblank', hsecond⟩ := hafter.exists_text rfl
  obtain ⟨_, rfl, hname, hthird⟩ := hlevel.exists_text isPlain_levels
  obtain rfl := hgap.of_isPlain rfl
  obtain ⟨gap, rfl, hne, hblanks⟩ := Pattern.reads_atLeastOne_iff.1 hgap.reads
  obtain ⟨description, rfl, hinLine, hlast⟩ := hdescription.exists_text rfl
  obtain ⟨level, hknown, rfl⟩ := Pattern.reads_firstOf_text.1 hname
  have hlength : texts.length = t.tokens.length := hshows.length_texts
  refine ⟨⟨before, shown, texts, after, level, gap, description⟩,
    ⟨Pattern.reads_many_iff.1 hblank, hshows, Pattern.reads_many_iff.1 hblank', hknown,
      ⟨hne, hblanks⟩, fun c hc => ?_⟩, ?_, rfl, ?_⟩
  · simpa [Pattern.inLine] using Pattern.reads_many_iff.1 hinLine c hc
  · simp [Layout.line]
  · have hafterNumber : 1 + ([some before] ++ texts).length = t.tokens.length + 2 := by
      simp only [List.length_append, List.length_singleton, hlength]
      omega
    have hprefix := (hfirst.append htexts).append (hafterNumber ▸ hsecond)
    have hlevelNumber : 1 + ([some before] ++ texts ++ [some after]).length = t.levelGroup := by
      rw [List.length_append, ← Nat.add_assoc, hafterNumber]
      rfl
    have hhead := hprefix.append (hlevelNumber ▸ hthird)
    have hlastNumber : 1 + ([some before] ++ texts ++ [some after] ++
        [some (level.toList ++ [])]).length = t.descriptionGroup := by
      rw [List.length_append, ← Nat.add_assoc, hlevelNumber]
      rfl
    have hall := hhead.append (hlastNumber ▸ hlast)
    simpa [Layout.groups] using hall

/-- The pattern of a template describes the lines of the layouts that fit it. -/
theorem reads_pattern_iff :
    t.pattern.Reads line rest ↔ rest = [] ∧ ∃ x : Layout, x.Fits t ∧ x.line = line := by
  constructor
  · intro h
    obtain ⟨found, hfound⟩ := h.exists_records
    obtain ⟨x, hfits, hline, hrest, -⟩ := exists_layout_of_records hfound
    exact ⟨hrest, x, hfits, hline⟩
  · rintro ⟨rfl, x, hfits, rfl⟩
    have hlevel : (Pattern.firstOf (levels.map Pattern.text)).Reads
        (x.level.toList ++ ':' :: (x.gap ++ x.description)) (':' :: (x.gap ++ x.description)) :=
      Pattern.reads_firstOf_text.2 ⟨x.level, hfits.level, rfl⟩
    have hgap : Pattern.someBlanks.Reads (x.gap ++ x.description) x.description :=
      Pattern.reads_atLeastOne_iff.2 ⟨x.gap, rfl, hfits.gap⟩
    have hdescription : (Pattern.many Pattern.inLine).Reads x.description [] :=
      Pattern.reads_many_iff.2 fun c hc => by simpa [Pattern.inLine] using hfits.description c hc
    exact ⟨_, ⟨x.before, hfits.before, rfl⟩, _, hfits.shows.reads 2 _, _,
      ⟨x.after, hfits.after, rfl⟩, _, hlevel, _, ⟨':', beq_self_eq_true ':', rfl⟩, _, hgap, _,
      hdescription, rfl, rfl⟩

/-- No layout fits where a match does not start. -/
theorem matchStart_eq_none_iff :
    t.pattern.matchStart line = none ↔ ∀ x : Layout, x.Fits t → x.line ≠ line := by
  rw [Pattern.matchStart_eq_none_iff]
  constructor
  · exact fun h x hfits hline => h [] (reads_pattern_iff.2 ⟨rfl, x, hfits, hline⟩)
  · intro h rest hreads
    obtain ⟨-, x, hfits, hline⟩ := reads_pattern_iff.1 hreads
    exact h x hfits hline

/-! ## Slots -/

/-- The text for a slot is the one at the position of the last token for it. -/
theorem textFor_eq {x : Layout} (hlength : x.texts.length = t.tokens.length) (slot : Slot) :
    x.textFor t slot = (lastIndex? slot t.tokens).bind fun index => x.texts[index]? := by
  rw [Layout.textFor]
  generalize t.tokens = tokens at hlength ⊢
  generalize x.texts = texts at hlength ⊢
  induction tokens generalizing texts with
  | nil => rfl
  | cons token tokens ih =>
    obtain ⟨text, texts, rfl⟩ := List.exists_cons_of_length_eq_add_one hlength
    have hlater := ih texts (Nat.succ.inj hlength)
    rw [List.zip_cons_cons, List.filter_cons, lastIndex?]
    cases hlast : lastIndex? slot tokens with
    | some last =>
      rw [hlast, Option.bind_some] at hlater
      obtain ⟨⟨other, hother, -⟩, -⟩ := isLast_of_lastIndex? hlast
      have hlt : last < texts.length :=
        Nat.succ.inj hlength ▸ (List.getElem?_eq_some_iff.1 hother).1
      rw [List.getElem?_eq_getElem hlt] at hlater
      obtain ⟨field, hfield, htext⟩ := Option.map_eq_some_iff.1 hlater
      have hvalue : (text :: texts)[last + 1]? = some field.2 := by
        rw [List.getElem?_cons_succ, List.getElem?_eq_getElem hlt, htext]
      rw [Option.bind_some, hvalue]
      split
      · rw [List.getLast?_cons, hfield]
        rfl
      · rw [hfield]
        rfl
    | none =>
      rw [hlast, Option.bind_none, Option.map_eq_none_iff, List.getLast?_eq_none_iff] at hlater
      rw [hlater]
      by_cases hslot : token.slot = slot <;> simp [hslot]

end Template

/-! ## Records -/

namespace Layout

/-- What a line tells about a slot: nothing without a token for it, and no valid value where the
token is left out, or its text is empty or the one for unknown fields. -/
def field (x : Layout) (t : Template) (slot : Slot) : Except FieldError String :=
  match x.textFor t slot with
  | none => .error (.notConfigured slot)
  | some none => .error (.invalidValue slot)
  | some (some text) =>
    if text = [] ∨ text = unknownField.toList then .error (.invalidValue slot)
    else .ok (String.ofList text)

/-- A record tells the parts of a layout. -/
structure ToldBy (x : Layout) (r : Record) : Prop where
  /-- The text for a slot is what was recorded for its group. -/
  text : ∀ slot, x.textFor r.template slot = (r.template.group? slot).map r.captures.text?
  field : ∀ slot, r.field slot = x.field r.template slot
  level : r.level = x.level
  description : r.description = String.ofList x.description

/-- A record whose groups are those of a layout tells it. -/
theorem toldBy_of_tells {x : Layout} {r : Record} (hfits : x.Fits r.template)
    (h : r.captures.Tells 1 x.groups) : x.ToldBy r := by
  have hlength : x.texts.length = r.template.tokens.length := hfits.shows.length_texts
  have hgroup : ∀ k, r.captures.text? (k + 1) = x.groups[k]?.join := by
    intro k
    rw [h (k + 1), if_pos (Nat.le_add_left 1 k), Nat.add_sub_cancel]
  have hbehind : ∀ k, r.captures.text? (r.template.tokens.length + 2 + k) =
      [some x.after, some x.level.toList, some x.description][k]?.join := by
    intro k
    rw [show r.template.tokens.length + 2 + k = r.template.tokens.length + k + 1 + 1 by omega,
      hgroup, groups, List.getElem?_cons_succ, List.getElem?_append_right (by omega)]
    congr 2
    omega
  have htext : ∀ slot,
      x.textFor r.template slot = (r.template.group? slot).map r.captures.text? := by
    intro slot
    rw [Template.textFor_eq hlength, Template.group?]
    cases hlast : Template.lastIndex? slot r.template.tokens with
    | none => rfl
    | some last =>
      obtain ⟨⟨token, htoken, -⟩, -⟩ := Template.isLast_of_lastIndex? hlast
      have hlt : last < x.texts.length := hlength ▸ (List.getElem?_eq_some_iff.1 htoken).1
      rw [Option.bind_some, Option.map_some, Option.map_some, hgroup, groups,
        List.getElem?_cons_succ, List.getElem?_append_left hlt, List.getElem?_eq_getElem hlt]
      rfl
  refine ⟨htext, fun slot => ?_, ?_, ?_⟩
  · rw [Record.field, field, htext]
    cases r.template.group? slot with
    | none => rfl
    | some number =>
      cases hrecorded : r.captures.text? number with
      | none =>
        simp only [Option.map_some, Record.groupText, hrecorded, Option.getD_none]
        rfl
      | some text =>
        have hempty : String.ofList text = "" ↔ text = [] := by
          rw [← String.toList_inj, String.toList_ofList]
          rfl
        have hunknown : String.ofList text = unknownField ↔ text = unknownField.toList := by
          rw [← String.toList_inj, String.toList_ofList]
        simp only [Option.map_some, Record.groupText, hrecorded, Option.getD_some, hempty,
          hunknown]
  · rw [Record.level, Record.groupText, Template.levelGroup, hbehind 1]
    exact String.ofList_toList
  · rw [Record.description, Record.groupText, Template.descriptionGroup, Template.levelGroup,
      hbehind 2]
    rfl

end Layout

namespace Template

open LogAudit.Time

variable {t : Template} {style : ZoneStyle} {line : String}

/-- A record is made of what the search of the template finds. -/
theorem search_of_read {r : Record} (h : (t.read style line).1 = .ok r) :
    r.template = t ∧ t.pattern.search line.toList = some r.captures := by
  unfold read at h
  split at h
  · exact absurd h (by simp)
  · split at h
    · exact absurd h (by simp)
    · split at h
      · obtain rfl := Except.ok.inj h
        exact ⟨rfl, ‹_›⟩
      · obtain rfl := Except.ok.inj h
        exact ⟨rfl, ‹_›⟩
      · split at h
        · obtain rfl := Except.ok.inj h
          exact ⟨rfl, ‹_›⟩
        · exact absurd h (by simp)

/-- A line is refused as of another format if the search of the template fails. -/
theorem read_eq_invalidFormat_iff :
    (t.read style line).1 = .error .invalidFormat ↔
      line.toList.head? ≠ some '\t' ∧ t.pattern.search line.toList = none := by
  unfold read
  split
  · simp [‹line.toList.head? = some '\t'›]
  · cases t.pattern.search line.toList with
    | none => simp [‹¬ line.toList.head? = some '\t'›]
    | some captures =>
      simp only [reduceCtorEq, and_false, iff_false]
      split
      · simp
      · simp
      · split <;> simp

/-- A record tells a layout, whose line is what is left of the line from the first character on
from which the template describes it. -/
theorem exists_layout_of_read {r : Record} (h : (t.read style line).1 = .ok r) :
    r.template = t ∧ ∃ (skipped : List Char) (x : Layout), line.toList = skipped ++ x.line ∧
      x.Fits t ∧ x.ToldBy r ∧
      ∀ u v (y : Layout), skipped = u ++ v → v ≠ [] → y.Fits t → y.line ≠ v ++ x.line := by
  obtain ⟨rfl, hsearch⟩ := search_of_read h
  obtain ⟨skipped, tail, rest, hline, hrecords, hfirst⟩ := Pattern.exists_of_search hsearch
  obtain ⟨x, hfits, rfl, rfl, htells⟩ := exists_layout_of_records hrecords
  refine ⟨rfl, skipped, x, hline, hfits, Layout.toldBy_of_tells hfits htells, ?_⟩
  intro u v y hsplit hv hy hshared
  exact hfirst u v [] hsplit hv (reads_pattern_iff.2 ⟨rfl, y, hy, hshared⟩)

end Template

end LogAudit.Line
