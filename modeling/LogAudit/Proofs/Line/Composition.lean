import LogAudit.Proofs.Line.TimeStyle
import LogAudit.Proofs.Text.Matching

/-!
# Lines composed by a template

A composition is what a server knows when it writes a line: the literal characters and the fields of
its prefix, with the texts that stand for the fields, the level and the message. It has a template
and a line, and `Composition.Admissible` says when the fields can be told apart in the line.
-/

namespace LogAudit.Line

open LogAudit.Text LogAudit.Time

/-! ## Texts of fields -/

theorem isInk_of_isWord {c : Char} (h : isWord c = true) : Pattern.isInk c = true := by
  cases hblank : isBlank c with
  | false => rw [Pattern.isInk, hblank]; rfl
  | true => rw [isWord_eq_false_of_isBlank hblank] at h; exact absurd h (by simp)

theorem isInk_of_isDecimal {c : Char} (h : isDecimal c = true) : Pattern.isInk c = true :=
  isInk_of_isWord (isWord_of_isDecimal h)

/-- The letter of a token's escape. -/
def Token.letter : Token → Char
  | timestampMillis => 'm'
  | timestamp => 't'
  | sessionStart => 's'
  | processId => 'p'
  | user => 'u'
  | database => 'd'
  | application => 'a'
  | host => 'h'
  | hostWithPort => 'r'
  | virtualTxn => 'v'
  | sessionLine => 'l'
  | errorCode => 'e'
  | txnId => 'x'
  | sessionId => 'c'
  | backendType => 'b'

theorem Token.ofChar?_letter (token : Token) : ofChar? token.letter = some token := by
  cases token <;> rfl

/-- A text of at least one character, all of a class. -/
def Run (member : Char → Bool) (text : List Char) : Prop :=
  text ≠ [] ∧ ∀ c ∈ text, member c = true

instance (member : Char → Bool) (text : List Char) : Decidable (Run member text) :=
  decidable_of_iff (text ≠ [] ∧ text.all member = true) (and_congr_right' List.all_eq_true)

/-- The text of a host: no blanks, no parentheses, and not the one for unknown fields. -/
def IsHost (text : List Char) : Prop :=
  Run Pattern.isInk text ∧ '(' ∉ text ∧ ')' ∉ text ∧ text ≠ unknownField.toList

/-- The text of a timestamp: written as the token says, and denoting an instant in one style. -/
def IsTimestamp (fraction : Pattern) (text : List Char) : Prop :=
  (Token.clock fraction).Reads text [] ∧ ∃ (style : ZoneStyle) (t : Instant),
    style.parse text = some t

/-- The texts that a server writes for a token. -/
def Token.Admits : Token → List Char → Prop
  | timestampMillis, text => IsTimestamp fraction text
  | timestamp, text => IsTimestamp .empty text
  | sessionStart, text => IsTimestamp .empty text
  | processId, text => Run isDecimal text
  | sessionLine, text => Run isDecimal text
  | txnId, text => Run isDecimal text
  | user, text => Run Pattern.isInk text
  | database, text => Run Pattern.isInk text
  | application, text => Run Pattern.isInk text
  | host, text => IsHost text
  | hostWithPort, text => ∃ name port, IsHost name ∧ (∀ c ∈ port, isDecimal c = true) ∧
      text = name ++ '(' :: port ++ [')']
  | virtualTxn, text => ∃ a b, Run isDecimal a ∧ Run isDecimal b ∧ text = a ++ '/' :: b
  | errorCode, text => text.length = 5 ∧ ∀ c ∈ text, isWord c = true
  | sessionId, text => ∃ a b, Run isWord a ∧ Run isWord b ∧ text = a ++ '.' :: b
  | backendType, _ => False

/-- The text of a host with its port has no blanks. -/
theorem isInk_of_mem_hostWithPort {name port : List Char} (hname : IsHost name)
    (hport : ∀ c ∈ port, isDecimal c = true) {c : Char} (hc : c ∈ name ++ '(' :: port ++ [')']) :
    Pattern.isInk c = true := by
  simp only [List.mem_append, List.mem_cons, List.not_mem_nil, or_false] at hc
  rcases hc with (hc | rfl | hc) | rfl
  · exact hname.1.2 c hc
  · decide
  · exact isInk_of_isDecimal (hport c hc)
  · decide

/-- Date and time of day, as patterns of single characters. -/
def clockFront : List Pattern :=
  [.times 4 isDecimal, .char '-', .times 2 isDecimal, .char '-', .times 2 isDecimal, .char ' ',
    .times 2 isDecimal, .char ':', .times 2 isDecimal, .char ':', .times 2 isDecimal]

/-- What comes after date and time of day. -/
def clockBack (fraction : Pattern) : List Pattern :=
  [fraction, .char ' ', .optional (.one fun c => c == '-' || c == '+'), .atLeastOne isWord]

theorem rigid_clockFront : (Pattern.sequence clockFront).Rigid := by
  apply Pattern.rigid_sequence
  simp only [clockFront, List.forall_mem_cons, Pattern.rigid_times, true_and]
  exact ⟨trivial, trivial, trivial, trivial, trivial, fun _ hp => absurd hp List.not_mem_nil⟩

/-- A timestamp is a date with a time of day, and a zone after a space. -/
theorem IsTimestamp.split {fraction : Pattern} {text : List Char} (h : IsTimestamp fraction text) :
    ∃ middle before zone, (Pattern.sequence clockFront).Reads text middle ∧
      fraction.Reads middle (' ' :: before) ∧
      (Pattern.optional (.one fun c => c == '-' || c == '+')).Reads before zone ∧
      Run isWord zone := by
  have hclock : (Pattern.sequence (clockFront ++ clockBack fraction)).Reads text [] := h.1
  rw [Pattern.reads_sequence_append (by simp [clockBack])] at hclock
  obtain ⟨middle, hfront, last, hfraction, before, ⟨c, hc, rfl⟩, zone, hsign, word, ⟨d, hd, rfl⟩,
    w, hw, hend⟩ := hclock
  obtain rfl : c = ' ' := eq_of_beq hc
  rw [List.append_nil] at hend
  subst hend
  exact ⟨middle, before, d :: word, hfront, hfraction, hsign, by simp,
    List.forall_mem_cons.2 ⟨hd, hw⟩⟩

/-- A timestamp holds a blank. -/
theorem IsTimestamp.exists_blank {fraction : Pattern} {text : List Char}
    (h : IsTimestamp fraction text) : ∃ c ∈ text, isBlank c = true := by
  obtain ⟨middle, before, zone, hfront, hfraction, -, -⟩ := h.split
  obtain ⟨u, rfl⟩ := hfront.exists_append
  obtain ⟨v, rfl⟩ := hfraction.exists_append
  exact ⟨' ', by simp, by decide⟩

/-- A timestamp starts with a digit. -/
theorem IsTimestamp.head {fraction : Pattern} {text : List Char} (h : IsTimestamp fraction text) :
    ∃ c others, text = c :: others ∧ isDecimal c = true := by
  obtain ⟨middle, before, zone, hfront, -, -, -⟩ := h.split
  obtain ⟨afterYear, ⟨afterDigit, ⟨c, hc, rfl⟩, -⟩, -⟩ := hfront
  exact ⟨c, afterDigit, rfl, hc⟩

/-- The token may stand for a text with blanks. -/
def Token.mayHoldBlank : Token → Bool
  | timestampMillis | timestamp | sessionStart | hostWithPort | backendType => true
  | _ => false

/-- A token without blanks admits texts without blanks. -/
theorem Token.Admits.isInk {token : Token} {text : List Char} (h : token.Admits text)
    (htoken : token.mayHoldBlank = false) : ∀ c ∈ text, Pattern.isInk c = true := by
  cases token with
  | processId => exact fun c hc => isInk_of_isDecimal (h.2 c hc)
  | sessionLine => exact fun c hc => isInk_of_isDecimal (h.2 c hc)
  | txnId => exact fun c hc => isInk_of_isDecimal (h.2 c hc)
  | user => exact h.2
  | database => exact h.2
  | application => exact h.2
  | host => exact h.1.2
  | virtualTxn =>
    obtain ⟨a, b, ha, hb, rfl⟩ := h
    intro c hc
    simp only [List.mem_append, List.mem_cons] at hc
    rcases hc with hc | rfl | hc
    · exact isInk_of_isDecimal (ha.2 c hc)
    · decide
    · exact isInk_of_isDecimal (hb.2 c hc)
  | errorCode => exact fun c hc => isInk_of_isWord (h.2 c hc)
  | sessionId =>
    obtain ⟨a, b, ha, hb, rfl⟩ := h
    intro c hc
    simp only [List.mem_append, List.mem_cons] at hc
    rcases hc with hc | rfl | hc
    · exact isInk_of_isWord (ha.2 c hc)
    · decide
    · exact isInk_of_isWord (hb.2 c hc)
  | _ => exact absurd htoken (by decide)

theorem Run.head {member : Char → Bool} {text : List Char} (h : Run member text) :
    ∃ c others, text = c :: others ∧ member c = true := by
  obtain ⟨c, others, rfl⟩ := List.exists_cons_of_ne_nil h.1
  exact ⟨c, others, rfl, h.2 c List.mem_cons_self⟩

/-- An admitted text starts with a character that is no blank. -/
theorem Token.Admits.head {token : Token} {text : List Char} (h : token.Admits text) :
    ∃ c others, text = c :: others ∧ isBlank c = false := by
  have hink : ∀ {c}, Pattern.isInk c = true → isBlank c = false := by
    intro c hc
    simpa [Pattern.isInk] using hc
  have hdecimal : ∀ {text}, (∃ c others, text = c :: others ∧ isDecimal c = true) →
      ∃ c others, text = c :: others ∧ isBlank c = false :=
    fun ⟨c, others, he, hc⟩ => ⟨c, others, he, hink (isInk_of_isDecimal hc)⟩
  have hrun : ∀ {text}, Run Pattern.isInk text →
      ∃ c others, text = c :: others ∧ isBlank c = false :=
    fun h => let ⟨c, others, he, hc⟩ := h.head; ⟨c, others, he, hink hc⟩
  have hfront : ∀ {a b text}, Run Pattern.isInk a → text = a ++ b →
      ∃ c others, text = c :: others ∧ isBlank c = false := by
    intro a b text ha he
    obtain ⟨c, others, rfl, hc⟩ := ha.head
    exact ⟨c, others ++ b, he, hink hc⟩
  cases token with
  | processId => exact hdecimal (Run.head h)
  | sessionLine => exact hdecimal (Run.head h)
  | txnId => exact hdecimal (Run.head h)
  | user => exact hrun h
  | database => exact hrun h
  | application => exact hrun h
  | host => exact hrun h.1
  | virtualTxn =>
    obtain ⟨a, b, ha, -, he⟩ := h
    exact hfront ⟨ha.1, fun c hc => isInk_of_isDecimal (ha.2 c hc)⟩ he
  | errorCode =>
    obtain ⟨c, others, he⟩ := List.exists_cons_of_length_eq_add_one h.1
    exact ⟨c, others, he, hink (isInk_of_isWord (h.2 c (he ▸ List.mem_cons_self)))⟩
  | sessionId =>
    obtain ⟨a, b, ha, -, he⟩ := h
    exact hfront ⟨ha.1, fun c hc => isInk_of_isWord (ha.2 c hc)⟩ he
  | timestampMillis => exact hdecimal (IsTimestamp.head h)
  | timestamp => exact hdecimal (IsTimestamp.head h)
  | sessionStart => exact hdecimal (IsTimestamp.head h)
  | hostWithPort =>
    obtain ⟨name, port, hname, -, he⟩ := h
    rw [List.append_assoc] at he
    exact hfront hname.1 he
  | backendType => exact h.elim

/-! ## Compositions -/

/-- A part of a prefix. -/
inductive Part where
  /-- A character that the template and the line have in common. -/
  | literal (c : Char)
  /-- A field with the text that stands for it in the line. -/
  | field (token : Token) (text : List Char)

namespace Part

/-- The part in the template. -/
def written : Part → List Char
  | literal c => [c]
  | field token _ => ['%', token.letter]

/-- The part in the line. -/
def shown : Part → List Char
  | literal c => [c]
  | field _ text => text

/-- What a template is read into there. -/
def piece : Part → Piece
  | literal c => .literal c
  | field token _ => .token token

/-- The slot of a field. -/
def slot? : Part → Option Slot
  | literal _ => none
  | field token _ => some token.slot

/-- The text of a field. -/
def text? : Part → Option (List Char)
  | literal _ => none
  | field _ text => some text

end Part

/-- The texts of the fields of some parts. -/
def fieldTexts (parts : List Part) : List (List Char) := parts.filterMap Part.text?

/-- What the parts show in a line. -/
def shownText (parts : List Part) : List Char := parts.flatMap Part.shown

/-- A character that ends a field among some texts of fields: it is in none of the texts, and it
does not stand in a level. -/
def EndsField (texts : List (List Char)) (c : Char) : Prop :=
  c.isUpper = false ∧ c.isDigit = false ∧ c ≠ ':' ∧ ∀ text ∈ texts, c ∉ text

/-- The parts after a field let one see where it ends. -/
def Token.EndsBefore (texts : List (List Char)) : Token → List Part → Prop
  | user, next | database, next | application, next | host, next =>
    ∃ c others, next = .literal c :: others ∧ (isBlank c = true ∨ EndsField texts c)
  | hostWithPort, next => next = [] ∨ ∃ c others, next = .literal c :: others ∧ isBlank c = true
  | _, next => ∃ c others, next = .literal c :: others ∧ isWord c = false

/-- Parts that can be told apart: no literal is a percent sign, every field has a text that its
token admits, and one sees where it ends. -/
def Separable (texts : List (List Char)) : List Part → Prop
  | [] => True
  | .literal c :: parts => c ≠ '%' ∧ Separable texts parts
  | .field token text :: parts =>
    token.Admits text ∧ token.EndsBefore texts parts ∧ Separable texts parts

/-- Fields that can be told apart have texts that their tokens admit. -/
theorem Separable.admits {texts : List (List Char)} {parts : List Part}
    (h : Separable texts parts) {token : Token} {text : List Char}
    (hfield : .field token text ∈ parts) : token.Admits text := by
  induction parts with
  | nil => exact absurd hfield List.not_mem_nil
  | cons part parts ih =>
    cases part with
    | literal c => exact ih h.2 ((List.mem_cons.1 hfield).resolve_left (by simp))
    | field first firstText =>
      rcases List.mem_cons.1 hfield with he | hmem
      · obtain ⟨rfl, rfl⟩ := Part.field.inj he
        exact h.1
      · exact ih h.2.2 hmem

/-- A prefix with its fields, a level, and a message after a gap. -/
structure Composition where
  parts : List Part
  level : String
  gap : List Char
  description : List Char

namespace Composition

/-- The template of the prefix. -/
def template (x : Composition) : String := String.ofList (x.parts.flatMap Part.written)

/-- The line after its prefix. -/
def afterPrefix (x : Composition) : List Char :=
  x.level.toList ++ ':' :: (x.gap ++ x.description)

/-- The line. -/
def line (x : Composition) : String := String.ofList (shownText x.parts ++ x.afterPrefix)

/-- The fields, the level and the message can be told from the line. -/
structure Admissible (x : Composition) : Prop where
  /-- The parts of the prefix can be told apart. -/
  separable : Separable (fieldTexts x.parts) x.parts
  /-- No two fields are for one slot. -/
  slots : (x.parts.filterMap Part.slot?).Nodup
  /-- The level is a known one. -/
  level : x.level ∈ Template.levels
  /-- There are blanks before the message. -/
  gap : Run isBlank x.gap
  /-- The message is on one line, and does not start with a blank. -/
  description : (∀ c ∈ x.description, c ≠ '\n') ∧ ∀ c ∈ x.description.head?, isBlank c = false

end Composition

/-! ## Reading the template -/

/-- The pieces of a written template are those of its parts. -/
theorem Piece.scan_written {texts : List (List Char)} {parts : List Part}
    (h : Separable texts parts) : scan (parts.flatMap Part.written) = parts.map Part.piece := by
  induction parts with
  | nil => rfl
  | cons part parts ih =>
    cases part with
    | literal c =>
      obtain ⟨hc, hparts⟩ := h
      rw [List.flatMap_cons, List.map_cons, ← ih hparts]
      simp only [Part.written, Part.piece, List.singleton_append]
      rw [scan]
      · exact fun he _ => hc he
      · exact fun _ he _ => hc he
      · exact fun _ _ he _ => hc he
    | field token text =>
      obtain ⟨-, -, hparts⟩ := h
      rw [List.flatMap_cons, List.map_cons, ← ih hparts]
      have hletter : token.letter ≠ 'q' := by cases token <;> decide
      simp only [Part.written, Part.piece, List.cons_append, List.nil_append]
      rw [scan, Token.ofChar?_letter]
      rintro h
      exact absurd h hletter

/-- The template of a composition is accepted. -/
theorem Composition.Admissible.ofString? {x : Composition} (h : x.Admissible) :
    ∃ t, Template.ofString? x.template = .ok t ∧ t.pieces = x.parts.map Part.piece := by
  have hscan : Piece.scan x.template.toList = x.parts.map Part.piece := by
    rw [template, String.toList_ofList, Piece.scan_written h.separable]
  have hcount : (Piece.scan x.template.toList).count .mayStop ≤ 1 := by
    rw [hscan, List.count_eq_zero.2]
    · exact Nat.zero_le 1
    · intro hmem
      obtain ⟨part, -, hpart⟩ := List.mem_map.1 hmem
      cases part <;> exact absurd hpart (by simp [Part.piece])
  exact ⟨⟨_, hcount⟩, by rw [Template.ofString?, dif_pos hcount], hscan⟩

end LogAudit.Line
