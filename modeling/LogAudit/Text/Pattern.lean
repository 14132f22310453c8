import LogAudit.Text.Classes

/-!
# Search patterns

A pattern describes texts and marks parts of them as numbered groups. Of several ways to match the
first in the order of the pattern counts: the left alternative before the right one, more
repetitions before fewer, unless a repetition is lazy. `Pattern.run` says this by recursion on the
pattern, with what has to match afterwards as its continuation.
-/

namespace LogAudit.Text

/-- A description of texts with numbered groups. -/
inductive Pattern where
  /-- The empty text. -/
  | empty
  /-- One character that the class holds of. -/
  | one (member : Char → Bool)
  /-- Any number of characters of the class, as many as possible first. -/
  | many (member : Char → Bool)
  /-- Any number of characters of the class, as few as possible first. -/
  | manyLazy (member : Char → Bool)
  /-- One pattern after the other. -/
  | andThen (first second : Pattern)
  /-- The first pattern, or else the second. -/
  | orElse (first second : Pattern)
  /-- A pattern whose text is recorded under a number. -/
  | group (number : Nat) (body : Pattern)
  /-- The end of the text. -/
  | atEnd

/-- A part of a text, given by what remains of the text at its two ends. -/
structure Span where
  start : List Char
  stop : List Char

namespace Span

/-- The characters between the two ends. -/
def text (span : Span) : List Char := span.start.take (span.start.length - span.stop.length)

theorem text_append (w s : List Char) : (⟨w ++ s, s⟩ : Span).text = w := by
  rw [text, List.length_append, Nat.add_sub_cancel, List.take_left]

end Span

/-- The groups recorded on the way, the latest first. -/
abbrev Captures := List (Nat × Span)

namespace Captures

/-- The text of a group, `none` if the match went past it. -/
def text? (captures : Captures) (number : Nat) : Option (List Char) :=
  (captures.lookup number).map Span.text

end Captures

namespace Pattern

/-- The rests that are left after skipping more and more members of a class, the shortest first. -/
def rests (member : Char → Bool) : List Char → List (List Char) → List (List Char)
  | [], shorter => [] :: shorter
  | c :: s, shorter =>
    if member c then rests member s ((c :: s) :: shorter) else (c :: s) :: shorter

/-- Match at the front of `s` and go on with `next` on the rest. -/
def run {α : Type} : Pattern → (List Char → Captures → Option α) → List Char → Captures → Option α
  | empty, next, s, captures => next s captures
  | one _, _, [], _ => none
  | one member, next, c :: s, captures => if member c then next s captures else none
  | many member, next, s, captures => (rests member s []).findSome? fun rest => next rest captures
  | manyLazy member, next, s, captures =>
    (rests member s []).reverse.findSome? fun rest => next rest captures
  | andThen first second, next, s, captures => first.run (second.run next) s captures
  | orElse first second, next, s, captures =>
    (first.run next s captures).orElse fun _ => second.run next s captures
  | group number body, next, s, captures =>
    body.run (fun rest captures => next rest ((number, ⟨s, rest⟩) :: captures)) s captures
  | atEnd, next, s, captures => if s.isEmpty then next s captures else none

/-- The groups of a match that starts at the front of the text. -/
def matchStart (p : Pattern) (s : List Char) : Option Captures :=
  p.run (fun _ captures => some captures) s []

/-- The groups of the leftmost match. -/
def search (p : Pattern) (s : List Char) : Option Captures :=
  (rests (fun _ => true) s []).reverse.findSome? p.matchStart

/-- Some part of the text matches. -/
def occursIn (p : Pattern) (s : List Char) : Bool := (p.search s).isSome

/-- A match starts at the front of the text. -/
def startsIn (p : Pattern) (s : List Char) : Bool := (p.matchStart s).isSome

/-- One pattern after the other, for a list of them. -/
def sequence : List Pattern → Pattern
  | [] => empty
  | [p] => p
  | p :: ps => andThen p (sequence ps)

/-- The first pattern of a list that matches. -/
def firstOf : List Pattern → Pattern
  | [] => one fun _ => false
  | [p] => p
  | p :: ps => orElse p (firstOf ps)

/-- The pattern once, if possible. -/
def optional (p : Pattern) : Pattern := orElse p empty

/-- At least one member of the class, as many as possible first. -/
def atLeastOne (member : Char → Bool) : Pattern := andThen (one member) (many member)

/-- Exactly `n` members of the class. -/
def times (n : Nat) (member : Char → Bool) : Pattern := sequence (List.replicate n (one member))

/-- Exactly this character. -/
def char (c : Char) : Pattern := one (· == c)

/-- Exactly this text. -/
def text (s : String) : Pattern := sequence (s.toList.map char)

/-- The characters that differ from an ASCII letter in case only. The long s and the Kelvin sign
are the two from outside ASCII. -/
def sameLetter (letter c : Char) : Bool :=
  c.toLower == letter.toLower || (letter.toLower == 's' && c == 'ſ')
    || (letter.toLower == 'k' && c == '\u212A')

/-- Any character of a line. -/
def inLine (c : Char) : Bool := c != '\n'

/-- Any character that is no blank. -/
def isInk (c : Char) : Bool := !isBlank c

/-- Blanks, as many as possible first. -/
def blanks : Pattern := many isBlank

/-- At least one blank. -/
def someBlanks : Pattern := atLeastOne isBlank

end Pattern

end LogAudit.Text
