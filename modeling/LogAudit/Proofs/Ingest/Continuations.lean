import LogAudit.Proofs.Ingest.TaskRuns
import Mathlib.Data.List.TakeWhile

/-!
# Messages of several lines

A continuation belongs to the nearest line before it that is none; the lines of a text come in
messages (`Divides`), and merging makes one line of each (`Divides.mergeLines_eq`). What is
delivered is judged by the merged line. Where the first line of a message is empty, its
continuations make up a line that starts with a tab, and are skipped with it
(`Message.skipped_whole`), so continuations get lost behind empty lines (`emptyHead_dropped`).
-/

namespace LogAudit.Ingest

open LogAudit.Text

/-- A line and the continuations that follow it. -/
structure Message where
  head : List Char
  tail : List (List Char)
  deriving DecidableEq, Repr

namespace Message

/-- The physical lines of a message. -/
def lines (m : Message) : List (List Char) := m.head :: m.tail

/-- The logical line of a message. -/
def whole (m : Message) : List Char := m.lines.flatten

/-- The message starts with a line that is neither empty nor a continuation. -/
def proper (m : Message) : Bool := !m.head.isEmpty && !continues m.head

end Message

/-- The messages are those of the lines: only continuations follow the first line of a message, and
only the first message may start with one. -/
structure Divides (messages : List Message) (lines : List (List Char)) : Prop where
  lines : messages.flatMap Message.lines = lines
  continued : ∀ m ∈ messages, ∀ line ∈ m.tail, continues line = true
  headed : ∀ m ∈ messages.tail, continues m.head = false

/-- The messages of some lines. -/
def messagesOf : List (List Char) → List Message
  | [] => []
  | line :: lines => ⟨line, lines.takeWhile continues⟩ :: messagesOf (lines.dropWhile continues)
termination_by lines => lines.length
decreasing_by
  have := (List.dropWhile_sublist continues (l := lines)).length_le
  simp; omega

/-- What comes after continuations does not start with one. -/
theorem continues_head_messagesOf_dropWhile (lines : List (List Char)) :
    ∀ m ∈ (messagesOf (lines.dropWhile continues)).head?, continues m.head = false := by
  have hhead := List.head?_dropWhile_not continues lines
  cases hrest : lines.dropWhile continues with
  | nil => simp [messagesOf]
  | cons line rest =>
    intro m hm
    rw [messagesOf, List.head?_cons, Option.mem_some_iff] at hm
    rw [hrest] at hhead
    simpa [← hm] using hhead

theorem divides_messagesOf (lines : List (List Char)) : Divides (messagesOf lines) lines := by
  induction lines using messagesOf.induct with
  | case1 =>
    rw [messagesOf]
    exact ⟨rfl, fun m hm => absurd hm List.not_mem_nil, fun m hm => absurd hm List.not_mem_nil⟩
  | case2 line lines ih =>
    rw [messagesOf]
    refine ⟨?_, ?_, ?_⟩
    · rw [List.flatMap_cons, ih.lines, Message.lines, List.cons_append,
        List.takeWhile_append_dropWhile]
    · intro m hm
      rcases List.mem_cons.1 hm with rfl | hm
      · exact fun other hother => List.mem_takeWhile_imp hother
      · exact ih.continued m hm
    · intro m hm
      rw [List.tail_cons] at hm
      have hfirst := continues_head_messagesOf_dropWhile lines
      have hothers := ih.headed
      cases hrest : messagesOf (lines.dropWhile continues) with
      | nil => exact absurd (hrest ▸ hm) List.not_mem_nil
      | cons first others =>
        rw [hrest] at hm hfirst hothers
        rcases List.mem_cons.1 hm with rfl | hm
        · exact hfirst m rfl
        · exact hothers m hm

/-- Continuations at the start of some lines are before the first line that is none. -/
theorem prefix_of_continues {front back continuations : List (List Char)}
    (h : continuations <+: front ++ back)
    (hcontinues : ∀ line ∈ continuations, continues line = true)
    (hback : ∀ line ∈ back.head?, continues line = false) : continuations <+: front := by
  rcases List.prefix_or_prefix_of_prefix h (List.prefix_append front back) with hfront | hlonger
  · exact hfront
  · obtain ⟨more, rfl⟩ := hlonger
    rw [List.prefix_append_right_inj] at h
    cases more with
    | nil => simp
    | cons line more =>
      obtain ⟨rest, rfl⟩ := h
      have hnone := hback line rfl
      rw [hcontinues line (by simp)] at hnone
      cases hnone

namespace Divides

variable {m : Message} {messages : List Message} {lines : List (List Char)}

/-- The messages after the first one divide the lines after it, and start with no continuation. -/
theorem of_cons (h : Divides (m :: messages) lines) :
    Divides messages (messages.flatMap Message.lines) ∧
      ∀ line ∈ (messages.flatMap Message.lines).head?, continues line = false := by
  refine ⟨⟨rfl, fun other hother => h.continued other (.tail _ hother), fun other hother =>
    h.headed other (List.mem_of_mem_tail hother)⟩, ?_⟩
  cases messages with
  | nil => simp
  | cons next others =>
    intro line hline
    rw [List.flatMap_cons, Message.lines, List.cons_append, List.head?_cons,
      Option.mem_some_iff] at hline
    exact hline ▸ h.headed next List.mem_cons_self

/-- Merging makes one line of each message. -/
theorem mergeLines_eq (h : Divides messages lines) :
    mergeLines lines = messages.map Message.whole := by
  induction messages generalizing lines with
  | nil => rw [← h.lines]; simp [mergeLines]
  | cons m messages ih =>
    obtain ⟨hothers, hhead⟩ := h.of_cons
    have hone : mergeLines m.lines = [m.whole] := by
      have htail : ∀ line ∈ m.tail, continues line = true := h.continued m List.mem_cons_self
      rw [Message.lines, mergeLines, List.takeWhile_eq_self_iff.2 htail,
        List.dropWhile_eq_nil_iff.2 htail, mergeLines]
      rfl
    rw [← h.lines, List.flatMap_cons, mergeLines_append hhead, hone, ih hothers]
    rfl

/-- A continuation is in the message of the nearest line before it that is none. -/
theorem nearest (h : Divides messages lines) {front between back : List (List Char)}
    {head line : List Char} (hlines : lines = front ++ head :: (between ++ line :: back))
    (hhead : continues head = false) (hbetween : ∀ other ∈ between, continues other = true)
    (hline : continues line = true) :
    ∃ before m after, messages = before ++ m :: after ∧ before.flatMap Message.lines = front ∧
      m.head = head ∧ between ++ [line] <+: m.tail := by
  induction messages generalizing lines front with
  | nil => exact absurd (h.lines.trans hlines) (by simp)
  | cons m messages ih =>
    obtain ⟨hothers, hfirst⟩ := h.of_cons
    have hjoined := h.lines.trans hlines
    rw [List.flatMap_cons, Message.lines, List.cons_append] at hjoined
    cases front with
    | nil =>
      obtain ⟨rfl, hrest⟩ := List.cons.inj hjoined
      refine ⟨[], m, messages, rfl, rfl, rfl, prefix_of_continues ?_ ?_ hfirst⟩
      · exact ⟨back, by rw [hrest, List.append_assoc, List.singleton_append]⟩
      · intro other hother
        rcases List.mem_append.1 hother with hother | hother
        · exact hbetween other hother
        · exact List.mem_singleton.1 hother ▸ hline
    | cons first front =>
      obtain ⟨rfl, hrest⟩ := List.cons.inj hjoined
      have htail : m.tail <+: front := by
        refine prefix_of_continues ⟨_, hrest⟩ (h.continued m List.mem_cons_self) ?_
        intro other hother
        exact Option.some.inj hother ▸ hhead
      obtain ⟨front, rfl⟩ := htail
      replace hrest := List.append_cancel_left (hrest.trans (List.append_assoc _ _ _))
      obtain ⟨before, found, after, rfl, hbefore, hfound⟩ := ih hothers hrest
      refine ⟨m :: before, found, after, rfl, ?_, hfound⟩
      rw [List.flatMap_cons, hbefore]
      rfl

end Divides

/-! ## What is delivered of a message -/

namespace Message

variable {m : Message}

/-- The line of a message starts with a tab if its first line does, or if that is empty and there
are continuations. -/
theorem continues_whole (htail : ∀ line ∈ m.tail, continues line = true) :
    continues m.whole = true ↔ continues m.head = true ∨ m.head = [] ∧ m.tail ≠ [] := by
  obtain ⟨head, tail⟩ := m
  cases head with
  | cons c head => simp [whole, lines, continues]
  | nil =>
    cases tail with
    | nil => simp [whole, lines, continues]
    | cons line tail =>
      obtain ⟨rest, rfl⟩ : ∃ rest, line = '\t' :: rest := by
        have hline : continues line = true := htail line List.mem_cons_self
        rw [continues, beq_iff_eq] at hline
        exact List.head?_eq_some_iff.1 hline
      simp [whole, lines, continues]

/-- A message is skipped unless it is proper. -/
theorem skipped_whole (htail : ∀ line ∈ m.tail, continues line = true) :
    skipped (String.ofList m.whole) = !m.proper := by
  have hcontinues := continues_whole htail
  have hempty : m.whole = [] ↔ m.head = [] ∧ m.tail = [] := by
    rw [whole, List.flatten_eq_nil_iff, lines, List.forall_mem_cons]
    refine and_congr_right fun _ =>
      ⟨fun h => List.eq_nil_iff_forall_not_mem.2 fun line hline => ?_, ?_⟩
    · have hline' := htail line hline
      rw [h line hline] at hline'
      cases hline'
    · rintro h line hline
      rw [h] at hline
      exact absurd hline List.not_mem_nil
  rw [skipped, String.toList_ofList, proper, Bool.eq_iff_iff]
  simp only [Bool.or_eq_true, List.isEmpty_iff, hempty, hcontinues, Bool.not_eq_true',
    Bool.and_eq_false_iff, Bool.not_eq_false']
  tauto

end Message

/-- What becomes of the messages of a text. -/
structure MergedFrom (text : List Char) (messages : List Message) : Prop where
  divides : Divides messages (physicalLines text)
  /-- A continuation belongs to the nearest line before it that is none. -/
  nearest : ∀ front head between line back,
    physicalLines text = front ++ head :: (between ++ line :: back) → continues head = false →
      (∀ other ∈ between, continues other = true) → continues line = true →
      ∃ before m after, messages = before ++ m :: after ∧ before.flatMap Message.lines = front ∧
        m.head = head ∧ between ++ [line] <+: m.tail
  /-- Merging makes one line of each message. -/
  merged : mergeContinuations text = messages.map fun m => String.ofList m.whole
  /-- After the first message, such a line starts with a tab only where continuations follow an
  empty line. -/
  tabbed : ∀ m ∈ messages.tail, continues m.whole = true ↔ m.head = [] ∧ m.tail ≠ []
  /-- When the text has been delivered, every sink was fed the lines of the proper messages. -/
  fed : ∀ (a : Audience) (file : Nat) (path : String) (batchLines : Nat) (chunk : List UInt8)
    (d : Desk), Utf8.decodeLossy chunk = text → a.Steady →
      Task.Completes a file path batchLines chunk d → ∀ sink < a.sinks,
        (d.board.fed file sink).Perm
          ((messages.filter Message.proper).map fun m => String.ofList m.whole)

/-- Every continuation is merged into the message of the nearest line before it that is none, and in
whatever order the workers on a chunk take their steps, every sink is fed each message once, unless
the first line of the message is empty or a continuation itself. -/
theorem continuations_merged (text : List Char) : ∃ messages, MergedFrom text messages := by
  have hdivides := divides_messagesOf (physicalLines text)
  have hmerged : mergeContinuations text =
      (messagesOf (physicalLines text)).map fun m => String.ofList m.whole := by
    rw [mergeContinuations, hdivides.mergeLines_eq, List.map_map]
    rfl
  refine ⟨messagesOf (physicalLines text), hdivides, fun front head between line back =>
    hdivides.nearest, hmerged, fun m hm => ?_, ?_⟩
  · have hhead : continues m.head = false := hdivides.headed m hm
    rw [Message.continues_whole (hdivides.continued m (List.mem_of_mem_tail hm)), hhead]
    simp
  · intro a file path batchLines chunk d htext hsteady hcompletes sink hsink
    have hfed := hcompletes.fed_perm hsteady hsink
    have hproper : (messagesOf (physicalLines text)).filter
          ((!skipped ·) ∘ fun m => String.ofList m.whole) =
        (messagesOf (physicalLines text)).filter Message.proper :=
      List.filter_congr fun m hm => by
        rw [Function.comp_apply, Message.skipped_whole (hdivides.continued m hm), Bool.not_not]
    rwa [logicalLines, htext, hmerged, List.filter_map, hproper] at hfed

/-- Two lines, the second of which is empty and has a continuation. -/
def emptyHead : List UInt8 := Utf8.encode "a\n\n\tb"

/-- The continuation of an empty line makes a line that starts with a tab, and is not delivered. -/
theorem emptyHead_dropped :
    mergeContinuations (Utf8.decodeLossy emptyHead) = ["a", "\tb"] ∧
    ∃ d, Task.Completes (.ofSinks .all [.all]) 0 "a.log" 30 emptyHead d ∧
      d.board.fed 0 0 = ["a"] := by
  refine ⟨by decide +kernel, _, Task.completes_finish ?_, ?_⟩ <;> decide +kernel

end LogAudit.Ingest
