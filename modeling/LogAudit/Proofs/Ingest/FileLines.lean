import LogAudit.Ingest.Validation
import LogAudit.Proofs.Ingest.LogicalLines

/-!
# The lines of a file

A sample takes the lines of a file as they stand there, while continuations are merged and empty
lines skipped before anything is delivered. `fileLines` tells both of each line: the text that a
sample takes (`fileLines_of_ne_nil`), and what is delivered where it stands
(`logicalLines_eq_filterMap`).
-/

namespace LogAudit.Ingest

open LogAudit.Text

/-- A line of a file: its text by itself, and the line that is delivered where it stands. Nothing is
delivered where an empty line stands, or one that goes on with the line before it. -/
structure FileLine where
  text : String
  delivered? : Option String
  deriving DecidableEq, Repr

/-- The line without a carriage return at its end. -/
def withoutReturn (line : List Char) : List Char :=
  if line.getLast? = some '\r' then line.dropLast else line

/-- The line without the carriage returns at its end. -/
def withoutReturns (line : List Char) : List Char :=
  (line.reverse.dropWhile (· == '\r')).reverse

namespace FileLine

/-- What is delivered where a line stands that is followed by others. -/
def delivery? (line : List Char) (others : List (List Char)) : Option String :=
  let tail := (others.map withoutReturn).takeWhile continues
  let whole := String.ofList (withoutReturn line ++ tail.flatten)
  if skipped whole then none else some whole

/-- Both readings of each line. -/
def ofLines : List (List Char) → List FileLine
  | [] => []
  | line :: others =>
    ⟨String.ofList (withoutReturns line), delivery? line others⟩ :: ofLines others

end FileLine

/-- The lines of a text without the newlines that end them. -/
def endedLines (text : List Char) : List (List Char) :=
  let lines := text.splitOn '\n'
  if lines.getLast? = some [] then lines.dropLast else lines

/-- The lines of a content. -/
def fileLines (content : List UInt8) : List FileLine :=
  FileLine.ofLines (endedLines (Utf8.decodeLossy content))

/-! ## What is delivered -/

namespace FileLine

theorem exists_of_mem_ofLines {l : FileLine} {lines : List (List Char)} (h : l ∈ ofLines lines) :
    ∃ line others, l = ⟨String.ofList (withoutReturns line), delivery? line others⟩ := by
  induction lines with
  | nil => exact absurd h List.not_mem_nil
  | cons line others ih =>
    rcases List.mem_cons.1 h with rfl | hmem
    · exact ⟨line, others, rfl⟩
    · exact ih hmem

variable {line : List Char} {others lines : List (List Char)}

/-- Nothing is delivered where a continuation stands. -/
theorem delivery?_of_continues (h : continues (withoutReturn line) = true) :
    delivery? line others = none := by
  have hskipped : ∀ tail, skipped (String.ofList (withoutReturn line ++ tail)) = true := by
    intro tail
    rw [skipped, String.toList_ofList, Bool.or_eq_true]
    right
    rw [continues, beq_iff_eq] at h ⊢
    rw [List.head?_append, h, Option.some_or]
  rw [delivery?, if_pos (hskipped _)]

/-- Nothing is delivered up to the first line that is no continuation. -/
theorem filterMap_ofLines_dropWhile (lines : List (List Char)) :
    (ofLines (lines.dropWhile (continues ∘ withoutReturn))).filterMap delivered? =
      (ofLines lines).filterMap delivered? := by
  induction lines with
  | nil => rfl
  | cons line others ih =>
    rw [List.dropWhile_cons]
    split
    · rename_i hline
      have hnone : delivery? line others = none := delivery?_of_continues hline
      simp only [ih, ofLines, List.filterMap_cons, hnone]
    · rfl

/-- The delivered lines are those that merging gives, without those that are skipped. -/
theorem filterMap_ofLines (lines : List (List Char)) :
    (ofLines lines).filterMap delivered? =
      ((mergeLines (lines.map withoutReturn)).map String.ofList).filter (!skipped ·) := by
  -- Merging goes on behind the continuations, so the induction is on the number of lines.
  induction hlength : lines.length using Nat.strong_induction_on generalizing lines with
  | _ n ih =>
    subst hlength
    cases lines with
    | nil => rw [List.map_nil, mergeLines]; rfl
    | cons line others =>
      have hshorter : (others.dropWhile (continues ∘ withoutReturn)).length <
          (line :: others).length :=
        Nat.lt_succ_of_le (List.dropWhile_sublist _).length_le
      rw [List.map_cons, mergeLines, List.dropWhile_map, List.map_cons, List.filter_cons,
        ← ih _ hshorter _ rfl, filterMap_ofLines_dropWhile, ofLines, List.filterMap_cons, delivery?]
      generalize String.ofList (withoutReturn line ++
        ((others.map withoutReturn).takeWhile continues).flatten) = whole
      cases skipped whole <;> simp

end FileLine

/-- Merging leaves an empty line at the end as it is. -/
theorem mergeLines_concat_nil (lines : List (List Char)) :
    mergeLines (lines ++ [[]]) = mergeLines lines ++ [[]] := by
  rw [mergeLines_append (by simp [continues]), mergeLines_empty]

/-- The delivered lines of a content are those of its lines. -/
theorem logicalLines_eq_filterMap (content : List UInt8) :
    logicalLines content = (fileLines content).filterMap FileLine.delivered? := by
  have hphysical : ∀ text, physicalLines text = (text.splitOn '\n').map withoutReturn :=
    fun _ => rfl
  rw [logicalLines, mergeContinuations, fileLines, FileLine.filterMap_ofLines, hphysical,
    endedLines]
  split
  · rename_i hlast
    -- The empty line behind the last newline is not one of the file, and it is skipped.
    obtain ⟨lines, hlines⟩ := List.getLast?_eq_some_iff.1 hlast
    have hempty : withoutReturn [] = [] := rfl
    have hskipped : skipped (String.ofList []) = true := by decide
    rw [hlines, List.dropLast_concat, List.map_append, List.map_singleton, hempty,
      mergeLines_concat_nil, List.map_append, List.filter_append]
    simp [hskipped]
  · rfl

/-! ## What a sample takes -/

/-- A content without a newline is one line; otherwise the first line goes up to the first
newline. -/
theorem splitLine_cases (bytes : List UInt8) :
    newline ∉ bytes ∧ splitLine bytes = (bytes, []) ∨
    ∃ front back, newline ∉ front ∧ bytes = front ++ newline :: back ∧
      splitLine bytes = (front ++ [newline], back) := by
  fun_induction splitLine bytes with
  | case1 => exact Or.inl ⟨List.not_mem_nil, rfl⟩
  | case2 bytes => exact Or.inr ⟨[], bytes, List.not_mem_nil, rfl, rfl⟩
  | case3 b bytes hb ih =>
    rcases ih with ⟨hnone, hsplit⟩ | ⟨front, back, hnone, hbytes, hsplit⟩
    · refine Or.inl ⟨?_, by rw [hsplit]⟩
      rw [List.mem_cons, not_or]
      exact ⟨Ne.symm hb, hnone⟩
    · refine Or.inr ⟨b :: front, back, ?_, by rw [hbytes, List.cons_append], by rw [hsplit]; rfl⟩
      rw [List.mem_cons, not_or]
      exact ⟨Ne.symm hb, hnone⟩

/-- A text has newlines only where its bytes are. -/
theorem newline_notMem_decodeLossy {bytes : List UInt8} (h : newline ∉ bytes) :
    '\n' ∉ Utf8.decodeLossy bytes := by
  intro hmem
  obtain ⟨b, hb, hvalue⟩ := Utf8.exists_of_mem_decodeLossy hmem (by decide) (by decide)
  obtain rfl : b = newline := UInt8.toNat_inj.1 hvalue
  exact h hb

/-- The parts of some items that an item ends, without it. -/
def endedBy {α : Type} [DecidableEq α] (last : α) (items : List α) : List (List α) :=
  let parts := items.splitOn last
  if parts.getLast? = some [] then parts.dropLast else parts

section EndedBy

variable {α : Type} [DecidableEq α] {last : α}

/-- The first part goes up to the first item that ends one. -/
theorem endedBy_append_cons {front : List α} (h : last ∉ front) (back : List α) :
    endedBy last (front ++ last :: back) = front :: endedBy last back := by
  have hne : back.splitOn last ≠ [] := List.splitOn_ne_nil last back
  rw [endedBy, List.splitOn_append_cons_self_of_not_mem h, endedBy,
    List.getLast?_cons_of_ne_nil hne]
  split
  · rw [List.dropLast_cons_of_ne_nil hne]
  · rfl

/-- Without such an item all items are one part. -/
theorem endedBy_of_notMem {items : List α} (h : last ∉ items) (hne : items ≠ []) :
    endedBy last items = [items] := by
  rw [endedBy, List.splitOn_eq_singleton h, List.getLast?_singleton, if_neg (by simpa using hne)]

end EndedBy

/-- There is something to decode unless there is nothing. -/
theorem decodeLossy_ne_nil {bytes : List UInt8} (h : bytes ≠ []) :
    Utf8.decodeLossy bytes ≠ [] := by
  obtain ⟨b, bytes, rfl⟩ := List.exists_cons_of_ne_nil h
  rw [Utf8.decodeLossy, Utf8.scan]
  exact List.cons_ne_nil _ _

theorem fileLines_nil : fileLines [] = [] := by
  rw [fileLines, Utf8.decodeLossy_nil]
  rfl

/-- The text that a sample takes of a line that ends with a newline. -/
theorem Sampling.lineText_concat (front : List UInt8) :
    lineText (front ++ [newline]) = String.ofList (withoutReturns (Utf8.decodeLossy front)) := by
  have hdecoded : Utf8.decodeLossy (front ++ [newline]) = Utf8.decodeLossy front ++ ['\n'] := by
    rw [Utf8.decodeLossy_append_cons (by decide), Utf8.decodeLossy_nil]
    rfl
  simp only [lineText, hdecoded, List.getLast?_concat, if_true, List.dropLast_concat,
    withoutReturns]

/-- The text that a sample takes of a line without a newline. -/
theorem Sampling.lineText_of_notMem {line : List UInt8} (h : newline ∉ line) :
    lineText line = String.ofList (withoutReturns (Utf8.decodeLossy line)) := by
  have hlast : (Utf8.decodeLossy line).getLast? ≠ some '\n' := fun hlast =>
    newline_notMem_decodeLossy h (List.mem_of_getLast? hlast)
  simp only [lineText, if_neg hlast, withoutReturns]

/-- The first line of a content is the one that a sample takes first. -/
theorem fileLines_of_ne_nil {content : List UInt8} (h : content ≠ []) :
    ∃ delivered?, fileLines content =
      ⟨Sampling.lineText (splitLine content).1, delivered?⟩ ::
        fileLines (splitLine content).2 := by
  rcases splitLine_cases content with ⟨hnone, hsplit⟩ | ⟨front, back, hnone, rfl, hsplit⟩
  · have hlines : endedLines (Utf8.decodeLossy content) = [Utf8.decodeLossy content] :=
      endedBy_of_notMem (newline_notMem_decodeLossy hnone) (decodeLossy_ne_nil h)
    rw [hsplit, Sampling.lineText_of_notMem hnone, fileLines_nil, fileLines, hlines]
    exact ⟨_, rfl⟩
  · have hdecoded : Utf8.decodeLossy (front ++ newline :: back) =
        Utf8.decodeLossy front ++ '\n' :: Utf8.decodeLossy back :=
      Utf8.decodeLossy_append_cons (by decide)
    have hlines : endedLines (Utf8.decodeLossy front ++ '\n' :: Utf8.decodeLossy back) =
        Utf8.decodeLossy front :: endedLines (Utf8.decodeLossy back) :=
      endedBy_append_cons (newline_notMem_decodeLossy hnone) (Utf8.decodeLossy back)
    rw [hsplit, Sampling.lineText_concat, fileLines, hdecoded, hlines]
    exact ⟨_, rfl⟩

/-! ## Lines where nothing is delivered -/

theorem withoutReturns_eq_nil {line : List Char} (h : withoutReturn line = []) :
    withoutReturns line = [] := by
  unfold withoutReturn at h
  split at h
  · rename_i hlast
    obtain ⟨front, rfl⟩ := List.getLast?_eq_some_iff.1 hlast
    rw [List.dropLast_concat] at h
    rw [h]
    rfl
  · rw [h]
    rfl

theorem head?_withoutReturns {line : List Char} (h : continues (withoutReturn line) = true) :
    (withoutReturns line).head? = some '\t' := by
  have hhead : line.head? = some '\t' := by
    rw [continues, beq_iff_eq, withoutReturn] at h
    split at h
    · rw [List.head?_dropLast] at h
      split at h
      · exact h
      · cases h
    · exact h
  obtain ⟨rest, rfl⟩ := List.head?_eq_some_iff.1 hhead
  have htab : ['\t'].dropWhile (· == '\r') = ['\t'] := rfl
  rw [withoutReturns, List.reverse_cons, List.dropWhile_append, htab]
  split <;> simp

/-- Nothing is delivered only where a line is empty by itself or a continuation. -/
theorem FileLine.text_of_delivered?_eq_none {content : List UInt8} {l : FileLine}
    (h : l ∈ fileLines content) (hnone : l.delivered? = none) :
    l.text = "" ∨ l.text.toList.head? = some '\t' := by
  obtain ⟨line, others, rfl⟩ := exists_of_mem_ofLines h
  dsimp only [delivery?] at hnone ⊢
  rw [ite_eq_left_iff] at hnone
  have hskipped := not_imp_comm.1 hnone (Option.some_ne_none _)
  rw [skipped, String.toList_ofList, Bool.or_eq_true, List.isEmpty_iff] at hskipped
  cases hline : withoutReturn line with
  | nil => exact Or.inl (by rw [withoutReturns_eq_nil hline])
  | cons c rest =>
    rw [hline, List.cons_append] at hskipped
    have htab : continues (withoutReturn line) = true :=
      hline ▸ hskipped.resolve_left (List.cons_ne_nil _ _)
    exact Or.inr (by rw [String.toList_ofList, head?_withoutReturns htab])

/-! ## Samples -/

/-- The sink neither breaks off nor has the run cancelled. -/
structure Sink.Calm (v : Sink) : Prop where
  unbroken : ∀ line payload, v.verdict line ≠ .error (.panicked payload)
  keepsOn : ∀ line, v.cancels line = false

/-- The sink accepts the line. -/
def Sink.accepts (v : Sink) (line : String) : Bool := (v.verdict line).toBool

end LogAudit.Ingest
