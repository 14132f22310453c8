import LogAudit.Ingest.Chunk
import LogAudit.Ingest.Delivery
import LogAudit.Proofs.Text.Utf8

/-!
# The lines of a content

The lines that are delivered of a content are those of the whole content: decoded, with their
continuations, and without the lines that are skipped. They may be told part by part where every
part ends with its line and the next one does not go on with it (`logicalLines_append`), which is
how a content is cut into chunks (`logicalLines_next?`).
-/

namespace LogAudit.Ingest

open LogAudit.Text

/-- The lines of a content that are to be delivered. -/
def logicalLines (content : List UInt8) : List String :=
  (mergeContinuations (Utf8.decodeLossy content)).filter (!skipped ·)

/-! ## Texts in parts -/

/-- Merging goes on anew with a line that continues nothing. -/
theorem mergeLines_append {lines others : List (List Char)}
    (h : ∀ line ∈ others.head?, continues line = false) :
    mergeLines (lines ++ others) = mergeLines lines ++ mergeLines others := by
  have hothers : others.takeWhile continues = [] ∧ others.dropWhile continues = others := by
    cases others with
    | nil => exact ⟨rfl, rfl⟩
    | cons line others =>
      have hline := h line rfl
      simp [hline]
  induction lines using mergeLines.induct with
  | case1 => rw [mergeLines, List.nil_append, List.nil_append]
  | case2 line lines ih =>
    have htake : (lines ++ others).takeWhile continues = lines.takeWhile continues := by
      rw [List.takeWhile_append, hothers.1]
      split
      · rename_i hall
        rw [List.append_nil, (List.takeWhile_prefix _).eq_of_length hall]
      · rfl
    have hdrop : (lines ++ others).dropWhile continues = lines.dropWhile continues ++ others := by
      rw [List.dropWhile_append, hothers.2]
      split
      · rename_i hnone
        rw [List.isEmpty_iff.1 hnone, List.nil_append]
      · rfl
    rw [List.cons_append, mergeLines, mergeLines, htake, hdrop, ih, List.cons_append]

theorem mergeLines_empty : mergeLines [[]] = [[]] := by simp [mergeLines]

/-- The first line of a text continues only if the text starts with a tab. -/
theorem continues_head_physicalLines {text : List Char} (h : text.head? ≠ some '\t') :
    ∀ line ∈ (physicalLines text).head?, continues line = false := by
  cases text with
  | nil => simp [physicalLines, continues]
  | cons c text =>
    have hc : c ≠ '\t' := fun he => h (congrArg some he)
    obtain ⟨first, others, hsplit⟩ := List.exists_cons_of_ne_nil (List.splitOn_ne_nil '\n' text)
    rw [physicalLines, List.splitOn_cons_eq_if_modifyHead, hsplit]
    split
    · simp [continues]
    · intro line hline
      obtain rfl := Option.some.inj hline
      dsimp only
      split
      · simp only [continues, List.head?_dropLast, List.head?_cons]
        split
        · simpa using hc
        · rfl
      · simpa [continues] using hc

/-- The physical lines of a text that ends with its line, and of what follows it. -/
theorem physicalLines_append {front : List Char} (h : front.getLast? = some '\n')
    (back : List Char) :
    ∃ lines, physicalLines front = lines ++ [[]] ∧
      physicalLines (front ++ back) = lines ++ physicalLines back := by
  obtain ⟨front, rfl⟩ := List.getLast?_eq_some_iff.1 h
  refine ⟨physicalLines front, ?_, ?_⟩
  · rw [physicalLines, List.splitOn_append_cons_self, List.map_append, ← physicalLines]
    rfl
  · rw [physicalLines, List.append_assoc, List.singleton_append, List.splitOn_append_cons_self,
      List.map_append, ← physicalLines, ← physicalLines]

/-- The lines of a content are those of its parts, if the first part ends with its line and the
second does not go on with it. -/
theorem logicalLines_append {front back : List UInt8} (hfront : front.getLast? = some newline)
    (hback : back.head? ≠ some tab) :
    logicalLines (front ++ back) = logicalLines front ++ logicalLines back := by
  have hnewline : newline.toNat < 0x80 := by decide
  have hdecoded := @Utf8.decodeLossy_append _ back _ hfront hnewline
  have hlast : (Utf8.decodeLossy front).getLast? = some '\n' :=
    Utf8.getLast?_decodeLossy hfront hnewline
  have htab : (Utf8.decodeLossy back).head? ≠ some '\t' := by
    intro hhead
    obtain ⟨b, hb, hvalue⟩ := Utf8.head?_decodeLossy hhead (by decide) (by decide)
    obtain rfl : b = tab := UInt8.toNat_inj.1 hvalue
    exact hback hb
  obtain ⟨lines, hlines, hboth⟩ := physicalLines_append hlast (Utf8.decodeLossy back)
  have hskipped : skipped "" = true := rfl
  rw [logicalLines, mergeContinuations, hdecoded, hboth,
    mergeLines_append (continues_head_physicalLines htab), List.map_append, List.filter_append,
    logicalLines, mergeContinuations, hlines, mergeLines_append (by simp [continues]),
    mergeLines_empty,
    List.map_append, List.filter_append, ← mergeContinuations, ← logicalLines]
  simp [hskipped]

/-- Nothing has no lines. -/
theorem logicalLines_nil : logicalLines [] = [] := by
  have hlines : physicalLines [] = [[]] := rfl
  rw [logicalLines, mergeContinuations, Utf8.decodeLossy_nil, hlines, mergeLines_empty]
  rfl

/-! ## Chunks -/

/-- A line ends where something comes after it. -/
theorem getLast?_splitLine {bytes : List UInt8} (h : (splitLine bytes).2 ≠ []) :
    (splitLine bytes).1.getLast? = some newline := by
  fun_induction splitLine bytes with
  | case1 => exact absurd rfl h
  | case2 bytes => rfl
  | case3 b bytes hb ih =>
    rw [List.getLast?_cons, ih h, Option.getD_some]

/-- No continuation comes after the continuations. -/
theorem head?_splitContinuations (bytes : List UInt8) :
    (splitContinuations bytes).2.head? ≠ some tab := by
  fun_induction splitContinuations bytes with
  | case1 bytes h others ih => exact ih
  | case2 bytes h => exact h

/-- The last of the continuations ends where something comes after it. -/
theorem getLast?_splitContinuations {bytes : List UInt8} (h : (splitContinuations bytes).2 ≠ []) :
    (splitContinuations bytes).1 = [] ∨
      (splitContinuations bytes).1.getLast? = some newline := by
  fun_induction splitContinuations bytes with
  | case1 bytes htab others ih =>
    refine Or.inr ?_
    rcases ih h with hnone | hlast
    · have hmore : (splitLine bytes).2 ≠ [] := by
        intro hend
        have hsplit : others.1 ++ others.2 = [] := (splitContinuations_append _).trans hend
        exact h (List.append_eq_nil_iff.1 hsplit).2
      rw [hnone, List.append_nil, getLast?_splitLine hmore]
    · rw [List.getLast?_append, hlast, Option.some_or]
  | case2 => exact Or.inl rfl

/-- What remains after a chunk continues nothing. -/
theorem Remainder.head?_bytes_close (opening rest : List UInt8) :
    (close opening rest).2.bytes.head? ≠ some tab := by
  rw [bytes, close, splitLine_append]
  exact head?_splitContinuations _

/-- A chunk ends with its line where something remains after it. -/
theorem Remainder.getLast?_close {opening rest : List UInt8}
    (h : (close opening rest).2.bytes ≠ []) : (close opening rest).1.getLast? = some newline := by
  rw [bytes, close, splitLine_append] at h
  simp only [close]
  generalize hline : (if opening.getLast? = some newline then ([], rest) else splitLine rest) = line
    at h ⊢
  have hmore : line.2 ≠ [] := by
    intro hend
    have hsplit := splitContinuations_append line.2
    exact h (List.append_eq_nil_iff.1 (hsplit.trans hend)).2
  have hstart : (opening ++ line.1).getLast? = some newline := by
    split at hline
    · rw [← hline, List.append_nil]
      assumption
    · subst hline
      rw [List.getLast?_append, getLast?_splitLine hmore, Option.some_or]
  rcases getLast?_splitContinuations h with hnone | hlast
  · rw [hnone, List.append_nil, hstart]
  · rw [List.getLast?_append, hlast, Option.some_or]

/-- The lines that remain are those of the next chunk and those that remain after it. -/
theorem Remainder.logicalLines_next? {size : Nat} {r next : Remainder} {chunk : List UInt8}
    (h : r.next? size = some (chunk, next)) :
    logicalLines r.bytes = logicalLines chunk ++ logicalLines next.bytes := by
  rw [← next?_append h]
  unfold next? at h
  split at h
  · exact absurd h (by simp)
  · have hclose := Option.some.inj h
    by_cases hend : next.bytes = []
    · rw [hend, List.append_nil, logicalLines_nil, List.append_nil]
    · have hlast := @getLast?_close (r.opening size) (r.rest.drop (max size 1))
      have hhead := head?_bytes_close (r.opening size) (r.rest.drop (max size 1))
      rw [hclose] at hlast hhead
      exact logicalLines_append (hlast hend) hhead

end LogAudit.Ingest
