import LogAudit.Proofs.Ingest.FileLines

/-!
# Cutting a content into chunks

The chunks of a content are the content cut at ends of logical lines (`CutsAtLines`): what remains
after a chunk never starts with a continuation, and if there is any, the chunk ends with its line
and is long enough. Nor does a chunk go on behind the first such place that its size allows
(`Remainder.length_lt_of_lineEnd`). A reader gives these chunks, one for each call, and afterwards
nothing (`ChunkReader.cuts_at_lines`).
-/

namespace LogAudit.Ingest

/-- A logical line ends between two parts of a content, and another one starts there. -/
structure LineEnd (front back : List UInt8) : Prop where
  ended : front.getLast? = some newline
  more : back ≠ []
  headed : back.head? ≠ some tab

/-- The chunks are the content, cut at ends of logical lines. -/
structure CutsAtLines (size : Nat) (content : List UInt8) (chunks : List (List UInt8)) :
    Prop where
  joined : chunks.flatten = content
  nonempty : ∀ chunk ∈ chunks, chunk ≠ []
  /-- Every chunk but the last ends with its line. -/
  ended : ∀ chunk ∈ chunks.dropLast, chunk.getLast? = some newline
  /-- Every chunk but the last is long enough. -/
  filled : ∀ chunk ∈ chunks.dropLast, max size 1 ≤ chunk.length
  /-- Every chunk but the first starts with a byte other than a tab. -/
  headed : ∀ chunk ∈ chunks.tail, chunk.head? ≠ some tab
  /-- A logical line that ends within a chunk ends before the chunk is `size` longer than its first
  line. -/
  shortest : ∀ chunk ∈ chunks, ∀ front back, chunk = front ++ back → LineEnd front back →
    front.length < (splitLine front).1.length + max size 1
  /-- The logical lines of the content are those of its chunks. -/
  lines : logicalLines content = chunks.flatMap logicalLines

namespace CutsAtLines

variable {size : Nat} {content : List UInt8} {chunks : List (List UInt8)}

/-- No content is cut into no chunks. -/
theorem nil (size : Nat) : CutsAtLines size [] [] where
  joined := rfl
  nonempty := nofun
  ended := nofun
  filled := nofun
  headed := nofun
  shortest := nofun
  lines := logicalLines_nil

/-- What holds of a chunk because something comes after it holds of every chunk but the last. -/
theorem forall_dropLast_cons (h : CutsAtLines size content chunks) {p : List UInt8 → Prop}
    {chunk : List UInt8} (hchunk : content ≠ [] → p chunk) (hothers : ∀ c ∈ chunks.dropLast, p c) :
    ∀ c ∈ (chunk :: chunks).dropLast, p c := by
  cases chunks with
  | nil => exact nofun
  | cons first others =>
    have hmore : content ≠ [] := by
      rw [← h.joined, List.flatten_cons]
      exact List.append_ne_nil_of_left_ne_nil (h.nonempty first List.mem_cons_self) _
    rw [List.dropLast_cons_of_ne_nil (List.cons_ne_nil _ _)]
    exact List.forall_mem_cons.2 ⟨hchunk hmore, hothers⟩

/-- If a content does not start with a continuation, none of its chunks does. -/
theorem headed_of_head? (h : CutsAtLines size content chunks) (hhead : content.head? ≠ some tab) :
    ∀ chunk ∈ chunks, chunk.head? ≠ some tab := by
  cases chunks with
  | nil => exact nofun
  | cons first others =>
    obtain ⟨b, line, hfirst⟩ := List.exists_cons_of_ne_nil (h.nonempty first List.mem_cons_self)
    refine List.forall_mem_cons.2 ⟨?_, h.headed⟩
    rw [← h.joined, List.flatten_cons, hfirst] at hhead
    rwa [hfirst]

end CutsAtLines

/-! ## Where lines end -/

/-- The first line of a content is the first line of what comes before the end of a line. -/
theorem splitLine_append_fst {front : List UInt8} (h : newline ∈ front) (back : List UInt8) :
    (splitLine (front ++ back)).1 = (splitLine front).1 := by
  fun_induction splitLine front with
  | case1 => exact absurd h List.not_mem_nil
  | case2 front => rw [List.cons_append, splitLine, if_pos rfl]
  | case3 b front hb ih =>
    have hfront : newline ∈ front := (List.mem_cons.1 h).resolve_left (Ne.symm hb)
    rw [List.cons_append, splitLine, if_neg hb, ih hfront]

/-- Only the last byte of a line is a newline. -/
theorem newline_notMem_dropLast_splitLine (bytes : List UInt8) :
    newline ∉ (splitLine bytes).1.dropLast := by
  rcases splitLine_cases bytes with ⟨hnone, hsplit⟩ | ⟨front, back, hnone, -, hsplit⟩
  · rw [hsplit]
    exact fun h => hnone ((List.dropLast_sublist bytes).subset h)
  · rwa [hsplit, List.dropLast_concat]

/-- The last byte of two parts is that of the second one, unless that is empty. -/
theorem getLast?_append_cases {front back : List UInt8} {b : UInt8}
    (h : (front ++ back).getLast? = some b) :
    back = [] ∧ front.getLast? = some b ∨ back.getLast? = some b := by
  rw [List.getLast?_append, Option.or_eq_some_iff, List.getLast?_eq_none_iff] at h
  exact h.symm

/-- What goes up to the end of a line takes in the whole first line. -/
theorem exists_of_splitLine_append {bytes more front back : List UInt8}
    (h : (splitLine bytes).1 ++ more = front ++ back) (hfront : front.getLast? = some newline) :
    ∃ rest, more = rest ++ back ∧ (rest = [] ∨ rest.getLast? = some newline) := by
  rcases List.append_eq_append_iff.1 h with ⟨rest, rfl, rfl⟩ | ⟨rest, hline, rfl⟩
  · exact ⟨rest, rfl, (getLast?_append_cases hfront).imp_left And.left⟩
  · have hrest : rest = [] := by
      by_contra hne
      have hnone := newline_notMem_dropLast_splitLine bytes
      rw [hline, List.dropLast_append_of_ne_nil hne] at hnone
      exact hnone (List.mem_append_left _ (List.mem_of_getLast? hfront))
    exact ⟨[], by rw [hrest]; rfl, Or.inl rfl⟩

/-- What stands behind the end of a line among continuations is a continuation too. -/
theorem head?_eq_tab_of_splitContinuations {bytes front back : List UInt8}
    (h : (splitContinuations bytes).1 = front ++ back)
    (hfront : front = [] ∨ front.getLast? = some newline) (hback : back ≠ []) :
    back.head? = some tab := by
  induction bytes using splitContinuations.induct generalizing front with
  | case1 bytes htab ih =>
    rw [splitContinuations, dif_pos htab] at h
    rcases hfront with rfl | hlast
    · have hbytes : bytes ≠ [] := by
        rintro rfl
        exact absurd htab nofun
      obtain ⟨b, line, hline⟩ := List.exists_cons_of_ne_nil (splitLine_ne_nil hbytes)
      rw [← splitLine_append bytes, hline] at htab
      rw [hline] at h
      rw [← List.nil_append back, ← h]
      exact htab
    · obtain ⟨rest, hmore, hrest⟩ := exists_of_splitLine_append h hlast
      exact ih hmore hrest
  | case2 bytes htab =>
    rw [splitContinuations, dif_neg htab] at h
    exact absurd (List.append_eq_nil_iff.1 h.symm).2 hback

namespace Remainder

variable {size : Nat} {r next : Remainder} {chunk : List UInt8}

/-- No logical line ends between the opening of a chunk and its end. -/
theorem not_lineEnd_close {opening rest front back : List UInt8}
    (h : (close opening rest).1 = front ++ back) (hlong : opening.length ≤ front.length) :
    ¬ LineEnd front back := by
  intro ⟨hended, hmore, hheaded⟩
  simp only [close, List.append_assoc] at h
  obtain ⟨mid, rfl⟩ := List.prefix_of_prefix_length_le ⟨_, h⟩ (List.prefix_append front back) hlong
  rw [List.append_assoc, List.append_cancel_left_eq] at h
  -- A line ends at `mid`, which is what the front takes of the chunk behind its opening.
  have hmid := getLast?_append_cases hended
  split at h
  · exact hheaded (head?_eq_tab_of_splitContinuations h (hmid.imp_left And.left) hmore)
  · rename_i hopen
    replace hmid : mid.getLast? = some newline := hmid.resolve_left fun h => hopen h.2
    obtain ⟨more, hsplit, hlast⟩ := exists_of_splitLine_append h hmid
    exact hheaded (head?_eq_tab_of_splitContinuations hsplit hlast hmore)

/-! ## One chunk -/

/-- There is a chunk unless nothing remains. -/
theorem next?_eq_none_iff : r.next? size = none ↔ r.bytes = [] := by
  have htake : r.rest.take (max size 1) = [] ↔ r.rest = [] := by
    rw [List.take_eq_nil_iff, or_iff_right (by omega)]
  rw [next?, bytes, List.append_eq_nil_iff, ← htake, ← List.append_eq_nil_iff, ← opening]
  split <;> simp [*]

/-- The next chunk is the opening of the rest, closed at the end of a line. -/
theorem close_of_next? (h : r.next? size = some (chunk, next)) :
    close (r.opening size) (r.rest.drop (max size 1)) = (chunk, next) := by
  unfold next? at h
  split at h
  · exact absurd h nofun
  · exact Option.some.inj h

/-- No continuation remains at the front after a chunk. -/
theorem head?_of_next? (h : r.next? size = some (chunk, next)) : next.bytes.head? ≠ some tab := by
  have hhead := head?_bytes_close (r.opening size) (r.rest.drop (max size 1))
  rwa [close_of_next? h] at hhead

/-- A chunk ends with its line where something remains after it. -/
theorem getLast?_of_next? (h : r.next? size = some (chunk, next)) (hmore : next.bytes ≠ []) :
    chunk.getLast? = some newline := by
  have hlast := @getLast?_close (r.opening size) (r.rest.drop (max size 1))
  rw [close_of_next? h] at hlast
  exact hlast hmore

/-- A chunk starts with its opening. -/
theorem opening_prefix_of_next? (h : r.next? size = some (chunk, next)) :
    r.opening size <+: chunk := by
  have hchunk := congrArg Prod.fst (close_of_next? h)
  simp only [close, List.append_assoc] at hchunk
  exact ⟨_, hchunk⟩

/-- A chunk is long enough where something remains after it. -/
theorem le_length_of_next? (h : r.next? size = some (chunk, next)) (hmore : next.bytes ≠ []) :
    max size 1 ≤ chunk.length := by
  have hopening := (opening_prefix_of_next? h).length_le
  have hjoined := congrArg List.length (next?_append h)
  have hnext := List.length_pos_iff.2 hmore
  simp only [opening, bytes, List.length_append, List.length_take] at hopening hjoined hnext
  omega

/-- If a line was read ahead, it is the first one that remains. -/
def Ready (r : Remainder) : Prop := r.ahead = [] ∨ r.ahead = (splitLine r.bytes).1

theorem ready_ofContent (content : List UInt8) : (ofContent content).Ready := Or.inl rfl

/-- Behind a chunk only the next line may have been read ahead. -/
theorem ready_of_next? (h : r.next? size = some (chunk, next)) : next.Ready := by
  obtain rfl := congrArg Prod.snd (close_of_next? h)
  refine Or.inr ?_
  simp only [close, bytes, splitLine_append]

/-- A logical line that ends within a chunk ends before the chunk is `size` longer than its first
line. -/
theorem length_lt_of_lineEnd (hready : r.Ready) (h : r.next? size = some (chunk, next))
    {front back : List UInt8} (hchunk : chunk = front ++ back) (hend : LineEnd front back) :
    front.length < (splitLine front).1.length + max size 1 := by
  by_contra hlong
  have hahead : r.ahead.length ≤ (splitLine front).1.length := by
    rcases hready with hnone | hfirst
    · rw [hnone]
      exact Nat.zero_le _
    · rw [hfirst, ← next?_append h, hchunk, List.append_assoc,
        splitLine_append_fst (List.mem_of_getLast? hend.ended)]
  have hopening : (r.opening size).length ≤ front.length := by
    rw [opening, List.length_append, List.length_take]
    omega
  have hclose : (close (r.opening size) (r.rest.drop (max size 1))).1 = front ++ back := by
    rw [close_of_next? h, hchunk]
  exact not_lineEnd_close hclose hopening hend

/-! ## All chunks -/

/-- Without a next chunk there are no chunks. -/
theorem chunks_of_none (h : r.next? size = none) : r.chunks size = [] := by
  rw [chunks]
  split
  · rfl
  · rename_i hsome
    rw [h] at hsome
    cases hsome

/-- The chunks are the next one and those behind it. -/
theorem chunks_of_some (h : r.next? size = some (chunk, next)) :
    r.chunks size = chunk :: next.chunks size := by
  rw [chunks]
  split
  · rename_i hnone
    rw [h] at hnone
    cases hnone
  · rename_i hsome
    rw [h] at hsome
    cases hsome
    rfl

/-- Chunks that cut what remains after a chunk, and this chunk before them, cut what there was. -/
theorem cutsAtLines_cons (hready : r.Ready) (h : r.next? size = some (chunk, next))
    {others : List (List UInt8)} (hothers : CutsAtLines size next.bytes others) :
    CutsAtLines size r.bytes (chunk :: others) where
  joined := by rw [List.flatten_cons, hothers.joined, next?_append h]
  nonempty := List.forall_mem_cons.2 ⟨next?_ne_nil h, hothers.nonempty⟩
  ended := hothers.forall_dropLast_cons (getLast?_of_next? h) hothers.ended
  filled := hothers.forall_dropLast_cons (le_length_of_next? h) hothers.filled
  headed := hothers.headed_of_head? (head?_of_next? h)
  shortest := List.forall_mem_cons.2
    ⟨fun _ _ => length_lt_of_lineEnd hready h, hothers.shortest⟩
  lines := by rw [logicalLines_next? h, hothers.lines, List.flatMap_cons]

/-- The chunks cut what remains at ends of logical lines. -/
theorem cutsAtLines_chunks (size : Nat) (hready : r.Ready) :
    CutsAtLines size r.bytes (r.chunks size) := by
  induction r using chunks.induct size with
  | case1 r hnone =>
    rw [chunks_of_none hnone, next?_eq_none_iff.1 hnone]
    exact CutsAtLines.nil size
  | case2 r chunk next hsome ih =>
    rw [chunks_of_some hsome]
    exact cutsAtLines_cons hready hsome (ih (ready_of_next? hsome))

end Remainder

/-! ## Reading chunk by chunk -/

namespace ChunkReader

variable {r : ChunkReader}

/-- A reader at the end gives nothing and stays as it is. -/
theorem next_of_none (h : r.remainder.next? r.size = none) : r.next = (none, r) := by
  rw [next, h]

/-- A reader gives the next chunk and counts it. -/
theorem next_of_some {chunk : List UInt8} {remainder : Remainder}
    (h : r.remainder.next? r.size = some (chunk, remainder)) :
    r.next = (some chunk, { r with remainder, given := r.given + 1 }) := by
  rw [next, h]

/-- Every call gives the next one of the chunks that remain, as long as there is one, and counts
it. -/
theorem next_after (r : ChunkReader) (calls : Nat) :
    (r.after calls).next.1 = (r.remainder.chunks r.size)[calls]? ∧
      (r.after calls).given = r.given + min calls (r.remainder.chunks r.size).length := by
  induction calls generalizing r with
  | zero =>
    refine ⟨?_, by rw [Nat.zero_min]; rfl⟩
    cases h : r.remainder.next? r.size with
    | none => rw [after, next_of_none h, Remainder.chunks_of_none h, List.getElem?_nil]
    | some found => rw [after, next_of_some h, Remainder.chunks_of_some h, List.getElem?_cons_zero]
  | succ calls ih =>
    rw [after]
    cases h : r.remainder.next? r.size with
    | none =>
      obtain ⟨hgives, hcounts⟩ := ih r
      rw [Remainder.chunks_of_none h, List.length_nil, Nat.min_zero] at *
      rw [next_of_none h, hgives, hcounts]
      exact ⟨rfl, rfl⟩
    | some found =>
      obtain ⟨chunk, remainder⟩ := found
      obtain ⟨hgives, hcounts⟩ := ih { r with remainder, given := r.given + 1 }
      rw [next_of_some h, Remainder.chunks_of_some h, List.getElem?_cons_succ, List.length_cons,
        hgives, hcounts, Nat.add_min_add_right]
      exact ⟨rfl, Nat.succ_add_eq_add_succ _ _⟩

/-- Whatever a content holds and how large its chunks are to be, a reader gives the chunks of the
content one by one, and after the last one nothing any more; it counts those that it has given; and
the chunks are the content, cut at ends of logical lines. -/
theorem cuts_at_lines (size : Nat) (content : List UInt8) :
    CutsAtLines size content (chunks size content) ∧
    ∀ calls,
      ((ofContent size content).after calls).next.1 = (chunks size content)[calls]? ∧
      ((ofContent size content).after calls).given = min calls (chunks size content).length := by
  refine ⟨Remainder.cutsAtLines_chunks size (Remainder.ready_ofContent content), fun calls => ?_⟩
  have hread := next_after (ofContent size content) calls
  rwa [ofContent, Nat.zero_add, ← ofContent] at hread

/-- The line that is read ahead starts the second chunk, which still takes `size` bytes behind it. -/
example : chunks 1 [98, newline, tab, 99, newline, 100, newline, 101, newline] =
    [[98, newline, tab, 99, newline], [100, newline, 101, newline]] := by
  decide +kernel

end ChunkReader

end LogAudit.Ingest
