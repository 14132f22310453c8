/-!
# Chunks of a file

A file is read in chunks of about a given size. A chunk goes on to the end of the line that the size
falls into and takes the continuation lines that follow, so that no message is cut in two; the line
after it is read ahead and starts the next chunk. Reading loses nothing (`next?_append`) and comes
to an end because no chunk is empty (`next?_ne_nil`). A `ChunkReader` gives the chunks one by one.
-/

namespace LogAudit.Ingest

/-- The byte that ends a line. -/
def newline : UInt8 := 10

/-- The byte that starts a continuation line. -/
def tab : UInt8 := 9

/-- The first line with its end, and what comes after it. -/
def splitLine : List UInt8 → List UInt8 × List UInt8
  | [] => ([], [])
  | b :: bytes =>
    if b = newline then ([b], bytes) else (b :: (splitLine bytes).1, (splitLine bytes).2)

/-- Splitting loses nothing. -/
theorem splitLine_append (bytes : List UInt8) :
    (splitLine bytes).1 ++ (splitLine bytes).2 = bytes := by
  fun_induction splitLine bytes <;> simp_all

/-- There is a first line unless there is nothing. -/
theorem splitLine_ne_nil {bytes : List UInt8} (h : bytes ≠ []) : (splitLine bytes).1 ≠ [] := by
  cases bytes with
  | nil => exact absurd rfl h
  | cons b bytes => unfold splitLine; split <;> simp

/-- The rest after the first line is shorter. -/
theorem length_splitLine {bytes : List UInt8} (h : bytes ≠ []) :
    (splitLine bytes).2.length < bytes.length := by
  have joined := congrArg List.length (splitLine_append bytes)
  have line := List.length_pos_iff.mpr (splitLine_ne_nil h)
  simp at joined
  omega

/-- The continuation lines at the front, and what comes after them. -/
def splitContinuations (bytes : List UInt8) : List UInt8 × List UInt8 :=
  if _h : bytes.head? = some tab then
    let others := splitContinuations (splitLine bytes).2
    ((splitLine bytes).1 ++ others.1, others.2)
  else ([], bytes)
termination_by bytes.length
decreasing_by exact length_splitLine (by rintro rfl; simp at _h)

/-- Splitting off continuation lines loses nothing. -/
theorem splitContinuations_append (bytes : List UInt8) :
    (splitContinuations bytes).1 ++ (splitContinuations bytes).2 = bytes := by
  fun_induction splitContinuations bytes with
  | case1 bytes h others ih => simp_all [List.append_assoc, splitLine_append, others]
  | case2 => rfl

/-- What is still to be read: a line that was read ahead, and the rest. -/
structure Remainder where
  ahead : List UInt8
  rest : List UInt8
  deriving DecidableEq, Repr

namespace Remainder

/-- All of a file. -/
def ofContent (content : List UInt8) : Remainder := ⟨[], content⟩

/-- The bytes that are still to be read. -/
def bytes (r : Remainder) : List UInt8 := r.ahead ++ r.rest

/-- The bytes that a chunk takes whatever its lines are: the line read ahead and `size` more. -/
def opening (size : Nat) (r : Remainder) : List UInt8 := r.ahead ++ r.rest.take (max size 1)

/-- Complete the line at the end of an opening, take the continuation lines, and read a line
ahead. -/
def close (opening rest : List UInt8) : List UInt8 × Remainder :=
  let line := if opening.getLast? = some newline then ([], rest) else splitLine rest
  let tail := splitContinuations line.2
  let ahead := splitLine tail.2
  (opening ++ line.1 ++ tail.1, ⟨ahead.1, ahead.2⟩)

/-- The next chunk, if there is one, and what remains after it. -/
def next? (size : Nat) (r : Remainder) : Option (List UInt8 × Remainder) :=
  if r.opening size = [] then none
  else some (close (r.opening size) (r.rest.drop (max size 1)))

/-- Closing a chunk loses nothing. -/
theorem close_append (opening rest : List UInt8) :
    (close opening rest).1 ++ (close opening rest).2.bytes = opening ++ rest := by
  simp only [close, bytes, splitLine_append]
  split <;> simp [List.append_assoc, splitContinuations_append, splitLine_append]

/-- A chunk and what remains after it are what there was to read. -/
theorem next?_append {size : Nat} {r next : Remainder} {chunk : List UInt8}
    (h : r.next? size = some (chunk, next)) : chunk ++ next.bytes = r.bytes := by
  unfold next? at h
  split at h
  · simp at h
  · have joined := close_append (r.opening size) (r.rest.drop (max size 1))
    rw [Option.some.inj h] at joined
    simpa [opening, bytes, List.append_assoc] using joined

/-- No chunk is empty. -/
theorem next?_ne_nil {size : Nat} {r next : Remainder} {chunk : List UInt8}
    (h : r.next? size = some (chunk, next)) : chunk ≠ [] := by
  unfold next? at h
  split at h
  · simp at h
  · rename_i start
    have first := congrArg Prod.fst (Option.some.inj h)
    simp only [close] at first
    rw [← first]
    simp [start]

/-- The chunks, in order. -/
def chunks (size : Nat) (r : Remainder) : List (List UInt8) :=
  match _taken : r.next? size with
  | none => []
  | some (chunk, next) => chunk :: chunks size next
termination_by r.bytes.length
decreasing_by
  have joined := congrArg List.length (next?_append _taken)
  have chunk := List.length_pos_iff.mpr (next?_ne_nil _taken)
  simp at joined
  omega

end Remainder

/-- The chunks of a file. -/
def chunks (size : Nat) (content : List UInt8) : List (List UInt8) :=
  (Remainder.ofContent content).chunks size

/-- A reader of chunks: their size, what is still to be read, and how many chunks it has given. -/
structure ChunkReader where
  size : Nat
  remainder : Remainder
  given : Nat
  deriving DecidableEq, Repr

namespace ChunkReader

/-- The reader of a content before its first chunk. -/
def ofContent (size : Nat) (content : List UInt8) : ChunkReader := ⟨size, .ofContent content, 0⟩

/-- Read the next chunk, if there is one, and count it. -/
def next (r : ChunkReader) : Option (List UInt8) × ChunkReader :=
  match r.remainder.next? r.size with
  | none => (none, r)
  | some (chunk, remainder) => (some chunk, { r with remainder, given := r.given + 1 })

/-- The reader after so many calls of `next`. -/
def after (r : ChunkReader) : Nat → ChunkReader
  | 0 => r
  | calls + 1 => r.next.2.after calls

end ChunkReader

end LogAudit.Ingest
