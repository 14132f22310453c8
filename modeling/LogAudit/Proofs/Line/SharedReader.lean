import LogAudit.Line.SharedReader
import LogAudit.Proofs.Line.TimeStyle

/-!
# What threads get from a shared reader

Whatever turns the threads of a shared reader take, and whenever the shared style becomes another
one, the answers of a thread are the records of its lines (`SharedReader.answers_after`). A thread
owes its first line a record, and has missed a timestamp in a style only if the style does not read
it (`ReaderThread.Reads`); each turn keeps this and brings the thread closer to its last answer.
-/

namespace LogAudit.Line

open LogAudit.Text LogAudit.Time

namespace Template

variable {t : Template} {line : String}

/-- A line is read by what is found in it. -/
theorem read_eq_find (t : Template) (style : ZoneStyle) (line : String) :
    t.read style line = match t.find line with
      | .refused cause => (.error cause, style)
      | .timeless captures => (.ok ⟨t, captures, none⟩, style)
      | .timed captures text =>
        (t.dated captures text (readTime style text).1, (readTime style text).2) := by
  unfold read find
  split
  · rfl
  · cases t.pattern.search line.toList with
    | none => rfl
    | some captures =>
      dsimp only
      rcases (t.group? .time).bind captures.text? with _ | _ | ⟨c, text⟩
      · rfl
      · rfl
      · dsimp only
        rcases readTime style (c :: text) with ⟨_ | time, style'⟩ <;> rfl

/-- The record of a line with a timestamp, read in any style first. -/
theorem record_of_timed {captures : Captures} {text : List Char}
    (h : t.find line = .timed captures text) (style : ZoneStyle) :
    t.record line = t.dated captures text (readTime style text).1 := by
  rw [← t.read_fst style line, read_eq_find, h]

/-- Lines that are read one after the other give their records, whatever style is tried first. -/
theorem readAll_fst (t : Template) (style : ZoneStyle) (lines : List String) :
    (t.readAll style lines).map Prod.fst = lines.map t.record := by
  induction lines generalizing style with
  | nil => rfl
  | cons line lines ih => rw [readAll, List.map_cons, List.map_cons, ih, t.read_fst]

end Template

/-- A stage concerns the first of some lines. -/
def Stage.Concerns (t : Template) : Stage → List String → Prop
  | .idle, _ => True
  | .found captures text, lines =>
    ∃ line rest, lines = line :: rest ∧ t.find line = .timed captures text
  | .missed captures text style, lines =>
    ∃ line rest, lines = line :: rest ∧ t.find line = .timed captures text ∧
      style.parse text = none

/-- The turns that a thread has taken for its first line. -/
def Stage.turns : Stage → Nat
  | .idle => 0
  | .found _ _ => 1
  | .missed _ _ _ => 2

theorem Stage.turns_le (stage : Stage) : stage.turns ≤ 2 := by
  cases stage <;> simp [Stage.turns]

namespace ReaderThread

variable {t : Template} {style : ZoneStyle} {lines : List String} {x : ReaderThread}

/-- A thread reads its lines: it has given some of them their records, and owes the others
theirs. -/
structure Reads (t : Template) (lines : List String) (x : ReaderThread) : Prop where
  told : x.answers ++ x.lines.map t.record = lines.map t.record
  stage : x.stage.Concerns t x.lines

theorem reads_start (t : Template) (lines : List String) : Reads t lines ⟨lines, .idle, []⟩ :=
  ⟨rfl, trivial⟩

/-- The first line may be answered with its record. -/
theorem Reads.answer {line : String} {rest : List String} {answer : Except LineError Record}
    (h : Reads t lines x) (hlines : x.lines = line :: rest) (hrecord : t.record line = answer) :
    Reads t lines (x.answer answer) := by
  refine ⟨?_, trivial⟩
  have htold := h.told
  rw [hlines, List.map_cons, hrecord] at htold
  rw [ReaderThread.answer, hlines, List.tail_cons, List.append_assoc, List.singleton_append, htold]

/-- A turn keeps what a thread reads. -/
theorem Reads.step (h : Reads t lines x) (style : ZoneStyle) :
    Reads t lines (x.step t style).1 := by
  have hstage := h.stage
  unfold ReaderThread.step
  cases hx : x.stage with
  | idle =>
    cases hlines : x.lines with
    | nil => exact h
    | cons line rest =>
      have hread : t.record line = (t.read .numeric line).1 := rfl
      rw [Template.read_eq_find] at hread
      simp only
      cases hfind : t.find line with
      | refused cause => exact h.answer hlines (by rw [hread, hfind])
      | timeless captures => exact h.answer hlines (by rw [hread, hfind])
      | timed captures text => exact ⟨hlines ▸ h.told, line, rest, rfl, hfind⟩
  | found captures text =>
    rw [hx] at hstage
    obtain ⟨line, rest, hlines, hfind⟩ := hstage
    simp only
    cases htime : style.parse text with
    | some time =>
      exact h.answer hlines (by rw [Template.record_of_timed hfind style, readTime, htime])
    | none => exact ⟨h.told, line, rest, hlines, hfind, htime⟩
  | missed captures text tried =>
    rw [hx] at hstage
    obtain ⟨line, rest, hlines, hfind, htime⟩ := hstage
    -- the style that failed is the thread's own: what is shared by now does not matter
    exact h.answer hlines (by rw [Template.record_of_timed hfind tried, readTime, htime])

/-- The turns that a thread needs at most for all its answers. -/
def effort (x : ReaderThread) : Nat := 3 * x.lines.length - x.stage.turns

/-- A turn lowers the effort, if there is any left. -/
theorem Reads.effort_step (h : Reads t lines x) (style : ZoneStyle) :
    (x.step t style).1.effort ≤ x.effort - 1 := by
  have hstage := h.stage
  have hanswer : ∀ (line : String) (rest : List String) (answer : Except LineError Record),
      x.lines = line :: rest → (x.answer answer).effort ≤ x.effort - 1 := by
    intro line rest answer hlines
    have hturns := x.stage.turns_le
    have hidle : Stage.idle.turns = 0 := rfl
    simp only [effort, ReaderThread.answer, hlines, List.tail_cons, List.length_cons]
    omega
  unfold ReaderThread.step
  cases hx : x.stage with
  | idle =>
    cases hlines : x.lines with
    | nil => simp [effort, hlines]
    | cons line rest =>
      simp only
      cases hfind : t.find line with
      | refused cause => exact hanswer line rest _ hlines
      | timeless captures => exact hanswer line rest _ hlines
      | timed captures text => simp [effort, hx, hlines, Stage.turns]
  | found captures text =>
    rw [hx] at hstage
    obtain ⟨line, rest, hlines, -⟩ := hstage
    simp only
    cases style.parse text with
    | some time => exact hanswer line rest _ hlines
    | none => simp only [effort, hx, hlines, Stage.turns]; omega
  | missed captures text tried =>
    rw [hx] at hstage
    obtain ⟨line, rest, hlines, -⟩ := hstage
    exact hanswer line rest _ hlines

/-- The answers of a thread are the records of its lines as far as it has come, and of all of them
if no effort is left. -/
theorem Reads.answers_eq (h : Reads t lines x) :
    x.answers = (lines.take x.answers.length).map t.record ∧
      (x.effort = 0 → x.answers = lines.map t.record) := by
  have htold := h.told
  constructor
  · rw [List.map_take, ← htold, List.take_left]
  · intro heffort
    have hturns := x.stage.turns_le
    have hlines : x.lines = [] := by
      rw [← List.length_eq_zero_iff]
      rw [effort] at heffort
      omega
    rw [← htold, hlines, List.map_nil, List.append_nil]

end ReaderThread

namespace SharedReader

variable {x : SharedReader} {number : Nat} {lines : List String}

@[simp]
theorem take_template (x : SharedReader) (turn : Turn) : (x.take turn).template = x.template := by
  cases turn with
  | thread number => rw [take]; split <;> rfl
  | becomes style => rfl

/-- A thread takes its turn. -/
theorem take_thread {thread : ReaderThread} (h : x.threads[number]? = some thread) :
    x.take (.thread number) =
      { x with
        style := (thread.step x.template x.style).2
        threads := x.threads.set number (thread.step x.template x.style).1 } := by
  rw [take, h]

/-- A turn gives a thread its step if it is the turn of that thread, and leaves it alone if not. -/
theorem take_threads {thread : ReaderThread} (h : x.threads[number]? = some thread) (turn : Turn) :
    (x.take turn).threads[number]? =
      some (if turn = .thread number then (thread.step x.template x.style).1 else thread) := by
  cases turn with
  | becomes style => exact h
  | thread other =>
    by_cases hsame : other = number
    · subst hsame
      have hlt : other < x.threads.length := (List.getElem?_eq_some_iff.1 h).1
      rw [if_pos rfl, take_thread h]
      exact List.getElem?_set_self hlt
    · have hturn : Turn.thread other ≠ .thread number := fun h => hsame (Turn.thread.inj h)
      rw [if_neg hturn, take]
      split
      · exact (List.getElem?_set_ne hsame).trans h
      · exact h

/-- Some turns keep what a thread reads, and its own ones lower its effort. -/
theorem reads_after {thread : ReaderThread} (hthread : x.threads[number]? = some thread)
    (hreads : thread.Reads x.template lines) (turns : List Turn) :
    ∃ thread', (x.after turns).threads[number]? = some thread' ∧
      thread'.Reads x.template lines ∧
      thread'.effort ≤ thread.effort - turns.count (.thread number) := by
  induction turns generalizing x thread with
  | nil => exact ⟨thread, hthread, hreads, Nat.le_refl _⟩
  | cons turn turns ih =>
    have hnext := take_threads hthread turn
    by_cases hturn : turn = .thread number
    · rw [if_pos hturn] at hnext
      obtain ⟨thread', hthread', hreads', heffort⟩ :=
        ih hnext (by rw [take_template]; exact hreads.step x.style)
      have hstep := hreads.effort_step x.style
      rw [take_template] at hreads'
      rw [hturn, List.count_cons_self]
      exact ⟨thread', hturn ▸ hthread', hreads', by omega⟩
    · rw [if_neg hturn] at hnext
      obtain ⟨thread', hthread', hreads', heffort⟩ := ih hnext (by rwa [take_template])
      rw [take_template] at hreads'
      rw [List.count_cons_of_ne hturn]
      exact ⟨thread', hthread', hreads', heffort⟩

/-- Whatever happens, the answers of a thread are the records of its lines as far as it has come;
three turns for each line are enough for all of them. -/
theorem answers_after (t : Template) (style : ZoneStyle) (work : List (List String))
    (turns : List Turn) (hwork : work[number]? = some lines) :
    ∃ thread, ((start t style work).after turns).threads[number]? = some thread ∧
      thread.answers = (lines.take thread.answers.length).map t.record ∧
      (3 * lines.length ≤ turns.count (.thread number) →
        thread.answers = lines.map t.record) := by
  have hthread : (start t style work).threads[number]? = some ⟨lines, .idle, []⟩ := by
    rw [start, List.getElem?_map, hwork, Option.map_some]
  obtain ⟨thread, hafter, hreads, heffort⟩ :=
    reads_after hthread (ReaderThread.reads_start t lines) turns
  obtain ⟨hsome, hall⟩ := hreads.answers_eq
  refine ⟨thread, hafter, hsome, fun henough => hall ?_⟩
  have hstart : ReaderThread.effort ⟨lines, .idle, []⟩ = 3 * lines.length := rfl
  omega

/-- A thread that is not interrupted does what `Template.read` says. -/
theorem after_uninterrupted {line : String} {answers : List (Except LineError Record)}
    (hthread : x.threads[number]? = some ⟨line :: lines, .idle, answers⟩) :
    ∃ count, 1 ≤ count ∧ count ≤ 3 ∧ x.after (List.replicate count (.thread number)) =
      { x with
        style := (x.template.read x.style line).2
        threads := x.threads.set number
          ⟨lines, .idle, answers ++ [(x.template.read x.style line).1]⟩ } := by
  have hlt : number < x.threads.length := (List.getElem?_eq_some_iff.1 hthread).1
  have hset : ∀ style thread, (SharedReader.mk x.template style
      (x.threads.set number thread)).threads[number]? = some thread :=
    fun _ _ => List.getElem?_set_self hlt
  rw [Template.read_eq_find]
  cases hfind : x.template.find line with
  | refused cause =>
    refine ⟨1, by decide, by decide, ?_⟩
    rw [List.replicate_one, after, List.foldl_cons, List.foldl_nil, take_thread hthread]
    simp only [ReaderThread.step, hfind, ReaderThread.answer, List.tail_cons]
  | timeless captures =>
    refine ⟨1, by decide, by decide, ?_⟩
    rw [List.replicate_one, after, List.foldl_cons, List.foldl_nil, take_thread hthread]
    simp only [ReaderThread.step, hfind, ReaderThread.answer, List.tail_cons]
  | timed captures text =>
    have hfound : x.take (.thread number) =
        ⟨x.template, x.style,
          x.threads.set number ⟨line :: lines, .found captures text, answers⟩⟩ := by
      rw [take_thread hthread]
      simp only [ReaderThread.step, hfind]
    cases htime : x.style.parse text with
    | some time =>
      refine ⟨2, by decide, by decide, ?_⟩
      rw [List.replicate_succ, List.replicate_one, after, List.foldl_cons, List.foldl_cons,
        List.foldl_nil, hfound, take_thread (hset _ _)]
      simp only [ReaderThread.step, htime, ReaderThread.answer, List.tail_cons, List.set_set,
        readTime]
    | none =>
      refine ⟨3, by decide, by decide, ?_⟩
      have hmissed : take ⟨x.template, x.style,
          x.threads.set number ⟨line :: lines, .found captures text, answers⟩⟩ (.thread number) =
          ⟨x.template, x.style,
            x.threads.set number ⟨line :: lines, .missed captures text x.style, answers⟩⟩ := by
        rw [take_thread (hset _ _)]
        simp only [ReaderThread.step, htime, List.set_set]
      rw [List.replicate_succ, List.replicate_succ, List.replicate_one, after, List.foldl_cons,
        List.foldl_cons, List.foldl_cons, List.foldl_nil, hfound, hmissed,
        take_thread (hset _ _)]
      simp only [ReaderThread.step, ReaderThread.answer, List.tail_cons, List.set_set, readTime,
        htime]

end SharedReader

end LogAudit.Line
