import LogAudit.Proofs.Ingest.FileLines
import LogAudit.Proofs.Ingest.Threads
import Mathlib.Data.List.Forall2

/-!
# The ratio of a sample

A sample gives the first lines of a content to the validator, one after the other
(`Sampling.Asked.test`), and its verdict depends on which of them are refused and on nothing else
(`ratioFault?`): a file is refused if the share of the refused lines is greater than the percentage,
and rounding down to whole lines does not change that (`exceedsThreshold_iff`).
-/

namespace LogAudit.Ingest

open LogAudit.Text

/-! ## The lines of a sample -/

/-- The lines of a content without the newlines that end them. -/
def rawLines (content : List UInt8) : List (List UInt8) := endedBy newline content

/-- The lines of a content as a validator is given them: decoded, and without the carriage returns
at their ends. -/
def sampleTexts (content : List UInt8) : List String :=
  (rawLines content).map fun line => String.ofList (withoutReturns (Utf8.decodeLossy line))

theorem sampleTexts_nil : sampleTexts [] = [] := rfl

/-- The first line of a content is the one that a sample takes first. -/
theorem sampleTexts_of_ne_nil {content : List UInt8} (h : content ≠ []) :
    sampleTexts content =
      Sampling.lineText (splitLine content).1 :: sampleTexts (splitLine content).2 := by
  rcases splitLine_cases content with ⟨hnone, hsplit⟩ | ⟨front, back, hnone, rfl, hsplit⟩
  · rw [hsplit, Sampling.lineText_of_notMem hnone, sampleTexts, rawLines,
      endedBy_of_notMem hnone h]
    rfl
  · rw [hsplit, Sampling.lineText_concat, sampleTexts, rawLines, endedBy_append_cons hnone,
      List.map_cons]
    rfl

/-- Decoding the lines one by one gives the lines of the decoded content. -/
theorem sampleTexts_eq (content : List UInt8) :
    sampleTexts content = (fileLines content).map FileLine.text := by
  induction hlength : content.length using Nat.strong_induction_on generalizing content with
  | _ n ih =>
    subst hlength
    by_cases hempty : content = []
    · rw [hempty, sampleTexts_nil, fileLines_nil, List.map_nil]
    · obtain ⟨delivered?, hlines⟩ := fileLines_of_ne_nil hempty
      rw [sampleTexts_of_ne_nil hempty, hlines, List.map_cons,
        ih _ (length_splitLine hempty) _ rfl]

/-! ## Taking a sample -/

/-- The validator of an audience was asked about a line of a file. -/
structure Event.OfSample (a : Audience) (file : Nat) (e : Event) : Prop where
  file : e.file = file
  party : e.party = .validator
  replied : ∃ history, e.stop? = (a.reply history .validator e.line).stop?

namespace Sampling

/-- The lines that were taken so far are the first ones, and so many may follow. -/
structure Reads (s : Sampling) (count : Nat) (content : List UInt8) (lines : List String) :
    Prop where
  count : lines.length + s.left = count
  lines : sampleTexts content = lines ++ sampleTexts s.rest

/-- The validator was asked these questions since a board, the last one first, and the sample has
counted them. -/
structure Asked (a : Audience) (file count : Nat) (content : List UInt8) (before : Board)
    (asked : List Event) (s : Sampling) (b : Board) : Prop where
  events : b.events = asked ++ before.events
  ofSample : ∀ e ∈ asked, e.OfSample a file
  counts : s.Counts (asked.map Event.stop?)
  reads : s.Reads count content (asked.map Event.line).reverse

variable {a : Audience} {file count : Nat} {content : List UInt8} {before b b' : Board}
  {asked : List Event} {s s' : Sampling} {line : String} {lines : List String}

/-- At the start nothing has been asked. -/
theorem asked_start (b : Board) : Asked a file count content b [] (start count content) b :=
  ⟨rfl, nofun, ⟨rfl, rfl, rfl⟩, Nat.zero_add count, rfl⟩

/-- The line that is looked at is the first one that is left. -/
theorem sampleTexts_of_look {cancelled : Bool} (h : s.look cancelled = .ok line) :
    sampleTexts s.rest = line :: sampleTexts (splitLine s.rest).2 := by
  unfold look at h
  split at h
  · cases h
  · split at h
    · cases h
    · split at h
      · cases h
      · rename_i hrest
        obtain rfl := Except.ok.inj h
        exact sampleTexts_of_ne_nil fun hnil => hrest (List.isEmpty_iff.2 hnil)

/-- Taking the line that is looked at goes on with the lines. -/
theorem Reads.take (h : s.Reads count content lines) {cancelled : Bool}
    (hlook : s.look cancelled = .ok line) (failed : Bool) :
    (s.take failed).Reads count content (lines ++ [line]) where
  count := by
    have hleft := left_pos_of_look hlook
    have hcount := h.count
    simp only [Sampling.take, List.length_append, List.length_singleton]
    omega
  lines := by
    rw [h.lines, sampleTexts_of_look hlook, List.append_assoc]
    rfl

/-- When there is no line to come, those of the sample have been taken. -/
theorem Reads.of_look (h : s.Reads count content lines) {ended : SampleEnd}
    (hlook : s.look false = .error ended) :
    ended = .finished ∧ lines = (sampleTexts content).take count := by
  have hcount := h.count
  unfold look at hlook
  split at hlook
  · rename_i hleft
    refine ⟨(Except.error.inj hlook).symm, ?_⟩
    rw [h.lines, List.take_left' (by omega)]
  · rw [if_neg (by simp)] at hlook
    split at hlook
    · rename_i hrest
      refine ⟨(Except.error.inj hlook).symm, ?_⟩
      rw [h.lines, List.isEmpty_iff.1 hrest, sampleTexts_nil, List.append_nil,
        List.take_of_length_le (by omega)]
    · cases hlook

/-- What the validator is asked about the next line, and what comes of it. -/
theorem test_cases (s : Sampling) (a : Audience) (file : Nat) (line : String) (b : Board) :
    ∃ stop?, (b.ask a file .validator line).2.events =
        ⟨file, .validator, line, stop?⟩ :: b.events ∧
      stop? = (a.reply b.events .validator line).stop? ∧
      s.test a file line b = (match stop? with
        | none => (.ok (s.take false), (b.ask a file .validator line).2)
        | some (.refused _) => (.ok (s.take true), (b.ask a file .validator line).2)
        | some (.panicked payload) => (.error payload, (b.ask a file .validator line).2)) :=
  ⟨_, rfl, rfl, rfl⟩

/-- The validator is asked about the next line, and unless it breaks off, the sample has counted
that. -/
theorem Asked.test (h : Asked a file count content before asked s b) {cancelled : Bool}
    (hlook : s.look cancelled = .ok line) {result : Except Payload Sampling}
    (htest : s.test a file line b = (result, b')) :
    ∃ e : Event, e.line = line ∧ e.OfSample a file ∧ b'.events = e :: (asked ++ before.events) ∧
      match result with
      | .ok s' => Asked a file count content before (e :: asked) s' b'
      | .error payload => e.stop? = some (.panicked payload) := by
  obtain ⟨stop?, hevents, hreply, hcases⟩ := test_cases s a file line b
  let e : Event := ⟨file, .validator, line, stop?⟩
  have hsample : e.OfSample a file := ⟨rfl, rfl, _, hreply⟩
  rw [h.events] at hevents
  have hreads : ∀ failed : Bool,
      (s.take failed).Reads count content ((e :: asked).map Event.line).reverse := by
    intro failed
    rw [List.map_cons, List.reverse_cons]
    exact h.reads.take hlook failed
  have hasked : ∀ e' ∈ e :: asked, e'.OfSample a file :=
    List.forall_mem_cons.2 ⟨hsample, h.ofSample⟩
  refine ⟨e, rfl, hsample, ?_⟩
  rw [htest] at hcases
  rcases stop? with _ | cause | payload
  · obtain ⟨rfl, rfl⟩ := Prod.mk.inj hcases
    exact ⟨hevents, hevents, hasked, h.counts.accepted, hreads false⟩
  · obtain ⟨rfl, rfl⟩ := Prod.mk.inj hcases
    exact ⟨hevents, hevents, hasked, h.counts.refused cause, hreads true⟩
  · obtain ⟨rfl, rfl⟩ := Prod.mk.inj hcases
    exact ⟨hevents, rfl⟩

/-- How a sample ends that is not cancelled: with all its lines taken, or with a line on which the
validator broke off. -/
inductive Ends (a : Audience) (file count : Nat) (content : List UInt8) (before : Board)
    (asked : List Event) (s : Sampling) (b : Board) : SampleEnd → Prop where
  | finished (hasked : Asked a file count content before asked s b)
    (hlines : (asked.map Event.line).reverse = (sampleTexts content).take count) :
    Ends a file count content before asked s b .finished
  | broken {e : Event} {others : List Event} {payload : Payload} (hasked : asked = e :: others)
    (hevents : b.events = asked ++ before.events) (hsample : ∀ e ∈ asked, e.OfSample a file)
    (hpanicked : e.stop? = some (.panicked payload))
    (hlines : (asked.map Event.line).reverse <+: (sampleTexts content).take count) :
    Ends a file count content before asked s b (.broken payload)

/-- The lines up to the one that is looked at are among those of the sample. -/
theorem Reads.prefix_of_look (h : s.Reads count content lines) {cancelled : Bool}
    (hlook : s.look cancelled = .ok line) :
    lines ++ [line] <+: (sampleTexts content).take count := by
  have hleft := left_pos_of_look hlook
  have hcount := h.count
  rw [h.lines, sampleTexts_of_look hlook]
  refine List.prefix_take_iff.2 ⟨⟨sampleTexts (splitLine s.rest).2, ?_⟩, ?_⟩
  · rw [List.append_assoc, List.singleton_append]
  · rw [List.length_append, List.length_singleton]
    omega

/-- Taking a sample to its end ends it, unless the run is cancelled. -/
theorem Asked.finish (h : Asked a file count content before asked s b)
    (hcalm : (s.finish a file b).2.2.cancelled = false) :
    ∃ asked', Ends a file count content before asked' (s.finish a file b).1
      (s.finish a file b).2.2 (s.finish a file b).2.1 := by
  fun_induction Sampling.finish s a file b generalizing asked with
  | case1 s b ended hlook =>
    have hlook' : s.look false = .error ended := by rwa [← hcalm]
    obtain ⟨rfl, hlines⟩ := h.reads.of_look hlook'
    exact ⟨asked, .finished h hlines⟩
  | case2 s b line hlook s' b' htest ih =>
    obtain ⟨e, -, -, -, hasked⟩ := h.test hlook htest
    exact ih hasked hcalm
  | case3 s b line hlook payload b' htest =>
    obtain ⟨e, rfl, hsample, hevents, hpanicked⟩ := h.test hlook htest
    refine ⟨e :: asked, .broken rfl hevents (List.forall_mem_cons.2 ⟨hsample, h.ofSample⟩)
      hpanicked ?_⟩
    rw [List.map_cons, List.reverse_cons]
    exact h.reads.prefix_of_look hlook

end Sampling

/-! ## Calm validators -/

namespace Sampling

variable {v : Sink} {file : Nat} {line : String} {s : Sampling} {b b' : Board}

/-- A calm validator does not have the run cancelled. -/
theorem cancelled_test (hcalm : v.Calm) (hgoing : b.cancelled = false)
    {result : Except Payload Sampling} (htest : s.test (.ofSinks v []) file line b = (result, b')) :
    b'.cancelled = false := by
  have hasked : (b.ask (.ofSinks v []) file .validator line).2.cancelled = false := by
    simp [Board.ask, Audience.ofSinks, Sink.reply, hgoing, hcalm.keepsOn line]
  obtain ⟨stop?, -, -, hcases⟩ := test_cases s (.ofSinks v []) file line b
  rw [htest] at hcases
  rcases stop? with _ | _ | _ <;> obtain ⟨-, rfl⟩ := Prod.mk.inj hcases <;> exact hasked

/-- A calm validator cancels nothing. -/
theorem cancelled_finish (hcalm : v.Calm) (s : Sampling) (hgoing : b.cancelled = false) :
    (s.finish (.ofSinks v []) file b).2.2.cancelled = false := by
  fun_induction Sampling.finish s (.ofSinks v []) file b with
  | case1 s b ended hlook => exact hgoing
  | case2 s b line hlook s' b' htest ih => exact ih (cancelled_test hcalm hgoing htest)
  | case3 s b line hlook payload b' htest => exact cancelled_test hcalm hgoing htest

end Sampling

/-- What a calm validator answered to a line of a sample. -/
theorem Event.OfSample.stop?_eq {v : Sink} {file : Nat} {e : Event}
    (h : e.OfSample (.ofSinks v []) file) (hcalm : v.Calm) :
    e.stop?.isSome = !v.accepts e.line ∧ ∀ payload, e.stop? ≠ some (.panicked payload) := by
  obtain ⟨history, hreply⟩ := h.replied
  rw [hreply]
  simp only [Audience.ofSinks, Sink.reply, Sink.accepts]
  rcases hverdict : v.verdict e.line with (cause | payload) | _
  · exact ⟨rfl, by rintro payload ⟨⟩⟩
  · exact absurd hverdict (hcalm.unbroken e.line payload)
  · exact ⟨rfl, by rintro payload ⟨⟩⟩

/-- The sample that a calm validator is given. -/
theorem Sample.take_eq {v : Sink} (hcalm : v.Calm) (count : Nat) (content : List UInt8) :
    let taken := (fileLines content).take count
    (take v count false content).lines = taken.map FileLine.text ∧
    (take v count false content).failed = taken.countP (fun l => !v.accepts l.text) ∧
    (take v count false content).ended = .finished := by
  intro taken
  have hgoing := @Sampling.cancelled_finish v 0 (.start false 1 1) hcalm (.start count content) rfl
  obtain ⟨asked, hends⟩ := (@Sampling.asked_start (.ofSinks v []) 0 count content
    (.start false 1 1)).finish hgoing
  rw [take]
  generalize (Sampling.start count content).finish (.ofSinks v []) 0 (.start false 1 1) = result
    at hends
  obtain ⟨s, ended, b⟩ := result
  cases hends with
  | @broken e others payload hasked hevents hsample hpanicked hlines =>
    have hlast : e.OfSample (.ofSinks v []) 0 := hsample e (hasked ▸ List.mem_cons_self)
    exact absurd hpanicked ((hlast.stop?_eq hcalm).2 payload)
  | finished hasked hlines =>
    have htexts : (asked.map Event.line).reverse = taken.map FileLine.text := by
      rw [hlines, sampleTexts_eq, List.map_take]
    have hevents : b.events = asked := hasked.events.trans (List.append_nil asked)
    refine ⟨?_, ?_, rfl⟩
    · rw [← htexts, ← List.map_reverse, ← hevents]
    · calc s.failed = asked.countP (Option.isSome ∘ Event.stop?) := by
            rw [hasked.counts.failed, List.countP_map]
        _ = asked.countP ((!v.accepts ·) ∘ Event.line) :=
          List.countP_congr fun e he => by
            rw [Function.comp_apply, ((hasked.ofSample e he).stop?_eq hcalm).1]
            rfl
        _ = (taken.map FileLine.text).countP (!v.accepts ·) := by
            rw [← List.countP_map, ← List.countP_reverse, htexts]
        _ = taken.countP (fun l => !v.accepts l.text) := List.countP_map

/-! ## The verdict -/

/-- Rounding down to whole lines makes no difference. -/
theorem exceedsThreshold_iff (sampled failed percent : Nat) :
    exceedsThreshold sampled failed percent = true ↔ sampled * percent < 100 * failed := by
  rw [exceedsThreshold, decide_eq_true_iff, Nat.div_lt_iff_lt_mul (by decide), Nat.mul_comm failed]

/-- What is wrong with the file of a path, by which of the sampled lines were refused: there were
none, or the share of the refused ones is greater than the percentage. -/
def ratioFault? (path : String) (percent : Nat) (refused : List Bool) : Option Error :=
  if refused.length = 0 then some (.fileRejected path "no log lines found in the log file")
  else if refused.length * percent < 100 * refused.count true then
    some (.validationFailed path (refused.count true) refused.length)
  else none

/-- The fault of a sample is that of its ratio. -/
theorem sampleFault?_eq (path : String) (percent : Nat) (refused : List Bool) :
    sampleFault? path percent refused.length (refused.count true) =
      ratioFault? path percent refused := by
  simp only [sampleFault?, ratioFault?, exceedsThreshold_iff]

/-- The validation fails exactly if the refused share is above the limit. -/
theorem ratioFault?_eq_validationFailed_iff {path path' : String} {percent failed sampled : Nat}
    {refused : List Bool} :
    ratioFault? path percent refused = some (.validationFailed path' failed sampled) ↔
      path = path' ∧ refused.count true = failed ∧ refused.length = sampled ∧
        sampled * percent < 100 * failed := by
  have hcount : refused.count true ≤ refused.length := List.count_le_length
  unfold ratioFault?
  split
  · simp only [Option.some.injEq, reduceCtorEq, false_iff]
    rintro ⟨-, rfl, rfl, hless⟩
    omega
  · split
    · rename_i hless
      simp only [Option.some.injEq, Error.validationFailed.injEq]
      constructor
      · rintro ⟨rfl, rfl, rfl⟩
        exact ⟨rfl, rfl, rfl, hless⟩
      · rintro ⟨rfl, rfl, rfl, -⟩
        exact ⟨rfl, rfl, rfl⟩
    · rename_i hmany
      simp only [reduceCtorEq, false_iff]
      rintro ⟨-, rfl, rfl, hless⟩
      exact hmany hless

/-- Where more is refused, the count is no less. -/
theorem count_true_le {refused refused' : List Bool}
    (h : List.Forall₂ (fun r r' => r = true → r' = true) refused refused') :
    refused.count true ≤ refused'.count true := by
  induction h with
  | nil => exact Nat.le_refl _
  | @cons r r' refused refused' hr _ ih =>
    cases r with
    | false => exact Nat.le_trans (by simpa using ih) List.count_le_count_cons
    | true =>
      rw [hr rfl, List.count_cons_self, List.count_cons_self]
      exact Nat.succ_le_succ ih

/-- If more lines are refused, the file is refused all the more. -/
theorem ratioFault?_mono {path path' : String} {percent failed sampled : Nat}
    {refused refused' : List Bool}
    (hmore : List.Forall₂ (fun r r' => r = true → r' = true) refused refused')
    (h : ratioFault? path percent refused = some (.validationFailed path' failed sampled)) :
    ∃ failed', failed ≤ failed' ∧
      ratioFault? path percent refused' = some (.validationFailed path' failed' sampled) := by
  obtain ⟨rfl, rfl, rfl, hless⟩ := ratioFault?_eq_validationFailed_iff.1 h
  have hcount := count_true_le hmore
  refine ⟨refused'.count true, hcount, ratioFault?_eq_validationFailed_iff.2
    ⟨rfl, rfl, hmore.length_eq.symm, ?_⟩⟩
  omega

/-- With a percentage of at least 100 the file is not refused for its sample. -/
theorem ratioFault?_ne_validationFailed {path path' : String} {percent failed sampled : Nat}
    (h : 100 ≤ percent) (refused : List Bool) :
    ratioFault? path percent refused ≠ some (.validationFailed path' failed sampled) := by
  intro hfault
  obtain ⟨-, rfl, rfl, hless⟩ := ratioFault?_eq_validationFailed_iff.1 hfault
  have hcount : refused.count true ≤ refused.length := List.count_le_length
  have hmany := Nat.mul_le_mul hcount h
  omega

/-! ## Samples and their verdicts -/

/-- Which of the lines were refused. -/
def refusedIn (asked : List Event) : List Bool := asked.map fun e => e.stop?.isSome

/-- What a sample of so many lines of a content has told, by what the validator was asked, the first
question first. -/
structure Decided (count : Nat) (content : List UInt8) (asked : List Event) (s : Sampling) :
    Prop where
  lines : asked.map Event.line = (sampleTexts content).take count
  unbroken : ∀ e ∈ asked, ∀ payload, e.stop? ≠ some (.panicked payload)
  sampled : s.sampled = min count (rawLines content).length
  failed : s.failed = asked.countP fun e => e.stop?.isSome
  verdict : ∀ path percent, SampleEnd.finished.fault? path percent s.sampled s.failed =
    ratioFault? path percent (refusedIn asked)
  whole : ∀ path percent, 100 ≤ percent → ∀ path' failed sampled,
    SampleEnd.finished.fault? path percent s.sampled s.failed ≠
      some (.validationFailed path' failed sampled)

/-- A sample that did not break off has no answer that tells so. -/
theorem Sampling.Counts.ne_panicked {s : Sampling} {answers : List (Option Stop)}
    (h : s.Counts answers) {stop? : Option Stop} (hstop : stop? ∈ answers) (payload : Payload) :
    stop? ≠ some (.panicked payload) := by
  rintro rfl
  have hnone := List.findSome?_eq_none_iff.1 h.unbroken _ hstop
  cases hnone

/-- A sample is decided when all its lines were asked about. -/
theorem decided_of_asked {a : Audience} {file count : Nat} {content : List UInt8} {before b : Board}
    {asked : List Event} {s : Sampling}
    (h : Sampling.Asked a file count content before asked s b)
    (hlines : (asked.map Event.line).reverse = (sampleTexts content).take count) :
    Decided count content asked.reverse s := by
  have hsampled : s.sampled = asked.length := by rw [h.counts.sampled, List.length_map]
  have hfailed : s.failed = asked.countP fun e => e.stop?.isSome := by
    rw [h.counts.failed, List.countP_map]
    rfl
  have hlength : (refusedIn asked.reverse).length = s.sampled := by
    rw [refusedIn, List.length_map, List.length_reverse, hsampled]
  have hcount : (refusedIn asked.reverse).count true = s.failed := by
    rw [refusedIn, List.map_reverse, List.count_reverse, List.count, List.countP_map, hfailed]
    exact List.countP_congr fun e _ => by simp
  have hverdict : ∀ path percent, SampleEnd.finished.fault? path percent s.sampled s.failed =
      ratioFault? path percent (refusedIn asked.reverse) := by
    intro path percent
    rw [← sampleFault?_eq, hlength, hcount]
    rfl
  refine ⟨by rw [List.map_reverse, hlines], ?_, ?_, ?_, hverdict, ?_⟩
  · intro e he payload
    exact h.counts.ne_panicked (List.mem_map_of_mem (List.mem_reverse.1 he)) payload
  · have hmany := congrArg List.length hlines
    rw [List.length_reverse, List.length_map, List.length_take, sampleTexts, List.length_map]
      at hmany
    rw [hsampled, hmany]
  · rw [List.countP_reverse, hfailed]
  · intro path percent hpercent path' failed sampled
    rw [hverdict]
    exact ratioFault?_ne_validationFailed hpercent _

/-- A sample that is not cancelled ends with all questions asked. -/
theorem Sampling.ends_of_finish {a : Audience} {file count : Nat} {content : List UInt8}
    {b b' : Board} {s : Sampling} {ended : SampleEnd}
    (hfinish : (start count content).finish a file b = (s, ended, b'))
    (hcalm : b'.cancelled = false) : ∃ asked, Ends a file count content b asked s b' ended := by
  have hends := @Asked.finish a file count content b b [] _ (asked_start b)
  rw [hfinish] at hends
  exact hends hcalm

/-- A sample that is not cancelled gives the validator the first lines of the content, as many as
there are up to the size of the sample, once each and in order, unless the validator breaks off on
one of them. Its verdict is the one of the ratio, and a sample of which more lines are refused is
refused all the more. -/
theorem sample_decided {a : Audience} {file count : Nat} {content : List UInt8} {b b' : Board}
    {s : Sampling} {ended : SampleEnd}
    (hfinish : (Sampling.start count content).finish a file b = (s, ended, b'))
    (hcalm : b'.cancelled = false) :
    ∃ asked, b'.events = asked.reverse ++ b.events ∧ (∀ e ∈ asked, e.OfSample a file) ∧
      ((∃ payload, ended = .broken payload ∧
        (∃ e ∈ asked.getLast?, e.stop? = some (.panicked payload)) ∧
        asked.map Event.line <+: (sampleTexts content).take count) ∨
      ended = .finished ∧ Decided count content asked s ∧
        ∀ {a₂ file₂ b₂ s₂ b₂' asked₂},
          (Sampling.start count content).finish a₂ file₂ b₂ = (s₂, .finished, b₂') →
          b₂'.cancelled = false → b₂'.events = asked₂.reverse ++ b₂.events →
          List.Forall₂ (fun e e₂ => e.stop?.isSome = true → e₂.stop?.isSome = true) asked asked₂ →
          ∀ path percent failed sampled,
            SampleEnd.finished.fault? path percent s.sampled s.failed =
              some (.validationFailed path failed sampled) →
            ∃ failed₂, failed ≤ failed₂ ∧
              SampleEnd.finished.fault? path percent s₂.sampled s₂.failed =
                some (.validationFailed path failed₂ sampled)) := by
  obtain ⟨asked, hends⟩ := Sampling.ends_of_finish hfinish hcalm
  refine ⟨asked.reverse, ?_⟩
  rw [List.reverse_reverse]
  cases hends with
  | broken hasked hevents hsample hpanicked hlines =>
    refine ⟨hevents, fun e he => hsample e (List.mem_reverse.1 he),
      Or.inl ⟨_, rfl, ⟨_, ?_, hpanicked⟩, ?_⟩⟩
    · rw [hasked, List.reverse_cons, List.getLast?_concat]
      rfl
    · rwa [List.map_reverse]
  | finished hasked hlines =>
    have hdecided := decided_of_asked hasked hlines
    refine ⟨hasked.events, fun e he => hasked.ofSample e (List.mem_reverse.1 he),
      Or.inr ⟨rfl, hdecided, ?_⟩⟩
    intro a₂ file₂ b₂ s₂ b₂' asked₂ hfinish₂ hcalm₂ hevents₂ hmore path percent failed sampled
      hfault
    obtain ⟨asked', hends₂⟩ := Sampling.ends_of_finish hfinish₂ hcalm₂
    cases hends₂ with
    | finished hasked₂ hlines₂ =>
      have hsame : asked'.reverse = asked₂ :=
        List.reverse_eq_iff.2 (List.append_cancel_right (hasked₂.events.symm.trans hevents₂))
      rw [hdecided.verdict] at hfault
      rw [(decided_of_asked hasked₂ hlines₂).verdict, hsame]
      have hrefused : List.Forall₂ (fun r r' => r = true → r' = true) (refusedIn asked.reverse)
          (refusedIn asked₂) :=
        List.forall₂_map_left_iff.2 (List.forall₂_map_right_iff.2 hmore)
      exact ratioFault?_mono hrefused hfault

/-- A validator that refuses one line. -/
def refusingX : Sink :=
  ⟨fun line => if line = "x" then .error (.refused (.other line)) else .ok (), fun _ => false⟩

/-- Three lines, two of which are refused, one with a carriage return and one without a newline. -/
def mostlyX : List UInt8 := Utf8.encode "ok\nx\r\nx"

/-- Two of three lines are more than 66 percent, and less than 67. -/
theorem sample_decided_mostlyX :
    ∃ s b', (Sampling.start 10 mostlyX).finish (.ofSinks refusingX []) 0 (.start false 1 1) =
        (s, .finished, b') ∧ b'.cancelled = false ∧
      (∃ asked, b'.events = asked.reverse ∧ Decided 10 mostlyX asked s) ∧
      SampleEnd.finished.fault? "a.log" 66 s.sampled s.failed =
        some (.validationFailed "a.log" 2 3) ∧
      SampleEnd.finished.fault? "a.log" 67 s.sampled s.failed = none := by
  have hend : ((Sampling.start 10 mostlyX).finish (.ofSinks refusingX []) 0
      (.start false 1 1)).2.1 = .finished := by decide +kernel
  have hcalm : ((Sampling.start 10 mostlyX).finish (.ofSinks refusingX []) 0
      (.start false 1 1)).2.2.cancelled = false := by decide +kernel
  have hcounted : ((Sampling.start 10 mostlyX).finish (.ofSinks refusingX []) 0
      (.start false 1 1)).1 = ⟨7, [], 3, 2⟩ := by decide +kernel
  generalize hfinish : (Sampling.start 10 mostlyX).finish (.ofSinks refusingX []) 0
    (.start false 1 1) = result at hend hcalm hcounted
  obtain ⟨s, ended, b'⟩ := result
  obtain rfl : ended = .finished := hend
  obtain rfl : s = ⟨7, [], 3, 2⟩ := hcounted
  obtain ⟨asked, hevents, -, ⟨payload, hbroken, -⟩ | ⟨-, hdecided, -⟩⟩ :=
    sample_decided hfinish hcalm
  · cases hbroken
  · exact ⟨_, b', rfl, hcalm, ⟨asked, hevents.trans (List.append_nil _), hdecided⟩,
      by decide +kernel, by decide +kernel⟩

end LogAudit.Ingest
