import LogAudit.Proofs.Ingest.Ledger
import LogAudit.Proofs.Ingest.SampleRatio

/-!
# Samples that are cut short

When a run is cancelled, the samples that are being taken are cut short. Such a sample tells
nothing: its file is not refused for it, and none of its lines is delivered either
(`Thread.Gated.moves`). So at any moment of a run, lines are delivered only of files that have
passed their whole samples, and a file is refused for one of the reasons that have nothing to do
with the cancellation (`Setup.Refuses`).
-/

namespace LogAudit.Ingest

/-! ## What a validator was given -/

/-- What the validator was asked, in the order of the events. -/
def validations (events : List Event) : List Event := events.filter (·.party == .validator)

/-- The lines that the validator was given, in the order of the events. -/
def validatedIn (events : List Event) : List String := (validations events).map Event.line

/-- A question to a sink is no validation. -/
theorem validations_ask_sink (b : Board) (a : Audience) (file sink : Nat) (line : String) :
    validations ((b.ask a file (.sink sink) line).2.eventsOf file) =
      validations (b.eventsOf file) := by
  rw [Board.eventsOf_ask, validations, List.filter_cons_of_neg (by simp), ← validations]

theorem answersIn_eq (events : List Event) :
    answersIn events = (validations events).map Event.stop? := rfl

/-- There is an answer to every line. -/
theorem length_answersIn (events : List Event) :
    (answersIn events).length = (validatedIn events).length := by
  rw [answersIn_eq, validatedIn, List.length_map, List.length_map]

/-- Workers leave the validator alone. -/
theorem Worker.validations_step {a : Audience} {file : Nat} {path : String} {d : Desk}
    (w : Worker) : validations ((w.step a file path d).2.board.eventsOf file) =
      validations (d.board.eventsOf file) := by
  have heffect := @effect_step a file path d w
  generalize (w.step a file path d).2.board = board at heffect ⊢
  cases heffect with
  | ask sink line => exact validations_ask_sink d.board a file sink line
  | breakOff sink line delivery => exact validations_ask_sink d.board a file sink line
  | _ => rfl

/-- Workers validate nothing. -/
theorem Task.validations_step {a : Audience} {file worker : Nat} {path : String} {t t' : Task}
    {d d' : Desk} (h : t.step a file path worker d = some (t', d')) :
    validations (d'.board.eventsOf file) = validations (d.board.eventsOf file) := by
  rcases step_cases h with ⟨-, rfl, -⟩ | ⟨w, -, -, -, rfl, -⟩
  · rfl
  · exact w.validations_step

/-! ## Whole samples -/

namespace Sampling

variable {s : Sampling} {answers : List (Option Stop)} {cancelled : Bool}

/-- A sample has no line to come because it is cut short, or because it is whole. -/
theorem look_error_cases {ended : SampleEnd} (h : s.look cancelled = .error ended) :
    ended = .cut ∧ cancelled = true ∨ ended = .finished ∧ s.look false = .error .finished := by
  unfold look at h ⊢
  split at h
  · rename_i hleft
    exact Or.inr ⟨(Except.error.inj h).symm, if_pos hleft⟩
  · rename_i hleft
    rw [if_neg hleft, if_neg (by simp)]
    split at h
    · exact Or.inl ⟨(Except.error.inj h).symm, ‹_›⟩
    · split at h
      · rename_i hrest
        exact Or.inr ⟨(Except.error.inj h).symm, if_pos hrest⟩
      · cases h

/-- The verdict on a sample is the one on the answers that it has counted. -/
theorem Counts.fault?_eq (h : s.Counts answers) (x : Setup) (path : String) :
    SampleEnd.finished.fault? path x.limits.validationFailurePercent s.sampled s.failed =
      x.gateFault? path answers := by
  rw [SampleEnd.fault?, Setup.gateFault?, h.unbroken, h.sampled, h.failed]

end Sampling

namespace Setup

variable (x : Setup) (path : String)

/-- The validator was given the whole sample of the content under a path. -/
structure Sampled (content : List UInt8) (events : List Event) : Prop where
  opened : x.open? path = .ok content
  lines : (validatedIn events).reverse = (sampleTexts content).take x.limits.validationSampleLines

/-- The file under a path has passed its whole sample. -/
def Passed (events : List Event) : Prop :=
  ∃ content, x.Sampled path content events ∧ x.gateFault? path (answersIn events) = none

/-- Why the file under a path is refused, where reading it may fail with some errors. -/
inductive Refuses (failed : Error → Prop) (events : List Event) : Error → Prop where
  /-- It cannot be opened or is too large. -/
  | opening {error : Error} (hopen : x.open? path = .error error) : Refuses failed events error
  /-- Too many lines of its whole sample were refused, or the sample has no lines. -/
  | sample {content : List UInt8} {error : Error} (hsampled : x.Sampled path content events)
    (hfault : x.gateFault? path (answersIn events) = some error) : Refuses failed events error
  /-- The validator broke off on a line of its sample. -/
  | broken {content : List UInt8} {payload : Payload} (hopen : x.open? path = .ok content)
    (hlines : (validatedIn events).reverse <+:
      (sampleTexts content).take x.limits.validationSampleLines)
    (hpayload : payloadIn? (answersIn events) = some payload) :
    Refuses failed events (.ofPayload payload)
  /-- Reading it failed. -/
  | reading {error : Error} (hfailed : failed error) : Refuses failed events error

variable {x} {path} {events events' : List Event}

/-- Only the validations of a sample matter to its end. -/
theorem Sampled.of_validations {content : List UInt8} (h : x.Sampled path content events)
    (hsame : validations events' = validations events) : x.Sampled path content events' :=
  ⟨h.opened, by rw [validatedIn, hsame, ← validatedIn, h.lines]⟩

/-- Only the validations of a sample matter to whether it passed. -/
theorem Passed.of_validations (h : x.Passed path events)
    (hsame : validations events' = validations events) : x.Passed path events' := by
  obtain ⟨content, hsampled, hfault⟩ := h
  exact ⟨content, hsampled.of_validations hsame, by rw [answersIn_eq, hsame]; exact hfault⟩

end Setup

namespace Thread

/-- No line is under way or was delivered. -/
def Unfed (t : Thread) (p : Page) : Prop := t.tasks = [] ∧ p.deliveries = []

/-- A sample of the file has been taken so far, and no line was delivered. -/
structure Taking (x : Setup) (t : Thread) (p : Page) (content : List UInt8) (s : Sampling) :
    Prop where
  opened : x.open? t.path = .ok content
  counts : s.Counts (answersIn p.events)
  reads : s.Reads x.limits.validationSampleLines content (validatedIn p.events).reverse
  unfed : t.Unfed p

section

variable (x : Setup) (failed : Error → Prop) (cancelled : Bool) (t : Thread) (p : Page)

/-- The work on the file has come to its end: the file has passed, or was left because the run is
cancelled or because it is empty; or else it was refused. -/
def Judged : Option Error → Prop
  | none => x.Passed t.path p.events ∨ t.Unfed p ∧ (cancelled = true ∨ x.open? t.path = .ok [])
  | some error => x.Refuses t.path failed p.events error ∧ (x.Passed t.path p.events ∨ t.Unfed p)

/-- What is established about the sample of the file at a stage. -/
def Gated : Prop :=
  match t.stage with
  | .opening => p.events = [] ∧ t.Unfed p
  | .sampling content s => t.Taking x p content s
  | .testing content s line => t.Taking x p content s ∧ ∃ flag, s.look flag = .ok line
  | .reading _ => x.Passed t.path p.events ∨ t.Unfed p ∧ cancelled = true
  | .waiting _ _ | .starting _ _ => x.Passed t.path p.events
  | .joining => t.Judged x failed cancelled p none
  | .failing error => t.Judged x failed cancelled p (some error)
  | .closing error => t.Judged x failed cancelled p error
  | .leaving | .ended => ∃ error, p.reports = [t.report error] ∧ t.Judged x failed cancelled p error

end

variable {x : Setup} {failed : Error → Prop} {cancelled : Bool} {file : Nat} {t t' : Thread}
  {p : Page} {b b' : Board} {happening : Happening}

/-- At the start no sample has been judged. -/
theorem gated_start (cancelled : Bool) (path : String) :
    (start path x.audience.sinks).Gated x failed cancelled .blank := ⟨rfl, rfl, rfl⟩

/-- A file that is judged stays judged when the run is cancelled. -/
theorem Judged.cancel {error : Option Error} (h : t.Judged x failed false p error) :
    t.Judged x failed true p error := by
  cases error with
  | none => exact h.imp_right fun hunfed => ⟨hunfed.1, Or.inl rfl⟩
  | some error => exact h

/-- What is established stays so when the run is cancelled. -/
theorem Gated.cancel (h : t.Gated x failed false p) : t.Gated x failed true p := by
  unfold Gated at h ⊢
  cases hat : t.stage with simp only [hat] at h ⊢
  | opening => exact h
  | sampling content s => exact h
  | testing content s line => exact h
  | reading r => exact h.imp_right fun hunfed => ⟨hunfed.1, trivial⟩
  | waiting chunk r => exact h
  | starting chunk r => exact h
  | joining => exact h.cancel
  | failing error => exact h
  | closing error => exact h.cancel
  | leaving | ended =>
    obtain ⟨error, hreports, hjudged⟩ := h
    exact ⟨error, hreports, hjudged.cancel⟩

/-- What comes after opening the file. -/
theorem gated_opened (hevents : p.events = []) (hunfed : t.Unfed p) :
    (t.go (opened x t.path)).Gated x failed cancelled p := by
  unfold opened
  cases hopen : x.open? t.path with
  | error error => exact ⟨.opening hopen, Or.inr hunfed⟩
  | ok content =>
    dsimp only
    split
    · rename_i hempty
      refine Or.inr ⟨hunfed, Or.inr ?_⟩
      rw [← List.isEmpty_iff.1 hempty]
      exact hopen
    · refine ⟨hopen, ?_, ?_, hunfed⟩
      · rw [hevents]
        exact ⟨rfl, rfl, rfl⟩
      · rw [hevents]
        exact ⟨Nat.zero_add _, rfl⟩

/-- What comes after a sample, be it whole or cut short. -/
theorem gated_sampled {content : List UInt8} {s : Sampling} {ended : SampleEnd}
    (h : t.Taking x p content s) (hlook : s.look cancelled = .error ended) :
    (t.go (sampled x t.path content s ended)).Gated x failed cancelled p := by
  unfold sampled
  rcases Sampling.look_error_cases hlook with ⟨rfl, hcancelled⟩ | ⟨rfl, hwhole⟩
  · exact Or.inr ⟨h.unfed, hcancelled⟩
  · have hsampled : x.Sampled t.path content p.events := ⟨h.opened, (h.reads.of_look hwhole).2⟩
    rw [h.counts.fault?_eq]
    cases hfault : x.gateFault? t.path (answersIn p.events) with
    | none => exact Or.inl ⟨content, hsampled, hfault⟩
    | some error => exact ⟨.sample hsampled hfault, Or.inr h.unfed⟩

/-- What comes of giving a line of the sample to the validator. -/
theorem Taking.test {content : List UInt8} {s : Sampling} {line : String} {flag : Bool}
    {result : Except Payload Sampling} (failed : Error → Prop)
    (h : t.Taking x (b.page file) content s) (hlook : s.look flag = .ok line)
    (htest : s.test x.audience file line b = (result, b')) :
    match result with
    | .ok s' => t.Taking x (b'.page file) content s'
    | .error payload =>
      x.Refuses t.path failed (b'.eventsOf file) (.ofPayload payload) ∧ t.Unfed (b'.page file) := by
  obtain ⟨stop?, -, hreply, hcases⟩ := Sampling.test_cases s x.audience file line b
  have hevents := b.eventsOf_ask x.audience file .validator line
  rw [b.ask_stop?, ← hreply] at hevents
  have hdeliveries : (b.ask x.audience file .validator line).2.deliveriesOf file =
      b.deliveriesOf file := rfl
  rw [htest] at hcases
  generalize (b.ask x.audience file .validator line).2 = board at hevents hdeliveries hcases
  have hanswers : answersIn (board.eventsOf file) = stop? :: answersIn (b.eventsOf file) := by
    rw [hevents]
    rfl
  have hlines : (validatedIn (board.eventsOf file)).reverse =
      (validatedIn (b.eventsOf file)).reverse ++ [line] := by
    rw [hevents]
    exact List.reverse_cons
  have hunfed : t.Unfed (board.page file) := ⟨h.unfed.1, hdeliveries.trans h.unfed.2⟩
  rcases stop? with _ | cause | payload
  · obtain ⟨rfl, rfl⟩ := Prod.mk.inj hcases
    exact ⟨h.opened, hanswers ▸ h.counts.accepted, hlines ▸ h.reads.take hlook false, hunfed⟩
  · obtain ⟨rfl, rfl⟩ := Prod.mk.inj hcases
    exact ⟨h.opened, hanswers ▸ h.counts.refused cause, hlines ▸ h.reads.take hlook true, hunfed⟩
  · obtain ⟨rfl, rfl⟩ := Prod.mk.inj hcases
    exact ⟨.broken h.opened (hlines ▸ h.reads.prefix_of_look hlook) (hanswers ▸ rfl), hunfed⟩

/-- The thread itself keeps to what is established about the sample. -/
theorem Gated.own (h : t.Gated x failed b.cancelled (b.page file)) {fault : Option Error}
    (htold : t.Told fault (b.reportsOf file)) (hown : t.own x file b = some (t', b')) :
    t'.Gated x failed b'.cancelled (b'.page file) := by
  unfold Gated at h
  cases turn_of_own hown with
  | openFile hat =>
    rw [hat] at h
    exact gated_opened h.1 h.2
  | judge hat hlook =>
    rw [hat] at h
    exact gated_sampled h hlook
  | look hat hlook =>
    rw [hat] at h
    exact ⟨⟨h.opened, h.counts, h.reads, h.unfed⟩, _, hlook⟩
  | test hat htest =>
    rw [hat] at h
    obtain ⟨htaking, flag, hlook⟩ := h
    have htested := htaking.test failed hlook htest
    exact ⟨htested.opened, htested.counts, htested.reads, htested.unfed⟩
  | breakOff hat htest =>
    rw [hat] at h
    obtain ⟨htaking, flag, hlook⟩ := h
    have htested := htaking.test failed hlook htest
    exact ⟨htested.1, Or.inr htested.2⟩
  | stop hat hcancelled =>
    rw [hat] at h
    exact h.imp_right fun hunfed => ⟨hunfed.1, Or.inl hcancelled⟩
  | fetch hat hcalm =>
    rw [hat] at h
    have hpassed := h.resolve_right fun hunfed => absurd (hcalm.symm.trans hunfed.2) nofun
    unfold fetched
    split
    · exact Or.inl hpassed
    · exact hpassed
  | pass hat | join hat | write hat | leave hat =>
    rw [hat] at h
    exact h
  | spawn hat =>
    rw [hat] at h
    exact Or.inl h
  | @report error hat =>
    rw [hat] at h
    rw [Told, hat] at htold
    have hreports : ((b.report file (t.report error)).page file).reports = [t.report error] := by
      rw [Board.page, Board.reportsOf_report, htold.1]
    exact ⟨error, hreports, h⟩

/-- There are tasks only when the file has passed. -/
theorem Gated.passed (h : t.Gated x failed cancelled p) (hdelivers : t.stage.delivers = true)
    (htasks : t.tasks ≠ []) : x.Passed t.path p.events := by
  unfold Gated at h
  cases hat : t.stage with simp only [hat] at h hdelivers
  | reading r => exact h.resolve_right fun hunfed => htasks hunfed.1.1
  | waiting chunk r => exact h
  | starting chunk r => exact h
  | joining => exact h.resolve_right fun hunfed => htasks hunfed.1.1
  | _ => cases hdelivers

/-- A file that has passed may be delivered. -/
theorem gated_of_passed (hdelivers : t.stage.delivers = true)
    (hpassed : x.Passed t.path p.events) : t.Gated x failed cancelled p := by
  unfold Gated
  cases hat : t.stage with
  | reading r => exact Or.inl hpassed
  | waiting chunk r => exact hpassed
  | starting chunk r => exact hpassed
  | joining => exact Or.inl hpassed
  | _ => simp [hat, Stage.delivers] at hdelivers

/-- A thread that cannot read its file keeps to what is established about the sample. -/
theorem Gated.suffer (h : t.Gated x failed b.cancelled (b.page file)) {mishap : Mishap}
    (hreading : (Incident.file file mishap).OfReading)
    (hfailed : ∀ error, mishap = .failure error → failed error)
    (hsuffer : t.suffer b mishap = some (t', b')) :
    t'.Gated x failed b'.cancelled (b'.page file) := by
  unfold Gated at h
  cases mishap with
  | failure error =>
    have hrefuses : ∀ events, x.Refuses t.path failed events error :=
      fun _ => .reading (hfailed error rfl)
    cases hat : t.stage with simp only [Thread.suffer, hat] at hsuffer h
    | opening =>
      obtain ⟨rfl, rfl⟩ := Prod.mk.inj (Option.some.inj hsuffer)
      exact ⟨hrefuses _, Or.inr h.2⟩
    | sampling content s =>
      obtain ⟨rfl, rfl⟩ := Prod.mk.inj (Option.some.inj hsuffer)
      exact ⟨hrefuses _, Or.inr h.unfed⟩
    | testing content s line =>
      obtain ⟨rfl, rfl⟩ := Prod.mk.inj (Option.some.inj hsuffer)
      exact ⟨hrefuses _, Or.inr h.1.unfed⟩
    | joining =>
      split at hsuffer
      · obtain ⟨rfl, rfl⟩ := Prod.mk.inj (Option.some.inj hsuffer)
        exact ⟨hrefuses _, h.imp_right And.left⟩
      · cases hsuffer
    | _ => cases hsuffer
  | cut =>
    cases hat : t.stage with simp only [Thread.suffer, hat] at hsuffer h
    | reading r =>
      obtain ⟨rfl, rfl⟩ := Prod.mk.inj (Option.some.inj hsuffer)
      exact h.imp_right fun hunfed => ⟨hunfed.1, Or.inl hunfed.2⟩
    | starting chunk r =>
      obtain ⟨rfl, rfl⟩ := Prod.mk.inj (Option.some.inj hsuffer)
      exact Or.inl h
    | _ => cases hsuffer
  | silence => exact absurd hreading id
  | worker task worker => exact absurd hreading id

/-- Whatever orderly happens in a thread keeps to what is established about the sample. -/
theorem Gated.moves (h : t.Gated x failed b.cancelled (b.page file)) (hsettled : t.Settled)
    {fault : Option Error} (htold : t.Told fault (b.reportsOf file))
    (hfailed : ∀ error, happening = .incident (.file file (.failure error)) → failed error)
    (hmoves : t.Moves x file b happening t' b') :
    t'.Gated x failed b'.cancelled (b'.page file) := by
  cases hmoves with
  | suffer hreading hsuffer =>
    exact h.suffer hreading (fun error herror => hfailed error (herror ▸ rfl)) hsuffer
  | step hstep =>
    rcases step_cases hstep with hown | ⟨task, worker, k, k', d, hk, hwork, rfl, rfl⟩ |
      ⟨task, k, hk, -, rfl, rfl⟩
    · exact h.own htold hown
    · have htasks := List.ne_nil_of_mem (List.mem_of_getElem? hk)
      have hdelivers := hsettled.resolve_right htasks
      have hpassed := h.passed hdelivers htasks
      exact gated_of_passed hdelivers (hpassed.of_validations (Task.validations_step hwork))
    · have htasks := List.ne_nil_of_mem (List.mem_of_getElem? hk)
      have hdelivers := hsettled.resolve_right htasks
      exact gated_of_passed hdelivers (h.passed hdelivers htasks)

end Thread

/-! ## Runs -/

namespace State

variable {x : Setup} {paths : List String} {s : State}

/-- Reading a file fails with an error in a history. -/
def FailsIn (history : List Happening) (file : Nat) (error : Error) : Prop :=
  .incident (.file file (.failure error)) ∈ history

/-- In a run what was established about the samples holds at any moment. -/
theorem gated_afterAll {cancelled : Bool} {history : List Happening}
    (horderly : ∀ happening ∈ history, happening.Orderly)
    (hafter : (start x cancelled paths).afterAll x history = some s) :
    s.Paged fun file t p => (∃ fault, t.Told fault p.reports) ∧
      t.Gated x (FailsIn history file) s.board.cancelled p := by
  let P (cancelled : Bool) (file : Nat) (t : Thread) (p : Page) : Prop :=
    (∃ fault, t.Told fault p.reports) ∧ t.Gated x (FailsIn history file) cancelled p
  refine @preserved_afterAll_of x (start x cancelled paths) s
    (fun happening => happening.Orderly ∧ happening ∈ history)
    (fun s => s.Paged (P s.board.cancelled)) ?_ (balanced_start cancelled paths)
    (paged_start cancelled) history (fun happening hmem => ⟨horderly happening hmem, hmem⟩) hafter
  intro s s' happening hhappening hbalanced _ hmeet h
  refine Paged.passes_of_flag
    (fun cancelled file path => ⟨⟨none, rfl, rfl⟩, Thread.gated_start _ _⟩)
    (fun h => ⟨h.1, h.2.cancel⟩) ?_ hbalanced (passes_meet hhappening.1 hmeet) h
  rintro file t t' b b' hsettled hmoves ⟨⟨fault, htold⟩, hgated⟩
  obtain ⟨fault', htells⟩ := htold.moves hsettled hmoves
  refine ⟨⟨fault', htells.told⟩, hgated.moves hsettled htold (fun error herror => ?_) hmoves⟩
  rw [FailsIn, ← herror]
  exact hhappening.2

end State

end LogAudit.Ingest
