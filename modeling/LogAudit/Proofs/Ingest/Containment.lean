import LogAudit.Proofs.Ingest.Agreement
import LogAudit.Proofs.Ingest.Completion
import LogAudit.Proofs.Ingest.CutSamples
import LogAudit.Proofs.Ingest.Dispatch
import Mathlib.Algebra.Order.BigOperators.Group.List

/-!
# Cancelled runs within others

A run is compared with one over the same files that nobody cancels, be it that the parties of the
first one cancel it or somebody else does (`Setup.Uncancelled`). Whatever order the threads of the
two runs take their steps in, each sink is given no more by the first run than by the second one, as
long as the validator answers alike in both (`State.fed_subperm`).
-/

namespace LogAudit.Ingest

namespace Audience

/-- The same parties, none of which has the run cancelled. -/
def heedless (a : Audience) : Audience where
  sinks := a.sinks
  reply events party line := { a.reply events party line with cancels := false }

/-- What the validator answers depends on the line only. -/
def ByLine (a : Audience) (verdict : String → Option Stop) : Prop :=
  ∀ events line, (a.reply events .validator line).stop? = verdict line

/-- An audience that always gives an answer still does when it is not heeded. -/
theorem Steady.heedless {a : Audience} (h : a.Steady) : a.heedless.Steady :=
  fun events sink line payload => h events sink line payload

/-- An audience that answers by the line still does when it is not heeded. -/
theorem ByLine.heedless {a : Audience} {verdict : String → Option Stop} (h : a.ByLine verdict) :
    a.heedless.ByLine verdict := fun events line => h events line

end Audience

/-- The same setup with parties that do not have the run cancelled. -/
def Setup.heedless (x : Setup) : Setup := { x with audience := x.audience.heedless }

/-- A run over files that is over, that nobody has cancelled, and in which no reading fails. -/
structure Setup.Uncancelled (x : Setup) (paths : List String) (s : State) : Prop where
  run : ∃ schedule,
    (State.start x.heedless false paths).after x.heedless schedule = some s
  finished : s.finished = true
  calm : s.board.cancelled = false

/-! ## Runs that nobody cancels -/

/-- A question to an audience that is not heeded cancels nothing. -/
theorem Board.cancelled_ask_heedless (b : Board) (a : Audience) (file : Nat) (party : Party)
    (line : String) : (b.ask a.heedless file party line).2.cancelled = b.cancelled :=
  Bool.or_false b.cancelled

/-- No step of a thread cancels a run whose parties do not. -/
theorem Thread.cancelled_step_heedless {x : Setup} {file : Nat} {t t' : Thread} {b b' : Board}
    {m : Move} (h : t.step x.heedless file b m = some (t', b')) : b'.cancelled = b.cancelled := by
  rcases step_cases h with hown | ⟨task, worker, k, k', d, -, hwork, -, rfl⟩ |
    ⟨task, k, -, -, -, rfl⟩
  · rcases own_cases hown with ⟨stage, -, heffect⟩ | ⟨chunk, r, -, rfl⟩
    · cases heffect with
      | ask line => exact b.cancelled_ask_heedless x.audience file .validator line
      | _ => rfl
    · rfl
  · rcases Task.step_cases hwork with ⟨-, rfl, -⟩ | ⟨w, -, -, -, rfl, -⟩
    · rfl
    · have heffect := @Worker.effect_step x.heedless.audience file t.path ⟨b, t.tally⟩ w
      generalize (w.step x.heedless.audience file t.path ⟨b, t.tally⟩).2.board = board at heffect ⊢
      cases heffect with
      | ask sink line => exact b.cancelled_ask_heedless x.audience file (.sink sink) line
      | breakOff sink line delivery =>
        exact b.cancelled_ask_heedless x.audience file (.sink sink) line
      | _ => rfl
  · rfl

namespace State

variable {x : Setup} {s s' : State}

/-- No step of a run cancels where the audience is not heeded. -/
theorem cancelled_step_heedless {m : Move} (hstep : s.step x.heedless m = some s') :
    s'.board.cancelled = s.board.cancelled := by
  cases m with
  | main =>
    cases passes_advance hstep with
    | main hrest => rfl
    | spawn hmain => rfl
    | thread ht hmoves => exact nomatch hmoves
  | file number m =>
    simp only [State.step, stepFile] at hstep
    split at hstep
    · cases hstep
    · obtain ⟨⟨t', board⟩, hthread, rfl⟩ := Option.map_eq_some_iff.1 hstep
      exact Thread.cancelled_step_heedless hthread

/-- No run to the end cancels where the audience is not heeded. -/
theorem cancelled_finish_heedless (s : State) :
    (s.finish x.heedless).board.cancelled = s.board.cancelled := by
  fun_induction finish x.heedless s with
  | case1 => rfl
  | case2 => rfl
  | case3 s move hnext s' hstep ih => exact ih.trans (cancelled_step_heedless hstep)

end State

/-- There is a run over any files that nobody cancels. -/
theorem Setup.exists_uncancelled (x : Setup) (paths : List String) : ∃ s, x.Uncancelled paths s :=
  ⟨_, State.exists_after_finish _, State.finished_finish false paths,
    State.cancelled_finish_heedless _⟩

/-! ## Answers in two runs -/

/-- As far as both go, the answers are the same, the last one being the first of the list. -/
def Alike (answers answers' : List (Option Stop)) : Prop :=
  answers <:+ answers' ∨ answers' <:+ answers

/-- Answers that are alike and as many are the same. -/
theorem Alike.eq_of_length {answers answers' : List (Option Stop)} (h : Alike answers answers')
    (hlength : answers'.length = answers.length) : answers' = answers := by
  rcases h with h | h
  · exact (h.eq_of_length hlength.symm).symm
  · exact h.eq_of_length hlength

/-- Answers that are alike and no more are the earlier ones. -/
theorem Alike.suffix_of_length {answers answers' : List (Option Stop)} (h : Alike answers answers')
    (hlength : answers'.length ≤ answers.length) : answers' <:+ answers := by
  rcases h with h | h
  · exact ⟨[], (h.eq_of_length_le hlength).symm⟩
  · exact h

/-- A validator that broke off once has broken off. -/
theorem payloadIn?_ne_none_of_suffix {answers answers' : List (Option Stop)} {payload : Payload}
    (h : answers' <:+ answers) (hpayload : payloadIn? answers' = some payload) :
    payloadIn? answers ≠ none := by
  obtain ⟨others, rfl⟩ := h
  rw [payloadIn?, List.findSome?_append]
  rw [payloadIn?] at hpayload
  rw [hpayload]
  simp

/-- What a validator has answered by the line. -/
def AnsweredBy (verdict : String → Option Stop) (events : List Event) : Prop :=
  ∀ e ∈ validations events, e.stop? = verdict e.line

/-- The answers of a validator that answers by the line are its verdicts on the lines. -/
theorem AnsweredBy.answersIn_eq {verdict : String → Option Stop} {events : List Event}
    (h : AnsweredBy verdict events) : answersIn events = (validatedIn events).map verdict := by
  rw [Ingest.answersIn_eq, validatedIn, List.map_map]
  exact List.map_congr_left h

/-- A validator that answers by the line answers alike to the first lines of a sample. -/
theorem AnsweredBy.alike {verdict : String → Option Stop} {events events' : List Event}
    {lines : List String} (h : AnsweredBy verdict events) (h' : AnsweredBy verdict events')
    (hlines : (validatedIn events).reverse <+: lines)
    (hlines' : (validatedIn events').reverse <+: lines) :
    Alike (answersIn events) (answersIn events') := by
  rw [h.answersIn_eq, h'.answersIn_eq]
  rcases List.prefix_or_prefix_of_prefix hlines hlines' with hprefix | hprefix
  · exact Or.inl ((List.reverse_prefix.1 hprefix).map verdict)
  · exact Or.inr ((List.reverse_prefix.1 hprefix).map verdict)

namespace Setup

variable {x : Setup} {path : String} {events events' : List Event}

/-- A file whose sample is judged and passed is admitted. -/
theorem Sampled.admitted {content : List UInt8} (h : x.Sampled path content events)
    (hpassed : x.gateFault? path (answersIn events) = none) :
    x.admitted path (answersIn events) = .ok content := by
  by_cases hempty : content = []
  · exact admitted_of_empty h.opened hempty
  · rw [admitted_of_ne_nil h.opened hempty, hpassed]

/-- A file that passed also passes where the audience is not heeded. -/
theorem Passed.heedless (h : x.Passed path events) : x.heedless.Passed path events := by
  obtain ⟨content, hsampled, hpassed⟩ := h
  exact ⟨content, ⟨hsampled.opened, hsampled.lines⟩, hpassed⟩

/-- A file that has passed in one run is not refused in another one in which it can be read and the
validator answers alike. -/
theorem Passed.not_refuses (h : x.Passed path events) {error : Error}
    (halike : ∀ lines, (validatedIn events).reverse <+: lines →
      (validatedIn events').reverse <+: lines → Alike (answersIn events) (answersIn events')) :
    ¬ x.Refuses path (fun _ => False) events' error := by
  obtain ⟨content, hsampled, hpassed⟩ := h
  have hlength := congrArg List.length hsampled.lines
  rw [List.length_reverse, ← length_answersIn] at hlength
  have hprefix : (validatedIn events).reverse <+:
      (sampleTexts content).take x.limits.validationSampleLines :=
    ⟨[], (List.append_nil _).trans hsampled.lines⟩
  rintro (hopen | @⟨content', _, hsampled', hfault⟩ |
    @⟨content', payload, hopen, hlines, hpayload⟩ | hfailed)
  · exact absurd (hsampled.opened.symm.trans hopen) nofun
  · obtain rfl := Except.ok.inj (hsampled.opened.symm.trans hsampled'.opened)
    have hlength' := congrArg List.length hsampled'.lines
    rw [List.length_reverse, ← length_answersIn, ← hlength] at hlength'
    have hprefix' : (validatedIn events').reverse <+:
        (sampleTexts content).take x.limits.validationSampleLines :=
      ⟨[], (List.append_nil _).trans hsampled'.lines⟩
    have hsame := (halike _ hprefix hprefix').eq_of_length hlength'
    rw [hsame, hpassed] at hfault
    cases hfault
  · obtain rfl := Except.ok.inj (hsampled.opened.symm.trans hopen)
    have hlength' := hlines.length_le
    rw [List.length_reverse, ← length_answersIn, ← hlength] at hlength'
    have hsuffix := (halike _ hprefix hlines).suffix_of_length hlength'
    have hbroken := payloadIn?_ne_none_of_suffix hsuffix hpayload
    unfold gateFault? at hpassed
    split at hpassed
    · cases hpassed
    · exact hbroken ‹_›
  · exact hfailed

end Setup

/-! ## Answers by the line -/

/-- Whatever orderly happens in a thread, its validator answers by the line. -/
theorem Thread.answeredBy_moves {x : Setup} {verdict : String → Option Stop}
    (hverdict : x.audience.ByLine verdict) {file : Nat} {t t' : Thread} {b b' : Board}
    {happening : Happening} (hmoves : t.Moves x file b happening t' b')
    (h : AnsweredBy verdict (b.eventsOf file)) : AnsweredBy verdict (b'.eventsOf file) := by
  cases hmoves with
  | suffer hreading hsuffer =>
    obtain ⟨-, stage, chunks, -, -, rfl⟩ := suffer_cases hreading hsuffer
    exact h
  | step hstep =>
    rcases step_cases hstep with hown | ⟨task, worker, k, k', d, -, hwork, -, rfl⟩ |
      ⟨task, k, -, -, -, rfl⟩
    · rcases own_cases hown with ⟨stage, -, heffect⟩ | ⟨chunk, r, -, rfl⟩
      · cases heffect with
        | ask line =>
          rw [AnsweredBy, Board.eventsOf_ask, validations, List.filter_cons_of_pos (by simp)]
          exact List.forall_mem_cons.2 ⟨hverdict _ _, h⟩
        | _ => exact h
      · exact h
    · rw [AnsweredBy, Task.validations_step hwork]
      exact h
    · exact h

namespace State

variable {x : Setup} {paths : List String} {s : State}

/-- After any orderly history all questions were answered by the line. -/
theorem answeredBy_afterAll {verdict : String → Option Stop} (hverdict : x.audience.ByLine verdict)
    {cancelled : Bool} {history : List Happening}
    (horderly : ∀ happening ∈ history, happening.Orderly)
    (hafter : (start x cancelled paths).afterAll x history = some s) (file : Nat) :
    AnsweredBy verdict (s.board.eventsOf file) := by
  have h : s.Paged fun _ _ p => AnsweredBy verdict p.events :=
    paged_afterAll (fun _ _ _ he => absurd he List.not_mem_nil)
      (fun _ hmoves h => Thread.answeredBy_moves hverdict hmoves h) horderly hafter
  rcases Nat.lt_or_ge file s.threads.length with hfile | hfile
  · exact h.threads file _ (List.getElem?_eq_getElem hfile)
  · have hblank : s.board.eventsOf file = [] := congrArg Page.events (h.unborn file hfile)
    rw [hblank]
    exact fun _ he => absurd he List.not_mem_nil

/-! ## What sinks were fed in two runs -/

/-- When a run is over, each sink was fed the lines that were delivered. -/
theorem fed_perm_delivered (hsteady : x.audience.Steady) {cancelled : Bool}
    {history : List Happening} (horderly : ∀ happening ∈ history, happening.Orderly)
    (hafter : (start x cancelled paths).afterAll x history = some s) (hfinished : s.finished = true)
    (file : Nat) {sink : Nat} (hsink : sink < x.audience.sinks) :
    (s.board.fed file sink).Perm ((s.board.deliveriesOf file).map Delivery.line) := by
  have hwhole := ((ledger_start cancelled paths).afterAll hsteady horderly hafter).whole
  have hreached : ∀ d ∈ s.board.deliveriesOf file, d.reached sink = true := by
    intro d hd
    obtain ⟨⟨number, found⟩, hmem, rfl⟩ := List.mem_map.1 hd
    obtain ⟨-, -, hanswers⟩ := hwhole number found (List.mem_of_mem_filter hmem)
    simp [Delivery.reached, hanswers, hsink]
  have hfed := (books_afterAll horderly hafter).fed_perm hfinished file sink
  rwa [seenBy, List.filter_eq_self.2 hreached] at hfed

/-- Actions are happenings. -/
theorem afterAll_map_action (s : State) (schedule : List Action) :
    s.afterAll x (schedule.map .action) = s.after x schedule := by
  induction schedule generalizing s with
  | nil => rfl
  | cons action schedule ih =>
    simp only [List.map_cons, afterAll, after, ih]
    rfl

/-- A run that nobody cancels has an orderly history in which no reading fails. -/
theorem exists_history_of_uncancelled (h : x.Uncancelled paths s) :
    ∃ history, (∀ happening ∈ history, happening.Orderly) ∧
      (∀ file error, ¬ FailsIn history file error) ∧
      (start x.heedless false paths).afterAll x.heedless history = some s := by
  obtain ⟨schedule, hrun⟩ := h.run
  refine ⟨schedule.map .action, fun happening hmem => ?_, fun file error => ?_,
    (afterAll_map_action _ _).trans hrun⟩
  · obtain ⟨action, -, rfl⟩ := List.mem_map.1 hmem
    trivial
  · simp [FailsIn]

/-- When lines of a file were delivered, the file has passed its sample. -/
theorem passed_of_delivered {t : Thread} {p : Page} {failed : Error → Prop}
    {cancelled : Bool} (h : t.Gated x failed cancelled p) (hended : t.stage = .ended)
    (hsome : p.deliveries ≠ []) : x.Passed t.path p.events := by
  unfold Thread.Gated at h
  rw [hended] at h
  obtain ⟨_ | error, -, hjudged⟩ := h
  · exact hjudged.resolve_right fun hunfed => hsome hunfed.1.2
  · exact hjudged.2.resolve_right fun hunfed => hsome hunfed.2

/-- A file that has passed in another run passes in a run that nobody cancels, unless it is empty,
if the validator answers alike. -/
theorem passes_of_uncancelled {t : Thread} {p : Page} {events : List Event}
    (h : t.Gated x (fun _ => False) false p) (hended : t.stage = .ended)
    (hpassed : x.Passed t.path events)
    (halike : ∀ lines, (validatedIn events).reverse <+: lines →
      (validatedIn p.events).reverse <+: lines → Alike (answersIn events) (answersIn p.events)) :
    x.Passed t.path p.events ∨ x.open? t.path = .ok [] := by
  unfold Thread.Gated at h
  rw [hended] at h
  obtain ⟨_ | error, -, hjudged⟩ := h
  · exact hjudged.imp_right fun hunfed => hunfed.2.resolve_left Bool.false_ne_true
  · exact absurd hjudged.1 (hpassed.not_refuses halike)

/-- What a run that nobody cancels has fed to a sink of a file that has passed in another run. -/
theorem fed_perm_of_uncancelled (hsteady : x.audience.Steady) {s' : State}
    (h : x.Uncancelled paths s') {file : Nat} {path : String} {events : List Event}
    (hpath : paths[file]? = some path) (hpassed : x.Passed path events)
    (halike : (∃ verdict, x.audience.ByLine verdict ∧ AnsweredBy verdict events) ∨
      Alike (answersIn events) (s'.board.answers file)) {sink : Nat}
    (hsink : sink < x.audience.sinks) : (s'.board.fed file sink).Perm (x.linesOf path) := by
  obtain ⟨schedule, hrun⟩ := h.run
  obtain ⟨history, horderly, hunfailing, hhistory⟩ := exists_history_of_uncancelled h
  have hstart : (start x.heedless false paths).Good x.heedless paths := good_start false
  have hsteady' : x.heedless.audience.Steady := hsteady.heedless
  have hgood := hstart.after hsteady' hrun h.calm
  obtain ⟨t, ht, rfl, hended⟩ := hgood.thread h.finished hpath
  have hgated := ((gated_afterAll horderly hhistory).threads file t ht).2
  have hnever : FailsIn history file = fun _ => False :=
    funext fun error => eq_false (hunfailing file error)
  rw [hnever, h.calm] at hgated
  have halike' : ∀ lines, (validatedIn events).reverse <+: lines →
      (validatedIn (s'.board.eventsOf file)).reverse <+: lines →
        Alike (answersIn events) (answersIn (s'.board.eventsOf file)) := by
    intro lines hlines hlines'
    rcases halike with ⟨verdict, hverdict, hanswered⟩ | halike
    · have hverdict' : x.heedless.audience.ByLine verdict := hverdict.heedless
      exact hanswered.alike (answeredBy_afterAll hverdict' horderly hhistory file) hlines hlines'
    · exact halike
  have harrives : ∀ content, x.heedless.open? t.path = .ok content →
      x.heedless.admitted t.path (s'.board.answers file) = .ok content →
        (s'.board.fed file sink).Perm (x.linesOf t.path) := by
    intro content hopen hadmitted
    obtain ⟨-, harrived⟩ := (hgood.threads file t ht).arrived_of_ended hended hadmitted
    have hlines : x.linesOf t.path = logicalLines content := by
      rw [Setup.linesOf, show x.open? t.path = .ok content from hopen]
    rw [hlines, List.perm_iff_count]
    intro line
    exact harrived (.sink sink (· == line)) hsink
  rcases passes_of_uncancelled hgated hended hpassed.heedless halike' with
    ⟨content, hsampled, hnone⟩ | hopen
  · exact harrives content hsampled.opened (Setup.Sampled.admitted hsampled hnone)
  · exact harrives [] hopen (Setup.admitted_of_empty hopen rfl)

/-- What a sink was fed of a file is among what it is fed by a run that nobody cancels, if the
validator answers alike in both. -/
theorem fed_subperm (hsteady : x.audience.Steady) {cancelled : Bool} {history : List Happening}
    (horderly : ∀ happening ∈ history, happening.Orderly)
    (hafter : (start x cancelled paths).afterAll x history = some s) (hfinished : s.finished = true)
    {s' : State} (huncancelled : x.Uncancelled paths s') (file : Nat)
    (halike : (∃ verdict, x.audience.ByLine verdict) ∨
      Alike (s.board.answers file) (s'.board.answers file)) {sink : Nat}
    (hsink : sink < x.audience.sinks) :
    (s.board.fed file sink).Subperm (s'.board.fed file sink) := by
  have hfed := fed_perm_delivered hsteady horderly hafter hfinished file hsink
  refine hfed.subperm.trans ?_
  by_cases hnone : s.board.deliveriesOf file = []
  · rw [hnone]
    exact List.nil_subperm
  · have hgated := gated_afterAll horderly hafter
    have hfile : file < s.threads.length := by
      by_contra hfile
      exact hnone (congrArg Page.deliveries (hgated.unborn file (Nat.le_of_not_lt hfile)))
    have ht := List.getElem?_eq_getElem hfile
    have hbooks := books_afterAll horderly hafter
    have hended := hbooks.balanced.ended hfinished _ (List.mem_of_getElem? ht)
    have hpassed := passed_of_delivered (hgated.threads file _ ht).2 hended hnone
    have hother := fed_perm_of_uncancelled hsteady huncancelled
      (hbooks.named.getElem?_paths ht) hpassed (halike.imp_left fun ⟨verdict, hverdict⟩ =>
        ⟨verdict, hverdict, answeredBy_afterAll hverdict horderly hafter file⟩) hsink
    exact (delivered_subperm (bounded_afterAll hsteady horderly hafter) ht).trans
      hother.symm.subperm

/-! ## All files together -/

/-- A sink was given a line as often as it was asked about it. -/
theorem count_linesTo (sink : Nat) (events : List Event) (line : String) :
    (linesTo sink events).count line =
      events.countP fun e => e.line == line && e.party == .sink sink := by
  rw [linesTo, List.count, List.countP_map, List.countP_filter]
  rfl

/-- What a sink was fed is what it was fed of the files one by one. -/
theorem Books.linesTo_perm (h : s.Books x paths) (sink : Nat) :
    (linesTo sink s.board.events).Perm
      ((List.range paths.length).flatMap fun file => s.board.fed file sink) := by
  have hlt : ∀ e ∈ s.board.events, e.file < paths.length := fun e he =>
    Nat.lt_of_lt_of_le (h.paged.event_lt e he) h.named.length_threads_le
  rw [List.perm_iff_count]
  intro line
  rw [List.count_flatMap, count_linesTo, ← sum_countP_filter Event.file _ hlt]
  refine congrArg List.sum (List.map_congr_left fun file _ => ?_)
  exact (count_linesTo sink (s.board.eventsOf file) line).symm

/-- The report counts the lines that were delivered for the files one by one. -/
theorem Books.totalLines_eq_sum (h : s.Books x paths) (hfinished : s.finished = true)
    (elapsed : Nat) : (s.result.report x.audience.sinks elapsed).totalLines =
      ((List.range paths.length).map fun file => (s.board.deliveriesOf file).length).sum := by
  have hsum := sum_countP_filter Prod.fst (fun _ => true) fun entry hentry =>
    Nat.lt_of_lt_of_le (h.paged.delivery_lt entry hentry) h.named.length_threads_le
  rw [h.totalLines_eq hfinished, result, List.length_map, List.length_reverse, ← List.countP_true,
    ← hsum]
  simp only [Board.deliveriesOf, List.length_map, List.countP_true]

/-- What a sink was fed of all files is among what it is fed by a run that nobody cancels. -/
theorem linesTo_subperm (hbooks : s.Books x paths) {s' : State}
    (huncancelled : x.Uncancelled paths s') {sink : Nat}
    (hfed : ∀ file, (s.board.fed file sink).Subperm (s'.board.fed file sink)) :
    (linesTo sink s.board.events).Subperm (linesTo sink s'.board.events) := by
  obtain ⟨history, horderly, -, hhistory⟩ := exists_history_of_uncancelled huncancelled
  have hbooks' : s'.Books x.heedless paths := books_afterAll horderly hhistory
  refine (hbooks.linesTo_perm sink).subperm.trans
    (.trans ?_ (hbooks'.linesTo_perm sink).symm.subperm)
  rw [List.subperm_iff_count]
  intro line
  rw [List.count_flatMap, List.count_flatMap]
  exact List.sum_le_sum fun file _ => (hfed file).count_le line

end State

end LogAudit.Ingest
