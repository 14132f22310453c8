import LogAudit.Proofs.Ingest.Ledger

/-!
# Recovered faults

A party that breaks off is recovered from by the thread of its file, if it is the validator, and by
the worker on the batch, if it is a sink; a thread that breaks off by itself is recovered from at
the end of the work on its file. Only what reaches the thread is written down: the faults among the
records are those of the validator and of the threads (`State.faults_recorded`), so that all faults
are written down exactly if no sink breaks off.
-/

namespace LogAudit

/-- The record tells that the work on a file was broken off. -/
def ErrorRecord.isFault : ErrorRecord → Bool
  | ⟨_, none, .fault _⟩ => true
  | _ => false

/-- A record of a fault belongs to a file, but to no line of it. -/
theorem ErrorRecord.isFault_iff {r : ErrorRecord} :
    r.isFault = true ↔ ∃ path text, r = ⟨path, none, .fault text⟩ := by
  constructor
  · intro h
    unfold isFault at h
    split at h
    · exact ⟨_, _, rfl⟩
    · exact absurd h nofun
  · rintro ⟨path, text, rfl⟩
    rfl

namespace Ingest

/-! ## Who asks for a record -/

/-- The record that a question asks for if the party that was asked broke off. -/
def Event.fault? (paths : List String) (e : Event) : Option ErrorRecord :=
  match e.stop? with
  | some (.panicked payload) => paths[e.file]?.map fun path => ⟨path, none, .ofPayload payload⟩
  | _ => none

/-- The record that an incident asks for if a thread breaks off by itself. -/
def Happening.fault? (paths : List String) : Happening → Option ErrorRecord
  | incident (.file number (.failure (.fault text))) =>
    paths[number]?.map fun path => ⟨path, none, .fault text⟩
  | _ => none

namespace Board

/-- What the validator was asked. -/
def checked (b : Board) : List Event := b.events.filter (·.party == .validator)

variable {paths : List String} {b : Board} {a : Audience} {file : Nat} {line : String}

/-- A question to the validator is a check. -/
theorem checked_ask_validator (b : Board) (a : Audience) (file : Nat) (line : String) :
    (b.ask a file .validator line).2.checked =
    ⟨file, .validator, line, (b.ask a file .validator line).1⟩ :: b.checked := by
  simp [checked, ask]

/-- A question to a sink is no check. -/
theorem checked_ask_sink (sink : Nat) : (b.ask a file (.sink sink) line).2.checked = b.checked := by
  simp [checked, ask]

/-- How often the validator asks for a record. -/
def faults (paths : List String) (r : ErrorRecord) (b : Board) : Nat :=
  (b.checked.filterMap (Event.fault? paths)).count r

end Board

/-- How often a stage is about to write a record. -/
def Stage.writes (path : String) (r : ErrorRecord) : Stage → Nat
  | failing error => [(⟨path, none, error⟩ : ErrorRecord)].count r
  | _ => 0

/-- Workers leave the validator alone. -/
theorem Worker.checked_step {a : Audience} {file : Nat} {path : String} {d : Desk} (w : Worker) :
    (w.step a file path d).2.board.checked = d.board.checked := by
  have heffect := @effect_step a file path d w
  generalize (w.step a file path d).2.board = board at heffect ⊢
  cases heffect with
  | ask sink line => exact Board.checked_ask_sink sink
  | breakOff sink line delivery => exact Board.checked_ask_sink sink
  | _ => rfl

/-- Workers check nothing. -/
theorem Task.checked_step {a : Audience} {file worker : Nat} {path : String} {t t' : Task}
    {d d' : Desk} (h : t.step a file path worker d = some (t', d')) :
    d'.board.checked = d.board.checked := by
  rcases step_cases h with ⟨-, rfl, -⟩ | ⟨w, -, -, -, rfl, -⟩
  · rfl
  · exact w.checked_step

/-! ## What is no fault -/

/-- That a file cannot be opened is no fault. -/
theorem Setup.open?_ne_fault {x : Setup} {path text : String} :
    x.open? path ≠ .error (.fault text) := by
  unfold Setup.open?
  split
  · simp
  · simp
  · split
    · rename_i error herror
      unfold Setup.sizeFault? at herror
      split at herror
      · obtain rfl := Option.some.inj herror
        simp
      · exact absurd herror nofun
    · simp

/-- That a sample does not pass is no fault. -/
theorem sampleFault?_ne_fault {path text : String} {percent sampled failed : Nat} :
    sampleFault? path percent sampled failed ≠ some (.fault text) := by
  unfold sampleFault?
  repeat' split
  all_goals simp

/-- A sample breaks off only if the validator does. -/
theorem Sampling.look_ne_broken {s : Sampling} {cancelled : Bool} {payload : Payload} :
    s.look cancelled ≠ .error (.broken payload) := by
  unfold look
  repeat' split
  all_goals simp

/-- A failure that is no fault is not going to be recorded as one. -/
theorem Stage.writes_failing_of_ne {path : String} {r : ErrorRecord} (hfault : r.isFault = true)
    {error : Error} (h : ∀ text, error ≠ .fault text) : (failing error).writes path r = 0 := by
  obtain ⟨other, text, rfl⟩ := ErrorRecord.isFault_iff.1 hfault
  simp [writes, h text]

namespace Thread

variable {x : Setup} {file : Nat} {paths : List String} {path : String} {t t' : Thread}
  {b b' : Board} {r : ErrorRecord}

/-- Behind the opening of a file there is no fault to be recorded. -/
theorem writes_opened (hfault : r.isFault = true) : (opened x path).writes path r = 0 := by
  unfold opened
  split
  · rename_i error herror
    exact Stage.writes_failing_of_ne hfault fun _ h => Setup.open?_ne_fault (h ▸ herror)
  · split <;> rfl

/-- Behind a sample that ended there is no fault to be recorded. -/
theorem writes_sampled (hfault : r.isFault = true) {content : List UInt8} {s : Sampling}
    {ended : SampleEnd} {cancelled : Bool} (hlook : s.look cancelled = .error ended) :
    (sampled x path content s ended).writes path r = 0 := by
  unfold sampled
  split
  · rename_i error herror
    refine Stage.writes_failing_of_ne hfault ?_
    rintro text rfl
    cases ended with
    | finished => exact sampleFault?_ne_fault herror
    | cut => exact absurd herror nofun
    | broken payload => exact Sampling.look_ne_broken hlook
  · rfl

/-- After looking for a chunk there is no fault to be recorded. -/
theorem writes_fetched (remainder : Remainder) : (fetched x remainder).writes path r = 0 := by
  unfold fetched
  split <;> rfl

/-! ## Steps -/

/-- A record that is asked for is about to be written down, and then it is. -/
def Recovers (paths : List String) (r : ErrorRecord) (t t' : Thread) (b b' : Board) (asked : Nat) :
    Prop :=
  b'.records.count r + t'.stage.writes t'.path r + b.faults paths r =
    b.records.count r + t.stage.writes t.path r + b'.faults paths r + asked

theorem writes_go (stage : Stage) :
    (t.go stage).stage.writes (t.go stage).path r = stage.writes t.path r := rfl

/-- A step that records and checks nothing recovers no fault, if none was or is to be recorded. -/
theorem recovers_of_eq (hrecords : b'.records = b.records) (hchecked : b'.checked = b.checked)
    (hbefore : t.stage.writes t.path r = 0) (hafter : t'.stage.writes t'.path r = 0) :
    Recovers paths r t t' b b' 0 := by
  rw [Recovers, hrecords, Board.faults, Board.faults, hchecked, hbefore, hafter]
  rfl

/-- The validator leaves the records alone. -/
theorem records_of_test {s : Sampling} {line : String} {answer : Except Payload Sampling}
    (htest : s.test x.audience file line b = (answer, b')) : b'.records = b.records := by
  rw [Sampling.board_of_test htest]
  rfl

/-- The validator is asked about a line of the sample, and breaks off if the test does. -/
theorem checked_of_test {s : Sampling} {line : String} {answer : Except Payload Sampling}
    (htest : s.test x.audience file line b = (answer, b')) :
    ∃ stop?, b'.checked = ⟨file, .validator, line, stop?⟩ :: b.checked ∧
      ∀ payload, stop? = some (.panicked payload) ↔ answer = .error payload := by
  have hchecked := b.checked_ask_validator x.audience file line
  simp only [Sampling.test] at htest
  generalize b.ask x.audience file .validator line = asked at htest hchecked
  obtain ⟨stop?, board⟩ := asked
  refine ⟨stop?, ?_⟩
  rcases stop? with _ | _ | payload <;> obtain ⟨rfl, rfl⟩ := Prod.mk.inj htest <;>
    exact ⟨hchecked, by simp⟩

/-- A step of the thread itself writes down the faults that it is about to write down. -/
theorem recovers_own (hfault : r.isFault = true) (hpath : paths[file]? = some t.path)
    (hown : t.own x file b = some (t', b')) : Recovers paths r t t' b b' 0 := by
  cases turn_of_own hown with
  | openFile hat => exact recovers_of_eq rfl rfl (by rw [hat]; rfl) (writes_opened hfault)
  | judge hat hlook =>
    exact recovers_of_eq rfl rfl (by rw [hat]; rfl) (writes_sampled hfault hlook)
  | fetch hat => exact recovers_of_eq rfl rfl (by rw [hat]; rfl) (writes_fetched _)
  | @test content s s' line b' hat htest =>
    obtain ⟨stop?, hchecked, hbroken⟩ := checked_of_test htest
    have hnone : Event.fault? paths ⟨file, .validator, line, stop?⟩ = none := by
      unfold Event.fault?
      split
      · rename_i payload hstop
        exact absurd ((hbroken payload).1 hstop) nofun
      · rfl
    have hfaults : b'.faults paths r = b.faults paths r := by
      rw [Board.faults, hchecked, List.filterMap_cons_none hnone, Board.faults]
    rw [Recovers, hfaults, records_of_test htest, hat]
    rfl
  | @breakOff content s line payload b' hat htest =>
    obtain ⟨stop?, hchecked, hbroken⟩ := checked_of_test htest
    obtain rfl := (hbroken payload).2 rfl
    have hsome : Event.fault? paths ⟨file, .validator, line, some (.panicked payload)⟩ =
        some ⟨t.path, none, .ofPayload payload⟩ := by
      simp [Event.fault?, hpath]
    have hfaults : b'.faults paths r =
        [(⟨t.path, none, .ofPayload payload⟩ : ErrorRecord)].count r + b.faults paths r := by
      rw [Board.faults, hchecked, List.filterMap_cons_some hsome, ← List.singleton_append,
        List.count_append, Board.faults]
    have hidle : t.stage.writes t.path r = 0 := by rw [hat]; rfl
    rw [Recovers, hfaults, records_of_test htest, hidle, writes_go, Stage.writes]
    omega
  | @write error hat =>
    have hrecords : (b.write [⟨t.path, none, error⟩]).records.count r =
        [(⟨t.path, none, error⟩ : ErrorRecord)].count r + b.records.count r := List.count_append
    have hfaults : (b.write [⟨t.path, none, error⟩]).faults paths r = b.faults paths r := rfl
    have hdone : (Stage.closing (some error)).writes t.path r = 0 := rfl
    rw [Recovers, hrecords, hfaults, hat, writes_go, hdone, Stage.writes]
    omega
  | look hat | stop hat | pass hat | spawn hat | join hat | report hat | leave hat =>
    exact recovers_of_eq rfl rfl (by rw [hat]; rfl) rfl

/-- Whatever happens in a thread, a fault that is asked for is written down in time. -/
theorem recovers_step (hfault : r.isFault = true) (hpath : paths[file]? = some t.path) {m : Move}
    (hstep : t.step x file b m = some (t', b')) : Recovers paths r t t' b b' 0 := by
  rcases step_cases hstep with hown | ⟨task, worker, k, k', d, -, hwork, rfl, rfl⟩ |
    ⟨task, k, -, -, rfl, rfl⟩
  · exact recovers_own hfault hpath hown
  · obtain ⟨other, text, rfl⟩ := ErrorRecord.isFault_iff.1 hfault
    rw [Recovers, Task.count_records_step rfl hwork, Board.faults, Board.faults,
      Task.checked_step hwork]
    rfl
  · rfl

/-- A thread that breaks off by itself is about to write that down. -/
theorem recovers_suffer (hfault : r.isFault = true) (hpath : paths[file]? = some t.path)
    {mishap : Mishap} (hreading : (Incident.file file mishap).OfReading)
    (hsuffer : t.suffer b mishap = some (t', b')) :
    Recovers paths r t t' b b'
      (((Happening.incident (.file file mishap)).fault? paths).toList.count r) := by
  cases mishap with
  | failure error =>
    have hfails : t.stage.writes t.path r = 0 → some (t.go (.failing error), b) = some (t', b') →
        Recovers paths r t t' b b'
          (((Happening.incident (.file file (.failure error))).fault? paths).toList.count r) := by
      intro hwrites hfails
      obtain ⟨rfl, rfl⟩ := Prod.mk.inj (Option.some.inj hfails)
      obtain ⟨other, text, rfl⟩ := ErrorRecord.isFault_iff.1 hfault
      rw [Recovers, hwrites]
      cases error <;> simp [go, Stage.writes, Happening.fault?, hpath]
      omega
    cases hat : t.stage with simp only [suffer, hat] at hsuffer
    | opening | sampling _ _ | testing _ _ _ => exact hfails (by rw [hat]; rfl) hsuffer
    | joining =>
      split at hsuffer
      · exact hfails (by rw [hat]; rfl) hsuffer
      · cases hsuffer
    | _ => cases hsuffer
  | cut =>
    cases hat : t.stage with simp only [suffer, hat] at hsuffer
    | reading _ | starting _ _ =>
      obtain ⟨rfl, rfl⟩ := Prod.mk.inj (Option.some.inj hsuffer)
      exact recovers_of_eq rfl rfl (by rw [hat]; rfl) rfl
    | _ => cases hsuffer
  | silence => exact absurd hreading id
  | worker task worker => exact absurd hreading id

end Thread

/-! ## Runs -/

namespace State

/-- How often the threads of a run are about to write a record. -/
def writes (r : ErrorRecord) (s : State) : Nat :=
  sumOver (fun t : Thread => t.stage.writes t.path r) s.threads

variable {x : Setup} {paths : List String} {s s' : State} {r : ErrorRecord}

/-- Every orderly happening adds to the records that are written down or about to be what it asks
for. -/
theorem Passes.recovers {happening : Happening} (hfault : r.isFault = true) (hnamed : s.Named paths)
    (hpasses : Passes x s happening s') :
    s'.board.records.count r + s'.writes r + s.board.faults paths r =
      s.board.records.count r + s.writes r + s'.board.faults paths r +
        (happening.fault? paths).toList.count r := by
  cases hpasses with
  | cancel => rfl
  | main hrest => rfl
  | @spawn path pending files hmain =>
    have hsum : sumOver (fun t : Thread => t.stage.writes t.path r)
        (s.threads ++ [.start path x.audience.sinks]) = s.writes r := by
      rw [sumOver_append]
      rfl
    simp only [writes, hsum]
    rfl
  | @thread number t t' board happening ht hmoves =>
    have hpath := hnamed.getElem?_paths ht
    have hsum := sumOver_set (fun t : Thread => t.stage.writes t.path r) ht t'
    have hrecovers : Thread.Recovers paths r t t' s.board board
        ((happening.fault? paths).toList.count r) := by
      cases hmoves with
      | step hstep => exact Thread.recovers_step hfault hpath hstep
      | suffer hreading hsuffer => exact Thread.recovers_suffer hfault hpath hreading hsuffer
    simp only [Thread.Recovers] at hrecovers
    simp only [writes]
    omega

/-- Whatever history a run has, the faults that are written down or about to be are those that the
validator and the incidents asked for. -/
theorem recovers_afterAll (hfault : r.isFault = true) (hnamed : s.Named paths) {history : List Happening}
    (horderly : ∀ happening ∈ history, happening.Orderly)
    (hafter : s.afterAll x history = some s') :
    s'.board.records.count r + s'.writes r + s.board.faults paths r =
      s.board.records.count r + s.writes r + s'.board.faults paths r +
        (history.filterMap (Happening.fault? paths)).count r := by
  induction history generalizing s with
  | nil =>
    obtain rfl := Option.some.inj hafter
    rfl
  | cons happening history ih =>
    obtain ⟨next, hmeet, hnext⟩ := Option.bind_eq_some_iff.1 hafter
    rw [List.forall_mem_cons] at horderly
    have hpasses := passes_meet horderly.1 hmeet
    have hfirst := hpasses.recovers hfault hnamed
    have hrest := ih (hnamed.passes hpasses) horderly.2 hnext
    have hcount : ((happening :: history).filterMap (Happening.fault? paths)).count r =
        (happening.fault? paths).toList.count r +
          (history.filterMap (Happening.fault? paths)).count r := by
      rw [List.filterMap_cons]
      cases happening.fault? paths <;> simp [List.count_cons, Nat.add_comm]
    omega

/-- The threads of a finished run are about to write nothing. -/
theorem Balanced.writes_eq_zero (h : s.Balanced x) (hfinished : s.finished = true)
    (r : ErrorRecord) : s.writes r = 0 :=
  sumOver_eq_zero fun t ht => by rw [h.ended hfinished t ht]; rfl

/-- The faults that a run has written down. -/
def faultRecords (s : State) : List ErrorRecord := s.result.errorRecords.filter ErrorRecord.isFault

/-- The records that a run with a history asks for if the faults of all parties are to be written
down. -/
def faultsAsked (paths : List String) (history : List Happening) (s : State) : List ErrorRecord :=
  s.board.events.filterMap (Event.fault? paths) ++ history.filterMap (Happening.fault? paths)

end State

/-- The record of an event that broke off is that of a fault. -/
theorem Event.isFault_of_fault? {paths : List String} {e : Event} {r : ErrorRecord}
    (h : e.fault? paths = some r) : r.isFault = true := by
  unfold Event.fault? at h
  split at h
  · obtain ⟨path, -, rfl⟩ := Option.map_eq_some_iff.1 h
    rfl
  · exact absurd h nofun

/-- The record of a happening that broke off is that of a fault. -/
theorem Happening.isFault_of_fault? {paths : List String} {happening : Happening} {r : ErrorRecord}
    (h : happening.fault? paths = some r) : r.isFault = true := by
  unfold Happening.fault? at h
  split at h
  · obtain ⟨path, -, rfl⟩ := Option.map_eq_some_iff.1 h
    rfl
  · exact absurd h nofun

/-- A party that breaks off on a line of a file asks for a record. -/
theorem Event.fault?_eq_none_iff {paths : List String} {e : Event} (hfile : e.file < paths.length) :
    e.fault? paths = none ↔ ∀ payload, e.stop? ≠ some (.panicked payload) := by
  unfold Event.fault?
  split
  · rename_i payload hstop
    simp [List.getElem?_eq_getElem hfile, hstop]
  · rename_i hstop
    simp only [true_iff]
    exact fun payload h => hstop payload h

namespace State

variable {x : Setup} {paths : List String} {s : State} {cancelled : Bool} {history : List Happening}

/-- When a run is over, the faults among the records are those of the validator and of threads. -/
theorem faultRecords_perm (horderly : ∀ happening ∈ history, happening.Orderly)
    (hafter : (start x cancelled paths).afterAll x history = some s) (hfinished : s.finished = true) :
    s.faultRecords.Perm (s.board.checked.filterMap (Event.fault? paths) ++
      history.filterMap (Happening.fault? paths)) := by
  rw [List.perm_iff_count]
  intro r
  rw [List.count_append]
  cases hfault : r.isFault with
  | true =>
    have hrecovers := recovers_afterAll hfault (named_start cancelled) horderly hafter
    have hdone := ((balanced_start cancelled paths).afterAll hafter).writes_eq_zero hfinished r
    have hnothing : (start x cancelled paths).board.records.count r = 0 ∧
        (start x cancelled paths).writes r = 0 ∧
        (start x cancelled paths).board.faults paths r = 0 := ⟨rfl, rfl, rfl⟩
    rw [faultRecords, List.count_filter hfault, result, List.count_reverse]
    simp only [Board.faults] at hrecovers hnothing
    omega
  | false =>
    have hrecords : r ∉ s.faultRecords := by
      simp [faultRecords, hfault]
    have hevents : r ∉ s.board.checked.filterMap (Event.fault? paths) := by
      intro hmem
      obtain ⟨e, -, he⟩ := List.mem_filterMap.1 hmem
      exact absurd (Event.isFault_of_fault? he) (by simp [hfault])
    have hhistory : r ∉ history.filterMap (Happening.fault? paths) := by
      intro hmem
      obtain ⟨happening, -, hhappening⟩ := List.mem_filterMap.1 hmem
      exact absurd (Happening.isFault_of_fault? hhappening) (by simp [hfault])
    rw [List.count_eq_zero.2 hrecords, List.count_eq_zero.2 hevents, List.count_eq_zero.2 hhistory]

/-- Parties were asked about lines of files with a path. -/
theorem file_lt_of_mem_events (horderly : ∀ happening ∈ history, happening.Orderly)
    (hafter : (start x cancelled paths).afterAll x history = some s) :
    ∀ e ∈ s.board.events, e.file < paths.length := by
  intro e he
  have hpaged : s.Paged fun _ _ _ => True :=
    paged_afterAll (fun _ _ => trivial) (fun _ _ _ => trivial) horderly hafter
  have hnamed : s.Named paths := .afterAll horderly hafter
  exact Nat.lt_of_lt_of_le (hpaged.event_lt e he) hnamed.length_threads_le

/-- What all parties ask for is what is written down and what the sinks ask for. -/
theorem faultsAsked_perm (h : s.faultRecords.Perm (s.board.checked.filterMap (Event.fault? paths) ++
      history.filterMap (Happening.fault? paths))) :
    (s.faultsAsked paths history).Perm (s.faultRecords ++
      (s.board.events.filter (·.party != .validator)).filterMap (Event.fault? paths)) := by
  have hevents := (List.filter_append_perm (·.party == .validator) s.board.events).filterMap
    (Event.fault? paths)
  rw [List.filterMap_append] at hevents
  refine (hevents.symm.append_right _).trans ?_
  rw [List.append_assoc]
  refine ((List.perm_append_comm.append_left _).trans ?_).trans (h.symm.append_right _)
  rw [List.append_assoc]
  exact List.Perm.refl _

/-- The faults that are written down are those of the validator and of the threads, each of them
once and with its text. So all faults of a run are written down exactly if no sink breaks off: a
worker that recovers from a sink writes down the failures of its batch and no fault. -/
theorem faults_recorded (horderly : ∀ happening ∈ history, happening.Orderly)
    (hafter : (start x cancelled paths).afterAll x history = some s) (hfinished : s.finished = true) :
    s.faultRecords.Perm (s.board.checked.filterMap (Event.fault? paths) ++
      history.filterMap (Happening.fault? paths)) ∧
    (s.faultRecords.Perm (s.faultsAsked paths history) ↔
      ∀ e ∈ s.board.events, e.party ≠ .validator →
        ∀ payload, e.stop? ≠ some (.panicked payload)) := by
  have hperm := faultRecords_perm horderly hafter hfinished
  refine ⟨hperm, ?_⟩
  have hsplit := faultsAsked_perm hperm
  have hnone : (s.board.events.filter (·.party != .validator)).filterMap (Event.fault? paths) = [] ↔
      ∀ e ∈ s.board.events, e.party ≠ .validator → ∀ payload, e.stop? ≠ some (.panicked payload) := by
    rw [List.filterMap_eq_nil_iff]
    simp only [List.mem_filter, bne_iff_ne, and_imp]
    refine forall₂_congr fun e he => imp_congr_right fun _ => ?_
    exact Event.fault?_eq_none_iff (file_lt_of_mem_events horderly hafter e he)
  rw [← hnone]
  constructor
  · intro hall
    have hlength := (hall.trans hsplit).length_eq
    rw [List.length_append] at hlength
    exact List.eq_nil_of_length_eq_zero (by omega)
  · intro hnil
    rw [hnil, List.append_nil] at hsplit
    exact hsplit.symm

/-- A sink that breaks off on one line. -/
def breaksOn (line : String) : Sink where
  verdict other := if other = line then .error (.panicked (.text ("owned panic on " ++ line)))
    else .ok ()
  cancels _ := false

/-- A file that the validator breaks off on, and files with a line that a sink breaks off on. -/
def breakingParties : Setup :=
  (Engine.mk Limits.default (breaksOn "v") [breaksOn "boom"]).setup fun path =>
    if path = "b" then .ok (.file [118, 10]) else .ok (.file [98, 111, 111, 109, 10])

/-- The first thread breaks off before it opens its file, and the others go on to the end. -/
def threeFaults : List Happening :=
  times 3 .main ++ [.incident (.file 0 (.failure (.ofPayload .other)))] ++ times 3 (.file 0 .own) ++
    times 3 .main ++ times 6 (.file 1 .own) ++ times 3 .main ++ times 7 (.file 2 .own) ++
    times 8 (.file 2 (.work 0 0)) ++ times 1 (.file 2 (.retire 0)) ++ times 4 (.file 2 .own) ++
    times 2 .main

/-- Of three faults those of the thread and of the validator are written down, and that of the sink
is not. -/
theorem faults_recorded_threeFaults :
    ∃ s, (start breakingParties false ["a", "b", "c"]).afterAll breakingParties threeFaults =
      some s ∧ s.finished = true ∧
      s.faultRecords.Perm [⟨"b", none, .fault "owned panic on v"⟩,
        ⟨"a", none, .fault "unknown panic payload"⟩] ∧
      ¬ s.faultRecords.Perm (s.faultsAsked ["a", "b", "c"] threeFaults) := by
  obtain ⟨s, hafter⟩ : ∃ s, (start breakingParties false ["a", "b", "c"]).afterAll breakingParties
      threeFaults = some s := Option.isSome_iff_exists.1 (by decide +kernel)
  have hend : ((start breakingParties false ["a", "b", "c"]).afterAll breakingParties
      threeFaults).map (fun s => (s.finished,
        s.board.checked.filterMap (Event.fault? ["a", "b", "c"]) ++
          threeFaults.filterMap (Happening.fault? ["a", "b", "c"]),
        s.board.events.any fun e => e.stop? = some (.panicked (.text "owned panic on boom")) ∧
          e.party = .sink 0)) =
      some (true, [⟨"b", none, .fault "owned panic on v"⟩,
        ⟨"a", none, .fault "unknown panic payload"⟩], true) := by decide +kernel
  rw [hafter, Option.map_some, Option.some.injEq, Prod.mk.injEq, Prod.mk.injEq] at hend
  obtain ⟨hfinished, hrecords, hsink⟩ := hend
  obtain ⟨hperm, hall⟩ := faults_recorded (by decide) hafter hfinished
  refine ⟨s, hafter, hfinished, hrecords ▸ hperm, fun hcomplete => ?_⟩
  obtain ⟨e, he, hbroken⟩ := List.any_eq_true.1 hsink
  obtain ⟨hstop, hparty⟩ := of_decide_eq_true hbroken
  exact hall.1 hcomplete e he (by simp [hparty]) _ hstop

/-- Three lines, on the second of which a sink breaks off. -/
def brokenBatch : Setup :=
  (Engine.mk Limits.default .all [breaksOn "boom"]).setup fun _ =>
    .ok (.file [111, 107, 10, 98, 111, 111, 109, 10, 108, 111, 115, 116, 10])

/-- The whole run over the file. -/
def brokenBatchRun : List Happening :=
  times 3 .main ++ times 11 (.file 0 .own) ++ times 13 (.file 0 (.work 0 0)) ++
    times 1 (.file 0 (.retire 0)) ++ times 4 (.file 0 .own) ++ times 2 .main

/-- The last line is not delivered because a sink breaks off on the one before it, and no record
tells why. -/
theorem brokenBatch_unrecorded :
    ((start brokenBatch false ["a.log"]).afterAll brokenBatch brokenBatchRun).map (fun s =>
      (s.finished, s.board.cancelled, s.result.deliveries.map Delivery.line, s.result.errorRecords,
        s.faultsAsked ["a.log"] brokenBatchRun)) =
      some (true, false, ["ok", "boom"], [],
        [⟨"a.log", none, .fault "owned panic on boom"⟩]) := by
  decide +kernel

end State

end Ingest

end LogAudit
