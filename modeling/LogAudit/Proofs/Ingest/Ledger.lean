import LogAudit.Proofs.Ingest.Failures
import LogAudit.Proofs.Ingest.Histories

/-!
# The ledger of a run

A failure is written down some time after it has come about: that of a line when its batch is
finished, and that of a file when the work on the file ends. The ledger (`State.Ledger`) says how
far the records have got at any moment: what is written down is what has come about, except for what
the workers still hold, and the fault of a file is written down before the report on the file tells
it. Everything that happens keeps it (`State.Ledger.afterAll`), be it that the run is cancelled or
that a file cannot be read to its end, as long as no sink breaks off.
-/

namespace LogAudit.Ingest

/-! ## Sums -/

/-- A sum over numbered items changes by what changes at one number. -/
theorem sumOver_zipIdx_set {α : Type} (f : α × Nat → Nat) {items : List α} {i : Nat} {item : α}
    (start : Nat) (h : items[i]? = some item) (other : α) :
    sumOver f ((items.set i other).zipIdx start) + f (item, start + i) =
      sumOver f (items.zipIdx start) + f (other, start + i) := by
  induction items generalizing i start with
  | nil => simp at h
  | cons first items ih =>
    cases i with
    | zero =>
      obtain rfl : first = item := by simpa using h
      simp only [List.set_cons_zero, List.zipIdx_cons, sumOver, Nat.add_zero]
      omega
    | succ i =>
      have hindex : start + (i + 1) = start + 1 + i := by omega
      have hrest := ih (start + 1) (by simpa using h)
      simp only [List.set_cons_succ, List.zipIdx_cons, sumOver, hindex]
      omega

/-- A sum over numbered items grows by that of a new item under the next number. -/
theorem sumOver_zipIdx_concat {α : Type} (f : α × Nat → Nat) (items : List α) (item : α) :
    sumOver f (items ++ [item]).zipIdx = sumOver f items.zipIdx + f (item, items.length) := by
  rw [List.zipIdx_append, sumOver_append, Nat.zero_add]
  simp [sumOver]

/-- What some items may give is counted item by item. -/
theorem sumOver_count_toList {α β : Type} [DecidableEq β] (f : α → Option β) (b : β)
    (items : List α) :
    sumOver (fun item => (f item).toList.count b) items = (items.filterMap f).count b := by
  induction items with
  | nil => rfl
  | cons item items ih =>
    rw [sumOver, ih, List.filterMap_cons]
    cases f item with
    | none => simp
    | some found => simp [List.count_cons, Nat.add_comm]

/-! ## Faults of files -/

/-- A worker writes down failures of lines only. -/
theorem Worker.count_records_step {a : Audience} {file : Nat} {path : String} {d : Desk}
    {r : ErrorRecord} (hline : r.line = none) (w : Worker) :
    (w.step a file path d).2.board.records.count r = d.board.records.count r := by
  have heffect := @effect_step a file path d w
  generalize (w.step a file path d).2.board = board at heffect ⊢
  cases heffect with
  | write failures =>
    have hnone : r ∉ (failures.map (lineRecord path)).reverse := by
      intro hmem
      obtain ⟨failure, -, rfl⟩ := List.mem_map.1 (List.mem_reverse.1 hmem)
      exact absurd hline nofun
    refine List.count_append.trans ?_
    exact (congrArg (· + _) (List.count_eq_zero.2 hnone)).trans (Nat.zero_add _)
  | _ => rfl

/-- A worker writes only records of lines. -/
theorem Task.count_records_step {a : Audience} {file : Nat} {path : String} {worker : Nat}
    {t t' : Task} {d d' : Desk} {r : ErrorRecord} (hline : r.line = none)
    (h : t.step a file path worker d = some (t', d')) :
    d'.board.records.count r = d.board.records.count r := by
  rcases step_cases h with ⟨-, rfl, -⟩ | ⟨w, -, -, -, rfl, -⟩
  · rfl
  · exact Worker.count_records_step hline w

/-- The record of a file with a path, if something is wrong with the file. -/
def fileRecord? : String × Option Error → Option ErrorRecord
  | (path, fault) => fault.map fun error => ⟨path, none, error⟩

namespace Thread

variable {x : Setup} {file : Nat} {t t' : Thread} {b b' : Board} {fault fault' : Option Error}

/-- The fault of a file is known when the work on it has ended, and then it is reported. -/
def Told (t : Thread) (fault : Option Error) (reports : List FileReport) : Prop :=
  match t.stage with
  | .closing error => reports = [] ∧ fault = error
  | .leaving | .ended => reports = [t.report fault]
  | _ => reports = [] ∧ fault = none

/-- A file that is not concluded has told nothing. -/
theorem told_iff_of_not_concluded {reports : List FileReport} (h : t.stage.concluded = false) :
    t.Told fault reports ↔ reports = [] ∧ fault = none := by
  unfold Told
  split
  · rename_i hat
    exact absurd h (by rw [hat]; exact nofun)
  · rename_i hat
    exact absurd h (by rw [hat]; exact nofun)
  · rename_i hat
    exact absurd h (by rw [hat]; exact nofun)
  · exact Iff.rfl

/-- What happens in the thread of a file takes it to a fault that is told, and the records without a
line change as the fault does. -/
structure Tells (file : Nat) (t t' : Thread) (b b' : Board) (fault fault' : Option Error) :
    Prop where
  told : t'.Told fault' (b'.reportsOf file)
  records : ∀ r : ErrorRecord, r.line = none →
    b'.records.count r + (fileRecord? (t.path, fault)).toList.count r =
      b.records.count r + (fileRecord? (t.path, fault')).toList.count r

/-- A file has no fault before the work on it has ended, and none if it ends by itself. -/
theorem Told.tells_of_not_concluded (h : t.Told fault (b.reportsOf file))
    (hbefore : t.stage.concluded = false)
    (hafter : t'.stage = .closing none ∨ t'.stage.concluded = false)
    (hreports : b'.reportsOf file = b.reportsOf file)
    (hrecords : ∀ r : ErrorRecord, r.line = none → b'.records.count r = b.records.count r) :
    Tells file t t' b b' fault none := by
  obtain ⟨hnone, rfl⟩ := (told_iff_of_not_concluded hbefore).1 h
  refine ⟨?_, fun r hline => by rw [hrecords r hline]⟩
  rw [hreports, hnone]
  rcases hafter with hclosing | hnot
  · rw [Told, hclosing]
    exact ⟨rfl, rfl⟩
  · exact (told_iff_of_not_concluded hnot).2 ⟨rfl, rfl⟩

/-- Behind the opening a file is closed without an error or not concluded. -/
theorem concluded_opened (path : String) :
    opened x path = .closing none ∨ (opened x path).concluded = false := by
  unfold opened
  repeat' split
  · exact Or.inr rfl
  · exact Or.inl rfl
  · exact Or.inr rfl

/-- Behind its sample a file is not concluded. -/
theorem concluded_sampled (path : String) (content : List UInt8) (s : Sampling)
    (ended : SampleEnd) : (sampled x path content s ended).concluded = false := by
  unfold sampled
  split <;> rfl

/-- After looking for a chunk a file is not concluded. -/
theorem concluded_fetched (r : Remainder) : (fetched x r).concluded = false := by
  unfold fetched
  split <;> rfl

/-- The thread itself writes down what is wrong with its file and then reports it. -/
theorem Told.own (h : t.Told fault (b.reportsOf file)) (hown : t.own x file b = some (t', b')) :
    ∃ fault', Tells file t t' b b' fault fault' := by
  cases turn_of_own hown with
  | openFile hat =>
    exact ⟨none, h.tells_of_not_concluded (congrArg Stage.concluded hat) (concluded_opened t.path)
      rfl fun _ _ => rfl⟩
  | judge hat =>
    exact ⟨none, h.tells_of_not_concluded (congrArg Stage.concluded hat)
      (Or.inr (concluded_sampled t.path _ _ _)) rfl fun _ _ => rfl⟩
  | fetch hat =>
    exact ⟨none, h.tells_of_not_concluded (congrArg Stage.concluded hat)
      (Or.inr (concluded_fetched _)) rfl fun _ _ => rfl⟩
  | test hat htest | breakOff hat htest =>
    obtain rfl := Sampling.board_of_test htest
    exact ⟨none, h.tells_of_not_concluded (congrArg Stage.concluded hat) (Or.inr rfl) rfl
      fun _ _ => rfl⟩
  | look hat | stop hat | pass hat | spawn hat =>
    exact ⟨none, h.tells_of_not_concluded (congrArg Stage.concluded hat) (Or.inr rfl) rfl
      fun _ _ => rfl⟩
  | join hat =>
    exact ⟨none, h.tells_of_not_concluded (congrArg Stage.concluded hat) (Or.inl rfl) rfl
      fun _ _ => rfl⟩
  | @write error hat =>
    obtain ⟨hnone, rfl⟩ := (told_iff_of_not_concluded (congrArg Stage.concluded hat)).1 h
    exact ⟨some error, ⟨hnone, rfl⟩, fun r _ => List.count_append.trans (Nat.add_comm _ _)⟩
  | report hat =>
    rw [Told, hat] at h
    obtain ⟨hnone, rfl⟩ := h
    refine ⟨fault, ?_, fun _ _ => rfl⟩
    rw [Board.reportsOf_report, hnone]
    rfl
  | leave hat =>
    rw [Told, hat] at h
    exact ⟨fault, h, fun _ _ => rfl⟩

/-- A file that delivers is not concluded. -/
theorem concluded_of_delivers {stage : Stage} (h : stage.delivers = true) :
    stage.concluded = false := by
  cases stage with
  | closing error => exact absurd h nofun
  | leaving => exact absurd h nofun
  | ended => exact absurd h nofun
  | _ => rfl

/-- Whatever happens in a thread, the fault of its file stays told. -/
theorem Told.step (h : t.Told fault (b.reportsOf file)) (hsettled : t.Settled) {m : Move}
    (hstep : t.step x file b m = some (t', b')) : ∃ fault', Tells file t t' b b' fault fault' := by
  rcases step_cases hstep with hown | ⟨task, worker, k, k', d, hk, hwork, rfl, rfl⟩ |
    ⟨task, k, -, -, rfl, rfl⟩
  · exact h.own hown
  · have hdelivers := hsettled.resolve_right (List.ne_nil_of_mem (List.mem_of_getElem? hk))
    have hnot := concluded_of_delivers hdelivers
    refine ⟨none, h.tells_of_not_concluded hnot (Or.inr hnot) ?_ fun r hline =>
      Task.count_records_step hline hwork⟩
    rw [Board.reportsOf, (Task.within_step hwork).reports, Board.reportsOf]
  · exact ⟨fault, h, fun _ _ => rfl⟩

/-- Whatever orderly happens in a thread, the fault of its file stays told. -/
theorem Told.moves (h : t.Told fault (b.reportsOf file)) (hsettled : t.Settled)
    {happening : Happening} (hmoves : t.Moves x file b happening t' b') :
    ∃ fault', Tells file t t' b b' fault fault' := by
  cases hmoves with
  | step hstep => exact h.step hsettled hstep
  | suffer hreading hsuffer =>
    obtain ⟨hbefore, stage, chunks, hhalted, rfl, rfl⟩ := suffer_cases hreading hsuffer
    exact ⟨none, h.tells_of_not_concluded hbefore (Or.inr hhalted.concluded) rfl fun _ _ => rfl⟩

/-! ## What keeps the ledger -/

variable {paths : List String}

/-- What keeps the ledger of a run when it happens in the thread of a file. -/
structure Keeps (x : Setup) (paths : List String) (file : Nat) (t t' : Thread) (b b' : Board) :
    Prop where
  path : t'.path = t.path
  later : b.Later b'
  others : ∀ other, other ≠ file → b'.reportsOf other = b.reportsOf other
  lines : ∀ i : Item, i.Balanced paths b b' (t.holds file i) (t'.holds file i)
  whole : b'.Whole paths.length x.audience.sinks
  asked : t'.Asked x.audience.sinks
  tells : ∀ fault, t.Told fault (b.reportsOf file) → ∃ fault', Tells file t t' b b' fault fault'

/-- Every orderly happening in a thread keeps the ledger. -/
theorem Moves.keeps {happening : Happening} (h : t.Moves x file b happening t' b')
    (hpath : paths[file]? = some t.path) (hsteady : x.audience.Steady)
    (hwhole : b.Whole paths.length x.audience.sinks) (hasked : t.Asked x.audience.sinks)
    (hsettled : t.Settled) : Keeps x paths file t t' b b' := by
  obtain ⟨hsame, hothers, hlater⟩ := h.apart
  have htells := fun fault (htold : t.Told fault (b.reportsOf file)) => htold.moves hsettled h
  cases h with
  | step hstep =>
    obtain ⟨hwhole', hasked'⟩ :=
      whole_step hsteady (List.getElem?_eq_some_iff.1 hpath).1 hwhole hasked hstep
    exact ⟨hsame, hlater, fun other hother => (hothers other hother).reports,
      fun i => step_balances i hpath hsteady hstep, hwhole', hasked', htells⟩
  | suffer hreading hsuffer =>
    obtain ⟨-, stage, chunks, -, rfl, rfl⟩ := suffer_cases hreading hsuffer
    exact ⟨hsame, hlater, fun _ _ => rfl, fun i => i.balanced_of_eq rfl rfl rfl rfl, hwhole, hasked,
      htells⟩

end Thread

/-! ## The ledger of a run -/

namespace State

/-- How often the workers of a run hold an item. -/
def holds (i : Item) (s : State) : Nat :=
  sumOver (fun (t, file) => t.holds file i) s.threads.zipIdx

/-- The paths of the threads with the faults of their files, as far as these are known. -/
structure Faults (s : State) (files : List (String × Option Error)) : Prop where
  paths : files.map Prod.fst = s.threads.map Thread.path
  told : ∀ (i : Nat) (t : Thread) (path : String) (fault : Option Error),
    s.threads[i]? = some t → files[i]? = some (path, fault) → t.Told fault (s.board.reportsOf i)
  records : ∀ r : ErrorRecord, r.line = none →
    s.board.records.count r = (files.filterMap fileRecord?).count r

/-- What a run has written down is what has come about, except for what its workers hold. Only a
run that is cancelled drops files. -/
structure Ledger (x : Setup) (paths : List String) (s : State) : Prop where
  balanced : s.Balanced x
  lines : ∀ i : Item, i.arisen paths s.board = i.settled s.board + s.holds i
  whole : s.board.Whole paths.length x.audience.sinks
  asked : ∀ t ∈ s.threads, t.Asked x.audience.sinks
  files : ∃ files, s.Faults files
  unborn : ∀ i, s.threads.length ≤ i → s.board.reportsOf i = []
  paths : ∃ dropped, s.threads.map Thread.path ++ (s.main.rest ++ dropped) = paths ∧
    (s.board.cancelled = false → dropped = [])

variable {x : Setup} {paths : List String} {s s' : State}

/-- At the start nothing has come about and nothing is written down. -/
theorem ledger_start (cancelled : Bool) (paths : List String) :
    (start x cancelled paths).Ledger x paths where
  balanced := balanced_start cancelled paths
  lines := by
    intro i
    cases i <;> rfl
  whole := fun file d hmem => absurd hmem List.not_mem_nil
  asked := fun t ht => absurd ht List.not_mem_nil
  files := ⟨[], rfl, fun i t path fault ht => absurd ht nofun, fun _ _ => rfl⟩
  unborn := fun _ _ => rfl
  paths := ⟨[], List.append_nil paths, fun _ => rfl⟩

/-! ### Faults -/

section Faults

variable {files : List (String × Option Error)}

/-- The fault of the file of a thread. -/
theorem Faults.exists_fault (h : s.Faults files) {number : Nat} {t : Thread}
    (ht : s.threads[number]? = some t) : ∃ fault, files[number]? = some (t.path, fault) := by
  have hfirst := congrArg (·[number]?) h.paths
  simp only [List.getElem?_map, ht, Option.map_some] at hfirst
  obtain ⟨⟨path, fault⟩, hfound, rfl⟩ := Option.map_eq_some_iff.1 hfirst
  exact ⟨fault, hfound⟩

/-- What happens in the thread of a file changes what is known to be wrong with that file. -/
theorem Faults.set (h : s.Faults files) {number : Nat} {t t' : Thread} {board : Board}
    (ht : s.threads[number]? = some t) (hkeeps : Thread.Keeps x paths number t t' s.board board) :
    ∃ files, ({ s with threads := s.threads.set number t', board } : State).Faults files := by
  obtain ⟨hnumber, -⟩ := List.getElem?_eq_some_iff.1 ht
  obtain ⟨fault, hfault⟩ := h.exists_fault ht
  obtain ⟨fault', htold, hrecords⟩ := hkeeps.tells fault (h.told number t _ fault ht hfault)
  refine ⟨files.set number (t.path, fault'), ?_, ?_, ?_⟩
  · rw [map_path_set ht hkeeps.path, ← h.paths, List.map_set]
    have hsame : (files.map Prod.fst)[number]? = some t.path := by
      rw [List.getElem?_map, hfault]
      rfl
    obtain ⟨hlength, hsame⟩ := List.getElem?_eq_some_iff.1 hsame
    rw [← hsame, List.set_getElem_self]
  · intro i other path otherFault hother hfile
    rw [List.getElem?_set] at hother hfile
    by_cases hi : number = i
    · subst hi
      have hlength := (List.getElem?_eq_some_iff.1 hfault).1
      rw [if_pos rfl, if_pos hnumber] at hother
      rw [if_pos rfl, if_pos hlength] at hfile
      obtain rfl := Option.some.inj hother
      obtain ⟨-, rfl⟩ := Prod.mk.inj (Option.some.inj hfile)
      exact htold
    · rw [if_neg hi] at hother hfile
      rw [hkeeps.others i (Ne.symm hi)]
      exact h.told i other path otherFault hother hfile
  · intro r hline
    have hbefore := h.records r hline
    have hchange := hrecords r hline
    have hsum := sumOver_set (fun item => (fileRecord? item).toList.count r) hfault
      (t.path, fault')
    rw [sumOver_count_toList, sumOver_count_toList] at hsum
    dsimp only
    omega

/-- Nothing is known to be wrong with the file of a new thread. -/
theorem Faults.spawn (h : s.Faults files) (hunborn : s.board.reportsOf s.threads.length = [])
    (main : Main) (path : String) (gate : Resource.Gate) :
    (State.mk main (s.threads ++ [.start path x.audience.sinks])
      { s.board with files := gate }).Faults (files ++ [(path, none)]) := by
  refine ⟨?_, ?_, ?_⟩
  · rw [List.map_append, List.map_append, h.paths]
    rfl
  · intro i t otherPath fault ht hfile
    have hlength : files.length = s.threads.length := by
      simpa using congrArg List.length h.paths
    rcases Nat.lt_trichotomy i s.threads.length with hlt | rfl | hgt
    · rw [List.getElem?_append_left hlt] at ht
      rw [List.getElem?_append_left (by omega)] at hfile
      exact h.told i t otherPath fault ht hfile
    · rw [List.getElem?_concat_length] at ht
      rw [← hlength, List.getElem?_concat_length] at hfile
      obtain rfl := Option.some.inj ht
      obtain ⟨-, rfl⟩ := Prod.mk.inj (Option.some.inj hfile)
      exact ⟨hunborn, rfl⟩
    · rw [List.getElem?_eq_none (by simpa using Nat.succ_le_of_lt hgt)] at ht
      exact absurd ht nofun
  · intro r hline
    rw [List.filterMap_append, List.count_append]
    exact h.records r hline

end Faults

/-! ### The ledger -/

/-- What happens in the thread of a file keeps the ledger. -/
theorem Ledger.set (h : s.Ledger x paths) {number : Nat} {t t' : Thread} {board : Board}
    (ht : s.threads[number]? = some t) (hkeeps : Thread.Keeps x paths number t t' s.board board)
    (hbalanced : ({ s with threads := s.threads.set number t', board } : State).Balanced x)
    (hnamed : ({ s with threads := s.threads.set number t', board } : State).Named paths) :
    ({ s with threads := s.threads.set number t', board } : State).Ledger x paths where
  balanced := hbalanced
  lines := by
    intro i
    have hlines := h.lines i
    have hthread := hkeeps.lines i
    have hsum := sumOver_zipIdx_set (fun (t, file) => t.holds file i) 0 ht t'
    simp only [Item.Balanced, holds, Nat.zero_add] at hlines hthread hsum ⊢
    omega
  whole := hkeeps.whole
  asked := by
    intro other hother
    rcases List.mem_or_eq_of_mem_set hother with hother | rfl
    · exact h.asked other hother
    · exact hkeeps.asked
  files := by
    obtain ⟨files, hfiles⟩ := h.files
    exact hfiles.set ht hkeeps
  unborn := by
    intro i hi
    obtain ⟨hnumber, -⟩ := List.getElem?_eq_some_iff.1 ht
    rw [List.length_set] at hi
    rw [hkeeps.others i (by omega)]
    exact h.unborn i hi
  paths := hnamed

/-- A new thread holds nothing. -/
theorem Ledger.spawn (h : s.Ledger x paths) {main : Main} {path : String} {files : Resource.Gate}
    (hbalanced : (State.mk main (s.threads ++ [.start path x.audience.sinks])
      { s.board with files }).Balanced x)
    (hnamed : (State.mk main (s.threads ++ [.start path x.audience.sinks])
      { s.board with files }).Named paths) :
    (State.mk main (s.threads ++ [.start path x.audience.sinks])
      { s.board with files }).Ledger x paths where
  balanced := hbalanced
  lines := by
    intro i
    have hlines := h.lines i
    rw [holds] at hlines ⊢
    rw [sumOver_zipIdx_concat]
    exact hlines
  whole := h.whole
  asked := by
    intro t ht
    rcases List.mem_append.1 ht with ht | ht
    · exact h.asked t ht
    · rw [List.mem_singleton.1 ht]
      exact fun k hk => absurd hk List.not_mem_nil
  files := by
    obtain ⟨found, hfiles⟩ := h.files
    exact ⟨_, hfiles.spawn (h.unborn _ (Nat.le_refl _)) main path files⟩
  unborn := by
    intro i hi
    rw [List.length_append, List.length_singleton] at hi
    exact h.unborn i (Nat.le_of_succ_le hi)
  paths := hnamed

/-- Whatever happens, unless something but reading goes wrong, keeps the ledger. -/
theorem Ledger.passes (hsteady : x.audience.Steady) {happening : Happening}
    (hbalanced : s'.Balanced x) (hpasses : Passes x s happening s') (h : s.Ledger x paths) :
    s'.Ledger x paths := by
  have hnamed := Named.passes h.paths hpasses
  cases hpasses with
  | cancel =>
    obtain ⟨found, hfiles⟩ := h.files
    exact ⟨hbalanced, h.lines, h.whole, h.asked,
      ⟨found, hfiles.paths, hfiles.told, hfiles.records⟩, h.unborn, hnamed⟩
  | main hrest =>
    obtain ⟨found, hfiles⟩ := h.files
    exact ⟨hbalanced, h.lines, h.whole, h.asked,
      ⟨found, hfiles.paths, hfiles.told, hfiles.records⟩, h.unborn, hnamed⟩
  | spawn hmain => exact h.spawn hbalanced hnamed
  | thread ht hmoves =>
    have hmem := List.mem_of_getElem? ht
    exact h.set ht (hmoves.keeps (Named.getElem?_paths h.paths ht) hsteady h.whole (h.asked _ hmem)
      (h.balanced.settled _ hmem)) hbalanced hnamed

/-- Every orderly history keeps the ledger. -/
theorem Ledger.afterAll (h : s.Ledger x paths) (hsteady : x.audience.Steady)
    {history : List Happening} (horderly : ∀ happening ∈ history, happening.Orderly)
    (hafter : s.afterAll x history = some s') : s'.Ledger x paths :=
  preserved_afterAll (fun _ hbalanced hpasses h => h.passes hsteady hbalanced hpasses) h.balanced h
    horderly hafter

end State

end LogAudit.Ingest
