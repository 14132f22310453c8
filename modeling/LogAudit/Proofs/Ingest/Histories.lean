import LogAudit.Proofs.Ingest.Permits
import LogAudit.Proofs.Ingest.Runs

/-!
# Histories of runs

A history of a run is orderly if nothing goes wrong in it but reading; the run may be cancelled at
any moment, and the validator and the sinks may break off on any line. What an orderly happening
does to a run is told once (`State.Passes`): it has to do with the main thread, the flag or the
thread of one file. A property of threads that depends only on what the board tells about the file
holds of every thread of a run if each step of the thread itself keeps it (`State.paged_afterAll`).
-/

namespace LogAudit.Ingest

/-! ## Orderly histories -/

/-- Something that goes wrong with reading a file: its thread fails before or after its tasks, or
reads no further. -/
def Incident.OfReading : Incident → Prop
  | file _ (.failure _) | file _ .cut => True
  | _ => False

instance Incident.decidableOfReading : DecidablePred Incident.OfReading
  | file _ (.failure _) | file _ .cut => .isTrue trivial
  | file _ .silence | file _ (.worker _ _) | unstarted => .isFalse id

/-- Nothing goes wrong but reading. -/
def Happening.Orderly : Happening → Prop
  | action _ => True
  | incident i => i.OfReading

instance Happening.decidableOrderly : DecidablePred Happening.Orderly
  | action _ => .isTrue trivial
  | incident i => inferInstanceAs (Decidable i.OfReading)

/-- The stages after the work on a file has ended, and what was wrong with it was written down. -/
def Stage.concluded : Stage → Bool
  | closing _ | leaving | ended => true
  | _ => false

/-- The stages to which a thread goes that cannot read its file any further. -/
def Stage.Halted (stage : Stage) : Prop := stage = .joining ∨ ∃ error, stage = .failing error

/-- At these stages the file is not concluded yet. -/
theorem Stage.Halted.concluded {stage : Stage} (h : stage.Halted) : stage.concluded = false := by
  obtain rfl | ⟨error, rfl⟩ := h
  · rfl
  · rfl

namespace Thread

variable {x : Setup} {file : Nat} {t t' : Thread} {b b' : Board}

/-- A thread that cannot read its file goes to a stage without more reading. -/
theorem suffer_cases {mishap : Mishap} (hreading : (Incident.file file mishap).OfReading)
    (hsuffer : t.suffer b mishap = some (t', b')) : t.stage.concluded = false ∧
      ∃ stage chunks, stage.Halted ∧ t' = t.go stage ∧ b' = { b with chunks } := by
  cases mishap with
  | failure error =>
    have hfails : some (t.go (.failing error), b) = some (t', b') → ∃ stage chunks,
        Stage.Halted stage ∧ t' = t.go stage ∧ b' = { b with chunks } := by
      intro hfails
      obtain ⟨rfl, rfl⟩ := Prod.mk.inj (Option.some.inj hfails)
      exact ⟨.failing error, b.chunks, Or.inr ⟨error, rfl⟩, rfl, rfl⟩
    cases hat : t.stage with simp only [suffer, hat] at hsuffer
    | opening | sampling _ _ | testing _ _ _ => exact ⟨rfl, hfails hsuffer⟩
    | joining =>
      split at hsuffer
      · exact ⟨rfl, hfails hsuffer⟩
      · cases hsuffer
    | _ => cases hsuffer
  | cut =>
    cases hat : t.stage with simp only [suffer, hat] at hsuffer
    | reading r =>
      obtain ⟨rfl, rfl⟩ := Prod.mk.inj (Option.some.inj hsuffer)
      exact ⟨rfl, .joining, b.chunks, Or.inl rfl, rfl, rfl⟩
    | starting chunk r =>
      obtain ⟨rfl, rfl⟩ := Prod.mk.inj (Option.some.inj hsuffer)
      exact ⟨rfl, .joining, b.chunks.mark.leave, Or.inl rfl, rfl, rfl⟩
    | _ => cases hsuffer
  | silence => exact absurd hreading id
  | worker task worker => exact absurd hreading id

/-- An orderly happening in the thread of a file. -/
inductive Moves (x : Setup) (file : Nat) (t : Thread) (b : Board) :
    Happening → Thread → Board → Prop where
  | step {m : Move} {t' : Thread} {b' : Board} (h : t.step x file b m = some (t', b')) :
    Moves x file t b (.action (.move (.file file m))) t' b'
  | suffer {mishap : Mishap} {t' : Thread} {b' : Board}
    (hreading : (Incident.file file mishap).OfReading)
    (h : t.suffer b mishap = some (t', b')) : Moves x file t b (.incident (.file file mishap)) t' b'

end Thread

namespace State

/-- So many times the same step. -/
def times (count : Nat) (m : Move) : List Happening := List.replicate count (.action (.move m))

/-- What an orderly happening does to a run. The main thread drops the files that it has not started
only when the run is cancelled. -/
inductive Passes (x : Setup) (s : State) : Happening → State → Prop where
  | cancel : Passes x s (.action .cancel) { s with board := { s.board with cancelled := true } }
  | main {main : Main} {files : Resource.Gate}
    (hrest : main.rest = s.main.rest ∨ s.board.cancelled = true ∧ main.rest = []) :
    Passes x s (.action (.move .main)) { s with main, board := { s.board with files } }
  | spawn {path : String} {paths : List String} {files : Resource.Gate}
    (hmain : s.main = .starting path paths) :
    Passes x s (.action (.move .main)) {
      main := .looking paths
      threads := s.threads ++ [.start path x.audience.sinks]
      board := { s.board with files } }
  | thread {number : Nat} {t t' : Thread} {board : Board} {happening : Happening}
    (ht : s.threads[number]? = some t) (hmoves : t.Moves x number s.board happening t' board) :
    Passes x s happening { s with threads := s.threads.set number t', board }

variable {x : Setup} {paths : List String} {s s' : State} {happening : Happening}

/-- A step of the main thread passes the state on. -/
theorem passes_advance (hstep : s.advance x = some s') :
    Passes x s (.action (.move .main)) s' := by
  obtain ⟨main, threads, board⟩ := s
  unfold State.advance at hstep
  cases main with
  | looking pending =>
    cases pending with
    | nil =>
      obtain rfl := Option.some.inj hstep
      exact .main (Or.inl rfl)
    | cons path pending =>
      obtain rfl := Option.some.inj hstep
      refine .main ?_
      cases hcancelled : board.cancelled with
      | true => exact Or.inr ⟨rfl, rfl⟩
      | false => exact Or.inl rfl
  | waiting path pending =>
    obtain ⟨files, -, rfl⟩ := Option.map_eq_some_iff.1 hstep
    exact .main (Or.inl rfl)
  | starting path pending =>
    obtain rfl := Option.some.inj hstep
    exact .spawn rfl
  | joining =>
    simp only at hstep
    split at hstep
    · obtain rfl := Option.some.inj hstep
      exact .main (Or.inl rfl)
    · exact absurd hstep nofun
  | done cancelled => exact absurd hstep nofun

/-- An orderly happening passes the state on. -/
theorem passes_meet (horderly : happening.Orderly) (hmeet : s.meet x happening = some s') :
    Passes x s happening s' := by
  rcases happening with ((_ | ⟨number, m⟩) | _) | (_ | ⟨number, mishap⟩)
  · exact passes_advance hmeet
  · simp only [State.meet, State.act, State.step, stepFile] at hmeet
    split at hmeet
    · cases hmeet
    · rename_i t ht
      obtain ⟨⟨t', board⟩, hstep, rfl⟩ := Option.map_eq_some_iff.1 hmeet
      exact .thread ht (.step hstep)
  · obtain rfl := Option.some.inj hmeet
    exact .cancel
  · exact absurd horderly id
  · simp only [State.meet, State.suffer] at hmeet
    split at hmeet
    · cases hmeet
    · rename_i t ht
      obtain ⟨⟨t', board⟩, hsuffer, rfl⟩ := Option.map_eq_some_iff.1 hmeet
      exact .thread ht (.suffer horderly hsuffer)

/-- Every happening keeps the gates balanced. -/
theorem Balanced.meet (h : s.Balanced x) (hmeet : s.meet x happening = some s') :
    s'.Balanced x := by
  cases happening with
  | action action => exact h.act hmeet
  | incident incident => exact h.suffer hmeet

/-- A history goes on from where another one has come to. -/
theorem afterAll_append (s : State) (before after : List Happening) :
    s.afterAll x (before ++ after) =
      (s.afterAll x before).bind fun moment => moment.afterAll x after := by
  induction before generalizing s with
  | nil => rfl
  | cons happening before ih =>
    simp only [List.cons_append, afterAll, Option.bind_assoc, ih]

/-- What every happening of a kind preserves in a balanced run holds after a history of such
happenings. -/
theorem preserved_afterAll_of {R : Happening → Prop} {P : State → Prop}
    (hmeets : ∀ {s s' happening}, R happening → s.Balanced x → s'.Balanced x →
      s.meet x happening = some s' → P s → P s')
    (hbalanced : s.Balanced x) (h : P s) {history : List Happening}
    (hall : ∀ happening ∈ history, R happening) (hafter : s.afterAll x history = some s') :
    P s' := by
  induction history generalizing s with
  | nil => exact Option.some.inj hafter ▸ h
  | cons happening history ih =>
    obtain ⟨next, hmeet, hnext⟩ := Option.bind_eq_some_iff.1 hafter
    rw [List.forall_mem_cons] at hall
    have hkept := hbalanced.meet hmeet
    exact ih hkept (hmeets hall.1 hbalanced hkept hmeet h) hall.2 hnext

/-- What every orderly happening preserves in a balanced run holds after an orderly history. -/
theorem preserved_afterAll {P : State → Prop}
    (hpasses : ∀ {s s' happening}, s.Balanced x → s'.Balanced x → Passes x s happening s' →
      P s → P s') (hbalanced : s.Balanced x) (h : P s) {history : List Happening}
    (horderly : ∀ happening ∈ history, happening.Orderly)
    (hafter : s.afterAll x history = some s') : P s' :=
  preserved_afterAll_of (fun horderly hbefore hkept hmeet =>
    hpasses hbefore hkept (passes_meet horderly hmeet)) hbalanced h horderly hafter

/-! ## The names of the files -/

/-- The threads and the files that are still to be started have their paths in the order in which
the files were named. Only a run that is cancelled drops files. -/
def Named (paths : List String) (s : State) : Prop :=
  ∃ dropped, s.threads.map Thread.path ++ (s.main.rest ++ dropped) = paths ∧
    (s.board.cancelled = false → dropped = [])

/-- At the start the files have the paths that were given. -/
theorem named_start (cancelled : Bool) : (start x cancelled paths).Named paths :=
  ⟨[], List.append_nil paths, fun _ => rfl⟩

/-- The thread of a file has its path. -/
theorem Named.getElem?_paths (h : s.Named paths) {file : Nat} {t : Thread}
    (ht : s.threads[file]? = some t) : paths[file]? = some t.path := by
  obtain ⟨dropped, hpaths, -⟩ := h
  obtain ⟨hfile, -⟩ := List.getElem?_eq_some_iff.1 ht
  rw [← hpaths, List.getElem?_append_left (by simpa using hfile), List.getElem?_map, ht]
  rfl

/-- There are no more threads than files. -/
theorem Named.length_threads_le (h : s.Named paths) : s.threads.length ≤ paths.length := by
  obtain ⟨dropped, hpaths, -⟩ := h
  have hlength := congrArg List.length hpaths
  rw [List.length_append, List.length_map] at hlength
  omega

end State

/-- What happens in the thread of a file leaves other files alone, and a cancelled run cancelled. -/
theorem Thread.Moves.apart {x : Setup} {file : Nat} {t t' : Thread} {b b' : Board}
    {happening : Happening} (h : t.Moves x file b happening t' b') : Apart file t t' b b' := by
  cases h with
  | step h => exact apart_step h
  | suffer hreading h =>
    obtain ⟨-, stage, chunks, -, rfl, rfl⟩ := suffer_cases hreading h
    exact apart_of_eq rfl rfl rfl rfl

/-- A move keeps a thread settled. -/
theorem Thread.Settled.moves {x : Setup} {file : Nat} {t t' : Thread} {b b' : Board}
    {happening : Happening} (hsettled : t.Settled) (h : t.Moves x file b happening t' b') :
    t'.Settled := by
  cases h with
  | step h => exact hsettled.step h
  | suffer hreading h => exact hsettled.suffer h

namespace State

variable {x : Setup} {paths : List String} {s s' : State} {happening : Happening}

/-- A thread keeps its path whatever happens in it. -/
theorem map_path_set {number : Nat} {t t' : Thread} (ht : s.threads[number]? = some t)
    (hpath : t'.path = t.path) :
    (s.threads.set number t').map Thread.path = s.threads.map Thread.path := by
  obtain ⟨hnumber, hget⟩ := List.getElem?_eq_some_iff.1 ht
  rw [List.map_set, hpath, ← List.map_set, ← hget, List.set_getElem_self]

/-- The files keep their paths. -/
theorem Named.passes (h : s.Named paths) (hpasses : Passes x s happening s') :
    s'.Named paths := by
  obtain ⟨dropped, hpaths, hdropped⟩ := h
  cases hpasses with
  | cancel => exact ⟨dropped, hpaths, nofun⟩
  | main hrest =>
    rcases hrest with hrest | ⟨hcancelled, hrest⟩
    · exact ⟨dropped, by rw [← hpaths, hrest], hdropped⟩
    · refine ⟨s.main.rest ++ dropped, by rw [← hpaths, hrest]; rfl, fun hcalm => ?_⟩
      exact absurd (hcancelled.symm.trans hcalm) nofun
  | spawn hmain =>
    rw [hmain] at hpaths
    refine ⟨dropped, ?_, hdropped⟩
    rw [← hpaths, List.map_append, List.append_assoc]
    rfl
  | thread ht hmoves =>
    have hapart := hmoves.apart
    exact ⟨dropped, by rw [map_path_set ht hapart.path]; exact hpaths,
      fun hcalm => hdropped (hapart.later.not_cancelled hcalm)⟩

/-- After any orderly history the files have the paths that were given. -/
theorem Named.afterAll {cancelled : Bool} {history : List Happening}
    (horderly : ∀ happening ∈ history, happening.Orderly)
    (hafter : (start x cancelled paths).afterAll x history = some s) : s.Named paths :=
  preserved_afterAll (fun _ _ hpasses h => h.passes hpasses) (balanced_start cancelled paths)
    (named_start cancelled) horderly hafter

end State

/-! ## What a board tells about a file -/

/-- What a board tells about a file: what was asked for it, what became of its lines, and the
reports on it, the last of each first. -/
structure Page where
  events : List Event
  deliveries : List Delivery
  reports : List FileReport

namespace Board

/-- What became of the lines of a file, the last one first. -/
def deliveriesOf (b : Board) (file : Nat) : List Delivery :=
  (b.deliveries.filter (·.1 == file)).map Prod.snd

/-- What a board tells about a file. -/
def page (b : Board) (file : Nat) : Page := ⟨b.eventsOf file, b.deliveriesOf file, b.reportsOf file⟩

/-- A delivery that is noted is the latest one of its file. -/
theorem deliveriesOf_note (b : Board) (file : Nat) (d : Delivery) :
    (b.note file d).deliveriesOf file = d :: b.deliveriesOf file := by
  simp [note, deliveriesOf]

/-- A delivery that is noted is none of another file. -/
theorem deliveriesOf_note_of_ne (b : Board) {file other : Nat} (h : other ≠ file) (d : Delivery) :
    (b.note file d).deliveriesOf other = b.deliveriesOf other := by
  have hfile : (file == other) = false := by simpa using h.symm
  simp [note, deliveriesOf, hfile]

end Board

/-- Nothing is known of a file. -/
def Page.blank : Page := ⟨[], [], []⟩

/-- A worker on a file delivers no lines of others. -/
theorem Worker.deliveriesOf_step {a : Audience} {file other : Nat} {path : String} {d : Desk}
    (h : other ≠ file) (w : Worker) :
    (w.step a file path d).2.board.deliveriesOf other = d.board.deliveriesOf other := by
  have heffect := @effect_step a file path d w
  generalize (w.step a file path d).2.board = board at heffect ⊢
  cases heffect with
  | note delivery => exact d.board.deliveriesOf_note_of_ne h delivery
  | breakOff sink line delivery => exact Board.deliveriesOf_note_of_ne _ h delivery
  | _ => rfl

/-- A worker delivers nothing for other files. -/
theorem Task.deliveriesOf_step {a : Audience} {file other worker : Nat} {path : String}
    {t t' : Task} {d d' : Desk} (hother : other ≠ file)
    (h : t.step a file path worker d = some (t', d')) :
    d'.board.deliveriesOf other = d.board.deliveriesOf other := by
  rcases step_cases h with ⟨-, rfl, -⟩ | ⟨w, -, -, -, rfl, -⟩
  · rfl
  · exact w.deliveriesOf_step hother

namespace Thread

variable {x : Setup} {file : Nat} {t t' : Thread} {b b' : Board} {happening : Happening}

/-- Only the workers of a thread deliver lines. -/
theorem deliveriesOf_own (hown : t.own x file b = some (t', b')) (other : Nat) :
    b'.deliveriesOf other = b.deliveriesOf other := by
  rcases own_cases hown with ⟨stage, -, heffect⟩ | ⟨chunk, r, -, rfl⟩
  · cases heffect <;> rfl
  · rfl

/-- A move of a thread delivers nothing for other files. -/
theorem deliveriesOf_step {other : Nat} (hother : other ≠ file) {m : Move}
    (hstep : t.step x file b m = some (t', b')) : b'.deliveriesOf other = b.deliveriesOf other := by
  rcases step_cases hstep with hown | ⟨task, worker, k, k', d, -, hwork, -, rfl⟩ |
    ⟨task, k, -, -, -, rfl⟩
  · exact deliveriesOf_own hown other
  · exact Task.deliveriesOf_step hother hwork
  · rfl

/-- What happens in the thread of a file changes nothing that is known of other files. -/
theorem Moves.page_of_ne (h : t.Moves x file b happening t' b') {other : Nat}
    (hother : other ≠ file) : b'.page other = b.page other := by
  have hsame := h.apart.others other hother
  have hdeliveries : b'.deliveriesOf other = b.deliveriesOf other := by
    cases h with
    | step h => exact deliveriesOf_step hother h
    | suffer hreading h =>
      obtain ⟨-, stage, chunks, -, -, rfl⟩ := suffer_cases hreading h
      rfl
  rw [Board.page, hsame.events, hdeliveries, hsame.reports, ← Board.page]

end Thread

namespace State

/-- Each thread has a property with what is known of its file, and nothing is known of the files
without a thread. -/
structure Paged (P : Nat → Thread → Page → Prop) (s : State) : Prop where
  threads : ∀ (file : Nat) (t : Thread), s.threads[file]? = some t → P file t (s.board.page file)
  unborn : ∀ file, s.threads.length ≤ file → s.board.page file = .blank

variable {x : Setup} {paths : List String} {s s' : State} {happening : Happening}
  {P : Nat → Thread → Page → Prop}

/-- What holds of blank pages holds at the start. -/
theorem paged_start (cancelled : Bool) : (start x cancelled paths).Paged P :=
  ⟨fun _ _ ht => absurd ht nofun, fun _ _ => rfl⟩

/-- Whoever was asked was asked for a file with a thread. -/
theorem Paged.event_lt (h : s.Paged P) : ∀ e ∈ s.board.events, e.file < s.threads.length := by
  intro e he
  by_contra hfile
  have hblank : s.board.eventsOf e.file = [] :=
    congrArg Page.events (h.unborn e.file (Nat.le_of_not_lt hfile))
  have hmem : e ∈ s.board.eventsOf e.file := List.mem_filter.2 ⟨he, by simp⟩
  rw [hblank] at hmem
  exact List.not_mem_nil hmem

/-- Lines were delivered for files with a thread only. -/
theorem Paged.delivery_lt (h : s.Paged P) :
    ∀ entry ∈ s.board.deliveries, entry.1 < s.threads.length := by
  rintro ⟨file, d⟩ hmem
  by_contra hfile
  have hblank : s.board.deliveriesOf file = [] :=
    congrArg Page.deliveries (h.unborn file (Nat.le_of_not_lt hfile))
  have hd : d ∈ s.board.deliveriesOf file :=
    List.mem_map.2 ⟨_, List.mem_filter.2 ⟨hmem, by simp⟩, rfl⟩
  rw [hblank] at hd
  exact List.not_mem_nil hd

/-- An orderly happening leaves a cancelled run cancelled. -/
theorem Passes.later (h : Passes x s happening s') : s.board.Later s'.board := by
  cases h with
  | cancel => exact fun _ => rfl
  | main hrest => exact id
  | spawn hmain => exact id
  | thread ht hmoves => exact hmoves.apart.later

/-- What each thread preserves with regard to its own file and the flag is preserved for all of
them, if it stays true when the run is cancelled. -/
theorem Paged.passes_of_flag {P : Bool → Nat → Thread → Page → Prop}
    (hstart : ∀ cancelled file path, P cancelled file (.start path x.audience.sinks) .blank)
    (hcancel : ∀ {file t p}, P false file t p → P true file t p)
    (hmoves : ∀ {file t t' b b'}, t.Settled → Thread.Moves x file t b happening t' b' →
      P b.cancelled file t (b.page file) → P b'.cancelled file t' (b'.page file))
    (hbalanced : s.Balanced x) (hpasses : Passes x s happening s')
    (h : s.Paged (P s.board.cancelled)) : s'.Paged (P s'.board.cancelled) := by
  have hlater : ∀ {file t p}, P s.board.cancelled file t p → P s'.board.cancelled file t p := by
    intro file t p hp
    have hflag := hpasses.later
    rw [Board.Later] at hflag
    cases hbefore : s.board.cancelled <;> cases hafter : s'.board.cancelled <;>
      simp_all
  cases hpasses with
  | cancel => exact ⟨fun file t ht => hlater (h.threads file t ht), h.unborn⟩
  | main hrest => exact ⟨h.threads, h.unborn⟩
  | spawn hmain =>
    refine ⟨fun file t ht => ?_, fun file hfile => ?_⟩
    · rcases Nat.lt_trichotomy file s.threads.length with hlt | rfl | hgt
      · rw [List.getElem?_append_left hlt] at ht
        exact h.threads file t ht
      · rw [List.getElem?_concat_length] at ht
        obtain rfl := Option.some.inj ht
        exact (h.unborn _ (Nat.le_refl _)).symm ▸ hstart _ _ _
      · rw [List.getElem?_eq_none (by simpa using Nat.succ_le_of_lt hgt)] at ht
        exact absurd ht nofun
    · rw [List.length_append, List.length_singleton] at hfile
      exact h.unborn file (Nat.le_of_succ_le hfile)
  | @thread number t t' board _ ht hthread =>
    obtain ⟨hnumber, -⟩ := List.getElem?_eq_some_iff.1 ht
    refine ⟨fun file other hother => ?_, fun file hfile => ?_⟩
    · rw [List.getElem?_set] at hother
      split at hother
      · rename_i hfile
        subst hfile
        obtain rfl := Option.some.inj hother
        exact hmoves (hbalanced.settled t (List.mem_of_getElem? ht)) hthread (h.threads number t ht)
      · rename_i hfile
        rw [hthread.page_of_ne (Ne.symm hfile)]
        exact hlater (h.threads file other hother)
    · rw [List.length_set] at hfile
      rw [hthread.page_of_ne (by omega)]
      exact h.unborn file hfile

/-- What each thread preserves with regard to its own file is preserved for all of them. -/
theorem Paged.passes (hstart : ∀ file path, P file (.start path x.audience.sinks) .blank)
    (hmoves : ∀ {file t t' b b' happening}, t.Settled → Thread.Moves x file t b happening t' b' →
      P file t (b.page file) → P file t' (b'.page file))
    (hbalanced : s.Balanced x) (hpasses : Passes x s happening s') (h : s.Paged P) :
    s'.Paged P :=
  Paged.passes_of_flag (fun _ => hstart) id hmoves hbalanced hpasses h

/-- What each thread preserves with regard to its own file holds of all threads after an orderly
history. -/
theorem paged_afterAll (hstart : ∀ file path, P file (.start path x.audience.sinks) .blank)
    (hmoves : ∀ {file t t' b b' happening}, t.Settled → Thread.Moves x file t b happening t' b' →
      P file t (b.page file) → P file t' (b'.page file))
    {cancelled : Bool} {history : List Happening}
    (horderly : ∀ happening ∈ history, happening.Orderly)
    (hafter : (start x cancelled paths).afterAll x history = some s) : s.Paged P :=
  preserved_afterAll
    (fun hbalanced _ hpasses h => h.passes hstart hmoves hbalanced hpasses)
    (balanced_start cancelled paths) (paged_start cancelled) horderly hafter

end State

end LogAudit.Ingest
