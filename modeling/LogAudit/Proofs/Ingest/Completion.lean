import LogAudit.Proofs.Ingest.Histories

/-!
# Runs go on to their end

Going on with a run, the threads of files first (`State.finish`), starts no thread before those
started earlier have ended. So the only thread that has not ended never finds a gate full, and the
run goes on until it is over (`State.finished_finish`).
-/

namespace LogAudit.Ingest

namespace Thread

/-- Nothing happens next only in a thread that has ended. -/
theorem ended_of_next? {t : Thread} (hnext : t.next? = none) : t.stage = .ended := by
  by_contra hended
  have hsome := isSome_next? hended
  rw [hnext] at hsome
  exact absurd hsome nofun

/-- Something happens next only in a thread that has not ended. -/
theorem Settled.ne_ended_of_next? {t : Thread} (h : t.Settled) {m : Move}
    (hnext : t.next? = some m) : t.stage ≠ .ended := by
  intro hended
  have htasks := h.tasks (by rw [hended]; rfl)
  simp [next?, htasks, hended] at hnext

end Thread

namespace State

variable {x : Setup} {s s' : State}

/-- One thread at most has not ended. -/
def Solo (s : State) : Prop :=
  ∀ (i j : Nat) (t u : Thread), s.threads[i]? = some t → s.threads[j]? = some u →
    t.stage ≠ .ended → u.stage ≠ .ended → i = j

/-- The next step is one of a thread, or of the main thread when all threads have ended. -/
theorem next?_cases {m : Move} (hnext : s.next? = some m) :
    (∃ number t move, s.threads[number]? = some t ∧ t.next? = some move ∧
      m = .file number move) ∨
    m = .main ∧ s.finished = false ∧ ∀ t ∈ s.threads, t.stage = .ended := by
  unfold next? at hnext
  split at hnext
  · rename_i number hfound
    obtain ⟨hnumber, -, -⟩ := List.findIdx?_eq_some_iff_getElem.1 hfound
    obtain ⟨move, hmove, rfl⟩ := Option.map_eq_some_iff.1 hnext
    rw [List.getElem?_eq_getElem hnumber, Option.bind_some] at hmove
    exact Or.inl ⟨number, _, move, List.getElem?_eq_getElem hnumber, hmove, rfl⟩
  · rename_i hnone
    split at hnext
    · exact absurd hnext nofun
    · rename_i hunfinished
      obtain rfl := Option.some.inj hnext
      refine Or.inr ⟨rfl, by simpa using hunfinished, fun t ht => Thread.ended_of_next? ?_⟩
      simpa using List.findIdx?_eq_none_iff.1 hnone t ht

/-- Nothing is next only when the run is over. -/
theorem finished_of_next? (hnext : s.next? = none) : s.finished = true := by
  unfold next? at hnext
  split at hnext
  · rename_i number hfound
    obtain ⟨hnumber, hsome, -⟩ := List.findIdx?_eq_some_iff_getElem.1 hfound
    rw [Option.map_eq_none_iff, List.getElem?_eq_getElem hnumber, Option.bind_some] at hnext
    rw [hnext] at hsome
    exact absurd hsome nofun
  · by_contra hunfinished
    simp [hunfinished] at hnext

/-- The only thread that has not ended does not find the gate for chunks full. -/
theorem Solo.step_ne_none (hsolo : s.Solo) (h : s.Balanced x) {m : Move}
    (hnext : s.next? = some m) : s.step x m ≠ none := by
  rcases next?_cases hnext with ⟨number, t, move, ht, hmove, rfl⟩ | ⟨rfl, hunfinished, hended⟩
  · intro hstuck
    have hopen := (h.settled t (List.mem_of_getElem? ht)).ne_ended_of_next? hmove
    simp only [step, stepFile, ht, Option.map_eq_none_iff] at hstuck
    rcases Thread.step_next?_or_waiting x number s.board hmove with hstep | ⟨hpermits, hfull⟩
    · rw [hstuck] at hstep
      cases hstep
    · have hzero : s.chunkPermits = 0 := by
        refine sumOver_eq_zero fun u hu => ?_
        by_cases hended : u.stage = .ended
        · exact (h.permits_of_ended hu hended).2
        · obtain ⟨other, hother⟩ := List.getElem?_of_mem hu
          obtain rfl := hsolo other number u t hother ht hended hopen
          rw [ht] at hother
          rw [← Option.some.inj hother, hpermits]
      have hlimit : 0 < x.chunkLimit := Nat.le_max_right _ _
      rw [← h.gates.chunks.take?_eq_none_iff.1 hfull, hzero] at hlimit
      exact absurd hlimit (Nat.lt_irrefl 0)
  · exact h.advance_ne_none hended hunfinished

/-- The main thread starts one thread at most. -/
theorem threads_advance (hstep : s.advance x = some s') :
    s'.threads = s.threads ∨ ∃ t, s'.threads = s.threads ++ [t] := by
  cases passes_advance hstep with
  | main hrest => exact Or.inl rfl
  | spawn hmain => exact Or.inr ⟨_, rfl⟩
  | thread ht hmoves => exact nomatch hmoves

/-- No thread is started before those started earlier have ended. -/
theorem Solo.step (hsolo : s.Solo) (h : s.Balanced x) {m : Move} (hnext : s.next? = some m)
    (hstep : s.step x m = some s') : s'.Solo := by
  rcases next?_cases hnext with ⟨number, t, move, ht, hmove, rfl⟩ | ⟨rfl, hunfinished, hended⟩
  · have hopen := (h.settled t (List.mem_of_getElem? ht)).ne_ended_of_next? hmove
    simp only [State.step, stepFile, ht] at hstep
    obtain ⟨⟨t', board⟩, -, rfl⟩ := Option.map_eq_some_iff.1 hstep
    have honly : ∀ (i : Nat) (u : Thread), (s.threads.set number t')[i]? = some u →
        u.stage ≠ .ended → i = number := by
      intro i u hu hu_open
      by_contra hi
      rw [List.getElem?_set_ne (Ne.symm hi)] at hu
      exact hi (hsolo i number u t hu ht hu_open hopen)
    intro i j u v hu hv hu_open hv_open
    rw [honly i u hu hu_open, honly j v hv hv_open]
  · have honly : ∀ (i : Nat) (u : Thread), s'.threads[i]? = some u → u.stage ≠ .ended →
        i = s.threads.length := by
      intro i u hu hu_open
      rcases threads_advance hstep with hsame | ⟨t, hmore⟩
      · rw [hsame] at hu
        exact absurd (hended u (List.mem_of_getElem? hu)) hu_open
      · rw [hmore] at hu
        rcases Nat.lt_trichotomy i s.threads.length with hlt | rfl | hgt
        · rw [List.getElem?_append_left hlt] at hu
          exact absurd (hended u (List.mem_of_getElem? hu)) hu_open
        · rfl
        · rw [List.getElem?_eq_none (by simpa using Nat.succ_le_of_lt hgt)] at hu
          cases hu
    intro i j u v hu hv hu_open hv_open
    rw [honly i u hu hu_open, honly j v hv hv_open]

/-- A run with one thread at most that has not ended is over when nothing more happens. -/
theorem Solo.finished_finish (hsolo : s.Solo) (h : s.Balanced x) :
    (s.finish x).finished = true := by
  fun_induction finish x s with
  | case1 s hnext => exact finished_of_next? hnext
  | case2 s move hnext hstep => exact absurd hstep (hsolo.step_ne_none h hnext)
  | case3 s move hnext s' hstep ih =>
    have hact : s.act x (.move move) = some s' := hstep
    exact ih (hsolo.step h hnext hstep) (h.act hact)

/-- Every run goes on to its end. -/
theorem finished_finish (cancelled : Bool) (paths : List String) :
    ((start x cancelled paths).finish x).finished = true :=
  Solo.finished_finish (fun _ _ _ _ ht => absurd ht nofun) (balanced_start cancelled paths)

end State

end LogAudit.Ingest
