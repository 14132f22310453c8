import LogAudit.Resource.Gate

/-!
# Gates count permits

A gate with a limit has as many workers inside as there are permits out, never more than the limit,
and its peak keeps within the limit too (`Gate.Holds`). This is so after any requests to a gate, and
a request without waiting is refused exactly if all places are taken
(`Admission.holds_of_afterAll`, `Admission.tryAcquire_eq_false_iff`).
-/

namespace LogAudit.Resource

namespace Gate

/-- The gate has the limit, so many permits are out, and there never were more than the limit. -/
structure Holds (g : Gate) (limit permits : Nat) : Prop where
  sized : g.limit = limit
  counted : g.inFlight = permits
  room : permits ≤ limit
  peaked : g.peak ≤ limit

variable {g g' : Gate} {limit permits : Nat}

/-- A new gate has all its places, and at least one. -/
theorem holds_ofLimit (limit : Nat) : (ofLimit limit).Holds (max limit 1) 0 :=
  ⟨rfl, rfl, Nat.zero_le _, Nat.zero_le _⟩

/-- A place that is taken is one permit more. -/
theorem Holds.take (h : g.Holds limit permits) (htake : g.take? = some g') :
    g'.Holds limit (permits + 1) := by
  obtain ⟨rfl, rfl, -, hpeak⟩ := h
  unfold take? at htake
  split at htake
  · rename_i hroom
    obtain rfl := Option.some.inj htake
    exact ⟨rfl, rfl, hroom, hpeak⟩
  · exact absurd htake (by simp)

/-- There is a place unless all are taken. -/
theorem Holds.take?_eq_none_iff (h : g.Holds limit permits) :
    g.take? = none ↔ permits = limit := by
  obtain ⟨rfl, rfl, hroom, -⟩ := h
  unfold take?
  split
  · simp only [reduceCtorEq, false_iff]
    omega
  · simp only [true_iff]
    omega

/-- Marking changes no permits. -/
theorem Holds.mark (h : g.Holds limit permits) : g.mark.Holds limit permits := by
  obtain ⟨rfl, rfl, hroom, hpeak⟩ := h
  exact ⟨rfl, rfl, hroom, Nat.max_le.2 ⟨hpeak, hroom⟩⟩

/-- A place that is given back is one permit less. -/
theorem Holds.leave (h : g.Holds limit (permits + 1)) : g.leave.Holds limit permits := by
  obtain ⟨rfl, hinFlight, hroom, hpeak⟩ := h
  refine ⟨rfl, ?_, Nat.le_of_succ_le hroom, hpeak⟩
  rw [Gate.leave, hinFlight, Nat.add_sub_cancel]

/-- Who enters holds one permit more. -/
theorem Holds.enter (h : g.Holds limit permits) (henter : g.enter? = some g') :
    g'.Holds limit (permits + 1) := by
  obtain ⟨taken, htake, rfl⟩ := Option.map_eq_some_iff.1 henter
  exact (h.take htake).mark

/-- Nobody enters exactly if all places are taken. -/
theorem Holds.enter?_eq_none_iff (h : g.Holds limit permits) :
    g.enter? = none ↔ permits = limit := by
  rw [enter?, Option.map_eq_none_iff, h.take?_eq_none_iff]

end Gate

namespace Admission

/-- What a gate is asked for. -/
inductive Request where
  /-- A permit, without waiting. -/
  | attempt
  /-- A permit, waiting for it. -/
  | wait
  /-- To take back the permit with a number. -/
  | release (permit : Nat)

/-- What a gate is asked for is done, unless that has to wait. -/
def serve? (a : Admission) : Request → Option Admission
  | .attempt => some a.tryAcquire.1
  | .wait => a.acquire?
  | .release permit => some (a.release permit).1

/-- Requests are served one after the other. -/
def serveAll? (a : Admission) : List Request → Option Admission
  | [] => some a
  | request :: requests => (a.serve? request).bind (serveAll? · requests)

/-- How many permits are held. -/
def held (a : Admission) : Nat := a.permits.count true

variable {a a' : Admission} {limit : Nat}

/-- A permit that is given back is held no longer. -/
theorem count_set_false {permits : List Bool} {permit : Nat} (h : permits[permit]? = some true) :
    (permits.set permit false).count true + 1 = permits.count true := by
  induction permits generalizing permit with
  | nil => simp at h
  | cons first permits ih =>
    cases permit with
    | zero =>
      obtain rfl : first = true := by simpa using h
      simp
    | succ permit =>
      have hrest := ih (by simpa using h)
      rw [List.set_cons_succ, List.count_cons, List.count_cons]
      omega

/-- A request that is served keeps the permits and the places of the gate in step. -/
theorem serve_holds (h : a.gate.Holds limit a.held) {request : Request}
    (hserve : a.serve? request = some a') : a'.gate.Holds limit a'.held := by
  cases request with
  | attempt =>
    obtain rfl := Option.some.inj hserve
    unfold tryAcquire
    split
    · rename_i gate henter
      simpa [held] using h.enter henter
    · simpa [held] using h
  | wait =>
    obtain ⟨gate, henter, rfl⟩ := Option.map_eq_some_iff.1 hserve
    simpa [held] using h.enter henter
  | release permit =>
    obtain rfl := Option.some.inj hserve
    unfold release
    split
    · rename_i hheld
      rw [held, ← count_set_false hheld] at h
      exact h.leave
    · exact h

/-- Whatever a gate is asked for, it has as many inside as permits are held. -/
theorem serveAll_holds (h : a.gate.Holds limit a.held) {requests : List Request}
    (hserve : a.serveAll? requests = some a') : a'.gate.Holds limit a'.held := by
  induction requests generalizing a with
  | nil => exact Option.some.inj hserve ▸ h
  | cons request requests ih =>
    obtain ⟨next, hfirst, hrest⟩ := Option.bind_eq_some_iff.1 hserve
    exact ih (serve_holds h hfirst) hrest

/-- A request without waiting is refused exactly if all places are taken. -/
theorem tryAcquire_eq_false_iff (h : a.gate.Holds limit a.held) :
    a.tryAcquire.2 = false ↔ a.held = limit := by
  rw [← h.enter?_eq_none_iff, tryAcquire]
  split <;> simp [*]

end Admission

end LogAudit.Resource
