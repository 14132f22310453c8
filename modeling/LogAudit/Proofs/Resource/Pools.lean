import LogAudit.Proofs.Ingest.Interleaving
import LogAudit.Resource.Pool

/-!
# Pools keep their objects apart

Whatever the holders of leases do, and in whatever order their steps come, every object that was
made is in one place: it has a holder, or is idle, or was discarded. Idle objects are empty, small
and few (`Lending.Accounted`), so that every lease starts with an empty object
(`Lending.Accounted.size_of_step_held`). An object that comes back is discarded exactly if it is too
large or the pool is full (`Lending.Accounted.mem_release`), and one is made exactly for a lease
that found none (`Lending.created_make_of_ask`).
-/

namespace LogAudit.Resource

namespace Pool

variable {α : Type} [Recycle α] {p p' : Pool α} {item : Item α}

/-- An object is refused if it is too large or the pool is full. -/
theorem keep?_eq_none_iff : p.keep? item = none ↔
    p.maxCapacity < Recycle.capacity item.object ∨ p.maxRetained ≤ p.idle.length := by
  rw [keep?, ← Nat.not_lt]
  split
  · simp [*]
  · split <;> simp [*]

/-- An object that is kept is emptied and small enough, and there was room for it. -/
theorem keep?_eq_some_iff : p.keep? item = some p' ↔
    Recycle.capacity item.object ≤ p.maxCapacity ∧ p.idle.length < p.maxRetained ∧
      p' = { p with idle := { item with object := Recycle.clear item.object } :: p.idle } := by
  rw [keep?, ← Nat.not_lt]
  split
  · simp [*]
  · split <;> simp [*, eq_comm]

end Pool

namespace Lease

variable {α : Type}

/-- The object that the holder of a lease has. -/
def held? : Lease α → Option (Item α)
  | held item => some item
  | _ => none

/-- The object that was discarded at the end of a lease. -/
def discarded? : Lease α → Option (Item α)
  | discarded item => some item
  | _ => none

/-- The object that a lease accounts for: its holder has it, or it was discarded. -/
def item? : Lease α → Option (Item α)
  | held item | discarded item => some item
  | _ => none

end Lease

namespace Lending

open Ingest (set_perm_cons_eraseIdx_of_getElem?)

variable {α : Type} {s s' : Lending α}

/-- The objects that holders of leases have. -/
def live (s : Lending α) : List (Item α) := s.leases.filterMap Lease.held?

/-- The objects that were discarded. -/
def discarded (s : Lending α) : List (Item α) := s.leases.filterMap Lease.discarded?

/-- All objects, wherever they are. -/
def items (s : Lending α) : List (Item α) := s.live ++ s.pool.idle ++ s.discarded

/-- An item is held exactly by the lease that has it. -/
theorem held?_eq_some_iff {lease : Nat} {item : Item α} :
    s.held? lease = some item ↔ s.leases[lease]? = some (.held item) := by
  unfold held?
  split
  · rename_i other hlease
    rw [hlease, Option.some.injEq, Option.some.injEq, Lease.held.injEq]
  · rename_i hother
    refine ⟨nofun, fun hlease => ?_⟩
    exact absurd hlease (hother item)

variable [Recycle α]

/-! ## What a step does -/

/-- What a step of a holder does, unless it changes nothing. -/
inductive Effect (s : Lending α) : Move α → Lending α → Prop where
  | reuse {item : Item α} {idle : List (Item α)} (hidle : s.pool.idle = item :: idle) :
    Effect s .ask ⟨{ s.pool with idle }, s.leases ++ [.held item]⟩
  | miss (hidle : s.pool.idle = []) : Effect s .ask ⟨s.pool, s.leases ++ [.wanting]⟩
  | make {lease : Nat} (hlease : s.leases[lease]? = some .wanting) :
    Effect s (.make lease) ⟨s.pool.make.2, s.leases.set lease (.held s.pool.make.1)⟩
  | write {lease : Nat} {change : α → α} {item : Item α}
    (hlease : s.leases[lease]? = some (.held item)) :
    Effect s (.write lease change)
      ⟨s.pool, s.leases.set lease (.held { item with object := change item.object })⟩
  | keep {lease : Nat} {item : Item α} (hlease : s.leases[lease]? = some (.held item))
    (hsmall : Recycle.capacity item.object ≤ s.pool.maxCapacity)
    (hroom : s.pool.idle.length < s.pool.maxRetained) :
    Effect s (.release lease)
      ⟨{ s.pool with idle := { item with object := Recycle.clear item.object } :: s.pool.idle },
        s.leases.set lease .returned⟩
  | discard {lease : Nat} {item : Item α} (hlease : s.leases[lease]? = some (.held item))
    (hrefused : s.pool.maxCapacity < Recycle.capacity item.object ∨
      s.pool.maxRetained ≤ s.pool.idle.length) :
    Effect s (.release lease) ⟨s.pool, s.leases.set lease (.discarded item)⟩

/-- Asking has the effect of a lookup. -/
theorem effect_ask (s : Lending α) : Effect s .ask (s.step .ask) := by
  unfold step Pool.take?
  cases hidle : s.pool.idle with
  | nil => exact .miss hidle
  | cons item idle => exact .reuse hidle

/-- Giving an item back has the effect of a release. -/
theorem effect_release {lease : Nat} {item : Item α} (h : s.held? lease = some item) :
    Effect s (.release lease) (s.step (.release lease)) := by
  have hlease := held?_eq_some_iff.1 h
  simp only [step, h]
  split
  · rename_i pool hkept
    obtain ⟨hsmall, hroom, rfl⟩ := Pool.keep?_eq_some_iff.1 hkept
    exact .keep hlease hsmall hroom
  · rename_i hrefused
    exact .discard hlease (Pool.keep?_eq_none_iff.1 hrefused)

/-- Every step has such an effect, or changes nothing. -/
theorem effect_or_eq (s : Lending α) (m : Move α) : Effect s m (s.step m) ∨ s.step m = s := by
  cases m with
  | ask => exact Or.inl (effect_ask s)
  | make lease =>
    simp only [step]
    split
    · rename_i hlease
      exact Or.inl (.make hlease)
    · exact Or.inr rfl
  | write lease change =>
    simp only [step]
    split
    · rename_i hheld
      exact Or.inl (.write (held?_eq_some_iff.1 hheld))
    · exact Or.inr rfl
  | release lease =>
    cases hheld : s.held? lease with
    | some item => exact Or.inl (effect_release hheld)
    | none => exact Or.inr (by simp only [step, hheld])

variable {m : Move α}

/-- What holds before a step that changes nothing, and after every effect of it, holds after it. -/
theorem step_of_effect {p : Lending α → Prop} (hsame : p s)
    (heffect : ∀ {s'}, Effect s m s' → p s') : p (s.step m) := by
  rcases effect_or_eq s m with h | h
  · exact heffect h
  · rwa [h]

/-- The limits of a pool stay as they are. -/
theorem limits_step (s : Lending α) (m : Move α) :
    (s.step m).pool.initialCapacity = s.pool.initialCapacity ∧
      (s.step m).pool.maxRetained = s.pool.maxRetained := by
  rcases effect_or_eq s m with h | h
  · generalize s.step m = s' at h
    cases h <;> exact ⟨rfl, rfl⟩
  · rw [h]
    exact ⟨rfl, rfl⟩

/-! ## Where the objects are -/

omit [Recycle α] in
/-- The objects of a pool are that of one lease and those that are accounted for without it. -/
theorem items_perm {l : Lease α} {others : List (Lease α)} (h : s.leases.Perm (l :: others)) :
    s.items.Perm (l.item?.toList ++ (⟨s.pool, others⟩ : Lending α).items) := by
  have hlive : s.live.Perm ((l :: others).filterMap Lease.held?) := h.filterMap _
  have hdiscarded : s.discarded.Perm ((l :: others).filterMap Lease.discarded?) := h.filterMap _
  refine ((hlive.append_right _).append hdiscarded).trans ?_
  cases l with
  | discarded item => exact List.perm_middle
  | _ => exact .refl _

omit [Recycle α] in
/-- Whatever becomes of a lease and of the pool, the objects of the other leases stay. -/
theorem exists_items_perm {lease : Nat} {l : Lease α} (h : s.leases[lease]? = some l) :
    ∃ others, s.items.Perm (l.item?.toList ++ (⟨s.pool, others⟩ : Lending α).items) ∧
      ∀ pool l', (⟨pool, s.leases.set lease l'⟩ : Lending α).items.Perm
        (l'.item?.toList ++ (⟨pool, others⟩ : Lending α).items) := by
  obtain ⟨hbefore, hafter⟩ := set_perm_cons_eraseIdx_of_getElem? h
  exact ⟨_, items_perm hbefore, fun pool l' => items_perm (hafter l')⟩

omit [Recycle α] in
/-- An object that becomes idle is one more that is accounted for. -/
theorem items_idle_perm {item : Item α} {idle : List (Item α)} (h : s.pool.idle = item :: idle) :
    s.items.Perm (item :: (⟨{ s.pool with idle }, s.leases⟩ : Lending α).items) := by
  rw [items, h]
  exact List.perm_middle.append_right _

/-- Every object that was made is in one place, and the idle ones are few, empty and small. -/
structure Accounted (s : Lending α) : Prop where
  placed : (s.items.map Item.number).Perm (List.range s.pool.created)
  few : s.pool.idle.length ≤ s.pool.maxRetained
  empty : ∀ item ∈ s.pool.idle, Recycle.size item.object = 0
  small : ∀ item ∈ s.pool.idle, Recycle.capacity item.object ≤ s.pool.maxCapacity

/-- A new pool has no items and no leases. -/
theorem accounted_ofLimits (initialCapacity maxRetained : Nat) :
    (ofLimits initialCapacity maxRetained : Lending α).Accounted where
  placed := .refl _
  few := Nat.zero_le _
  empty := nofun
  small := nofun

namespace Accounted

/-- Every effect leaves each object in one place, and a new one gets a new number. -/
theorem placed_of_effect (h : s.Accounted) (heffect : Effect s m s') :
    (s'.items.map Item.number).Perm (List.range s'.pool.created) := by
  cases heffect with
  | @reuse item idle hidle =>
    have hbefore := items_idle_perm hidle
    have hafter := items_perm (s := ⟨{ s.pool with idle }, s.leases ++ [.held item]⟩)
      (List.perm_append_singleton _ _)
    exact ((hafter.trans hbefore.symm).map _).trans h.placed
  | miss hidle =>
    have hafter := items_perm (s := ⟨s.pool, s.leases ++ [.wanting]⟩)
      (List.perm_append_singleton _ _)
    exact (hafter.map _).trans h.placed
  | make hlease =>
    obtain ⟨others, hbefore, hset⟩ := exists_items_perm hlease
    have hafter := hset s.pool.make.2 (.held s.pool.make.1)
    have hnumbers := (hafter.trans (hbefore.symm.cons s.pool.make.1)).map Item.number
    refine hnumbers.trans ((h.placed.cons s.pool.created).trans ?_)
    rw [Pool.make, List.range_succ]
    exact (List.perm_append_singleton _ _).symm
  | @write lease change item hlease =>
    -- A write may change all of an object but its number, which is what tells its place.
    obtain ⟨others, hbefore, hset⟩ := exists_items_perm hlease
    have hafter := hset s.pool (.held { item with object := change item.object })
    exact ((hafter.map Item.number).trans (hbefore.map Item.number).symm).trans h.placed
  | @keep lease item hlease hsmall hroom =>
    let cleared : Item α := { item with object := Recycle.clear item.object }
    let kept : Pool α := { s.pool with idle := cleared :: s.pool.idle }
    obtain ⟨others, hbefore, hset⟩ := exists_items_perm hlease
    have hidle := items_idle_perm (s := ⟨kept, others⟩) rfl
    have hafter := ((hset kept .returned).trans hidle).map Item.number
    exact (hafter.trans (hbefore.map Item.number).symm).trans h.placed
  | @discard lease item hlease hrefused =>
    obtain ⟨others, hbefore, hset⟩ := exists_items_perm hlease
    have hafter := hset s.pool (.discarded item)
    exact ((hafter.trans hbefore.symm).map _).trans h.placed

/-- The objects that have holders, are idle or were discarded are as many as were made. -/
theorem created_eq (h : s.Accounted) :
    s.pool.created = s.live.length + s.pool.idle.length + s.discarded.length := by
  have hlength := h.placed.length_eq
  rw [List.length_map, List.length_range, items, List.length_append, List.length_append] at hlength
  exact hlength.symm

/-- Only emptied and small objects become idle, and only while there is room. -/
theorem of_effect [LawfulRecycle α] (h : s.Accounted) (heffect : Effect s m s') :
    s'.Accounted := by
  have hplaced := h.placed_of_effect heffect
  cases heffect with
  | @reuse item idle hidle =>
    have hmem : ∀ other ∈ idle, other ∈ s.pool.idle := fun other hother =>
      hidle ▸ List.mem_cons_of_mem item hother
    have hfew := h.few
    rw [hidle, List.length_cons] at hfew
    exact ⟨hplaced, Nat.le_of_succ_le hfew, fun other hother => h.empty other (hmem other hother),
      fun other hother => h.small other (hmem other hother)⟩
  | miss _ | make _ | write _ | discard _ _ => exact ⟨hplaced, h.few, h.empty, h.small⟩
  | keep hlease hsmall hroom =>
    refine ⟨hplaced, hroom, List.forall_mem_cons.2 ⟨LawfulRecycle.size_clear _, h.empty⟩,
      List.forall_mem_cons.2 ⟨?_, h.small⟩⟩
    rw [LawfulRecycle.capacity_clear]
    exact hsmall

variable [LawfulRecycle α]

/-- Every move keeps the account. -/
theorem step (h : s.Accounted) (m : Move α) : (s.step m).Accounted :=
  step_of_effect h h.of_effect

/-- Every history keeps the account. -/
theorem after (h : s.Accounted) (history : List (Move α)) : (s.after history).Accounted := by
  induction history generalizing s with
  | nil => exact h
  | cons m history ih => exact ih (h.step m)

end Accounted

/-! ## Leases -/

omit [Recycle α] in
/-- An item is held by the new lease or was held before. -/
theorem held?_concat {pool : Pool α} {l : Lease α} {lease : Nat} {item : Item α}
    (h : (⟨pool, s.leases ++ [l]⟩ : Lending α).held? lease = some item) :
    l = .held item ∨ s.held? lease = some item := by
  rw [held?_eq_some_iff, List.getElem?_append] at h
  split at h
  · exact Or.inr (held?_eq_some_iff.2 h)
  · exact Or.inl (List.mem_singleton.1 (List.mem_of_getElem? h)).symm

omit [Recycle α] in
/-- An item is held by the changed lease or was held before. -/
theorem held?_set {pool : Pool α} {l : Lease α} {other lease : Nat} {item : Item α}
    (h : (⟨pool, s.leases.set other l⟩ : Lending α).held? lease = some item) :
    other = lease ∧ l = .held item ∨ s.held? lease = some item := by
  rw [held?_eq_some_iff, List.getElem?_set] at h
  split at h
  · rename_i hsame
    split at h
    · exact Or.inl ⟨hsame, Option.some.inj h⟩
    · cases h
  · exact Or.inr (held?_eq_some_iff.2 h)

/-- An object that a lease starts with is empty, whoever had it before. -/
theorem Accounted.size_of_step_held [LawfulRecycle α] (h : s.Accounted) {lease : Nat} {item : Item α}
    (hheld : (s.step m).held? lease = some item) (hnone : s.held? lease = none) :
    Recycle.size item.object = 0 := by
  have hbefore : s.held? lease ≠ some item := fun hsome => by
    rw [hnone] at hsome
    cases hsome
  rcases effect_or_eq s m with heffect | hsame
  · generalize s.step m = s' at heffect hheld
    cases heffect with
    | @reuse found idle hidle =>
      cases (held?_concat hheld).resolve_right hbefore
      exact h.empty item (hidle ▸ List.mem_cons_self)
    | miss hidle => cases (held?_concat hheld).resolve_right hbefore
    | make hlease =>
      cases ((held?_set hheld).resolve_right hbefore).2
      exact LawfulRecycle.size_withCapacity _
    | write hlease =>
      obtain ⟨rfl, -⟩ := (held?_set hheld).resolve_right hbefore
      rw [held?_eq_some_iff.2 hlease] at hnone
      cases hnone
    | keep hlease _ _ => cases ((held?_set hheld).resolve_right hbefore).2
    | discard hlease _ => cases ((held?_set hheld).resolve_right hbefore).2
  · rw [hsame, hnone] at hheld
    cases hheld

/-- The pool refuses an object: it is too large, or the pool is full. -/
def Refuses (s : Lending α) (item : Item α) : Prop :=
  s.pool.maxCapacity < Recycle.capacity item.object ∨ s.pool.idle.length = s.pool.maxRetained

omit [Recycle α] in
/-- An object that is idle was not discarded. -/
theorem notMem_discarded {number : Nat} (hnodup : (s.items.map Item.number).Nodup)
    (hidle : number ∈ s.pool.idle.map Item.number) : number ∉ s.discarded.map Item.number := by
  rw [items, List.map_append, List.map_append] at hnodup
  exact fun hdiscarded => (List.nodup_append.1 hnodup).2.2 number
    (List.mem_append_right _ hidle) number hdiscarded rfl

/-- An object that comes back is discarded exactly if the pool refuses it, and otherwise is idle. -/
theorem Accounted.mem_release [LawfulRecycle α] (h : s.Accounted) {lease : Nat} {item : Item α}
    (hheld : s.held? lease = some item) :
    (item.number ∈ (s.step (.release lease)).discarded.map Item.number ↔ s.Refuses item) ∧
    (item.number ∈ (s.step (.release lease)).pool.idle.map Item.number ↔ ¬ s.Refuses item) := by
  have hnodup := (h.step (.release lease)).placed.nodup_iff.2 List.nodup_range
  have heffect := effect_release hheld
  generalize s.step (.release lease) = s' at heffect hnodup
  have hrefuses : s.Refuses item ↔ s.pool.maxCapacity < Recycle.capacity item.object ∨
      s.pool.maxRetained ≤ s.pool.idle.length := by
    have hfew := h.few
    rw [Refuses]
    omega
  rw [hrefuses]
  rw [held?_eq_some_iff] at hheld
  cases heffect with
  | keep hlease hsmall hroom =>
    cases Option.some.inj (hheld.symm.trans hlease)
    have hidle : item.number ∈ item.number :: s.pool.idle.map Item.number := List.mem_cons_self
    have hdiscarded := notMem_discarded hnodup hidle
    have hkept : ¬ (s.pool.maxCapacity < Recycle.capacity item.object ∨
        s.pool.maxRetained ≤ s.pool.idle.length) := by omega
    exact ⟨iff_of_false hdiscarded hkept, iff_of_true hidle hkept⟩
  | discard hlease hrefused =>
    cases Option.some.inj (hheld.symm.trans hlease)
    have hset := List.getElem?_set_self (a := Lease.discarded item)
      (List.getElem?_eq_some_iff.1 hlease).1
    have hitem : item ∈ (⟨s.pool, s.leases.set lease (.discarded item)⟩ : Lending α).discarded :=
      List.mem_filterMap.2 ⟨_, List.mem_of_getElem? hset, rfl⟩
    have hdiscarded := List.mem_map_of_mem (f := Item.number) hitem
    refine ⟨iff_of_true hdiscarded hrefused, iff_of_false (fun hidle => ?_) (not_not.2 hrefused)⟩
    exact notMem_discarded hnodup hidle hdiscarded

/-! ## New objects -/

/-- The number of objects that were made grows only by a step that makes the object of a lease that
found none. -/
theorem created_step (hm : ∀ lease, m = .make lease → s.leases[lease]? ≠ some .wanting) :
    (s.step m).pool.created = s.pool.created := by
  rcases effect_or_eq s m with heffect | hsame
  · generalize s.step m = s' at heffect
    cases heffect with
    | make hlease => exact absurd hlease (hm _ rfl)
    | _ => rfl
  · rw [hsame]

/-- Every lease that is wanting makes one item. -/
theorem created_make {lease : Nat} (h : s.leases[lease]? = some .wanting) :
    (s.step (.make lease)).pool.created = s.pool.created + 1 := by
  simp only [step, h]
  rfl

/-- No lease is ever forgotten. -/
theorem length_leases_step (s : Lending α) (m : Move α) :
    s.leases.length ≤ (s.step m).leases.length := by
  rcases effect_or_eq s m with heffect | hsame
  · generalize s.step m = s' at heffect
    cases heffect <;> simp
  · exact Nat.le_of_eq (congrArg (·.leases.length) hsame.symm)

omit [Recycle α] in
/-- A change between other states of a lease leaves all leases wanting that are. -/
theorem wanting_set_iff {l l' : Lease α} {other lease : Nat} (hother : s.leases[other]? = some l)
    (hl : l ≠ .wanting) (hl' : l' ≠ .wanting) :
    (s.leases.set other l')[lease]? = some .wanting ↔ s.leases[lease]? = some .wanting := by
  rcases eq_or_ne other lease with rfl | hne
  · rw [List.getElem?_set_self (List.getElem?_eq_some_iff.1 hother).1, hother, Option.some.injEq,
      Option.some.injEq]
    exact iff_of_false hl' hl
  · rw [List.getElem?_set_ne hne]

/-- Other steps do not change that a lease is wanting, or that it is not. -/
theorem wanting_step_iff {lease : Nat} (hlease : lease < s.leases.length) (hm : m ≠ .make lease) :
    (s.step m).leases[lease]? = some .wanting ↔ s.leases[lease]? = some .wanting := by
  rcases effect_or_eq s m with heffect | hsame
  · generalize s.step m = s' at heffect
    cases heffect with
    | reuse _ | miss _ => rw [List.getElem?_append_left hlease]
    | make _ => rw [List.getElem?_set_ne fun hsame => hm (congrArg Move.make hsame)]
    | write hother | keep hother _ _ | discard hother _ => exact wanting_set_iff hother nofun nofun
  · rw [hsame]

/-- A lease is wanting until it makes its item. -/
theorem wanting_after_iff {lease : Nat} {history : List (Move α)} (hlease : lease < s.leases.length)
    (hhistory : ∀ m ∈ history, m ≠ .make lease) :
    (s.after history).leases[lease]? = some .wanting ↔ s.leases[lease]? = some .wanting := by
  induction history generalizing s with
  | nil => rfl
  | cons m history ih =>
    obtain ⟨hm, hhistory⟩ := List.forall_mem_cons.1 hhistory
    exact (ih (Nat.lt_of_lt_of_le hlease (length_leases_step s m)) hhistory).trans
      (wanting_step_iff hlease hm)

/-- A lease finds no object exactly if none is idle. -/
theorem wanting_ask_iff :
    (s.step .ask).leases[s.leases.length]? = some .wanting ↔ s.pool.idle = [] := by
  have heffect := effect_ask s
  generalize s.step .ask = s' at heffect
  cases heffect with
  | reuse hidle =>
    rw [List.getElem?_concat_length, hidle]
    exact iff_of_false nofun nofun
  | miss hidle =>
    rw [List.getElem?_concat_length]
    exact iff_of_true rfl hidle

/-- An object is made for a lease exactly if none was idle when it was asked for, whatever others do
in between. -/
theorem created_make_of_ask {between : List (Move α)}
    (hbetween : ∀ m ∈ between, m ≠ .make s.leases.length) :
    (((s.step .ask).after between).step (.make s.leases.length)).pool.created =
      ((s.step .ask).after between).pool.created + if s.pool.idle = [] then 1 else 0 := by
  have hlease : s.leases.length < (s.step .ask).leases.length := by
    have heffect := effect_ask s
    generalize s.step .ask = s' at heffect
    cases heffect <;> simp
  have hwanting := (wanting_after_iff hlease hbetween).trans wanting_ask_iff
  split
  · rename_i hidle
    exact created_make (hwanting.2 hidle)
  · rename_i hidle
    refine created_step fun lease hsame => ?_
    cases hsame
    exact mt hwanting.1 hidle

/-- A lease that nobody gets in the way of makes an object exactly if none is idle. -/
theorem created_lease :
    s.lease.pool.created = s.pool.created + if s.pool.idle = [] then 1 else 0 := by
  have hmade := @created_make_of_ask α s _ [] nofun
  have hasked : (s.step .ask).pool.created = s.pool.created := created_step nofun
  exact hmade.trans (congrArg (· + _) hasked)

/-! ## All histories -/

/-- A pool keeps its limits. -/
theorem limits_after (s : Lending α) (history : List (Move α)) :
    (s.after history).pool.initialCapacity = s.pool.initialCapacity ∧
      (s.after history).pool.maxRetained = s.pool.maxRetained := by
  induction history generalizing s with
  | nil => exact ⟨rfl, rfl⟩
  | cons m history ih =>
    obtain ⟨hcapacity, hretained⟩ := limits_step s m
    exact ⟨(ih (s.step m)).1.trans hcapacity, (ih (s.step m)).2.trans hretained⟩

/-- A pool that keeps so many objects, which are so large at most, keeps to its rules in a state, and
with whatever step comes next. -/
structure KeepsTo (s : Lending α) (maxCapacity maxRetained : Nat) : Prop where
  /-- Every object that was made is in one place: it has a holder, is idle, or was discarded. -/
  placed : ((s.live ++ s.pool.idle ++ s.discarded).map Item.number).Perm
    (List.range s.pool.created)
  counted : s.pool.created = s.live.length + s.pool.idle.length + s.discarded.length
  few : s.pool.idle.length ≤ maxRetained
  empty : ∀ item ∈ s.pool.idle, Recycle.size item.object = 0
  small : ∀ item ∈ s.pool.idle, Recycle.capacity item.object ≤ maxCapacity
  /-- Whoever gets an object gets an empty one. -/
  fresh : ∀ m lease item, (s.step m).held? lease = some item → s.held? lease = none →
    Recycle.size item.object = 0
  /-- An object that comes back is discarded exactly if it is too large or the pool is full. -/
  discards : ∀ lease item, s.held? lease = some item →
    (item.number ∈ (s.step (.release lease)).discarded.map Item.number ↔
      maxCapacity < Recycle.capacity item.object ∨ s.pool.idle.length = maxRetained)
  /-- Otherwise it is idle. -/
  keeps : ∀ lease item, s.held? lease = some item →
    (item.number ∈ (s.step (.release lease)).pool.idle.map Item.number ↔
      ¬ (maxCapacity < Recycle.capacity item.object ∨ s.pool.idle.length = maxRetained))
  /-- A lease makes an object exactly if none is idle. -/
  leases : s.lease.pool.created = s.pool.created + if s.pool.idle = [] then 1 else 0
  /-- So it does if others take steps after it has looked for an idle object. -/
  makes : ∀ between, (∀ m ∈ between, m ≠ .make s.leases.length) →
    (((s.step .ask).after between).step (.make s.leases.length)).pool.created =
      ((s.step .ask).after between).pool.created + if s.pool.idle = [] then 1 else 0
  /-- No other step makes an object. -/
  makesNoOther : ∀ m, (∀ lease, m = .make lease → s.leases[lease]? ≠ some .wanting) →
    (s.step m).pool.created = s.pool.created

/-- Whatever the holders of leases have done, in whatever order, a pool keeps its objects apart: none
is in two places, and nobody gets one in which something is left. It keeps only objects that are at
most four times as large as new ones, and only so many of them as it is to keep. -/
theorem objects_recycled [LawfulRecycle α] (initialCapacity maxRetained : Nat)
    (history : List (Move α)) :
    ((ofLimits initialCapacity maxRetained).after history).KeepsTo
      (min (4 * initialCapacity) 0xFFFFFFFFFFFFFFFF) maxRetained := by
  have hstart : (ofLimits initialCapacity maxRetained : Lending α).Accounted :=
    accounted_ofLimits initialCapacity maxRetained
  have h := hstart.after history
  have hlimits := limits_after (ofLimits initialCapacity maxRetained : Lending α) history
  generalize (ofLimits initialCapacity maxRetained).after history = s at h hlimits
  have hbound : s.pool.maxCapacity = min (4 * initialCapacity) 0xFFFFFFFFFFFFFFFF := by
    rw [Pool.maxCapacity, hlimits.1]
    rfl
  have hretained : s.pool.maxRetained = maxRetained := hlimits.2
  rw [← hbound, ← hretained]
  exact ⟨h.placed, h.created_eq, h.few, h.empty, h.small, fun m lease item => h.size_of_step_held,
    fun lease item hheld => (h.mem_release hheld).1, fun lease item hheld => (h.mem_release hheld).2,
    created_lease, fun between => created_make_of_ask, fun m => created_step⟩

/-- Two leases at a time from a pool that keeps one object: the object of the first one grows too
large, and the second one ends. -/
def overgrown : List (Move Buffer) :=
  [.ask, .ask, .make 1, .make 0, .write 0 (·.append (List.replicate 33 97)),
    .write 1 (·.append [98]), .release 1]

/-- The object that was made second is discarded when it comes back, and the lease that is asked for
then starts with the other one, empty. -/
theorem objects_recycled_overgrown :
    let s := (ofLimits 8 1).after overgrown
    s.held? 0 = some ⟨1, ⟨List.replicate 33 97, 33⟩⟩ ∧
    1 ∈ (s.step (.release 0)).discarded.map Item.number ∧
    (s.step .ask).held? 2 = some ⟨0, ⟨[], 8⟩⟩ ∧ Recycle.size (⟨[], 8⟩ : Buffer) = 0 ∧
    s.pool.created = s.live.length + s.pool.idle.length + s.discarded.length := by
  intro s
  have h := objects_recycled 8 1 overgrown
  have hheld : s.held? 0 = some ⟨1, ⟨List.replicate 33 97, 33⟩⟩ := by decide +kernel
  have hasked : (s.step .ask).held? 2 = some ⟨0, ⟨[], 8⟩⟩ := by decide +kernel
  have hnone : s.held? 2 = none := by decide +kernel
  exact ⟨hheld, (h.discards 0 _ hheld).2 (Or.inl (by decide)), hasked,
    h.fresh .ask 2 _ hasked hnone, h.counted⟩

end Lending

end LogAudit.Resource
