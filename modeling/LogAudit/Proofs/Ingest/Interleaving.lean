import Mathlib.Data.List.Perm.Basic

/-!
# Interleavings

What several workers do comes out as one list in which the items of each worker keep their order
(`Interleaves`). Where the items are replaced by what they bring about, that is interleaved as well
(`Interleaves.flatMap`), and an interleaving has the items of its parts, as many of each
(`Interleaves.perm_flatten`).
-/

namespace LogAudit.Ingest

variable {α β : Type}

/-- The items come from the parts, those of each part in its order: the first one is the first of
some part, and the others come from what is left then. -/
inductive Interleaves : List (List α) → List α → Prop where
  | done {parts : List (List α)} (hdone : ∀ part ∈ parts, part = []) : Interleaves parts []
  | next {parts : List (List α)} {number : Nat} {item : α} {rest whole : List α}
    (hpart : parts[number]? = some (item :: rest))
    (hrest : Interleaves (parts.set number rest) whole) : Interleaves parts (item :: whole)

/-- A list with one place changed, as a permutation that starts with that place. -/
theorem set_perm_cons_eraseIdx_of_getElem? {items : List α} {number : Nat} {item : α}
    (h : items[number]? = some item) :
    items.Perm (item :: items.eraseIdx number) ∧
      ∀ other, (items.set number other).Perm (other :: items.eraseIdx number) := by
  obtain ⟨hnumber, rfl⟩ := List.getElem?_eq_some_iff.1 h
  exact ⟨(List.getElem_cons_eraseIdx_perm hnumber).symm,
    fun other => List.set_perm_cons_eraseIdx hnumber other⟩

namespace Interleaves

variable {parts others : List (List α)} {whole : List α}

/-- Several items of one part may come next. -/
theorem prepend {number : Nat} {front rest : List α} (hpart : parts[number]? = some (front ++ rest))
    (hrest : Interleaves (parts.set number rest) whole) : Interleaves parts (front ++ whole) := by
  induction front generalizing parts with
  | nil =>
    obtain ⟨hnumber, hpart⟩ := List.getElem?_eq_some_iff.1 hpart
    rwa [← List.nil_append rest, ← hpart, List.set_getElem_self] at hrest
  | cons item front ih =>
    obtain ⟨hnumber, -⟩ := List.getElem?_eq_some_iff.1 hpart
    exact .next hpart (ih (List.getElem?_set_self hnumber) (by rwa [List.set_set]))

/-- The parts may be listed in any order. -/
theorem perm (h : Interleaves parts whole) (hperm : parts.Perm others) :
    Interleaves others whole := by
  induction h generalizing others with
  | done hdone => exact .done fun part hpart => hdone part (hperm.mem_iff.2 hpart)
  | next hpart hrest ih =>
    obtain ⟨number, hother⟩ :=
      List.mem_iff_getElem?.1 (hperm.mem_iff.1 (List.mem_of_getElem? hpart))
    refine .next hother (ih ?_)
    obtain ⟨hfirst, hset⟩ := set_perm_cons_eraseIdx_of_getElem? hpart
    obtain ⟨hfirst', hset'⟩ := set_perm_cons_eraseIdx_of_getElem? hother
    have herased := (hfirst.symm.trans (hperm.trans hfirst')).cons_inv
    exact (hset _).trans ((herased.cons _).trans (hset' _).symm)

/-- A part without items makes no difference. -/
theorem cons_nil_iff : Interleaves ([] :: parts) whole ↔ Interleaves parts whole := by
  constructor
  · intro h
    generalize hall : [] :: parts = all at h
    induction h generalizing parts with
    | done hdone => exact .done fun part hpart => hdone part (hall ▸ .tail _ hpart)
    | @next all number item rest whole hpart hrest ih =>
      subst hall
      cases number with
      | zero => cases hpart
      | succ number => exact .next hpart (ih rfl)
  · intro h
    induction h with
    | done hdone =>
      refine .done fun part hpart => ?_
      rcases List.mem_cons.1 hpart with rfl | hpart
      · rfl
      · exact hdone part hpart
    | @next parts number item rest whole hpart hrest ih =>
      exact .next (show ([] :: parts)[number + 1]? = _ from hpart) ih

/-- Parts without items make no difference. -/
theorem replicate_append_iff (count : Nat) :
    Interleaves (List.replicate count [] ++ parts) whole ↔ Interleaves parts whole := by
  induction count with
  | zero => rfl
  | succ count ih => rw [List.replicate_succ, List.cons_append, cons_nil_iff, ih]

/-- What the items bring about is interleaved as they are. -/
theorem flatMap (h : Interleaves parts whole) (f : α → List β) :
    Interleaves (parts.map (List.flatMap f)) (whole.flatMap f) := by
  induction h with
  | done hdone =>
    refine .done fun part hpart => ?_
    obtain ⟨source, hsource, rfl⟩ := List.mem_map.1 hpart
    rw [hdone source hsource, List.flatMap_nil]
  | @next parts number item rest whole hpart hrest ih =>
    have hpart' : (parts.map (List.flatMap f))[number]? = some (f item ++ rest.flatMap f) := by
      rw [List.getElem?_map, hpart, Option.map_some, List.flatMap_cons]
    rw [List.map_set] at ih
    exact prepend hpart' ih

/-- An interleaving has the items of its parts, as many of each. -/
theorem perm_flatten (h : Interleaves parts whole) : whole.Perm parts.flatten := by
  induction h with
  | done hdone => rw [List.flatten_eq_nil_iff.2 hdone]
  | @next parts number item rest whole hpart hrest ih =>
    obtain ⟨hfirst, hset⟩ := set_perm_cons_eraseIdx_of_getElem? hpart
    calc (item :: whole).Perm (item :: (parts.set number rest).flatten) := ih.cons item
      _ |>.Perm (item :: (rest :: parts.eraseIdx number).flatten) := (hset rest).flatten.cons item
      _ |>.Perm parts.flatten := by
        rw [List.flatten_cons, ← List.cons_append, ← List.flatten_cons]
        exact hfirst.symm.flatten

/-- The items of a part keep their order. -/
theorem sublist (h : Interleaves parts whole) {part : List α} (hpart : part ∈ parts) :
    part.Sublist whole := by
  induction h generalizing part with
  | done hdone => rw [hdone part hpart]
  | @next parts number item rest whole hfound hrest ih =>
    obtain ⟨i, hi, rfl⟩ := List.getElem_of_mem hpart
    obtain ⟨hnumber, hget⟩ := List.getElem?_eq_some_iff.1 hfound
    by_cases hsame : number = i
    · subst hsame
      rw [hget]
      exact (ih (List.mem_set hnumber rest)).cons_cons item
    · refine (ih ?_).cons item
      rw [← List.getElem_set_ne hsame (by simpa using hi)]
      exact List.getElem_mem _

end Interleaves

end LogAudit.Ingest
