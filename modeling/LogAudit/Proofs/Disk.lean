import LogAudit.Machine
import Mathlib.Tactic.SplitIfs

/-!
# Files that are added to

Adding to a file makes it longer, creates it if it is missing, and moves no directory
(`Disk.Extends`), so that its path leads to it afterwards as before (`Disk.LeadsTo.of_extends`). A
file that was made ready once can be added to again and again, and holds what was added to it, one
after the other (`Disk.Holds.add`).
-/

namespace LogAudit

namespace Disk

variable {d d' : Disk} {path : String} {place : List String}

/-! ## Trees of files that grow -/

/-- Directories stay where they are, and nothing disappears. -/
structure Extends (d d' : Disk) : Prop where
  folders : ∀ place, d.node? place = some .folder → d'.node? place = some .folder
  present : ∀ place, (d.node? place).isSome → (d'.node? place).isSome

/-- Only the place at which something is put changes. -/
theorem node?_put (d : Disk) (hplace : place ≠ []) (node : Node) (other : List String) :
    (d.put place node).node? other = if other = place then some node else d.node? other := by
  have hkept (nodes : List (List String × Node)) (hne : other ≠ place) :
      (nodes.filter (·.1 != place)).lookup other = nodes.lookup other := by
    induction nodes with
    | nil => rfl
    | cons entry nodes ih =>
      obtain ⟨key, content⟩ := entry
      by_cases hkey : key = place
      · have hother : (other == key) = false := by simpa [hkey] using hne
        rw [List.filter_cons_of_neg (by simp [hkey]), ih, List.lookup_cons, hother]
      · rw [List.filter_cons_of_pos (by simpa using hkey), List.lookup_cons, List.lookup_cons, ih]
  unfold node? put
  by_cases hother : other = place
  · subst hother
    simp [hplace]
  · rw [if_neg hother, List.lookup_cons, beq_false_of_ne hother, hkept d.nodes hother]

/-- A file may be put where no directory is. -/
theorem extends_put (hplace : d.node? place ≠ some .folder) (content : List UInt8) :
    d.Extends (d.put place (.file content)) := by
  have hne : place ≠ [] := by
    rintro rfl
    exact hplace rfl
  constructor
  · intro other hother
    have hdiffers : other ≠ place := by
      rintro rfl
      exact hplace hother
    rw [d.node?_put hne, if_neg hdiffers, hother]
  · intro other hother
    rw [d.node?_put hne]
    split
    · rfl
    · exact hother

/-- Parts lead to the same place in a tree that has grown. -/
theorem follow_of_extends (h : d.Extends d') {start rest : List String}
    (hfollow : d.follow start rest = .ok place) : d'.follow start rest = .ok place := by
  induction rest generalizing start with
  | nil => exact hfollow
  | cons part rest ih =>
    rw [follow] at hfollow ⊢
    split at hfollow
    · cases hfollow
    · cases hfollow
    · rename_i hfolder
      rw [h.folders start hfolder]
      dsimp only
      split_ifs at hfollow with hpoint hup hnext
      · rw [if_pos hpoint]
        exact ih hfollow
      · rw [if_neg hpoint, if_pos hup]
        exact ih hfollow
      · rw [if_neg hpoint, if_neg hup, if_pos (h.present _ hnext)]
        exact ih hfollow

/-- Parts are followed one after the other. -/
theorem follow_append (d : Disk) (start front rest : List String) :
    d.follow start (front ++ rest) = (d.follow start front).bind fun place => d.follow place rest := by
  induction front generalizing start with
  | nil => rfl
  | cons part front ih =>
    rw [List.cons_append, follow, follow]
    split
    · rfl
    · rfl
    · split_ifs
      · exact ih start
      · exact ih start.dropLast
      · exact ih (start ++ [part])
      · rfl

/-! ## Where a path leads -/

/-- The path is that of a file to add to, whether it is there or not: the part at its end names the
place in the directory that the parts before it lead to. -/
inductive LeadsTo (d : Disk) (path : String) : List String → Prop where
  | intro {front folder : List String} {last : String} (hpath : path ≠ "")
    (hparts : parts path = front ++ [last]) (hname : last ≠ "" ∧ last ≠ "." ∧ last ≠ "..")
    (hfollow : d.follow [] front = .ok folder) (hfolder : d.node? folder = some .folder) :
    LeadsTo d path (folder ++ [last])

/-- A path leads to the same place in a tree that has grown. -/
theorem LeadsTo.of_extends (h : d.LeadsTo path place) (hextends : d.Extends d') :
    d'.LeadsTo path place := by
  obtain ⟨hpath, hparts, hname, hfollow, hfolder⟩ := h
  exact ⟨hpath, hparts, hname, follow_of_extends hextends hfollow, hextends.folders _ hfolder⟩

/-- What is opened for adding is what stands at the place of the path, or a new file. -/
theorem LeadsTo.openForAdding_eq (h : d.LeadsTo path place) : d.openForAdding path =
    match d.node? place with
    | some .folder => .error .isDirectory
    | some (.file _) => .ok (d, place)
    | none => .ok (d.put place (.file []), place) := by
  obtain @⟨front, folder, last, hpath, hparts, hname, hfollow, hfolder⟩ := h
  have hend : (parts path).reverse.dropWhile (· == "") = last :: front.reverse := by
    rw [hparts, List.reverse_append, List.reverse_singleton, List.singleton_append,
      List.dropWhile_cons_of_neg (by simpa using hname.1)]
  have hlast : ¬ ((parts path).getLast? = some "" ∨ last = "." ∨ last = "..") := by
    simp [hparts, hname]
  rcases hnode : d.node? (folder ++ [last]) with _ | _ | _ <;>
    simp only [openForAdding, if_neg hpath, hend, List.reverse_reverse, hfollow, bind, Except.bind,
      hfolder, if_neg hlast, hnode]

/-- A file is only opened at the place that its path leads to. -/
theorem leadsTo_of_openForAdding (h : d.openForAdding path = .ok (d', place)) :
    d.LeadsTo path place := by
  unfold openForAdding at h
  split_ifs at h with hpath
  split at h
  · cases h
  · rename_i last front hend
    cases hfollow : d.follow [] front.reverse with
    | error refusal =>
      rw [hfollow] at h
      cases h
    | ok folder =>
      simp only [hfollow, bind, Except.bind] at h
      split at h
      · rename_i hfolder
        split_ifs at h with hlast
        simp only [not_or] at hlast
        have hname : last ≠ "" := by
          have hhead := List.head?_dropWhile_not (· == "") (parts path).reverse
          rw [hend] at hhead
          simpa using hhead
        have hparts : parts path = front.reverse ++ [last] := by
          have hkept : (parts path).reverse.dropWhile (· == "") = (parts path).reverse := by
            cases hreverse : (parts path).reverse with
            | nil => rfl
            | cons part rest =>
              refine List.dropWhile_cons_of_neg fun hpart => hlast.1 ?_
              rw [← List.head?_reverse, hreverse, List.head?_cons, beq_iff_eq.1 hpart]
          rw [← List.reverse_reverse (parts path), ← hkept, hend, List.reverse_cons]
        have hplace : place = folder ++ [last] := by
          split at h <;> simp_all
        exact hplace ▸ ⟨hpath, hparts, ⟨hname, hlast.2⟩, hfollow, hfolder⟩
      · cases h

/-! ## Files with their contents -/

/-- The path leads to a file with this content. -/
def Holds (d : Disk) (path : String) (content : List UInt8) : Prop :=
  ∃ place, d.LeadsTo path place ∧ d.node? place = some (.file content)

/-- A file that is put at the place of a path is found there. -/
theorem LeadsTo.put (h : d.LeadsTo path place) (hfile : d.node? place ≠ some .folder)
    (content : List UInt8) : (d.put place (.file content)).LeadsTo path place ∧
      (d.put place (.file content)).node? place = some (.file content) := by
  have hne : place ≠ [] := by
    rintro rfl
    exact hfile rfl
  refine ⟨h.of_extends (extends_put hfile content), ?_⟩
  rw [d.node?_put hne, if_pos rfl]

/-- A file of which the path tells is found by it. -/
theorem Holds.open?_eq {content : List UInt8} (h : d.Holds path content) :
    d.open? path = .ok (.file content) := by
  obtain ⟨place, @⟨front, folder, last, hpath, hparts, hname, hfollow, hfolder⟩, hfile⟩ := h
  have hlast : d.follow folder [last] = .ok (folder ++ [last]) := by
    have hpresent : (d.node? (folder ++ [last])).isSome := by rw [hfile]; rfl
    simp [follow, hfolder, hname, hpresent]
  have hall : d.follow [] (front ++ [last]) = .ok (folder ++ [last]) := by
    rw [follow_append, hfollow]
    exact hlast
  simp only [open?, Disk.place, if_neg hpath, hparts, hall, bind, Except.bind, hfile]

/-- What is added to a file stands behind what it held. -/
theorem Holds.add {old : List UInt8} (h : d.Holds path old) (new : List UInt8) :
    ∃ d', d.add path new = .ok d' ∧ d'.Holds path (old ++ new) := by
  obtain ⟨place, hleads, hfile⟩ := h
  refine ⟨_, ?_, place, hleads.put (by simp [hfile]) (old ++ new)⟩
  simp only [Disk.add, hleads.openForAdding_eq, hfile, bind, Except.bind]
  rfl

/-- A path that was opened for adding leads to a file. -/
theorem exists_file_of_openForAdding (h : d.openForAdding path = .ok (d', place)) :
    d'.LeadsTo path place ∧ ∃ old, d'.node? place = some (.file old) := by
  have hleads := leadsTo_of_openForAdding h
  rw [hleads.openForAdding_eq] at h
  split at h
  · cases h
  · rename_i old hfile
    cases h
    exact ⟨hleads, old, hfile⟩
  · rename_i hnone
    cases h
    obtain ⟨hleads', hfile⟩ := hleads.put (by simp [hnone]) []
    exact ⟨hleads', [], hfile⟩

/-- A path to which something could be added leads to a file that ends with it. -/
theorem exists_holds_of_add {new : List UInt8} (h : d.add path new = .ok d') :
    ∃ old, d'.Holds path (old ++ new) := by
  cases hopened : d.openForAdding path with
  | error refusal =>
    rw [Disk.add, hopened] at h
    cases h
  | ok opened =>
    obtain ⟨opened, place⟩ := opened
    obtain ⟨hleads, old, hfile⟩ := exists_file_of_openForAdding hopened
    simp only [Disk.add, hopened, hfile, bind, Except.bind] at h
    obtain rfl := Except.ok.inj h
    exact ⟨old, place, hleads.put (by simp [hfile]) (old ++ new)⟩

end Disk

/-! ## Machines with a tree of files -/

/-- What comes next starts with the tree that was left. -/
theorem Disk.run_bind {α β : Type} (act : StateM Disk α) (next : α → StateM Disk β) (d : Disk) :
    (act >>= next).run d = (next (act.run d).1).run (act.run d).2 := rfl

namespace Machine

variable {d d' : Disk} {path : String}

/-- A file that was made ready is there, with what it held before. -/
theorem exists_holds_of_prepare
    (h : (prepare path : StateM Disk (Except OsError Unit)).run d = (.ok (), d')) :
    ∃ old, d'.Holds path old := by
  have hadded {before : Disk}
      (hadd : (add path [] : StateM Disk (Except OsError Unit)).run before = (.ok (), d')) :
      ∃ old, d'.Holds path old := by
    simp only [add, Disk.change, StateT.run] at hadd
    split at hadd
    · rename_i changed hchanged
      obtain rfl := (Prod.mk.inj hadd).2
      obtain ⟨old, hold⟩ := Disk.exists_holds_of_add hchanged
      exact ⟨_, hold⟩
    · cases hadd
  rw [prepare] at h
  split at h
  · exact hadded h
  · rename_i folder hfolder
    rw [Disk.run_bind] at h
    split at h
    · cases h
    · exact hadded h

end Machine

end LogAudit
