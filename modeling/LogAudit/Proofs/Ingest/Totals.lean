import LogAudit.Proofs.Text.Order
import LogAudit.Report
import Mathlib.Algebra.Order.Ring.Nat

/-!
# Totals of a run

The report of a run is made from those of its files: its counts are their sums, the error of a path
is that of the last report on the path that has one (`RunReport.LastError`), and the outcome for a
sink is told by the sums alone.
-/

namespace LogAudit

open LogAudit.Text

namespace Outcome

variable {success total : Nat}

/-- There are no lines exactly if their total is zero. -/
theorem classify_eq_noLines_iff : classify success total = noLines ↔ total = 0 := by
  unfold classify
  repeat' split
  all_goals simp_all

/-- An outcome is complete exactly if every line succeeded. -/
theorem classify_eq_complete_iff (h : total ≠ 0) :
    classify success total = complete ↔ success = total := by
  rw [classify, if_neg h]
  repeat' split
  all_goals simp_all

/-- Nothing was parsed exactly if no line succeeded. -/
theorem classify_eq_unparsed_iff (h : total ≠ 0) :
    classify success total = unparsed ↔ success = 0 := by
  rw [classify, if_neg h]
  repeat' split
  all_goals simp_all

end Outcome

namespace RunReport

variable {sinks elapsed : Nat} {files : List FileReport} {cancelled : Bool}

/-! ## Sums -/

/-- A fold that adds gives the start and the sum. -/
theorem foldl_add {α : Type} (f : α → Nat) (items : List α) (start : Nat) :
    items.foldl (fun sum item => sum + f item) start = start + (items.map f).sum := by
  induction items generalizing start with
  | nil => rfl
  | cons item items ih => rw [List.foldl_cons, ih, List.map_cons, List.sum_cons, Nat.add_assoc]

/-- Counts are added place by place; one that is missing counts nothing. -/
theorem getElem?_addCounts (sums counts : List Nat) (i : Nat) :
    (addCounts sums counts)[i]? = sums[i]?.map (· + (counts[i]?).getD 0) := by
  fun_induction addCounts sums counts generalizing i with
  | case1 => rfl
  | case2 => simp
  | case3 sum sums count counts ih =>
    cases i with
    | zero => rfl
    | succ i => simpa using ih i

/-- The counts of files are added up place by place. -/
theorem getElem?_foldl_addCounts (files : List FileReport) (sums : List Nat) (i : Nat) :
    (files.foldl (fun sums file => addCounts sums file.successLines) sums)[i]? =
      sums[i]?.map (· + (files.map fun file => (file.successLines[i]?).getD 0).sum) := by
  induction files generalizing sums with
  | nil => simp
  | cons file files ih =>
    rw [List.foldl_cons, ih, getElem?_addCounts, Option.map_map, List.map_cons, List.sum_cons]
    congr 1
    funext sum
    exact Nat.add_assoc _ _ _

/-- The lines of a run are those of its files. -/
theorem totalLines_ofFiles : (ofFiles sinks files elapsed cancelled).totalLines =
    (files.map FileReport.totalLines).sum := by
  rw [ofFiles, foldl_add, Nat.zero_add]

/-- The successes of each sink are those in the files. -/
theorem successLines_ofFiles : (ofFiles sinks files elapsed cancelled).successLines =
    (List.range sinks).map fun sink =>
      (files.map fun file => (file.successLines[sink]?).getD 0).sum := by
  refine List.ext_getElem? fun sink => ?_
  rw [ofFiles, getElem?_foldl_addCounts, List.getElem?_map]
  by_cases h : sink < sinks
  · simp [h]
  · have hzero : (List.replicate sinks 0)[sink]? = none := by simpa using h
    have hrange : (List.range sinks)[sink]? = none := by simpa using h
    rw [hzero, hrange]
    rfl

/-- The successes of a sink are the sum of those in the files. -/
theorem getElem?_successLines {sink : Nat} (h : sink < sinks) :
    (ofFiles sinks files elapsed cancelled).successLines[sink]? =
      some (files.map fun file => (file.successLines[sink]?).getD 0).sum := by
  rw [successLines_ofFiles, List.getElem?_map, List.getElem?_range h, Option.map_some]

/-! ## Errors -/

/-- The last report on a path that has an error has this one. -/
def LastError (files : List FileReport) (path text : String) : Prop :=
  ∃ before report after, files = before ++ report :: after ∧ report.path = path ∧
    report.error = some text ∧ ∀ later ∈ after, later.path = path → later.error = none

/-- The last error of a path is one of the later files, or else that of the first one. -/
theorem lastError_cons (file : FileReport) (path text : String) :
    LastError (file :: files) path text ↔ LastError files path text ∨
      file.path = path ∧ file.error = some text ∧
        ∀ later ∈ files, later.path = path → later.error = none := by
  constructor
  · rintro ⟨_ | ⟨first, before⟩, report, after, hfiles, hpath, herror, hafter⟩
    · obtain ⟨rfl, rfl⟩ := List.cons.inj hfiles
      exact Or.inr ⟨hpath, herror, hafter⟩
    · obtain ⟨rfl, rfl⟩ := List.cons.inj hfiles
      exact Or.inl ⟨before, report, after, rfl, hpath, herror, hafter⟩
  · rintro (⟨before, report, after, rfl, hpath, herror, hafter⟩ | ⟨hpath, herror, hafter⟩)
    · exact ⟨file :: before, report, after, rfl, hpath, herror, hafter⟩
    · exact ⟨[], file, files, rfl, hpath, herror, hafter⟩

/-- The error of a path is found among the later files, or else in the first one. -/
theorem errorOf?_cons (file : FileReport) (files : List FileReport) (path : String) :
    errorOf? (file :: files) path =
      (errorOf? files path).or (if file.path = path then file.error else none) := by
  by_cases h : file.path = path <;> simp [errorOf?, h]

/-- A path has no error exactly if no file of it has one. -/
theorem errorOf?_eq_none_iff {path : String} :
    errorOf? files path = none ↔ ∀ file ∈ files, file.path = path → file.error = none := by
  simp [errorOf?]

/-- The error of a path is that of the last report on it that has one. -/
theorem errorOf?_eq_some_iff {path text : String} :
    errorOf? files path = some text ↔ LastError files path text := by
  induction files with
  | nil => simp [errorOf?, LastError]
  | cons file files ih =>
    rw [errorOf?_cons, lastError_cons, Option.or_eq_some_iff, ih, errorOf?_eq_none_iff]
    by_cases h : file.path = path
    · simp [h, and_comm]
    · simp [h]

/-- Each path whose last report with an error there is has this error. -/
theorem mem_fileErrors {path text : String} :
    (path, text) ∈ (ofFiles sinks files elapsed cancelled).fileErrors ↔
      LastError files path text := by
  simp only [ofFiles, List.mem_filterMap, mem_textSet, Option.map_eq_some_iff, Prod.mk.injEq]
  constructor
  · rintro ⟨found, -, error, herror, rfl, rfl⟩
    exact errorOf?_eq_some_iff.1 herror
  · intro h
    obtain ⟨before, report, after, rfl, rfl, -⟩ := id h
    exact ⟨report.path, by simp, text, errorOf?_eq_some_iff.2 h, rfl, rfl⟩

/-- The paths with an error are those of the reports with one. -/
theorem mem_map_fst_fileErrors {path : String} :
    path ∈ (ofFiles sinks files elapsed cancelled).fileErrors.map Prod.fst ↔
      ∃ report ∈ files, report.path = path ∧ report.error ≠ none := by
  have hkey : path ∈ (ofFiles sinks files elapsed cancelled).fileErrors.map Prod.fst ↔
      errorOf? files path ≠ none := by
    simp [Option.ne_none_iff_exists', mem_fileErrors, ← errorOf?_eq_some_iff]
  rw [hkey, Ne, errorOf?_eq_none_iff]
  simp only [Classical.not_forall, exists_prop]

/-- There is one error for a path at most. -/
theorem nodup_map_fst_fileErrors :
    ((ofFiles sinks files elapsed cancelled).fileErrors.map Prod.fst).Nodup := by
  have hkeys : (ofFiles sinks files elapsed cancelled).fileErrors.map Prod.fst =
      (textSet (files.map FileReport.path)).filter fun path => (errorOf? files path).isSome := by
    rw [ofFiles]
    generalize textSet (files.map FileReport.path) = paths
    induction paths with
    | nil => rfl
    | cons path paths ih => cases h : errorOf? files path <;> simp [h, ih]
  rw [hkeys]
  refine List.Pairwise.filter _ ((pairwise_textSet _).imp ?_)
  rintro path _ hless rfl
  exact String.lt_irrefl path hless

/-! ## Bounds -/

/-- What each file keeps of a bound, the run keeps. -/
theorem success_le_total (h : ∀ file ∈ files, ∀ success ∈ file.successLines,
      success ≤ file.totalLines) :
    ∀ success ∈ (ofFiles sinks files elapsed cancelled).successLines,
      success ≤ (ofFiles sinks files elapsed cancelled).totalLines := by
  intro success hsuccess
  rw [successLines_ofFiles] at hsuccess
  obtain ⟨sink, -, rfl⟩ := List.mem_map.1 hsuccess
  rw [totalLines_ofFiles]
  clear hsuccess
  induction files with
  | nil => exact Nat.le_refl 0
  | cons file files ih =>
    obtain ⟨hfile, hfiles⟩ := List.forall_mem_cons.1 h
    rw [List.map_cons, List.map_cons, List.sum_cons, List.sum_cons]
    refine Nat.add_le_add ?_ (ih hfiles)
    cases hcount : file.successLines[sink]? with
    | none => exact Nat.zero_le _
    | some count => exact hfile count (List.mem_of_getElem? hcount)

end RunReport

end LogAudit
