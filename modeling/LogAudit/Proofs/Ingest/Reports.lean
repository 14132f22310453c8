import LogAudit.Ingest.Engine
import LogAudit.Proofs.Ingest.Posts

/-!
# Reports in order

The reports come in the order in which the threads end, and are sorted by the numbers of their
files. Where each of the first files has one report and no other file has any, the report on a file
stands at its number (`State.getElem?_reports`).
-/

namespace LogAudit.Ingest

namespace State

variable {s : State} {files : Nat}

/-- The numbers of the files, as often as there are reports on them. -/
theorem count_map_fst_reports (b : Board) (file : Nat) :
    (b.reports.map Prod.fst).count file = (b.reportsOf file).length := by
  rw [List.count_eq_countP, List.countP_map, List.countP_eq_length_filter, Board.reportsOf,
    List.length_map]
  rfl

/-- With one report on each of the first files, the sorted reports are numbered one after the
other. -/
theorem map_fst_sorted
    (h : ∀ file, (s.board.reportsOf file).length = if file < files then 1 else 0) :
    (s.board.reports.reverse.mergeSort fun a b => a.1 ≤ b.1).map Prod.fst = List.range files := by
  have hsorted := @List.pairwise_mergeSort (Nat × FileReport) (fun a b => a.1 ≤ b.1)
    (by intro a b c; simpa using Nat.le_trans) (by intro a b; simpa using Nat.le_total a.1 b.1)
    s.board.reports.reverse
  have hperm : ((s.board.reports.reverse.mergeSort fun a b => a.1 ≤ b.1).map Prod.fst).Perm
      (List.range files) := by
    refine (((List.mergeSort_perm _ _).trans (List.reverse_perm _)).map Prod.fst).trans ?_
    rw [List.perm_iff_count]
    intro file
    rw [count_map_fst_reports, h, List.range_eq_range', List.count_range_1']
    simp
  refine List.Perm.eq_of_pairwise (fun _ _ _ _ => Nat.le_antisymm) ?_ List.pairwise_le_range hperm
  rw [List.pairwise_map]
  exact hsorted.imp fun hle => by simpa using hle

/-- The report on a file stands at its number. -/
theorem getElem?_reports
    (h : ∀ file, (s.board.reportsOf file).length = if file < files then 1 else 0)
    {file : Nat} {report : FileReport} (hreport : s.board.reportsOf file = [report]) :
    s.reports[file]? = some report := by
  have hnumbers := map_fst_sorted h
  have hfile : file < files := by
    have hlength := h file
    rw [hreport, List.length_singleton] at hlength
    split at hlength
    · assumption
    · exact absurd hlength (by decide)
  have hnumber := congrArg (·[file]?) hnumbers
  simp only [List.getElem?_map, List.getElem?_range hfile] at hnumber
  obtain ⟨⟨number, found⟩, hget, rfl⟩ := Option.map_eq_some_iff.1 hnumber
  have hmem : (number, found) ∈ s.board.reports :=
    List.mem_reverse.1 ((List.mergeSort_perm _ _).mem_iff.1 (List.mem_of_getElem? hget))
  have hfound : found ∈ s.board.reportsOf number :=
    List.mem_map.2 ⟨_, List.mem_filter.2 ⟨hmem, by simp⟩, rfl⟩
  rw [hreport, List.mem_singleton] at hfound
  rw [reports, List.getElem?_map, hget, ← hfound]
  rfl

end State

end LogAudit.Ingest
