import LogAudit.Proofs.Line.Layout

/-!
# Which lines a template accepts

A template is searched for in a line and not laid over it from the first character on. A line is
refused as of another format exactly if no part of it up to its end is laid out by the template, and
a record tells the layout of the longest such part (`Template.accepts_longest_part`). So a line is
read although something else stands in front of its prefix, and a template is accepted although it
gives only the end of the prefix (`Template.longerPrefix_accepted`).
-/

namespace LogAudit.Line.Template

open LogAudit.Text LogAudit.Time

/-- What is accepted of a line is its longest part up to its end that is laid out by the template;
it is the whole line if and only if the whole line is laid out by the template. -/
theorem accepts_longest_part (t : Template) (style : ZoneStyle) (line : String) :
    ((t.read style line).1 = .error .invalidFormat ↔ line.toList.head? ≠ some '\t' ∧
      ∀ skipped (x : Layout), x.Fits t → line.toList ≠ skipped ++ x.line) ∧
    ∀ r, (t.read style line).1 = .ok r → ∃ (skipped : List Char) (x : Layout),
      line.toList = skipped ++ x.line ∧ x.Fits t ∧ x.ToldBy r ∧
      (∀ (shorter : List Char) (y : Layout), y.Fits t → line.toList = shorter ++ y.line →
        skipped.length ≤ shorter.length) ∧
      (skipped = [] ↔ ∃ y : Layout, y.Fits t ∧ y.line = line.toList) := by
  constructor
  · rw [read_eq_invalidFormat_iff, Pattern.search_eq_none_iff]
    refine and_congr_right fun _ => ⟨fun h skipped x hfits hline => ?_, fun h => ?_⟩
    · exact h skipped x.line [] hline (reads_pattern_iff.2 ⟨rfl, x, hfits, rfl⟩)
    · intro skipped tail rest hline hreads
      obtain ⟨-, x, hfits, rfl⟩ := reads_pattern_iff.1 hreads
      exact h skipped x hfits hline
  · intro r hread
    obtain ⟨-, skipped, x, hline, hfits, htold, hfirst⟩ := exists_layout_of_read hread
    have hlongest : ∀ (shorter : List Char) (y : Layout), y.Fits t →
        line.toList = shorter ++ y.line → skipped.length ≤ shorter.length := by
      intro shorter y hy hline'
      refine Nat.le_of_not_lt fun hlt => ?_
      obtain ⟨v, rfl⟩ : shorter <+: skipped :=
        List.prefix_of_prefix_length_le ⟨y.line, hline'.symm⟩ ⟨x.line, hline.symm⟩ (by omega)
      have hv : v ≠ [] := by
        rintro rfl
        simp at hlt
      have hshared : y.line = v ++ x.line := by
        rw [hline, List.append_assoc, List.append_cancel_left_eq] at hline'
        exact hline'.symm
      exact hfirst shorter v y rfl hv hy hshared
    refine ⟨skipped, x, hline, hfits, htold, hlongest, ?_, ?_⟩
    · rintro rfl
      exact ⟨x, hfits, hline.symm⟩
    · rintro ⟨y, hy, hwhole⟩
      have hle := hlongest [] y hy hwhole.symm
      exact List.length_eq_zero_iff.1 (Nat.le_zero.1 hle)

/-- The template `%d `. -/
def databaseOnly : Template := ⟨[.token .database, .literal ' '], by decide⟩

/-- A line of a server whose prefix has a time and a process before the database. -/
def longerPrefix : String := "2024-03-01 10:00:00 UTC [7] shop LOG:  hi"

/-- A template that is only the end of the prefix reads a line which it does not lay out. -/
theorem longerPrefix_accepted :
    Template.ofString? "%d " = .ok databaseOnly ∧
    (databaseOnly.record longerPrefix).toOption.map
        (fun r => (r.database.toOption, r.level, r.description)) = some (some "shop", "LOG", "hi") ∧
    ∀ x : Layout, x.Fits databaseOnly → x.line ≠ longerPrefix.toList := by
  refine ⟨rfl, by decide +kernel, matchStart_eq_none_iff.1 ?_⟩
  have hstart : (databaseOnly.pattern.matchStart longerPrefix.toList).isNone = true := by
    decide +kernel
  exact Option.isNone_iff_eq_none.1 hstart

end LogAudit.Line.Template
