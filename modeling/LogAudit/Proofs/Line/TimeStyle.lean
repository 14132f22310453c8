import LogAudit.Line.Record

/-!
# The style of timestamps

No timestamp is read in both styles, so the style that is tried first decides how soon a timestamp
is read but not what it is read as. A line therefore gives the same record for every style that the
lines before it have left.
-/

namespace LogAudit.Time.ZoneStyle

/-- A timestamp that is read ends with a zone of its style. -/
theorem exists_zone_of_parse {style : ZoneStyle} {text : List Char} {t : Instant}
    (h : style.parse text = some t) :
    ∃ clock zone ahead, splitLast (Text.trim text) = some (clock, zone) ∧
      style.ahead? zone = some ahead := by
  simp only [parse, Option.bind_eq_bind, Option.bind_eq_some_iff] at h
  obtain ⟨⟨clock, zone⟩, hsplit, ⟨date, rest⟩, -, ⟨time, rest'⟩, -, h⟩ := h
  split at h
  · obtain ⟨ahead, hahead, -⟩ := Option.bind_eq_some_iff.1 h
    exact ⟨clock, zone, ahead, hsplit, hahead⟩
  · exact absurd h (by simp)

/-- An offset is not the abbreviation of a zone. -/
theorem ahead?_named_of_numeric {zone : List Char} {ahead : Int}
    (h : numeric.ahead? zone = some ahead) : named.ahead? zone = none := by
  have hsign : ∃ s, zone = '+' :: s ∨ zone = '-' :: s := by
    simp only [ahead?, offset?] at h
    split at h
    · exact ⟨_, Or.inl rfl⟩
    · exact ⟨_, Or.inr rfl⟩
    · exact absurd h (by simp)
  obtain ⟨s, rfl | rfl⟩ := hsign
  · simp [ahead?, show Char.isAlpha '+' = false by decide]
  · simp [ahead?, show Char.isAlpha '-' = false by decide]

/-- A timestamp that is read in one style is not read in the other. -/
theorem parse_other_eq_none {style : ZoneStyle} {text : List Char} {t : Instant}
    (h : style.parse text = some t) : style.other.parse text = none := by
  obtain ⟨clock, zone, ahead, hsplit, hahead⟩ := exists_zone_of_parse h
  cases hother : style.other.parse text with
  | none => rfl
  | some t' =>
    obtain ⟨clock', zone', ahead', hsplit', hahead'⟩ := exists_zone_of_parse hother
    rw [hsplit, Option.some.injEq, Prod.mk.injEq] at hsplit'
    obtain ⟨-, rfl⟩ := hsplit'
    cases style with
    | numeric =>
      rw [other, ahead?_named_of_numeric hahead] at hahead'
      exact absurd hahead' (by simp)
    | named =>
      rw [ahead?_named_of_numeric hahead'] at hahead
      exact absurd hahead (by simp)

end LogAudit.Time.ZoneStyle

namespace LogAudit.Line

open LogAudit.Time

/-- The instant of a timestamp is the same whichever style is tried first. -/
theorem readTime_fst (style : ZoneStyle) (text : List Char) :
    (readTime style text).1 = (readTime .numeric text).1 := by
  cases style with
  | numeric => rfl
  | named =>
    simp only [readTime, ZoneStyle.other]
    cases hnamed : ZoneStyle.named.parse text with
    | none => cases hnumeric : ZoneStyle.numeric.parse text <;> rfl
    | some t =>
      have hnumeric : ZoneStyle.numeric.parse text = none := ZoneStyle.parse_other_eq_none hnamed
      rw [hnumeric]

/-- The record of a line is the same whichever style is tried first. -/
theorem Template.read_fst (t : Template) (style : ZoneStyle) (line : String) :
    (t.read style line).1 = t.record line := by
  simp only [Template.record, Template.read]
  split
  · rfl
  · split
    · rfl
    · split
      · rfl
      · rfl
      · rename_i text _ _
        have htime := readTime_fst style text
        rcases hread : readTime style text with ⟨_ | time, style'⟩ <;>
          rcases hread' : readTime .numeric text with ⟨_ | time', style''⟩ <;>
          simp_all

end LogAudit.Line
