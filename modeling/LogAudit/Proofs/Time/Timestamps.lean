import LogAudit.Proofs.Time.Calendar
import LogAudit.Proofs.Time.Written

/-!
# Timestamps denote instants

The instant of a timestamp is what the calendar counts up to the written time, less the seconds that
its zone is ahead of UTC; what is on no calendar or clock has none. An instant that is written on
the clocks of a zone is read back from there, since the date that is written for a day has the
number of this day (`Instant.exists_written`, `LocalTime.toInstant_toLocal`).
-/

namespace LogAudit.Time

open LogAudit.Text

/-! ## Written times that are real -/

namespace WrittenTime

variable {w : WrittenTime}

/-- The date is on the calendar and the time of day is on the clock. -/
structure Real (w : WrittenTime) : Prop where
  date : w.localTime.date.Exists
  hour_le : (w.hour : Nat) ≤ 23
  minute_le : (w.minute : Nat) ≤ 59
  second_le : (w.second : Nat) ≤ 59

/-- The date is on no calendar or the time of day on no clock, leap seconds included. -/
def Impossible (w : WrittenTime) : Prop :=
  ¬ w.localTime.date.Exists ∨ 23 < (w.hour : Nat) ∨ 59 < (w.minute : Nat) ∨ 60 < (w.second : Nat)

/-- The seconds from the beginning of 1970 to the written time on the same clock. -/
def seconds (w : WrittenTime) : Int :=
  ((Date.daysBefore w.year w.month w.day : Int) - Date.daysBefore 1970 1 1) * 86400
    + (w.hour * 3600 + w.minute * 60 + w.second : Nat)

theorem ofDigitChars_lt {digits : List Char} (init : Nat) (h : ∀ c ∈ digits, c.isDigit = true) :
    Nat.ofDigitChars 10 digits init < 10 ^ digits.length * (init + 1) := by
  induction digits generalizing init with
  | nil => simp [Nat.ofDigitChars]
  | cons c digits ih =>
    rw [List.forall_mem_cons] at h
    have hdigit : c.toNat - '0'.toNat ≤ 9 := by
      have hrange := h.1
      simp only [Char.isDigit, Bool.and_eq_true, decide_eq_true_eq,
        UInt32.le_iff_toNat_le] at hrange
      change 48 ≤ c.toNat ∧ c.toNat ≤ 57 at hrange
      change c.toNat - 48 ≤ 9
      omega
    rw [Nat.ofDigitChars_cons, List.length_cons, Nat.pow_succ, Nat.mul_assoc]
    refine Nat.lt_of_lt_of_le (ih _ h.2) (Nat.mul_le_mul_left _ ?_)
    omega

theorem nanos_lt (w : WrittenTime) : w.nanos < nanosPerSecond := by
  have hdigits := ofDigitChars_lt 0 w.digits
  have hle := w.length_le
  rw [nanos, nanosPerSecond]
  calc Nat.ofDigitChars 10 w.fraction 0 * 10 ^ (9 - w.fraction.length)
      < 10 ^ w.fraction.length * 10 ^ (9 - w.fraction.length) := by
        apply Nat.mul_lt_mul_of_pos_right
        · simpa using hdigits
        · exact Nat.pow_pos (by decide)
    _ = 1000000000 := by
        rw [← Nat.pow_add, Nat.add_sub_cancel' hle]

end WrittenTime

namespace Zone

/-- Clocks differ from UTC by whole minutes and by less than a day. -/
theorem ahead_spec (z : Zone) : -86400 < z.ahead ∧ z.ahead < 86400 ∧ z.ahead % 60 = 0 := by
  cases z with
  | name => simp [ahead]
  | offset o =>
    simp only [ahead, Offset.seconds]
    split <;> omega

end Zone

/-! ## Times on clocks -/

/-- Nanoseconds go up to the next second, or through the second after it where a minute ends with a
leap second. -/
def Instant.OnClock (t : Instant) : Prop :=
  t.nanos < nanosPerSecond ∨ t.seconds % 60 = 59 ∧ t.nanos < 2 * nanosPerSecond

namespace LocalTime

/-- The date is on the calendar and the time of day is on the clock; second 60 is a leap second. -/
structure Exists (t : LocalTime) : Prop where
  date : t.date.Exists
  hour_le : t.hour ≤ 23
  minute_le : t.minute ≤ 59
  second_le : t.second ≤ 60
  nanos_lt : t.nanos < nanosPerSecond

theorem isValid_iff {t : LocalTime} : t.isValid = true ↔
    (firstYear ≤ t.date.year ∧ t.date.year ≤ lastYear) ∧ t.Exists := by
  simp only [isValid, Date.isValid, Bool.and_eq_true, decide_eq_true_eq, and_assoc]
  constructor
  · rintro ⟨hfirst, hlast, hmonth, hmonth', hday, hday', hhour, hminute, hsecond, hnanos⟩
    exact ⟨hfirst, hlast, ⟨hmonth, hmonth', hday, hday'⟩, hhour, hminute, hsecond, hnanos⟩
  · rintro ⟨hfirst, hlast, ⟨hmonth, hmonth', hday, hday'⟩, hhour, hminute, hsecond, hnanos⟩
    exact ⟨hfirst, hlast, hmonth, hmonth', hday, hday', hhour, hminute, hsecond, hnanos⟩

theorem toInstant?_eq_none {t : LocalTime} (h : ¬ t.Exists) (ahead : Int) :
    t.toInstant? ahead = none :=
  if_neg fun hvalid => h (isValid_iff.1 hvalid).2

/-- A time in the years from 0 to 9999 has an instant, wherever the clock is. -/
theorem Exists.toInstant?_eq {t : LocalTime} (h : t.Exists) (hfirst : 0 ≤ t.date.year)
    (hlast : t.date.year ≤ 9999) (z : Zone) :
    t.toInstant? z.ahead = some (t.toInstant z.ahead) := by
  have hvalid : t.isValid = true := by
    refine isValid_iff.2 ⟨?_, h⟩
    unfold firstYear lastYear
    omega
  have hdays : -800000 ≤ (t.toInstant z.ahead).seconds / 86400 ∧
      (t.toInstant z.ahead).seconds / 86400 ≤ 4000000 := by
    obtain ⟨hlow, hhigh⟩ := Date.toDays_bounds hfirst hlast h.date
    obtain ⟨hbehind, hahead, -⟩ := z.ahead_spec
    have hhour := h.hour_le
    have hminute := h.minute_le
    have hsecond := h.second_le
    simp only [toInstant]
    split <;> omega
  have hkept : firstYear ≤ (Date.ofDays ((t.toInstant z.ahead).seconds / 86400)).year ∧
      (Date.ofDays ((t.toInstant z.ahead).seconds / 86400)).year ≤ lastYear := by
    obtain ⟨hyear, hyear'⟩ := Date.ofDays_year_bounds hdays.1 hdays.2
    unfold firstYear lastYear
    omega
  simp [toInstant?, hvalid, hkept]

/-- A clock shows an instant as the time that has this instant. -/
theorem toInstant_toLocal {t : Instant} {ahead : Int} (h : t.OnClock) :
    t.toLocal.toInstant ahead = ⟨t.seconds - ahead, t.nanos⟩ := by
  obtain ⟨inDay, hinDay⟩ : ∃ inDay : Nat, t.seconds % 86400 = inDay :=
    ⟨(t.seconds % 86400).toNat, by omega⟩
  simp only [toInstant, Instant.toLocal, hinDay, Int.toNat_natCast, Date.toDays_ofDays]
  by_cases hleap : nanosPerSecond ≤ t.nanos
  · -- the last second of a minute, which goes on
    have hlast : inDay % 60 = 59 := by
      have hminute := (h.resolve_left (Nat.not_lt.2 hleap)).1
      omega
    simp only [hleap, decide_true, if_true, hlast, beq_self_eq_true, Instant.mk.injEq]
    exact ⟨by omega, Nat.sub_add_cancel hleap⟩
  · have hsecond : (inDay % 60 == 60) = false := beq_false_of_ne (by omega)
    simp only [hleap, decide_false, Bool.false_eq_true, if_false, hsecond, Instant.mk.injEq]
    exact ⟨by omega, trivial⟩

end LocalTime

namespace WrittenTime

variable {w : WrittenTime}

theorem Real.seconds_eq (h : w.Real) : w.seconds =
    w.localTime.date.toDays * 86400 + (w.hour * 3600 + w.minute * 60 + w.second : Nat) := by
  rw [seconds, ← Date.toDays_eq h.date]
  rfl

/-- A real time has the instant that is its seconds less those that the clock is ahead. -/
theorem Real.toInstant?_eq (h : w.Real) (z : Zone) :
    w.localTime.toInstant? z.ahead = some ⟨w.seconds - z.ahead, w.nanos⟩ := by
  have hsecond := h.second_le
  have hleap : ((w.second : Nat) == 60) = false := beq_false_of_ne (by omega)
  have hexists : w.localTime.Exists :=
    ⟨h.date, h.hour_le, h.minute_le, Nat.le_succ_of_le hsecond, w.nanos_lt⟩
  have hyear : w.localTime.date.year ≤ 9999 := Int.ofNat_le.2 (Nat.le_of_lt_succ w.year.isLt)
  rw [hexists.toInstant?_eq (Int.natCast_nonneg _) hyear]
  simp only [LocalTime.toInstant, localTime, hleap, h.seconds_eq]
  rfl

/-- An impossible time has no instant. -/
theorem Impossible.toInstant?_eq (h : w.Impossible) (ahead : Int) :
    w.localTime.toInstant? ahead = none := by
  refine LocalTime.toInstant?_eq_none (fun hexists => ?_) ahead
  rcases h with h | h | h | h
  · exact h hexists.date
  · exact absurd hexists.hour_le (Nat.not_le_of_lt h)
  · exact absurd hexists.minute_le (Nat.not_le_of_lt h)
  · exact absurd hexists.second_le (Nat.not_le_of_lt h)

end WrittenTime

/-! ## Instants that are written -/

namespace Instant

/-- The digits of a number of fixed width, after the point. -/
theorem exists_pointed (width value : Nat) (hwidth : width ≤ 8) (h : value < 10 ^ (width + 1)) :
    ∃ digits : List Char, (∀ c ∈ digits, c.isDigit = true) ∧ digits.length ≤ 9 ∧
      WrittenTime.pointed digits = "." ++ padded (width + 1) value ∧
      Nat.ofDigitChars 10 digits 0 * 10 ^ (9 - digits.length) = value * 10 ^ (8 - width) := by
  have hdigits := numeral_padded width value h
  refine ⟨_, hdigits.digits, ?_, ?_, ?_⟩
  · rw [hdigits.length_eq]
    omega
  · rw [WrittenTime.pointed, String.ofList_toList]
    exact hdigits.ne_nil
  · rw [hdigits.value_eq, hdigits.length_eq, Nat.add_sub_add_right 8 1 width]

/-- The digits that are written for a fraction have its value. -/
theorem exists_fraction {nanos : Nat} (h : nanos < nanosPerSecond) :
    ∃ digits : List Char, (∀ c ∈ digits, c.isDigit = true) ∧ digits.length ≤ 9 ∧
      WrittenTime.pointed digits = fractionText nanos ∧
      Nat.ofDigitChars 10 digits 0 * 10 ^ (9 - digits.length) = nanos := by
  unfold nanosPerSecond at h
  unfold fractionText
  split
  · rename_i hzero
    obtain rfl := beq_iff_eq.1 hzero
    exact ⟨[], by simp, by simp, rfl, by simp [Nat.ofDigitChars]⟩
  · split
    · rename_i hmillis
      have hnanos : nanos / 1000000 * 10 ^ (8 - 2) = nanos :=
        Nat.div_mul_cancel (Nat.dvd_of_mod_eq_zero (beq_iff_eq.1 hmillis))
      have hdigits := exists_pointed 2 (nanos / 1000000) (by decide) (by omega)
      rwa [hnanos] at hdigits
    · split
      · rename_i hmicros
        have hnanos : nanos / 1000 * 10 ^ (8 - 5) = nanos :=
          Nat.div_mul_cancel (Nat.dvd_of_mod_eq_zero (beq_iff_eq.1 hmicros))
        have hdigits := exists_pointed 5 (nanos / 1000) (by decide) (by omega)
        rwa [hnanos] at hdigits
      · have hnanos : nanos * 10 ^ (8 - 8) = nanos := Nat.mul_one nanos
        have hdigits := exists_pointed 8 nanos (by decide) (by omega)
        rwa [hnanos] at hdigits

/-- What a clock shows is on the calendar and the clock, leap seconds included. -/
theorem OnClock.exists_toLocal {t : Instant} (h : t.OnClock) : t.toLocal.Exists := by
  refine ⟨Date.ofDays_exists _, ?_, ?_, ?_, ?_⟩
  · simp only [toLocal]
    omega
  · simp only [toLocal]
    omega
  · simp only [toLocal]
    split <;> omega
  · unfold OnClock at h
    by_cases hleap : nanosPerSecond ≤ t.nanos
    · simp only [toLocal, hleap, decide_true, if_true]
      omega
    · simp only [toLocal, hleap, decide_false, Bool.false_eq_true, if_false]
      omega

/-- What a clock shows in the years from 0 to 9999 is written in the form of timestamps. -/
theorem exists_written {t : Instant} (h : t.OnClock) (hfirst : 0 ≤ t.toLocal.date.year)
    (hlast : t.toLocal.date.year ≤ 9999) :
    ∃ w : WrittenTime, w.text = clockText " " t ∧ w.localTime = t.toLocal := by
  obtain ⟨hdate, hhour, hminute, hsecond, hnanos⟩ := h.exists_toLocal
  obtain ⟨digits, hdigits, hlength, htext, hvalue⟩ := exists_fraction hnanos
  have hday := hdate.day_le_31
  have hmonth := hdate.month_le
  have hyear : yearText t.toLocal.date.year = padded 4 t.toLocal.date.year.toNat := by
    simp [yearText, hfirst, hlast]
  let w : WrittenTime :=
    { year := ⟨t.toLocal.date.year.toNat, by omega⟩
      month := ⟨t.toLocal.date.month, by omega⟩
      day := ⟨t.toLocal.date.day, by omega⟩
      hour := ⟨t.toLocal.hour, by omega⟩
      minute := ⟨t.toLocal.minute, by omega⟩
      second := ⟨t.toLocal.second, by omega⟩
      fraction := digits
      digits := hdigits
      length_le := hlength }
  refine ⟨w, ?_, ?_⟩
  · simp only [w, WrittenTime.text, WrittenTime.dateText, WrittenTime.clockText, htext, clockText,
      hyear, String.append_assoc]
  · simp only [w, WrittenTime.localTime, WrittenTime.nanos, hvalue, Int.toNat_of_nonneg hfirst]

/-- An instant on the clocks of a zone. -/
def inZone (t : Instant) (z : Zone) : Instant := ⟨t.seconds + z.ahead, t.nanos⟩

/-- The timestamp of an instant on the clocks of a zone. -/
def stamp (t : Instant) (z : Zone) : String := clockText " " (t.inZone z) ++ " " ++ z.text

theorem OnClock.inZone {t : Instant} (h : t.OnClock) (z : Zone) : (t.inZone z).OnClock := by
  obtain ⟨-, -, hminutes⟩ := z.ahead_spec
  unfold OnClock at h ⊢
  simp only [Instant.inZone]
  omega

/-- The timestamp of an instant is read back. -/
theorem OnClock.parse_stamp {t : Instant} (h : t.OnClock) {z : Zone}
    (hfirst : 0 ≤ (t.inZone z).toLocal.date.year) (hlast : (t.inZone z).toLocal.date.year ≤ 9999) :
    z.style.parse (t.stamp z).toList = some t := by
  obtain ⟨w, htext, hlocal⟩ := exists_written (h.inZone z) hfirst hlast
  have hexists : (t.inZone z).toLocal.Exists := exists_toLocal (h.inZone z)
  have hshown : (t.inZone z).toLocal.toInstant z.ahead = t := by
    rw [LocalTime.toInstant_toLocal (h.inZone z), Instant.inZone, Int.add_sub_cancel]
  rw [stamp, ← htext, ZoneStyle.parse_text, z.ahead?_text, Option.bind_some, hlocal,
    hexists.toInstant?_eq hfirst hlast, hshown]

end Instant

/-- Timestamps denote instants: a real time in a zone is the instant that the calendar counts up to
it less the seconds that the zone is ahead; a time that is impossible is no instant, in either
style; blanks around a timestamp make no difference; and an instant on the clocks of any zone, in
the years from 0 to 9999 there, is read back from its timestamp. -/
theorem ZoneStyle.parse_denotes :
    (∀ w : WrittenTime, w.Real → ∀ z : Zone, z.style.parse (w.text ++ " " ++ z.text).toList =
      some ⟨w.seconds - z.ahead, w.nanos⟩) ∧
    (∀ w : WrittenTime, w.Impossible → ∀ (style : ZoneStyle) (z : Zone),
      style.parse (w.text ++ " " ++ z.text).toList = none) ∧
    (∀ (style : ZoneStyle) (before s after : List Char), (∀ c ∈ before, isBlank c = true) →
      (∀ c ∈ after, isBlank c = true) → style.parse (before ++ s ++ after) = style.parse s) ∧
    (∀ t : Instant, t.OnClock → ∀ z : Zone, 0 ≤ (t.inZone z).toLocal.date.year →
      (t.inZone z).toLocal.date.year ≤ 9999 → z.style.parse (t.stamp z).toList = some t) := by
  refine ⟨?_, ?_, ?_, ?_⟩
  · intro w hreal z
    rw [parse_text, z.ahead?_text, Option.bind_some, hreal.toInstant?_eq]
  · intro w himpossible style z
    rw [parse_text]
    cases style.ahead? z.text.toList with
    | none => rfl
    | some ahead => exact himpossible.toInstant?_eq ahead
  · intro style before s after hbefore hafter
    exact style.parse_blanks s hbefore hafter
  · intro t hclock z hfirst hlast
    exact hclock.parse_stamp hfirst hlast

/-- Half past eleven on a leap day, where clocks are an hour and a half behind: it is the next month
in UTC. The same day of the year before is on no calendar. -/
theorem ZoneStyle.parse_denotes_leapDay :
    let w : WrittenTime := ⟨2024, 2, 29, 23, 30, 0, ['5'], by simp, by decide⟩
    let never : WrittenTime := ⟨2023, 2, 29, 23, 30, 0, [], by simp, by decide⟩
    let z : Zone := .offset ⟨true, 1, 30, true⟩
    let t : Instant := ⟨1709254800, 500000000⟩
    w.Real ∧ z.style.parse "2024-02-29 23:30:00.5 -01:30".toList = some t ∧
    never.Impossible ∧ named.parse "2023-02-29 23:30:00 -01:30".toList = none ∧
    named.parse (['\t'] ++ "2023-08-23 06:52:53 UTC".toList ++ [' ', '\n']) =
      named.parse "2023-08-23 06:52:53 UTC".toList ∧
    t.OnClock ∧ t.stamp z = "2024-02-29 23:30:00.500 -01:30" ∧
    z.style.parse (t.stamp z).toList = some t := by
  intro w never z t
  obtain ⟨hreal, himpossible, hblanks, hstamp⟩ := parse_denotes
  have hw : w.Real :=
    ⟨⟨by decide, by decide, by decide, by decide⟩, by decide, by decide, by decide⟩
  have hseconds : w.seconds - z.ahead = 1709254800 := by
    rw [hw.seconds_eq]
    decide
  have hnever : never.Impossible := Or.inl fun h => absurd h.day_le (by decide)
  have ht : t.OnClock := Or.inl (by decide)
  have htext : w.text ++ " " ++ z.text = "2024-02-29 23:30:00.5 -01:30" := by decide +kernel
  have htext' : never.text ++ " " ++ z.text = "2023-02-29 23:30:00 -01:30" := by decide +kernel
  have hnanos : w.nanos = 500000000 := by decide +kernel
  refine ⟨hw, ?_, hnever, ?_, ?_, ht, by decide +kernel, hstamp t ht z (by decide) (by decide)⟩
  · rw [← htext, hreal w hw z, hseconds, hnanos]
  · rw [← htext']
    exact himpossible never hnever named z
  · exact hblanks named ['\t'] _ [' ', '\n'] (by simp [isBlank]) (by simp [isBlank])

end LogAudit.Time
