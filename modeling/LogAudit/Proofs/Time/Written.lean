import LogAudit.Time.Stamp
import Mathlib.Algebra.Order.Ring.Nat
import Mathlib.Data.List.TakeWhile

/-!
# Written timestamps

A date and a time of day are written in digits of fixed width, with a fraction of up to nine digits
and a zone after a space. Each number is read back as it was written (`Scan.number_digits`), and so
are the whole time (`WrittenTime.scan_text`) and a timestamp in it (`ZoneStyle.parse_text`). Blanks
around a timestamp are passed over (`ZoneStyle.parse_blanks`).
-/

namespace LogAudit.Time

open LogAudit.Text

/-! ## Numbers of fixed width -/

namespace Scan

/-- The value of digits is what the library says. -/
theorem digitsValue_eq (digits : List Char) :
    digitsValue digits = Nat.ofDigitChars 10 digits 0 := by
  simp only [digitsValue, Nat.ofDigitChars, Nat.mul_comm]
  rfl

/-- Digits are read as far as the width goes or to the end of the text. -/
theorem number_digits {width : Nat} {digits rest : List Char}
    (hdigits : ∀ c ∈ digits, c.isDigit = true) (hne : digits ≠ []) (hle : digits.length ≤ width)
    (hend : digits.length = width ∨ rest = []) :
    number width (digits ++ rest) = some (Nat.ofDigitChars 10 digits 0, rest) := by
  have htake : (digits ++ rest).take width = digits := by
    rcases hend with rfl | rfl
    · exact List.take_left
    · rw [List.append_nil]
      exact List.take_of_length_le hle
  have hall : digits.takeWhile Char.isDigit = digits := List.takeWhile_eq_self_iff.2 hdigits
  rw [number, htake, hall]
  split
  · exact absurd rfl hne
  · rw [digitsValue_eq, List.drop_left]

/-- The characters are digits of fixed width with this value. -/
structure Numeral (width value : Nat) (s : List Char) : Prop where
  digits : ∀ c ∈ s, c.isDigit = true
  length_eq : s.length = width
  value_eq : Nat.ofDigitChars 10 s 0 = value

/-- No letter and no digit is a blank. -/
theorem isBlank_of_isAlphanum {c : Char} (h : c.isAlphanum = true) : isBlank c = false := by
  have hascii : c.toNat < 128 := by
    change ((decide (65 ≤ c.val ∧ c.val ≤ 90) || (97 ≤ c.val && c.val ≤ 122)) ||
      (48 ≤ c.val && c.val ≤ 57)) = true at h
    simp only [Bool.or_eq_true, Bool.and_eq_true, decide_eq_true_eq,
      UInt32.le_iff_toNat_le] at h
    change ((65 ≤ c.toNat ∧ c.toNat ≤ 90) ∨ (97 ≤ c.toNat ∧ c.toNat ≤ 122)) ∨
      (48 ≤ c.toNat ∧ c.toNat ≤ 57) at h
    omega
  have hword : isWord c = true := by
    rw [isWord, if_pos hascii, h, Bool.true_or]
  cases hblank : isBlank c with
  | false => rfl
  | true => exact absurd hword (by simp [isWord_eq_false_of_isBlank hblank])

/-- A digit is no blank. -/
theorem isBlank_of_isDigit {c : Char} (h : c.isDigit = true) : isBlank c = false :=
  isBlank_of_isAlphanum (by simp [Char.isAlphanum, h])

section

variable {width value : Nat} {s rest : List Char}

/-- A numeral starts with a digit. -/
theorem Numeral.exists_cons (h : Numeral (width + 1) value s) :
    ∃ c s', s = c :: s' ∧ c.isDigit = true := by
  cases s with
  | nil => exact absurd h.length_eq (by simp)
  | cons c s' => exact ⟨c, s', rfl, h.digits c List.mem_cons_self⟩

theorem Numeral.ne_nil (h : Numeral (width + 1) value s) : s ≠ [] := by
  obtain ⟨c, s', rfl, -⟩ := h.exists_cons
  exact List.cons_ne_nil c s'

/-- A numeral is read as its value. -/
theorem number_numeral (h : Numeral (width + 1) value s) :
    number (width + 1) (s ++ rest) = some (value, rest) := by
  rw [number_digits h.digits h.ne_nil (Nat.le_of_eq h.length_eq) (Or.inl h.length_eq), h.value_eq]

/-- There is nothing to pass over before a number. -/
theorem trimLeft_numeral (h : Numeral (width + 1) value s) : trimLeft (s ++ rest) = s ++ rest := by
  obtain ⟨c, s', rfl, hc⟩ := h.exists_cons
  exact List.dropWhile_cons_of_neg (by simp [isBlank_of_isDigit hc])

/-- A numeral of two digits is read as a pair. -/
theorem pair_numeral (h : Numeral 2 value s) : pair (s ++ rest) = some (value, rest) := by
  rw [pair, trimLeft_numeral h, number_numeral h]

/-- A numeral of four digits is read as a year. -/
theorem year_numeral (h : Numeral 4 value s) : year (s ++ rest) = some ((value : Int), rest) := by
  rw [year, trimLeft_numeral h]
  obtain ⟨c, s', hs, hc⟩ := h.exists_cons
  split
  · rename_i heq
    rw [hs] at heq
    obtain ⟨rfl, -⟩ := List.cons.inj heq
    exact absurd hc (by decide)
  · rename_i heq
    rw [hs] at heq
    obtain ⟨rfl, -⟩ := List.cons.inj heq
    exact absurd hc (by decide)
  · rw [number_numeral h]
    rfl

end

end Scan

/-- A number that is filled up with zeros has as many digits as the width says. -/
theorem Instant.numeral_padded (width value : Nat) (h : value < 10 ^ (width + 1)) :
    Scan.Numeral (width + 1) value (padded (width + 1) value).toList := by
  have htext : (padded (width + 1) value).toList =
      List.replicate (width + 1 - (Nat.toDigits 10 value).length) '0' ++ Nat.toDigits 10 value := by
    simp [padded, Nat.toList_repr, String.length]
  have hlength : (Nat.toDigits 10 value).length ≤ width + 1 :=
    (Nat.length_toDigits_le_iff (by decide) (by omega)).2 h
  constructor
  · intro c hc
    rw [htext, List.mem_append, List.mem_replicate] at hc
    rcases hc with ⟨-, rfl⟩ | hc
    · decide
    · exact Nat.isDigit_of_mem_toDigits (by decide) (by decide) hc
  · rw [htext, List.length_append, List.length_replicate]
    omega
  · rw [htext, Nat.ofDigitChars_append, Nat.ofDigitChars_replicate_zero, Nat.mul_zero,
      Nat.ofDigitChars_toDigits (by decide) (by decide)]

/-- What is padded to four digits is a numeral. -/
theorem Instant.numeral_four (n : Fin 10000) : Scan.Numeral 4 n (padded 4 n).toList :=
  numeral_padded _ _ (Nat.lt_of_lt_of_eq n.isLt (by decide))

/-- What is padded to two digits is a numeral. -/
theorem Instant.numeral_two (n : Fin 100) : Scan.Numeral 2 n (padded 2 n).toList :=
  numeral_padded _ _ (Nat.lt_of_lt_of_eq n.isLt (by decide))

/-! ## Times -/

/-- A date and a time of day as they are written: four digits for the year and two for each of the
other parts, which need not be on any calendar or clock, and the digits of a fraction. -/
structure WrittenTime where
  year : Fin 10000
  month : Fin 100
  day : Fin 100
  hour : Fin 100
  minute : Fin 100
  second : Fin 100
  /-- The digits of the fraction; without digits there is no point either. -/
  fraction : List Char
  digits : ∀ c ∈ fraction, c.isDigit = true
  length_le : fraction.length ≤ 9

namespace WrittenTime

variable (w : WrittenTime)

/-- The text of the date. -/
def dateText : String :=
  Instant.padded 4 w.year ++ "-" ++ Instant.padded 2 w.month ++ "-" ++ Instant.padded 2 w.day

/-- A point before digits, if there are any. -/
def pointed : List Char → String
  | [] => ""
  | digits => "." ++ String.ofList digits

/-- The text of the time of day. -/
def clockText : String :=
  Instant.padded 2 w.hour ++ ":" ++ Instant.padded 2 w.minute ++ ":" ++ Instant.padded 2 w.second
    ++ pointed w.fraction

/-- The text, in the form `YYYY-MM-DD HH:MM:SS[.f]`. -/
def text : String := w.dateText ++ " " ++ w.clockText

/-- The nanoseconds that the digits of the fraction stand for. -/
def nanos : Nat := Nat.ofDigitChars 10 w.fraction 0 * 10 ^ (9 - w.fraction.length)

/-- What is written. -/
def localTime : LocalTime :=
  ⟨⟨w.year, w.month, w.day⟩, w.hour, w.minute, w.second, w.nanos⟩

/-- The digits behind the point are read as nanoseconds. -/
theorem scan_fraction : Scan.fraction (pointed w.fraction).toList = some (w.nanos, []) := by
  obtain ⟨_, _, _, _, _, _, fraction, hdigits, hle⟩ := w
  cases fraction with
  | nil => simp [pointed, Scan.fraction, nanos, Nat.ofDigitChars]
  | cons c digits =>
    have hnumber : Scan.number 9 (c :: digits) =
        some (Nat.ofDigitChars 10 (c :: digits) 0, []) := by
      have hread : Scan.number 9 (c :: digits ++ []) =
          some (Nat.ofDigitChars 10 (c :: digits) 0, []) :=
        Scan.number_digits hdigits (List.cons_ne_nil c digits) hle (Or.inr rfl)
      rwa [List.append_nil] at hread
    simp [pointed, Scan.fraction, Scan.fractionDigits, hnumber, nanos]

/-- A written date starts with a digit. -/
theorem exists_dateText_cons : ∃ c s, w.dateText.toList = c :: s ∧ c.isDigit = true := by
  obtain ⟨c, s, hs, hc⟩ := (Instant.numeral_four w.year).exists_cons
  simp [dateText, hs, hc]

/-- A written time of day starts with a digit. -/
theorem exists_clockText_cons : ∃ c s, w.clockText.toList = c :: s ∧ c.isDigit = true := by
  obtain ⟨c, s, hs, hc⟩ := (Instant.numeral_two w.hour).exists_cons
  simp [clockText, hs, hc]

/-- The date is read back, and what follows it is left. -/
theorem scan_date (rest : List Char) :
    Scan.date id (w.dateText.toList ++ rest) = some (w.localTime.date, rest) := by
  simp [dateText, Scan.date, Scan.year_numeral (Instant.numeral_four w.year),
    Scan.pair_numeral (Instant.numeral_two _), Scan.char, localTime]

/-- The time of day is read back. -/
theorem scan_clock :
    Scan.clock id w.localTime.date w.clockText.toList = some (w.localTime, []) := by
  simp [clockText, Scan.clock, Scan.pair_numeral (Instant.numeral_two _), Scan.char,
    scan_fraction, localTime]

end WrittenTime

/-! ## Zones -/

/-- A difference from UTC: a sign, hours and minutes. -/
structure Offset where
  /-- Clocks are behind UTC. -/
  behind : Bool
  hours : Fin 24
  minutes : Fin 60
  /-- A colon stands between hours and minutes. -/
  colon : Bool

namespace Offset

/-- The text of an offset, in the form `±HHMM` or `±HH:MM`. -/
def text (o : Offset) : String :=
  (if o.behind then "-" else "+") ++ Instant.padded 2 o.hours ++ (if o.colon then ":" else "")
    ++ Instant.padded 2 o.minutes

/-- The seconds that clocks are ahead of UTC. -/
def seconds (o : Offset) : Int :=
  let size : Int := o.hours * 3600 + o.minutes * 60
  if o.behind then -size else size

end Offset

/-- What stands at the end of a timestamp. -/
inductive Zone where
  | offset (o : Offset)
  /-- An abbreviation of three or more letters. -/
  | name (letters : List Char) (three_le : 3 ≤ letters.length)
      (letters_only : ∀ c ∈ letters, c.isAlpha = true)

namespace Zone

/-- The text of a zone. -/
def text : Zone → String
  | offset o => o.text
  | name letters _ _ => String.ofList letters

/-- The style that the zone is written in. -/
def style : Zone → ZoneStyle
  | offset _ => .numeric
  | name _ _ _ => .named

/-- The seconds that clocks are ahead of UTC. Abbreviations are read as UTC. -/
def ahead : Zone → Int
  | offset o => o.seconds
  | name _ _ _ => 0

end Zone

/-- A numeral of two digits is two digits with its value. -/
theorem Scan.Numeral.exists_pair {value : Nat} {s : List Char} (h : Scan.Numeral 2 value s) :
    ∃ a b, s = [a, b] ∧ a.isDigit = true ∧ b.isDigit = true ∧
      Scan.digitsValue [a, b] = value := by
  obtain ⟨hdigits, hlength, hvalue⟩ := h
  match s, hlength with
  | [a, b], _ =>
    exact ⟨a, b, rfl, hdigits a (by simp), hdigits b (by simp),
      (Scan.digitsValue_eq _).trans hvalue⟩

/-- Hours and minutes are read with or without the colon between them. -/
theorem ZoneStyle.offsetMinutes_digits {hours minutes : Nat} {s s' : List Char} (colon : Bool)
    (hhours : Scan.Numeral 2 hours s) (hminutes : Scan.Numeral 2 minutes s') :
    offsetMinutes (s ++ ((if colon then [':'] else []) ++ s')) = some (hours * 60 + minutes) := by
  obtain ⟨a, b, rfl, ha, hb, hab⟩ := hhours.exists_pair
  obtain ⟨c, d, rfl, hc, hd, hcd⟩ := hminutes.exists_pair
  have hkept : ∀ c : Char, c.isDigit = true → c ≠ ':' := by
    rintro c h rfl
    exact absurd h (by decide)
  have hdigits : ([a, b] ++ ((if colon then [':'] else []) ++ [c, d])).filter (· != ':') =
      [a, b, c, d] := by
    cases colon <;> simp [hkept, ha, hb, hc, hd]
  rw [offsetMinutes, hdigits]
  simp [ha, hb, hc, hd, hab, hcd]

namespace Zone

/-- A zone is read in its style as what it says. -/
theorem ahead?_text (z : Zone) : z.style.ahead? z.text.toList = some z.ahead := by
  cases z with
  | name letters three_le letters_only =>
    have hall : letters.all Char.isAlpha = true := List.all_eq_true.2 letters_only
    simp [style, text, ZoneStyle.ahead?, three_le, hall, ahead]
  | offset o =>
    have hhours := Instant.numeral_two (o.hours.castLE (by decide))
    have hminutes := Instant.numeral_two (o.minutes.castLE (by decide))
    have hread := ZoneStyle.offsetMinutes_digits o.colon hhours hminutes
    have hless : (o.hours : Nat) * 60 + o.minutes < 1440 := by omega
    have hcolon : (if o.colon then ":" else "").toList = if o.colon then [':'] else [] := by
      cases o.colon <;> rfl
    simp only [Fin.val_castLE] at hread
    cases hbehind : o.behind
    · simp [style, text, Offset.text, ZoneStyle.ahead?, ZoneStyle.offset?, ahead, Offset.seconds,
        hcolon, hbehind, hread, hless]
      omega
    · simp [style, text, Offset.text, ZoneStyle.ahead?, ZoneStyle.offset?, ahead, Offset.seconds,
        hcolon, hbehind, hread, hless]
      omega

/-- No zone is written as the empty text. -/
theorem text_ne_nil (z : Zone) : z.text.toList ≠ [] := by
  cases z with
  | name letters three_le _ =>
    rintro hnil
    rw [text, String.toList_ofList] at hnil
    rw [hnil] at three_le
    exact absurd three_le (by decide)
  | offset o =>
    have hhours := (Instant.numeral_two (o.hours.castLE (by decide))).ne_nil
    intro hnil
    simp only [text, Offset.text, String.toList_append, List.append_eq_nil_iff] at hnil
    exact hhours hnil.1.1.2

/-- No blank stands in a zone. -/
theorem isBlank_of_mem_text (z : Zone) : ∀ c ∈ z.text.toList, isBlank c = false := by
  cases z with
  | name letters three_le letters_only =>
    intro c hc
    rw [text, String.toList_ofList] at hc
    exact Scan.isBlank_of_isAlphanum (by simp [Char.isAlphanum, letters_only c hc])
  | offset o =>
    have hhours := (Instant.numeral_two (o.hours.castLE (by decide))).digits
    have hminutes := (Instant.numeral_two (o.minutes.castLE (by decide))).digits
    intro c hc
    simp only [text, Offset.text, String.toList_append, List.mem_append] at hc
    rcases hc with ((hc | hc) | hc) | hc
    · split at hc <;> (obtain rfl := List.mem_singleton.1 hc; decide)
    · exact Scan.isBlank_of_isDigit (hhours c hc)
    · split at hc
      · obtain rfl := List.mem_singleton.1 hc
        decide
      · exact absurd hc List.not_mem_nil
    · exact Scan.isBlank_of_isDigit (hminutes c hc)

end Zone

/-! ## Timestamps -/

/-- Nothing is trimmed off a text that starts with no blank. -/
theorem trimLeft_eq_self {s : List Char} (h : ∀ c ∈ s.head?, isBlank c = false) :
    trimLeft s = s := by
  cases s with
  | nil => rfl
  | cons c s => exact List.dropWhile_cons_of_neg (by simp [h c rfl])

/-- Nothing is dropped from a text that has no blank at either end. -/
theorem trim_eq_self {s : List Char} (hfirst : ∀ c ∈ s.head?, isBlank c = false)
    (hlast : ∀ c ∈ s.getLast?, isBlank c = false) : trim s = s := by
  rw [trim, trimLeft_eq_self hfirst, trimLeft_eq_self (by rwa [List.head?_reverse]),
    List.reverse_reverse]

/-- Blanks around a text are dropped with those that it has at its ends. -/
theorem trim_blanks {before after : List Char} (s : List Char)
    (hbefore : ∀ c ∈ before, isBlank c = true) (hafter : ∀ c ∈ after, isBlank c = true) :
    trim (before ++ s ++ after) = trim s := by
  have hback : ∀ c ∈ after.reverse, isBlank c = true := fun c hc => hafter c (List.mem_reverse.1 hc)
  have hleft : trimLeft (before ++ s ++ after) =
      if (trimLeft s).isEmpty then trimLeft after else trimLeft s ++ after := by
    rw [trimLeft, List.append_assoc, List.dropWhile_append_of_pos hbefore, List.dropWhile_append]
    rfl
  rw [trim, trim, hleft]
  split
  · rename_i hblank
    have hnone : trimLeft after = [] := List.dropWhile_eq_nil_iff.2 hafter
    rw [List.isEmpty_iff.1 hblank, hnone]
  · rw [List.reverse_append, trimLeft, List.dropWhile_append_of_pos hback]
    rfl

namespace ZoneStyle

/-- A text is split at its last space. -/
theorem splitLast_append {front zone : List Char} (h : ∀ c ∈ zone, c ≠ ' ') :
    splitLast (front ++ ' ' :: zone) = some (front, zone) := by
  have hback : ∀ c ∈ zone.reverse, (c != ' ') = true := fun c hc =>
    bne_iff_ne.2 (h c (List.mem_reverse.1 hc))
  have htext : (front ++ ' ' :: zone).reverse = zone.reverse ++ ' ' :: front.reverse := by simp
  rw [splitLast, htext, List.dropWhile_append_of_pos hback, List.takeWhile_append_of_pos hback]
  simp

/-- Blanks around a timestamp are passed over. -/
theorem parse_blanks (style : ZoneStyle) {before after : List Char} (s : List Char)
    (hbefore : ∀ c ∈ before, isBlank c = true) (hafter : ∀ c ∈ after, isBlank c = true) :
    style.parse (before ++ s ++ after) = style.parse s := by
  rw [parse, parse, trim_blanks s hbefore hafter]

/-- A timestamp is read as the instant of what is written in it, if its zone is in the style. -/
theorem parse_text (style : ZoneStyle) (w : WrittenTime) (z : Zone) :
    style.parse (w.text ++ " " ++ z.text).toList =
      (style.ahead? z.text.toList).bind w.localTime.toInstant? := by
  have hzone : ∀ c ∈ z.text.toList, c ≠ ' ' := by
    rintro c hc rfl
    exact absurd (z.isBlank_of_mem_text _ hc) (by decide)
  have htext : (w.text ++ " " ++ z.text).toList = w.text.toList ++ ' ' :: z.text.toList := by simp
  have hdate : w.text.toList = w.dateText.toList ++ ' ' :: w.clockText.toList := by
    simp [WrittenTime.text]
  have htrim : trim (w.text ++ " " ++ z.text).toList = w.text.toList ++ ' ' :: z.text.toList := by
    rw [htext]
    apply trim_eq_self
    · rw [hdate]
      obtain ⟨c, s, hs, hc⟩ := w.exists_dateText_cons
      simp [hs, Scan.isBlank_of_isDigit hc]
    · obtain ⟨front, c, hlast⟩ := (List.eq_nil_or_concat z.text.toList).resolve_left z.text_ne_nil
      have hc := z.isBlank_of_mem_text c (by simp [hlast])
      rw [hlast, List.concat_eq_append, ← List.cons_append, ← List.append_assoc,
        List.getLast?_concat]
      simpa using hc
  have hclock : trimLeft (' ' :: w.clockText.toList) = w.clockText.toList := by
    obtain ⟨c, s, hs, hc⟩ := w.exists_clockText_cons
    rw [trimLeft, List.dropWhile_cons_of_pos (by decide), hs]
    exact trimLeft_eq_self (by simp [Scan.isBlank_of_isDigit hc])
  simp only [parse, htrim, splitLast_append hzone, Option.bind_eq_bind, Option.bind_some, hdate,
    w.scan_date, hclock, w.scan_clock, List.isEmpty_nil, if_true]

end ZoneStyle

end LogAudit.Time
