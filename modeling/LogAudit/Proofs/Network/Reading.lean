import LogAudit.Proofs.Network.Prefixes

/-!
# Written addresses

Numbers, dotted numbers and groups are read in the same way whatever follows them, as long as it
does not continue them. Hence an address in front of a slash is the address that is read without it,
and an address with a number of bits is the block of that address (`Block.parse?_slash`). An address
is written with digits, points and colons only (`Address.isSign_of_parse?`), which tell its
family.
-/

namespace LogAudit.Network

namespace Address

/-! ## Numbers -/

theorem isDigit_char_iff {c : Char} : c.isDigit = true ↔ 48 ≤ c.toNat ∧ c.toNat ≤ 57 := by
  change (decide (48 ≤ c.val) && decide (c.val ≤ 57)) = true ↔ _
  rw [Bool.and_eq_true, decide_eq_true_eq, decide_eq_true_eq, UInt32.le_iff_toNat_le,
    UInt32.le_iff_toNat_le]
  rfl

/-- A decimal digit has its value in every base from ten on. -/
theorem digit?_of_isDigit {base : Nat} {c : Char} (hbase : 10 ≤ base) (h : c.isDigit = true) :
    digit? base c = some (c.toNat - 48) := by
  have hrange := isDigit_char_iff.1 h
  have hlt : c.toNat - 48 < base := by omega
  simp [digit?, h, hlt]

/-- The decimal digits are the usual ones. -/
theorem isDigit_ten (c : Char) : isDigit 10 c = c.isDigit := by
  cases h : c.isDigit with
  | true => rw [isDigit, digit?_of_isDigit (Nat.le_refl 10) h, Option.isSome_some]
  | false =>
    have hlower : ('a' ≤ c) ↔ 97 ≤ c.toNat := by rw [Char.le_def, UInt32.le_iff_toNat_le]; rfl
    have hupper : ('A' ≤ c) ↔ 65 ≤ c.toNat := by rw [Char.le_def, UInt32.le_iff_toNat_le]; rfl
    simp only [isDigit, digit?, h, Bool.false_eq_true, if_false, Bool.and_eq_true,
      decide_eq_true_eq, hlower, hupper]
    rw [if_neg (by split_ifs <;> omega), Option.isSome_none]

theorem isDigit_sixteen_of_isDigit {c : Char} (h : c.isDigit = true) : isDigit 16 c = true := by
  rw [isDigit, digit?_of_isDigit (by omega) h, Option.isSome_some]

/-- A number is read in the same way in front of anything that is no digit. -/
theorem number_append {base : Nat} {t : List Char} (ht : ∀ c ∈ t.head?, isDigit base c = false)
    (width : Nat) (s : List Char) :
    number base width (s ++ t) = (number base width s).map fun (n, rest) => (n, rest ++ t) := by
  have hfront : t.takeWhile (isDigit base) = [] ∧ t.dropWhile (isDigit base) = t := by
    cases t with
    | nil => exact ⟨rfl, rfl⟩
    | cons c t => simp [ht c rfl]
  have htake : (s ++ t).takeWhile (isDigit base) = s.takeWhile (isDigit base) := by
    rw [List.takeWhile_append, hfront.1, List.append_nil]
    split
    · exact ((List.takeWhile_prefix _).eq_of_length ‹_›).symm
    · rfl
  have hdrop : (s ++ t).dropWhile (isDigit base) = s.dropWhile (isDigit base) ++ t := by
    rw [List.dropWhile_append, hfront.2]
    split
    · next hempty => rw [List.isEmpty_iff.1 hempty, List.nil_append]
    · rfl
  rw [number, number, htake, hdrop]
  split <;> rfl

/-- What is read is one digit or more, as many as the width allows. -/
theorem exists_of_number {base width n : Nat} {s rest : List Char}
    (h : number base width s = some (n, rest)) :
    ∃ digits, s = digits ++ rest ∧ digits ≠ [] ∧ digits.length ≤ width ∧
      ∀ c ∈ digits, isDigit base c = true := by
  rw [number] at h
  split at h
  · exact absurd h (by simp)
  · rename_i hdigits
    simp only [Bool.or_eq_true, List.isEmpty_iff, decide_eq_true_eq, not_or, Nat.not_lt] at hdigits
    obtain ⟨-, rfl⟩ := Prod.mk.inj (Option.some.inj h)
    exact ⟨_, List.takeWhile_append_dropWhile.symm, hdigits.1, hdigits.2,
      fun c hc => List.mem_takeWhile_imp hc⟩

/-- Decimal digits are read as the number that they write. -/
theorem number_digits {width : Nat} {digits : List Char} (hne : digits ≠ [])
    (hle : digits.length ≤ width) (hdigits : ∀ c ∈ digits, c.isDigit = true) :
    number 10 width digits = some (Nat.ofDigitChars 10 digits 0, []) := by
  have hall : ∀ c ∈ digits, isDigit 10 c = true := fun c hc => by rw [isDigit_ten, hdigits c hc]
  have hvalue : ∀ (digits : List Char) (init : Nat), (∀ c ∈ digits, c.isDigit = true) →
      digits.foldl (fun n c => n * 10 + (digit? 10 c).getD 0) init =
        Nat.ofDigitChars 10 digits init := by
    intro digits
    induction digits with
    | nil => exact fun init _ => rfl
    | cons c digits ih =>
      intro init hdigits
      obtain ⟨hc, hdigits⟩ := List.forall_mem_cons.1 hdigits
      rw [List.foldl_cons, ih _ hdigits, Nat.ofDigitChars_cons,
        digit?_of_isDigit (Nat.le_refl 10) hc, Nat.mul_comm]
      rfl
  rw [number, List.takeWhile_eq_self_iff.2 hall, List.dropWhile_eq_nil_iff.2 hall,
    hvalue _ _ hdigits, if_neg (by simpa [hne] using hle)]

/-! ## Dotted numbers -/

/-- A mark is read exactly where it stands. -/
theorem mark_eq_some_iff {c : Char} {s rest : List Char} :
    mark c s = some rest ↔ s = c :: rest := by
  cases s with
  | nil => simp [mark]
  | cons d s => simp [mark]

/-- Digits of a number in a dotted address. -/
structure IsOctet (digits : List Char) : Prop where
  ne_nil : digits ≠ []
  length_le : digits.length ≤ 3
  isDigit : ∀ c ∈ digits, c.isDigit = true

/-- Four numbers with points between them. -/
def IsDotted (s : List Char) : Prop :=
  ∃ w x y z, IsOctet w ∧ IsOctet x ∧ IsOctet y ∧ IsOctet z ∧
    s = w ++ '.' :: (x ++ '.' :: (y ++ '.' :: z))

/-- What is read as an octet is a number of three digits at most, below 256. -/
theorem octet_eq_some {zeros : Bool} {s rest : List Char} {n : Nat}
    (h : octet zeros s = some (n, rest)) : number 10 3 s = some (n, rest) ∧ n < 256 := by
  rw [octet] at h
  cases hnumber : number 10 3 s with
  | none => simp [hnumber] at h
  | some r =>
    obtain ⟨m, t⟩ := r
    simp only [hnumber, Option.bind_eq_bind, Option.bind_some, Option.ite_none_right_eq_some,
      Bool.and_eq_true, decide_eq_true_eq, Option.some.injEq, Prod.mk.injEq] at h
    obtain ⟨⟨hlt, -⟩, rfl, rfl⟩ := h
    exact ⟨rfl, hlt⟩

/-- Where zeros may stand in front, every such number is an octet. -/
theorem octet_true {s rest : List Char} {n : Nat} (h : number 10 3 s = some (n, rest))
    (hlt : n < 256) : octet true s = some (n, rest) := by
  simp [octet, h, hlt]

/-- Behind the digits of an octet the rest of the text stands. -/
theorem exists_of_octet {zeros : Bool} {s rest : List Char} {n : Nat}
    (h : octet zeros s = some (n, rest)) : ∃ digits, IsOctet digits ∧ s = digits ++ rest := by
  obtain ⟨digits, hsplit, hne, hle, hdigits⟩ := exists_of_number (octet_eq_some h).1
  exact ⟨digits, ⟨hne, hle, fun c hc => by rw [← isDigit_ten, hdigits c hc]⟩, hsplit⟩

/-- The parts of a dotted number, each read where the one before it ended. -/
theorem dotted_eq_some {zeros : Bool} {s rest : List Char} {n : Nat}
    (h : dotted zeros s = some (n, rest)) :
    ∃ a b c d s₁ s₂ s₃, octet zeros s = some (a, '.' :: s₁) ∧ octet zeros s₁ = some (b, '.' :: s₂) ∧
      octet zeros s₂ = some (c, '.' :: s₃) ∧ octet zeros s₃ = some (d, rest) ∧
      n = ((a * 256 + b) * 256 + c) * 256 + d := by
  simp only [dotted, Option.bind_eq_bind, Option.bind_eq_some_iff, Prod.exists, mark_eq_some_iff,
    Option.pure_def, Option.some.injEq, Prod.mk.injEq] at h
  obtain ⟨a, _, ha, s₁, rfl, b, _, hb, s₂, rfl, c, _, hc, s₃, rfl, d, _, hd, rfl, rfl⟩ := h
  exact ⟨a, b, c, d, s₁, s₂, s₃, ha, hb, hc, hd, rfl⟩

/-- Behind four octets with points between them the rest of the text stands. -/
theorem exists_of_dotted {zeros : Bool} {s rest : List Char} {n : Nat}
    (h : dotted zeros s = some (n, rest)) : ∃ front, IsDotted front ∧ s = front ++ rest := by
  obtain ⟨a, b, c, d, s₁, s₂, s₃, ha, hb, hc, hd, -⟩ := dotted_eq_some h
  obtain ⟨w, hw, rfl⟩ := exists_of_octet ha
  obtain ⟨x, hx, rfl⟩ := exists_of_octet hb
  obtain ⟨y, hy, rfl⟩ := exists_of_octet hc
  obtain ⟨z, hz, rfl⟩ := exists_of_octet hd
  exact ⟨_, ⟨w, x, y, z, hw, hx, hy, hz, rfl⟩, by simp⟩

/-- A dotted number is read in the same way in front of anything that is no digit, also where
zeros in front are allowed. -/
theorem dotted_append {zeros : Bool} {s rest t : List Char} {n : Nat}
    (ht : ∀ c ∈ t.head?, isDigit 10 c = false) (h : dotted zeros s = some (n, rest)) :
    dotted true (s ++ t) = some (n, rest ++ t) := by
  have hoctet : ∀ {s rest : List Char} {n : Nat}, octet zeros s = some (n, rest) →
      octet true (s ++ t) = some (n, rest ++ t) := by
    intro s rest n hs
    obtain ⟨hnumber, hlt⟩ := octet_eq_some hs
    exact octet_true (by rw [number_append ht, hnumber, Option.map_some]) hlt
  obtain ⟨a, b, c, d, s₁, s₂, s₃, ha, hb, hc, hd, rfl⟩ := dotted_eq_some h
  simp only [dotted, hoctet ha, hoctet hb, hoctet hc, hoctet hd, Option.bind_eq_bind,
    Option.bind_some, List.cons_append, mark, beq_self_eq_true, if_true, Option.pure_def]

/-- Without a point there is no dotted number. -/
theorem dotted_eq_none {zeros : Bool} {s : List Char} (h : '.' ∉ s) : dotted zeros s = none := by
  cases hread : dotted zeros s with
  | none => rfl
  | some r =>
    obtain ⟨n, rest⟩ := r
    obtain ⟨_, ⟨w, x, y, z, -, -, -, -, rfl⟩, rfl⟩ := exists_of_dotted hread
    exact absurd (by simp) h

/-! ## Groups -/

/-- A sign that addresses are written with. -/
def isSign (c : Char) : Bool := isDigit 16 c || c == ':' || c == '.'

/-- What a group that starts here has in front of it. -/
theorem exists_of_start {first : Bool} {s u : List Char}
    (h : (if first then some s else mark ':' s) = some u) :
    ∃ front, s = front ++ u ∧ ∀ c ∈ front, c = ':' := by
  cases first with
  | true => exact ⟨[], Option.some.inj h, by simp⟩
  | false => exact ⟨[':'], mark_eq_some_iff.1 h, by simp⟩

/-- An octet is written in the signs of addresses. -/
theorem IsOctet.isSign {digits : List Char} (h : IsOctet digits) :
    ∀ c ∈ digits, Address.isSign c = true := by
  intro c hc
  simp [Address.isSign, isDigit_sixteen_of_isDigit (h.isDigit c hc)]

/-- Four octets with points between them are written in the signs of addresses. -/
theorem IsDotted.isSign {s : List Char} (h : IsDotted s) : ∀ c ∈ s, Address.isSign c = true := by
  obtain ⟨w, x, y, z, hw, hx, hy, hz, rfl⟩ := h
  have hpoint : Address.isSign '.' = true := by decide
  simp only [List.forall_mem_append, List.forall_mem_cons]
  exact ⟨hw.isSign, hpoint, hx.isSign, hpoint, hy.isSign, hpoint, hz.isSign⟩

/-- A dotted address in another has only digits around it, as both have three points. -/
theorem IsDotted.digits_around {front part back : List Char} (hpart : IsDotted part)
    (h : IsDotted (front ++ part ++ back)) : ∀ c ∈ front ++ back, c.isDigit = true := by
  have hpoints : ∀ {s}, IsDotted s →
      s.count '.' = 3 ∧ ∀ c ∈ s, c.isDigit = true ∨ c = '.' := by
    rintro _ ⟨w, x, y, z, hw, hx, hy, hz, rfl⟩
    have hnone : ∀ {digits}, IsOctet digits → digits.count '.' = 0 := fun hdigits =>
      List.count_eq_zero.2 fun hc => absurd (hdigits.isDigit _ hc) (by decide)
    constructor
    · simp [hnone hw, hnone hx, hnone hy, hnone hz]
    · simp only [List.forall_mem_append, List.forall_mem_cons, or_true, true_and]
      exact ⟨fun c hc => .inl (hw.isDigit c hc), fun c hc => .inl (hx.isDigit c hc),
        fun c hc => .inl (hy.isDigit c hc), fun c hc => .inl (hz.isDigit c hc)⟩
  obtain ⟨hcount, hsigns⟩ := hpoints h
  rw [List.count_append, List.count_append, (hpoints hpart).1] at hcount
  intro c hc
  have hpoint : '.' ∉ front ++ back := by
    rw [← List.count_eq_zero, List.count_append]
    omega
  have hmem : c ∈ front ++ part ++ back := by
    rcases List.mem_append.1 hc with hc | hc <;> simp [hc]
  exact (hsigns c hmem).resolve_right fun he => hpoint (he ▸ hc)

/-- What a group may be: an embedded dotted number, a number before other groups, or nothing. -/
theorem groups_cases (zeros first : Bool) (limit : Nat) (s : List Char) :
    (∃ u n rest, (if first then some s else mark ':' s) = some u ∧
      dotted zeros u = some (n, rest) ∧
      groups zeros (limit + 1) first s = ([n / 65536, n % 65536], true, rest)) ∨
    (∃ u n rest, (if first then some s else mark ':' s) = some u ∧
      number 16 4 u = some (n, rest) ∧
      groups zeros (limit + 1) first s = (n :: (groups zeros limit false rest).1,
        (groups zeros limit false rest).2.1, (groups zeros limit false rest).2.2)) ∨
    groups zeros (limit + 1) first s = ([], false, s) := by
  rw [groups]
  cases hstart : (if first then some s else mark ':' s) with
  | none => exact .inr (.inr (by simp))
  | some u =>
    cases hdotted : (if limit = 0 then none else (some u).bind (dotted zeros)) with
    | some r =>
      obtain ⟨n, rest⟩ := r
      have hread : dotted zeros u = some (n, rest) := by
        split at hdotted
        · exact absurd hdotted (by simp)
        · exact hdotted
      exact .inl ⟨u, n, rest, rfl, hread, rfl⟩
    | none =>
      cases hnumber : number 16 4 u with
      | none => exact .inr (.inr (by simp [hnumber]))
      | some r =>
        obtain ⟨n, rest⟩ := r
        exact .inr (.inl ⟨u, n, rest, rfl, hnumber, by simp only [Option.bind_some, hnumber]⟩)

/-- Groups are written with signs of addresses. -/
theorem exists_of_groups (zeros first : Bool) (limit : Nat) (s : List Char) :
    ∃ front, s = front ++ (groups zeros limit first s).2.2 ∧ ∀ c ∈ front, isSign c = true := by
  have hcolon : ∀ {front : List Char}, (∀ c ∈ front, c = ':') → ∀ c ∈ front, isSign c = true := by
    intro front hfront c hc
    rw [hfront c hc]
    decide
  induction limit generalizing first s with
  | zero => exact ⟨[], rfl, by simp⟩
  | succ limit ih =>
    rcases groups_cases zeros first limit s with ⟨u, n, rest, hstart, hread, hgroups⟩ |
      ⟨u, n, rest, hstart, hread, hgroups⟩ | hgroups
    · obtain ⟨front, rfl, hfront⟩ := exists_of_start hstart
      obtain ⟨digits, hdigits, rfl⟩ := exists_of_dotted hread
      rw [hgroups]
      exact ⟨front ++ digits, by simp, List.forall_mem_append.2 ⟨hcolon hfront, hdigits.isSign⟩⟩
    · obtain ⟨front, rfl, hfront⟩ := exists_of_start hstart
      obtain ⟨digits, rfl, -, -, hdigits⟩ := exists_of_number hread
      obtain ⟨others, hothers, hsigns⟩ := ih false rest
      rw [hgroups]
      refine ⟨front ++ digits ++ others, ?_, ?_⟩
      · simpa using hothers
      · refine List.forall_mem_append.2 ⟨List.forall_mem_append.2 ⟨hcolon hfront, ?_⟩, hsigns⟩
        exact fun c hc => by simp [isSign, hdigits c hc]
    · rw [hgroups]
      exact ⟨[], rfl, by simp⟩

/-- Reading groups leaves an end of the text. -/
theorem groups_suffix (zeros first : Bool) (limit : Nat) (s : List Char) :
    (groups zeros limit first s).2.2 <:+ s := by
  obtain ⟨front, hfront, -⟩ := exists_of_groups zeros first limit s
  exact ⟨front, hfront.symm⟩

/-- Without a colon there are no more groups than the two of an embedded number. -/
theorem length_groups_le_two {zeros : Bool} {limit : Nat} {s : List Char} (h : ':' ∉ s) :
    (groups zeros limit true s).1.length ≤ 2 := by
  have hnone : ∀ {limit : Nat} {s : List Char}, ':' ∉ s → (groups zeros limit false s).1 = [] := by
    intro limit s hs
    cases limit with
    | zero => rfl
    | succ limit =>
      have hstart : mark ':' s = none := by
        cases hmark : mark ':' s with
        | none => rfl
        | some u => exact absurd (mark_eq_some_iff.1 hmark ▸ List.mem_cons_self) hs
      rcases groups_cases zeros false limit s with
        ⟨u, n, rest, hu, -⟩ | ⟨u, n, rest, hu, -⟩ | hgroups
      · exact absurd (hstart.symm.trans hu) (by simp)
      · exact absurd (hstart.symm.trans hu) (by simp)
      · rw [hgroups]
  cases limit with
  | zero => exact Nat.zero_le 2
  | succ limit =>
    rcases groups_cases zeros true limit s with ⟨u, n, rest, -, -, hgroups⟩ |
      ⟨u, n, rest, hstart, hread, hgroups⟩ | hgroups
    · rw [hgroups]
      exact Nat.le_refl 2
    · obtain rfl := Option.some.inj hstart
      obtain ⟨digits, rfl, -⟩ := exists_of_number hread
      have hrest : ':' ∉ rest := fun hmem => h (List.mem_append_right _ hmem)
      rw [hgroups, hnone hrest]
      exact Nat.le_succ 1
    · rw [hgroups]
      exact Nat.zero_le 2

/-- Reading one group leaves an end of the text. -/
theorem suffix_of_number {first : Bool} {s rest : List Char} {n : Nat}
    (h : (if first then some s else mark ':' s).bind (number 16 4) = some (n, rest)) :
    rest <:+ s := by
  obtain ⟨u, hstart, hnumber⟩ := Option.bind_eq_some_iff.1 h
  obtain ⟨front, rfl, -⟩ := exists_of_start hstart
  obtain ⟨digits, rfl, -⟩ := exists_of_number hnumber
  exact ⟨front ++ digits, by simp⟩

/-- Without a point a group is a number, behind a colon unless it is the first one. -/
theorem groups_succ {zeros first : Bool} {limit : Nat} {s : List Char} (h : '.' ∉ s) :
    groups zeros (limit + 1) first s =
      match (if first then some s else mark ':' s).bind (number 16 4) with
      | some (n, rest) =>
        (n :: (groups zeros limit false rest).1, (groups zeros limit false rest).2.1,
          (groups zeros limit false rest).2.2)
      | none => ([], false, s) := by
  have hdotted : (if first then some s else mark ':' s).bind (dotted zeros) = none := by
    cases hstart : (if first then some s else mark ':' s) with
    | none => rfl
    | some u =>
      obtain ⟨front, rfl, -⟩ := exists_of_start hstart
      exact dotted_eq_none fun hmem => h (List.mem_append_right _ hmem)
  cases hnumber : (if first then some s else mark ':' s).bind (number 16 4) <;>
    simp [groups, hdotted, hnumber]

/-- Without a point no number is embedded, and groups are read in the same way in front of a
slash. -/
theorem groups_append {zeros zeros' first : Bool} {limit : Nat} {s t : List Char} (hs : '.' ∉ s)
    (ht : '.' ∉ t) :
    (groups zeros limit first s).2.1 = false ∧
      groups zeros' limit first (s ++ '/' :: t) =
        ((groups zeros limit first s).1, false, (groups zeros limit first s).2.2 ++ '/' :: t) := by
  induction limit generalizing first s with
  | zero => exact ⟨rfl, rfl⟩
  | succ limit ih =>
    have hboth : '.' ∉ s ++ '/' :: t := by simp [hs, ht]
    have hslash : ∀ c ∈ ('/' :: t).head?, isDigit 16 c = false := by
      rintro c ⟨⟩
      decide
    have hread : (if first then some (s ++ '/' :: t) else mark ':' (s ++ '/' :: t)).bind
          (number 16 4) =
        ((if first then some s else mark ':' s).bind (number 16 4)).map
          fun (n, rest) => (n, rest ++ '/' :: t) := by
      cases first with
      | true => simp [number_append hslash]
      | false =>
        cases s with
        | nil => simp [mark]
        | cons c s =>
          by_cases hc : c = ':'
          · simp [mark, hc, number_append hslash]
          · simp [mark, hc]
    rw [groups_succ hs, groups_succ hboth, hread]
    cases hnumber : (if first then some s else mark ':' s).bind (number 16 4) with
    | none => exact ⟨rfl, rfl⟩
    | some r =>
      obtain ⟨n, rest⟩ := r
      have hrest : '.' ∉ rest := fun hmem => hs ((suffix_of_number hnumber).subset hmem)
      obtain ⟨hfalse, happend⟩ := @ih false rest hrest
      refine ⟨hfalse, ?_⟩
      simp only [Option.map_some, happend]

/-- A place for one group more is left empty at the end of the text. -/
theorem groups_more {zeros first : Bool} {limit : Nat} {s : List Char} (hs : '.' ∉ s)
    (hend : (groups zeros limit first s).2.2 = []) :
    groups zeros (limit + 1) first s = groups zeros limit first s := by
  induction limit generalizing first s with
  | zero =>
    obtain rfl : s = [] := hend
    cases first <;> rfl
  | succ limit ih =>
    rw [groups_succ hs] at hend
    rw [groups_succ hs, groups_succ hs]
    cases hnumber : (if first then some s else mark ':' s).bind (number 16 4) with
    | none => rfl
    | some r =>
      obtain ⟨n, rest⟩ := r
      have hrest : '.' ∉ rest := fun hmem => hs ((suffix_of_number hnumber).subset hmem)
      rw [hnumber] at hend
      simp only [@ih false rest hrest hend]

/-- No more groups are read than asked for where no point stands in the text. -/
theorem length_groups_le {zeros first : Bool} {limit : Nat} {s : List Char} (hs : '.' ∉ s) :
    (groups zeros limit first s).1.length ≤ limit := by
  induction limit generalizing first s with
  | zero => exact Nat.le_refl 0
  | succ limit ih =>
    rw [groups_succ hs]
    cases hnumber : (if first then some s else mark ':' s).bind (number 16 4) with
    | none => exact Nat.zero_le _
    | some r =>
      obtain ⟨n, rest⟩ := r
      have hrest : '.' ∉ rest := fun hmem => hs ((suffix_of_number hnumber).subset hmem)
      exact Nat.succ_le_succ (@ih false rest hrest)

/-- Eight groups, or fewer in front of two colons and those behind them. -/
theorem grouped_eq_some_iff {zeros embedded : Bool} {left : Nat → Nat} {s u rest : List Char}
    {head : List Nat} {n : Nat} (hhead : groups zeros 8 true s = (head, embedded, u)) :
    grouped zeros left s = some (n, rest) ↔
      head.length = 8 ∧ n = ofGroups head ∧ rest = u ∨
        head.length ≠ 8 ∧ embedded = false ∧ ∃ v tail e, u = ':' :: ':' :: v ∧
          groups zeros (left head.length) true v = (tail, e, rest) ∧
          n = ofGroups (head ++ List.replicate (8 - head.length - tail.length) 0 ++ tail) := by
  rw [grouped, hhead]
  by_cases hlength : head.length = 8
  · simp [hlength, eq_comm]
  · cases embedded with
    | true => simp [hlength]
    | false =>
      simp only [hlength, if_false, Bool.false_eq_true, Option.bind_eq_bind,
        Option.bind_eq_some_iff, mark_eq_some_iff, Option.pure_def, Option.some.injEq,
        Prod.mk.injEq, false_and, false_or, ne_eq, not_false_eq_true, true_and]
      constructor
      · rintro ⟨_, rfl, v, rfl, hvalue, hrest⟩
        exact ⟨v, _, _, rfl, by rw [← hrest], hvalue.symm⟩
      · rintro ⟨v, tail, e, rfl, htail, rfl⟩
        exact ⟨_, rfl, v, rfl, by rw [htail], by rw [htail]⟩

/-- An address in groups that ends the text is read in the same way in front of a slash, although
one group more may then follow the colons. -/
theorem grouped_append {s t : List Char} {n : Nat} (hs : '.' ∉ s) (ht : '.' ∉ t)
    (h : grouped false (7 - ·) s = some (n, [])) :
    grouped true (8 - ·) (s ++ '/' :: t) = some (n, '/' :: t) := by
  obtain ⟨hembedded, happend⟩ := @groups_append false true true 8 s t hs ht
  have hle := @length_groups_le false true 8 s hs
  rcases hhead : groups false 8 true s with ⟨head, embedded, u⟩
  rw [hhead] at hembedded happend hle
  rw [grouped_eq_some_iff happend]
  rcases (grouped_eq_some_iff hhead).1 h with
    ⟨hlength, rfl, rfl⟩ | ⟨hlength, -, v, tail, e, rfl, htail, rfl⟩
  · exact .inl ⟨hlength, rfl, rfl⟩
  · have hsuffix := groups_suffix false true 8 s
    rw [hhead] at hsuffix
    have hv : '.' ∉ v := fun hmem =>
      hs (hsuffix.subset (List.mem_cons_of_mem _ (List.mem_cons_of_mem _ hmem)))
    have hmore := @groups_more false true (7 - head.length) v hv (by rw [htail])
    obtain ⟨-, hbehind⟩ := @groups_append false true true (7 - head.length + 1) v t hv ht
    rw [hmore, htail] at hbehind
    have hplaces : 7 - head.length + 1 = 8 - head.length := by
      have hle : head.length ≤ 8 := hle
      omega
    rw [hplaces] at hbehind
    exact .inr ⟨hlength, rfl, v ++ '/' :: t, tail, false, rfl, hbehind, rfl⟩

/-! ## Addresses -/

/-- An address is a dotted number or groups that go up to the end of the text. -/
theorem parse?_cases {text : String} {a : Address} (h : parse? text = some a) :
    (∃ n, dotted false text.toList = some (n, []) ∧ a = .v4 (.ofNat 32 n)) ∨
      ∃ n, grouped false (7 - ·) text.toList = some (n, []) ∧ a = .v6 (.ofNat 128 n) := by
  simp only [parse?] at h
  split at h
  · next n hdotted => exact .inl ⟨n, hdotted, (Option.some.inj h).symm⟩
  · split at h
    · next n hgrouped => exact .inr ⟨n, hgrouped, (Option.some.inj h).symm⟩
    · exact absurd h (by simp)

/-- An address of the old family is written as four octets. -/
theorem isDotted_of_v4 {text : String} {bits : BitVec 32} (h : parse? text = some (.v4 bits)) :
    IsDotted text.toList := by
  rcases parse?_cases h with ⟨n, hdotted, -⟩ | ⟨n, -, hfamily⟩
  · obtain ⟨front, hfront, hsplit⟩ := exists_of_dotted hdotted
    rwa [hsplit, List.append_nil]
  · exact absurd hfamily (by simp)

/-- Groups have colons between them, unless they are the two of an embedded number. -/
theorem colon_mem_of_grouped {zeros : Bool} {left : Nat → Nat} {s rest : List Char} {n : Nat}
    (h : grouped zeros left s = some (n, rest)) : ':' ∈ s := by
  rcases hhead : groups zeros 8 true s with ⟨head, embedded, u⟩
  rcases (grouped_eq_some_iff hhead).1 h with ⟨hlength, -⟩ | ⟨-, -, v, tail, e, rfl, -⟩
  · by_contra hcolon
    have hle := @length_groups_le_two zeros 8 s hcolon
    rw [hhead] at hle
    exact absurd (hlength ▸ hle : 8 ≤ 2) (by decide)
  · have hsuffix := groups_suffix zeros true 8 s
    rw [hhead] at hsuffix
    exact hsuffix.subset List.mem_cons_self

/-- An address of the new family is written with a colon. -/
theorem colon_mem_of_v6 {text : String} {bits : BitVec 128} (h : parse? text = some (.v6 bits)) :
    ':' ∈ text.toList := by
  rcases parse?_cases h with ⟨n, -, hfamily⟩ | ⟨n, hgrouped, -⟩
  · exact absurd hfamily (by simp)
  · exact colon_mem_of_grouped hgrouped

/-- An address is written with signs of addresses only. -/
theorem isSign_of_parse? {text : String} {a : Address} (h : parse? text = some a) :
    ∀ c ∈ text.toList, isSign c = true := by
  rcases parse?_cases h with ⟨n, hdotted, -⟩ | ⟨n, hgrouped, -⟩
  · obtain ⟨front, hfront, hsplit⟩ := exists_of_dotted hdotted
    rw [hsplit, List.append_nil]
    exact hfront.isSign
  · obtain ⟨front, hsplit, hfront⟩ := exists_of_groups false true 8 text.toList
    rcases hhead : groups false 8 true text.toList with ⟨head, embedded, u⟩
    rw [hhead] at hsplit
    rw [hsplit]
    refine List.forall_mem_append.2 ⟨hfront, ?_⟩
    rcases (grouped_eq_some_iff hhead).1 hgrouped with
      ⟨-, -, rfl⟩ | ⟨-, -, v, tail, e, rfl, htail, -⟩
    · simp
    · obtain ⟨behind, hbehind, hsigns⟩ := exists_of_groups false true (7 - head.length) v
      rw [htail] at hbehind
      rw [hbehind, List.append_nil]
      simpa [show isSign ':' = true by decide] using hsigns

/-- No address is written with a slash. -/
theorem slash_notMem_of_parse? {text : String} {a : Address} (h : parse? text = some a) :
    '/' ∉ text.toList :=
  fun hc => absurd (isSign_of_parse? h _ hc) (by decide)

/-- No address is written as the empty text. -/
theorem ne_empty_of_parse? {text : String} {a : Address} (h : parse? text = some a) :
    text.toList ≠ [] := by
  intro hempty
  rcases parse?_cases h with ⟨n, hdotted, -⟩ | ⟨n, hgrouped, -⟩
  · rw [hempty, dotted_eq_none List.not_mem_nil] at hdotted
    exact absurd hdotted (by simp)
  · rw [hempty] at hgrouped
    exact absurd (colon_mem_of_grouped hgrouped) (by simp)

end Address

namespace Block

open Address

/-- An address in groups does not begin with a dotted number. -/
theorem grouped_eq_none_of_dotted {left : Nat → Nat} {s : List Char} {r : Nat × List Char}
    (h : dotted true s = some r) : grouped true left s = none := by
  obtain ⟨n, rest⟩ := r
  have hhead : groups true 8 true s = ([n / 65536, n % 65536], true, rest) := by
    simp [groups, h]
  cases hgrouped : grouped true left s with
  | none => rfl
  | some r =>
    obtain ⟨m, t⟩ := r
    rcases (grouped_eq_some_iff hhead).1 hgrouped with ⟨hlength, -⟩ | ⟨-, hfalse, -⟩
    · exact absurd hlength (by simp)
    · exact absurd hfalse (by simp)

/-- How many digits the number of bits may have. -/
def lengthDigits : Address → Nat
  | .v4 _ => 2
  | .v6 _ => 3

/-- The digits suffice for every number of bits up to the width. -/
theorem length_toDigits_le {a : Address} {length : Nat} (h : length ≤ a.width) :
    (Nat.toDigits 10 length).length ≤ lengthDigits a := by
  have hbounds : 0 < lengthDigits a ∧ a.width < 10 ^ lengthDigits a := by
    cases a <;> simp [lengthDigits, width]
  exact (Nat.length_toDigits_le_iff (by decide) hbounds.1).2 (Nat.lt_of_le_of_lt h hbounds.2)

/-- An address in front of a slash is read as it is read alone, unless a dotted number is embedded
in groups, and what remains is the number of bits. -/
theorem parse?_slash {text : String} {a : Address} (h : Address.parse? text = some a)
    (hpoint : (∃ bits, a = .v4 bits) ∨ '.' ∉ text.toList) {t : List Char} (ht : '.' ∉ t)
    {block : Block} :
    parse? (text ++ "/" ++ String.ofList t) = some block ↔
      ∃ length, number 10 (lengthDigits a) t = some (length, []) ∧ length ≤ a.width ∧
        block = ⟨a, length⟩ := by
  have htext : (text ++ "/" ++ String.ofList t).toList = text.toList ++ '/' :: t := by simp
  have hslash : ∀ c ∈ ('/' :: t).head?, isDigit 10 c = false := by
    rintro c ⟨⟩
    decide
  have hlength : ∀ (digits width : Nat), (number 10 digits t).bind (fun (length, rest) =>
      if length ≤ width && rest.isEmpty then some (Block.mk a length) else none) = some block ↔
        ∃ length, number 10 digits t = some (length, []) ∧ length ≤ width ∧
          block = ⟨a, length⟩ := by
    intro digits width
    simp only [Option.bind_eq_some_iff, Prod.exists, Option.ite_none_right_eq_some,
      Bool.and_eq_true, decide_eq_true_eq, List.isEmpty_iff, Option.some.injEq]
    constructor
    · rintro ⟨length, _, hread, ⟨hle, rfl⟩, rfl⟩
      exact ⟨length, hread, hle, rfl⟩
    · rintro ⟨length, hread, hle, rfl⟩
      exact ⟨length, [], hread, ⟨hle, rfl⟩, rfl⟩
  simp only [parse?, htext]
  rcases parse?_cases h with ⟨n, hdotted, rfl⟩ | ⟨n, hgrouped, rfl⟩
  · have hread := dotted_append hslash hdotted
    rw [hread, grouped_eq_none_of_dotted hread]
    simp only [mark, List.nil_append, beq_self_eq_true, if_true, Option.bind_eq_bind,
      Option.bind_some, Option.bind_none, Option.orElse_eq_or, Option.or_none]
    exact hlength 2 32
  · have hs : '.' ∉ text.toList := by simpa using hpoint
    have hnone : dotted true (text.toList ++ '/' :: t) = none :=
      dotted_eq_none (by simp [hs, ht])
    rw [hnone, grouped_append hs ht hgrouped]
    simp only [mark, beq_self_eq_true, if_true, Option.bind_eq_bind,
      Option.bind_some, Option.bind_none, Option.orElse_none]
    exact hlength 3 128

end Block

end LogAudit.Network
