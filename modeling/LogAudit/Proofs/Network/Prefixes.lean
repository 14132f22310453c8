import LogAudit.Network.Block
import Mathlib.Data.List.TakeWhile

/-!
# Blocks as prefixes of bits

The bits of an address are counted from the front. A block holds the addresses of the family of its
address that agree with it in the first bits (`Block.contains_iff`), and a mask gives a block
exactly if it is a run of ones before zeros (`Block.ofMask?_eq_some_iff`), which can also be told by
counting its ones (`Block.ofMask?_eq_counted`).
-/

namespace LogAudit.Network

namespace Address

/-- The number of bits of an address. -/
def width : Address → Nat
  | v4 _ => 32
  | v6 _ => 128

/-- The bit in a place, counted from the front. -/
def bit : Address → Nat → Bool
  | v4 bits, i => bits.getMsbD i
  | v6 bits, i => bits.getMsbD i

/-- Addresses of one family that agree in the first `length` bits. -/
def Agrees (length : Nat) (a b : Address) : Prop :=
  a.width = b.width ∧ ∀ i < length, a.bit i = b.bit i

/-- A mask: ones in the first `length` places and zeros in the others. -/
structure IsMask (mask : Address) (length : Nat) : Prop where
  length_le : length ≤ mask.width
  bits : ∀ i < mask.width, mask.bit i = decide (i < length)

/-- How many ones an address has. -/
def ones (a : Address) : Nat := (List.range a.width).countP a.bit

/-- How many ones an address has before its first zero. -/
def leadingOnes (a : Address) : Nat := ((List.range a.width).takeWhile a.bit).length

/-! ## Counted ones -/

section Count

variable {a : Address} {length : Nat}

theorem leadingOnes_le : a.leadingOnes ≤ a.width := by
  have hle := (List.takeWhile_prefix (l := List.range a.width) a.bit).length_le
  rwa [List.length_range] at hle

/-- In front of the first zero there are ones only. -/
theorem bit_of_lt_leadingOnes {i : Nat} (h : i < a.leadingOnes) : a.bit i = true := by
  have hfront := List.prefix_iff_eq_take.1 (List.takeWhile_prefix (l := List.range a.width) a.bit)
  change _ = (List.range a.width).take a.leadingOnes at hfront
  rw [List.take_range, Nat.min_eq_left leadingOnes_le] at hfront
  rw [← List.mem_range, ← hfront] at h
  exact List.mem_takeWhile_imp h

/-- The places up to a length, and those behind it. -/
theorem range_width (h : length ≤ a.width) :
    List.range a.width =
      List.range length ++ (List.range (a.width - length)).map (length + ·) := by
  rw [← List.range_add, Nat.add_sub_cancel' h]

/-- A run of ones up to a length ends there if a zero follows. -/
theorem leadingOnes_eq (h : length ≤ a.width) (hones : ∀ i < length, a.bit i = true)
    (hzero : length < a.width → a.bit length = false) : a.leadingOnes = length := by
  have hnone : ((List.range (a.width - length)).map (length + ·)).takeWhile a.bit = [] := by
    rw [List.takeWhile_eq_nil_iff]
    intro hne
    rw [List.length_map, List.length_range] at hne
    simpa using hzero (by omega)
  rw [leadingOnes, range_width h,
    List.takeWhile_append_of_pos fun i hi => hones i (List.mem_range.1 hi), hnone,
    List.append_nil, List.length_range]

/-- There are no more ones than those in front exactly if only zeros follow. -/
theorem ones_eq_iff (h : length ≤ a.width) (hones : ∀ i < length, a.bit i = true) :
    a.ones = length ↔ ∀ i < a.width, length ≤ i → a.bit i = false := by
  have hfront : (List.range length).countP a.bit = length := by
    rw [List.countP_eq_length.2 fun i hi => hones i (List.mem_range.1 hi), List.length_range]
  rw [ones, range_width h, List.countP_append, hfront, Nat.add_eq_left, List.countP_eq_zero]
  constructor
  · intro hback i hi hle
    have hplace : i ∈ (List.range (a.width - length)).map (length + ·) :=
      List.mem_map.2 ⟨i - length, List.mem_range.2 (by omega), by omega⟩
    exact Bool.eq_false_iff.2 (hback i hplace)
  · intro hback i hi
    obtain ⟨j, hj, rfl⟩ := List.mem_map.1 hi
    have hj := List.mem_range.1 hj
    exact Bool.eq_false_iff.1 (hback _ (by omega) (by omega))

/-- All ones of a mask are in front of its first zero. -/
theorem isMask_iff_counted :
    a.IsMask length ↔ a.leadingOnes = length ∧ a.ones = length := by
  constructor
  · rintro ⟨hle, hbits⟩
    have hones : ∀ i < length, a.bit i = true := fun i hi => by simp [hbits i (by omega), hi]
    refine ⟨leadingOnes_eq hle hones fun hlt => by simp [hbits length hlt],
      (ones_eq_iff hle hones).2 fun i hi hge => by simp [hbits i hi, hge]⟩
  · rintro ⟨rfl, hcount⟩
    have hback := (ones_eq_iff leadingOnes_le fun i => bit_of_lt_leadingOnes).1 hcount
    refine ⟨leadingOnes_le, fun i hi => ?_⟩
    by_cases hlow : i < a.leadingOnes
    · simp [bit_of_lt_leadingOnes hlow, hlow]
    · simp [hback i hi (Nat.le_of_not_lt hlow), hlow]

/-- A mask has one number of ones. -/
theorem IsMask.unique {length' : Nat} (h : a.IsMask length) (h' : a.IsMask length') :
    length = length' :=
  (isMask_iff_counted.1 h).1.symm.trans (isMask_iff_counted.1 h').1

end Count

end Address

namespace Block

/-! ## Shifted bits -/

section Bits

variable {width : Nat}

/-- Behind a shift to the right there are the bits that stood in front. -/
theorem shift_eq_shift_iff {length : Nat} (h : length ≤ width) (x y : BitVec width) :
    x >>> (width - length) = y >>> (width - length) ↔
      ∀ i < length, x.getMsbD i = y.getMsbD i := by
  constructor
  · intro hshift i hi
    have hbit := congrArg (BitVec.getMsbD · (i + (width - length))) hshift
    simpa [BitVec.getMsbD_ushiftRight, show i + (width - length) < width by omega,
      show ¬ i + (width - length) < width - length by omega] using hbit
  · intro hbits
    apply BitVec.eq_of_getMsbD_eq
    intro i hi
    rw [BitVec.getMsbD_ushiftRight, BitVec.getMsbD_ushiftRight]
    by_cases hlow : i < width - length
    · simp [hlow]
    · rw [hbits (i - (width - length)) (by omega)]

theorem getMsbD_mask {length i : Nat} (h : length ≤ width) (_ : i < width) :
    (mask width length).getMsbD i = decide (i < length) := by
  rw [mask, BitVec.getMsbD_shiftLeft, BitVec.getMsbD_allOnes, decide_eq_decide]
  omega

/-- A mask is told by its bits. -/
theorem mask_eq_iff {length : Nat} (h : length ≤ width) (bits : BitVec width) :
    mask width length = bits ↔ ∀ i < width, bits.getMsbD i = decide (i < length) := by
  constructor
  · rintro rfl i hi
    exact getMsbD_mask h hi
  · intro hbits
    apply BitVec.eq_of_getMsbD_eq
    intro i hi
    rw [getMsbD_mask h hi, hbits i hi]

/-- Masks of different lengths differ in the place behind the shorter one. -/
theorem mask_ne_mask {length length' : Nat} (hlt : length' < length) (h : length ≤ width) :
    mask width length' ≠ mask width length := by
  intro hmask
  have hbit := congrArg (BitVec.getMsbD · length') hmask
  have hplace : length' < width := by omega
  simp [getMsbD_mask (Nat.le_of_lt hplace) hplace, getMsbD_mask h hplace, hlt] at hbit

/-- The length of a mask is found. -/
theorem maskLength?_eq_some_iff {bits : BitVec width} {length : Nat} :
    maskLength? bits = some length ↔
      length ≤ width ∧ ∀ i < width, bits.getMsbD i = decide (i < length) := by
  rw [maskLength?, List.find?_range_eq_some]
  constructor
  · rintro ⟨hfound, hrange, -⟩
    have hle : length ≤ width := Nat.le_of_lt_succ (List.mem_range.1 hrange)
    exact ⟨hle, (mask_eq_iff hle bits).1 (eq_of_beq hfound)⟩
  · rintro ⟨hle, hbits⟩
    have hmask := (mask_eq_iff hle bits).2 hbits
    refine ⟨beq_iff_eq.2 hmask, List.mem_range.2 (Nat.lt_succ_of_le hle), fun length' hlt => ?_⟩
    rw [Bool.not_eq_true', beq_eq_false_iff_ne, ← hmask]
    exact mask_ne_mask hlt hle

end Bits

/-! ## Membership -/

/-- The addresses of a block are those that agree with its address in the first bits. -/
theorem contains_iff {block : Block} (h : block.length ≤ block.address.width) (a : Address) :
    block.contains a = true ↔ block.address.Agrees block.length a := by
  obtain ⟨address, length⟩ := block
  cases address with
  | v4 bits =>
    have hle : length ≤ 32 := h
    cases a with
    | v4 bits' =>
      simp [contains, Address.Agrees, Address.width, Address.bit, shift_eq_shift_iff hle]
    | v6 bits' => simp [contains, Address.Agrees, Address.width]
  | v6 bits =>
    have hle : length ≤ 128 := h
    cases a with
    | v4 bits' => simp [contains, Address.Agrees, Address.width]
    | v6 bits' =>
      simp [contains, Address.Agrees, Address.width, Address.bit, shift_eq_shift_iff hle]

/-! ## Masks -/

/-- The block of an address and a mask has the length of the mask, which is of the same family. -/
theorem ofMask?_eq_some_iff {address mask : Address} {block : Block} :
    ofMask? address mask = some block ↔
      ∃ length, address.width = mask.width ∧ mask.IsMask length ∧ block = ⟨address, length⟩ := by
  have hlength : ∀ {width : Nat} {bits : BitVec width},
      (maskLength? bits).map (Block.mk address) = some block ↔
        ∃ length, (length ≤ width ∧ ∀ i < width, bits.getMsbD i = decide (i < length)) ∧
          block = ⟨address, length⟩ := by
    intro width bits
    simp only [Option.map_eq_some_iff, maskLength?_eq_some_iff, @eq_comm Block]
  have hmask : ∀ {length}, mask.IsMask length ↔ length ≤ mask.width ∧
      ∀ i < mask.width, mask.bit i = decide (i < length) :=
    fun {length} => ⟨fun h => ⟨h.1, h.2⟩, fun h => ⟨h.1, h.2⟩⟩
  simp only [hmask]
  cases address <;> cases mask <;>
    simp [ofMask?, Address.width, Address.bit, hlength]

/-- A mask can be told by counting its ones and those in front. -/
theorem ofMask?_eq_counted (address mask : Address) :
    ofMask? address mask =
      if address.width = mask.width ∧ mask.ones = mask.leadingOnes then
        some ⟨address, mask.leadingOnes⟩
      else none := by
  ext block
  simp only [ofMask?_eq_some_iff, Address.isMask_iff_counted, Option.ite_none_right_eq_some,
    Option.some.injEq]
  constructor
  · rintro ⟨length, hwidth, ⟨hleading, hones⟩, rfl⟩
    exact ⟨⟨hwidth, hones.trans hleading.symm⟩, by rw [hleading]⟩
  · rintro ⟨⟨hwidth, hones⟩, rfl⟩
    exact ⟨mask.leadingOnes, hwidth, ⟨rfl, hones⟩, rfl⟩

end Block

end LogAudit.Network
