import LogAudit.Text.Utf8
import Mathlib.Tactic.IntervalCases

/-!
# Encoded texts

The bytes of a text are those of its characters one after the other, and each character is read back
from its bytes. So every text is what its bytes are decoded to (`Utf8.decode?_encode`).
-/

namespace LogAudit.Text.Utf8

/-! ## The bytes of a text -/

theorem toList_loop (bytes : ByteArray) (i : Nat) (front : List UInt8) :
    ByteArray.toList.loop bytes i front = front.reverse ++ bytes.data.toList.drop i := by
  fun_induction ByteArray.toList.loop bytes i front with
  | case1 i front hi ih =>
    have hlength : i < bytes.data.toList.length := hi
    have hget : bytes.get! i = bytes.data.toList[i] := by
      simp [ByteArray.get!, hi]
    rw [ih, List.drop_eq_getElem_cons hlength, hget]
    simp
  | case2 i front hi =>
    have hdrop : bytes.data.toList.drop i = [] := List.drop_eq_nil_of_le (Nat.not_lt.1 hi)
    rw [hdrop, List.append_nil]

/-- The bytes of a text are those of its characters in order. -/
theorem encode_eq (s : String) : encode s = s.toList.flatMap String.utf8EncodeChar := by
  have hbytes : s.toByteArray = s.toList.utf8Encode := by
    rw [← String.toByteArray_ofList, String.ofList_toList]
  rw [encode, String.toUTF8, hbytes, List.utf8Encode, ByteArray.toList, toList_loop,
    List.data_toByteArray]
  rfl

/-! ## Lead bytes -/

/-- The lead byte of a character of two bytes. -/
theorem lead?_two {n : Nat} {b : UInt8} (hb : b.toNat = n + 0xC0) (hlow : 2 ≤ n) (hhigh : n < 32) :
    lead? b = some ⟨n, 0x80, 0xBF, 0⟩ := by
  rw [lead?, hb]
  interval_cases n <;> rfl

/-- The lead byte of a character of three bytes. -/
theorem lead?_three {n : Nat} {b : UInt8} (hb : b.toNat = n + 0xE0) (hhigh : n < 16) :
    lead? b = some ⟨n, if n = 0 then 0xA0 else 0x80, if n = 0xD then 0x9F else 0xBF, 1⟩ := by
  rw [lead?, hb]
  interval_cases n <;> rfl

/-- The lead byte of a character of four bytes. -/
theorem lead?_four {n : Nat} {b : UInt8} (hb : b.toNat = n + 0xF0) (hhigh : n ≤ 4) :
    lead? b = some ⟨n, if n = 0 then 0x90 else 0x80, if n = 4 then 0x8F else 0xBF, 2⟩ := by
  rw [lead?, hb]
  interval_cases n <;> rfl

/-! ## Characters -/

theorem toNat_ofNat_of_lt {n : Nat} (hn : n < 256) : (UInt8.ofNat n).toNat = n := by
  rw [UInt8.toNat_ofNat']
  omega

/-- A continuation byte adds its six bits. -/
theorem continuation_ofNat (more acc : Nat) {n : Nat} (hn : n < 64) (rest : List UInt8) :
    continuation (more + 1) acc (UInt8.ofNat (n + 128) :: rest) =
      continuation more (acc * 64 + n) rest := by
  rw [continuation, toNat_ofNat_of_lt (by omega), if_pos (by simp; omega), Nat.add_sub_cancel]

/-- A sequence is read if its second byte is within the bounds and the others follow. -/
theorem step_of_lead {b : UInt8} {bits low high more n value : Nat} {bytes rest : List UInt8}
    (hlead : lead? b = some ⟨bits, low, high, more⟩) (hb : 0x80 ≤ b.toNat) (hn : n < 64)
    (hlow : low ≤ n + 128) (hhigh : n + 128 ≤ high)
    (hmore : continuation more (bits * 64 + n) bytes = (true, value, rest)) :
    step b (UInt8.ofNat (n + 128) :: bytes) = (some (Char.ofNat value), rest) := by
  rw [step, if_neg (Nat.not_lt.2 hb), hlead]
  simp only [toNat_ofNat_of_lt (show n + 128 < 256 by omega), Nat.add_sub_cancel, hmore]
  rw [if_pos (by simp; omega)]

/-- A character is read back from its bytes. -/
theorem step_utf8EncodeChar (c : Char) (rest : List UInt8) : ∃ b bytes,
    String.utf8EncodeChar c ++ rest = b :: bytes ∧ step b bytes = (some c, rest) := by
  have hchar : Char.ofNat c.val.toNat = c := Char.ofNat_toNat c
  have hvalid : c.val.toNat < 0xD800 ∨ 0xDFFF < c.val.toNat ∧ c.val.toNat < 0x110000 := c.valid
  simp only [String.utf8EncodeChar]
  generalize c.val.toNat = v at *
  rcases Nat.lt_or_ge 0x7F v with hone | hone
  · rw [if_neg (Nat.not_le.2 hone)]
    rcases Nat.lt_or_ge 0x7FF v with htwo | htwo
    · rw [if_neg (Nat.not_le.2 htwo)]
      rcases Nat.lt_or_ge 0xFFFF v with hthree | hthree
      · rw [if_neg (Nat.not_le.2 hthree)]
        refine ⟨_, _, rfl, ?_⟩
        have hfirst : (UInt8.ofNat (v / 262144 % 8 + 240)).toNat = v / 262144 + 0xF0 := by
          rw [toNat_ofNat_of_lt (by omega)]
          omega
        rw [← hchar]
        refine step_of_lead (lead?_four hfirst (by omega)) (by omega) (by omega) ?_ ?_ ?_
        · split <;> omega
        · split <;> omega
        · refine (continuation_ofNat 1 _ (by omega) _).trans ?_
          refine (continuation_ofNat 0 _ (by omega) _).trans ?_
          exact congrArg (fun value => (true, value, rest)) (by omega)
      · rw [if_pos hthree]
        refine ⟨_, _, rfl, ?_⟩
        have hfirst : (UInt8.ofNat (v / 4096 % 16 + 224)).toNat = v / 4096 + 0xE0 := by
          rw [toNat_ofNat_of_lt (by omega)]
          omega
        rw [← hchar]
        refine step_of_lead (lead?_three hfirst (by omega)) (by omega) (by omega) ?_ ?_ ?_
        · split <;> omega
        · split <;> omega
        · refine (continuation_ofNat 0 _ (by omega) _).trans ?_
          exact congrArg (fun value => (true, value, rest)) (by omega)
    · rw [if_pos htwo]
      refine ⟨_, _, rfl, ?_⟩
      have hfirst : (UInt8.ofNat (v / 64 % 32 + 192)).toNat = v / 64 + 0xC0 := by
        rw [toNat_ofNat_of_lt (by omega)]
        omega
      rw [← hchar]
      refine step_of_lead (lead?_two hfirst (by omega) (by omega)) (by omega) (by omega)
        (by omega) (by omega) ?_
      exact congrArg (fun value => (true, value, rest)) (by omega)
  · rw [if_pos hone]
    refine ⟨_, _, rfl, ?_⟩
    rw [step, toNat_ofNat_of_lt (by omega), if_pos (by omega), hchar]
    rfl

/-- The characters of a text are read from its bytes. -/
theorem scan_flatMap_utf8EncodeChar (chars : List Char) :
    scan (chars.flatMap String.utf8EncodeChar) = chars.map some := by
  induction chars with
  | nil => rw [List.flatMap_nil, scan, List.map_nil]
  | cons c chars ih =>
    obtain ⟨b, bytes, hbytes, hstep⟩ := step_utf8EncodeChar c (chars.flatMap String.utf8EncodeChar)
    rw [List.flatMap_cons, hbytes, scan, hstep, ih, List.map_cons]

/-- A text is decoded from its bytes. -/
theorem decode?_encode (s : String) : decode? (encode s) = some s.toList := by
  rw [decode?, encode_eq, scan_flatMap_utf8EncodeChar, List.mapM_map]
  exact List.mapM_pure.trans (congrArg some (List.map_id _))

end LogAudit.Text.Utf8
