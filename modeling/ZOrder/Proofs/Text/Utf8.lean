/-
  ZOrder.Proofs.Text.Utf8

  Reading the bytes of a text gives the text back: what is written for a character, one
  to four bytes, is never an overlong form or a surrogate, and is read as its code point.
-/

import Mathlib.Data.List.Basic
import ZOrder.Text.Utf8

namespace ZOrder.Text

variable {start a b c d : Nat} {rest : List Nat}

/-! ## Characters by their bytes -/

theorem utf8From_one (ha : a < 0x80) :
    utf8From start (a :: rest) = consChar a (utf8From (start + 1) rest) := by
  rw [utf8From.eq_def]
  simp only [ha, if_true]

theorem utf8From_two (ha : 0xC2 ≤ a ∧ a ≤ 0xDF) (hb : isContinuation b = true) :
    utf8From start (a :: b :: rest) =
      consChar ((a - 0xC0) * 0x40 + (b - 0x80)) (utf8From (start + 2) rest) := by
  have hone : ¬ a < 0x80 := by omega
  rw [utf8From.eq_def]
  simp [hone, ha, hb]

theorem utf8From_three (ha : 0xE0 ≤ a ∧ a ≤ 0xEF) (hb : isSecondOfThree a b = true)
    (hc : isContinuation c = true) :
    utf8From start (a :: b :: c :: rest) =
      consChar ((a - 0xE0) * 0x1000 + (b - 0x80) * 0x40 + (c - 0x80))
        (utf8From (start + 3) rest) := by
  have hone : ¬ a < 0x80 := by omega
  have htwo : ¬ a ≤ 0xDF := by omega
  rw [utf8From.eq_def]
  simp [hone, ha, hb, hc, htwo]

theorem utf8From_four (ha : 0xF0 ≤ a ∧ a ≤ 0xF4) (hb : isSecondOfFour a b = true)
    (hc : isContinuation c = true) (hd : isContinuation d = true) :
    utf8From start (a :: b :: c :: d :: rest) =
      consChar ((a - 0xF0) * 0x40000 + (b - 0x80) * 0x1000 + (c - 0x80) * 0x40 + (d - 0x80))
        (utf8From (start + 4) rest) := by
  have hone : ¬ a < 0x80 := by omega
  have htwo : ¬ a ≤ 0xDF := by omega
  have hthree : ¬ a ≤ 0xEF := by omega
  rw [utf8From.eq_def]
  simp [hone, ha, hb, hc, hd, htwo, hthree]

theorem isContinuation_iff : isContinuation b = true ↔ 0x80 ≤ b ∧ b ≤ 0xBF := by
  simp [isContinuation]

/-! ## The bytes that are written -/

/-- Six bits in a byte that goes on with a character. -/
theorem sixBits_toNat (v : Nat) : (v % 64 + 128) % 256 = v % 64 + 0x80 := by omega

theorem isContinuation_sixBits (v : Nat) : isContinuation (v % 64 + 0x80) = true := by
  rw [isContinuation_iff]
  omega

/-- The second byte of three shows that the form is not overlong, and no surrogate. -/
theorem isSecondOfThree_of_valid {v : Nat} (hlow : 0x800 ≤ v) (hhigh : v < 0x10000)
    (hvalid : v < 0xD800 ∨ 0xDFFF < v) :
    isSecondOfThree (v / 4096 + 0xE0) (v / 64 % 64 + 0x80) = true := by
  rw [isSecondOfThree]
  split
  · simp only [Bool.and_eq_true, decide_eq_true_eq]
    omega
  · split
    · simp only [Bool.and_eq_true, decide_eq_true_eq]
      omega
    · exact isContinuation_sixBits (v / 64)

/-- The second byte of four shows that the form is not overlong, and no number too large. -/
theorem isSecondOfFour_of_valid {v : Nat} (hlow : 0x10000 ≤ v) (hhigh : v < 0x110000) :
    isSecondOfFour (v / 262144 + 0xF0) (v / 4096 % 64 + 0x80) = true := by
  rw [isSecondOfFour]
  split
  · simp only [Bool.and_eq_true, decide_eq_true_eq]
    omega
  · split
    · simp only [Bool.and_eq_true, decide_eq_true_eq]
      omega
    · exact isContinuation_sixBits (v / 4096)

/-- The bytes of a character are read as the character. -/
theorem utf8From_utf8EncodeChar (x : Char) (start : Nat) (rest : List Nat) :
    utf8From start ((String.utf8EncodeChar x).map UInt8.toNat ++ rest) =
      consChar x.toNat (utf8From (start + (String.utf8EncodeChar x).length) rest) := by
  have hvalid := x.valid
  have hcode : x.val.toNat = x.toNat := rfl
  simp only [UInt32.isValidChar, Nat.isValidChar, hcode] at hvalid
  simp only [String.utf8EncodeChar, hcode]
  generalize x.toNat = v at hvalid
  -- One case for each number of bytes.
  split
  · have hbyte : v % 256 = v := by omega
    simp only [List.map_cons, List.map_nil, UInt8.toNat_ofNat', Nat.reducePow, hbyte,
      List.cons_append, List.nil_append, List.length_singleton]
    rw [utf8From_one (by omega)]
  split
  · have hlead : (v / 64 % 32 + 192) % 256 = v / 64 + 0xC0 := by omega
    have hsum : (v / 64 + 0xC0 - 0xC0) * 0x40 + (v % 64 + 0x80 - 0x80) = v := by omega
    simp only [List.map_cons, List.map_nil, UInt8.toNat_ofNat', Nat.reducePow, hlead, sixBits_toNat,
      List.cons_append, List.nil_append, List.length_cons, List.length_nil]
    rw [utf8From_two (by omega) (isContinuation_sixBits v), hsum]
  split
  · have hlead : (v / 4096 % 16 + 224) % 256 = v / 4096 + 0xE0 := by omega
    have hsecond := isSecondOfThree_of_valid (v := v) (by omega) (by omega) (by omega)
    have hsum : (v / 4096 + 0xE0 - 0xE0) * 0x1000 + (v / 64 % 64 + 0x80 - 0x80) * 0x40 +
        (v % 64 + 0x80 - 0x80) = v := by omega
    simp only [List.map_cons, List.map_nil, UInt8.toNat_ofNat', Nat.reducePow, hlead, sixBits_toNat,
      List.cons_append, List.nil_append, List.length_cons, List.length_nil]
    rw [utf8From_three (by omega) hsecond (isContinuation_sixBits v), hsum]
  · have hlead : (v / 262144 % 8 + 240) % 256 = v / 262144 + 0xF0 := by omega
    have hsecond := isSecondOfFour_of_valid (v := v) (by omega) (by omega)
    have hsum : (v / 262144 + 0xF0 - 0xF0) * 0x40000 + (v / 4096 % 64 + 0x80 - 0x80) * 0x1000 +
        (v / 64 % 64 + 0x80 - 0x80) * 0x40 + (v % 64 + 0x80 - 0x80) = v := by omega
    simp only [List.map_cons, List.map_nil, UInt8.toNat_ofNat', Nat.reducePow, hlead, sixBits_toNat,
      List.cons_append, List.nil_append, List.length_cons, List.length_nil]
    rw [utf8From_four (by omega) hsecond (isContinuation_sixBits (v / 64))
      (isContinuation_sixBits v), hsum]

/-! ## Texts -/

theorem utf8From_flatMap (cs : List Char) (start : Nat) :
    utf8From start ((cs.flatMap String.utf8EncodeChar).map UInt8.toNat) = .ok cs := by
  induction cs generalizing start with
  | nil => rw [List.flatMap_nil, List.map_nil, utf8From]
  | cons x cs ih =>
    rw [List.flatMap_cons, List.map_append, utf8From_utf8EncodeChar, ih, consChar, Char.ofNat_toNat]
    rfl

theorem byteArray_toList (b : ByteArray) : b.toList = b.data.toList := by
  have hloop : ∀ i seen, ByteArray.toList.loop b i seen = seen.reverse ++ b.data.toList.drop i := by
    intro i seen
    induction i, seen using ByteArray.toList.loop.induct b with
    | case1 i seen hlt ih =>
      have hlen : i < b.data.toList.length := hlt
      have hget : b.get! i = b.data.toList[i] := by
        rw [Array.getElem_toList]
        exact getElem!_pos b.data i hlt
      rw [ByteArray.toList.loop, if_pos hlt, ih, List.reverse_cons, List.append_assoc, hget,
        List.singleton_append, List.getElem_cons_drop]
    | case2 i seen hge =>
      have hlen : b.data.toList.length ≤ i := Nat.le_of_not_lt hge
      rw [ByteArray.toList.loop, if_neg hge, List.drop_eq_nil_of_le hlen, List.append_nil]
  exact hloop 0 []

/-- Reading the bytes of a text gives the text. -/
theorem utf8_toUTF8 (s : String) : utf8 s.toUTF8.toList = .ok s := by
  have hbytes : s.toUTF8.toList = s.toList.flatMap String.utf8EncodeChar := by
    rw [byteArray_toList, String.toUTF8, ← String.utf8Encode_toList, List.utf8Encode,
      List.toList_data_toByteArray]
  rw [utf8, hbytes, utf8From_flatMap]
  exact congrArg Except.ok String.ofList_toList

end ZOrder.Text
