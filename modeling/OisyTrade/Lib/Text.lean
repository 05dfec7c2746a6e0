import Mathlib.Data.List.Basic
import OisyTrade.Lib.Numeral

/-!
# Texts and their bytes

A text is a list of characters that programs measure and cut by its UTF-8 bytes.  A cut inside a
character or behind the end is not one: `sliceTo` and `sliceFrom` are partial.  On a text of
hexadecimal digits every character is one byte, so bytes and characters are counted alike.
-/

namespace Text

/-- The bytes of a text. -/
def utf8 (s : List Char) : List UInt8 := s.flatMap String.utf8EncodeChar

/-- The text before a byte offset; there is none when the offset is no character boundary. -/
def sliceTo : List Char → ℕ → Option (List Char)
  | _, 0 => some []
  | [], _ + 1 => none
  | c :: s, i => if c.utf8Size ≤ i then (sliceTo s (i - c.utf8Size)).map (c :: ·) else none

/-- The text from a byte offset on. -/
def sliceFrom : List Char → ℕ → Option (List Char)
  | s, 0 => some s
  | [], _ + 1 => none
  | c :: s, i => if c.utf8Size ≤ i then sliceFrom s (i - c.utf8Size) else none

/-- The bytes `0` to `9` and `a` to `f`. -/
def isHexByte (b : UInt8) : Bool := (48 ≤ b && b ≤ 57) || (97 ≤ b && b ≤ 102)

lemma isHexByte_iff {b : UInt8} : isHexByte b = true ↔
    (48 ≤ b.toNat ∧ b.toNat ≤ 57) ∨ (97 ≤ b.toNat ∧ b.toNat ≤ 102) := by
  simp only [isHexByte, Bool.or_eq_true, Bool.and_eq_true, decide_eq_true_eq,
    UInt8.le_iff_toNat_le]
  rfl

/-- A character outside ASCII starts with a byte that is no digit. -/
lemma isHexByte_lead {n : ℕ} (h : 128 ≤ n) (hn : n < 256) : isHexByte (UInt8.ofNat n) = false := by
  refine Bool.eq_false_iff.mpr ?_
  intro hhex
  rw [isHexByte_iff, Digits.toNat_ofNat_byte hn] at hhex
  omega

/-- The bytes of a character are digits exactly if the character is one. -/
lemma all_utf8EncodeChar (c : Char) :
    (String.utf8EncodeChar c).all isHexByte = Digits.isHexDigit c := by
  have hwide : 128 ≤ c.toNat → Digits.isHexDigit c = false := by
    intro h
    refine Bool.eq_false_iff.mpr ?_
    intro hhex
    rw [Digits.isHexDigit_iff] at hhex
    omega
  simp only [String.utf8EncodeChar]
  split_ifs with h1 h2 h3
  · have hlt : c.toNat < 256 := Nat.lt_of_le_of_lt h1 (by decide)
    rw [List.all_cons, List.all_nil, Bool.and_true, Bool.eq_iff_iff, isHexByte_iff,
      Digits.isHexDigit_iff]
    have hbyte : (UInt8.ofNat c.val.toNat).toNat = c.toNat := Digits.toNat_ofNat_byte hlt
    rw [hbyte]
  · rw [hwide (Nat.lt_of_not_le h1), List.all_cons,
      isHexByte_lead (by omega) (by omega), Bool.false_and]
  · rw [hwide (Nat.lt_of_not_le h1), List.all_cons,
      isHexByte_lead (by omega) (by omega), Bool.false_and]
  · rw [hwide (Nat.lt_of_not_le h1), List.all_cons,
      isHexByte_lead (by omega) (by omega), Bool.false_and]

lemma all_utf8 (s : List Char) : (utf8 s).all isHexByte = s.all Digits.isHexDigit := by
  induction s with
  | nil => rfl
  | cons c s ih =>
      rw [utf8, List.flatMap_cons, List.all_append, all_utf8EncodeChar, List.all_cons, ← ih, utf8]

lemma utf8Size_of_isHexDigit {c : Char} (h : Digits.isHexDigit c = true) : c.utf8Size = 1 := by
  rw [Digits.isHexDigit_iff] at h
  have hle : c.toNat ≤ 127 := by omega
  exact Char.utf8Size_eq_one_iff.mpr (UInt32.le_iff_toNat_le.mpr hle)

variable {s : List Char}

/-- A text of digits has one byte for each character. -/
lemma length_utf8 (h : s.all Digits.isHexDigit = true) : (utf8 s).length = s.length := by
  induction s with
  | nil => rfl
  | cons c s ih =>
      rw [List.all_cons, Bool.and_eq_true] at h
      rw [utf8, List.flatMap_cons, List.length_append, String.length_utf8EncodeChar,
        utf8Size_of_isHexDigit h.1, List.length_cons, ← ih h.2, utf8, Nat.add_comm]

/-- A text of digits can be cut anywhere. -/
lemma sliceTo_eq (h : s.all Digits.isHexDigit = true) {i : ℕ} (hi : i ≤ s.length) :
    sliceTo s i = some (s.take i) := by
  induction s generalizing i with
  | nil =>
      obtain rfl : i = 0 := Nat.le_zero.mp hi
      rfl
  | cons c s ih =>
      rw [List.all_cons, Bool.and_eq_true] at h
      cases i with
      | zero => rfl
      | succ i =>
          rw [List.length_cons, Nat.succ_le_succ_iff] at hi
          rw [sliceTo, utf8Size_of_isHexDigit h.1, if_pos (Nat.succ_le_succ (Nat.zero_le i)),
            Nat.add_sub_cancel, ih h.2 hi]
          · rfl
          · intro hzero
            cases hzero

lemma sliceFrom_eq (h : s.all Digits.isHexDigit = true) {i : ℕ} (hi : i ≤ s.length) :
    sliceFrom s i = some (s.drop i) := by
  induction s generalizing i with
  | nil =>
      obtain rfl : i = 0 := Nat.le_zero.mp hi
      rfl
  | cons c s ih =>
      rw [List.all_cons, Bool.and_eq_true] at h
      cases i with
      | zero => rfl
      | succ i =>
          rw [List.length_cons, Nat.succ_le_succ_iff] at hi
          rw [sliceFrom, utf8Size_of_isHexDigit h.1, if_pos (Nat.succ_le_succ (Nat.zero_le i)),
            Nat.add_sub_cancel, ih h.2 hi]
          · rfl
          · intro hzero
            cases hzero

end Text
