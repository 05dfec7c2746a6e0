import Mathlib.Data.List.Induction
import Mathlib.Tactic.Linarith
import Mathlib.Tactic.Ring

/-!
# Positional numerals of a fixed width

A number below `base ^ width` is written with exactly `width` digits, the most significant first.
`numeral` writes it and `ofNumeral` reads it; on digits the two are inverse to each other
(`ofNumeral_numeral`, `numeral_ofNumeral`), so a number has one numeral of a width and every list
of `width` digits is one.  When the digits are ordered as their values are, numerals of one width
compare lexicographically as their numbers do (`numeral_lt_numeral`).

The digits are a parameter: `hex` are the sixteen lower-case characters, `bytes` all bytes.
-/

/-- Symbols for the numbers below a base. -/
structure Digits (δ : Type*) where
  base : ℕ
  digit : ℕ → δ
  value : δ → ℕ
  isDigit : δ → Bool
  base_pos : 0 < base
  isDigit_digit : ∀ {n}, n < base → isDigit (digit n) = true
  value_digit : ∀ {n}, n < base → value (digit n) = n
  value_lt : ∀ {d}, isDigit d = true → value d < base
  digit_value : ∀ {d}, isDigit d = true → digit (value d) = d

namespace Digits

variable {δ : Type*} (D : Digits δ)

/-- The last `width` digits of a number. -/
def numeral : ℕ → ℕ → List δ
  | 0, _ => []
  | width + 1, n => numeral width (n / D.base) ++ [D.digit (n % D.base)]

/-- The number that digits write. -/
def ofNumeral (s : List δ) : ℕ := s.foldl (fun n d => D.base * n + D.value d) 0

@[simp] lemma length_numeral (width n : ℕ) : (D.numeral width n).length = width := by
  induction width generalizing n with
  | zero => rfl
  | succ width ih => rw [numeral, List.length_append, ih, List.length_singleton]

lemma all_numeral (width n : ℕ) : (D.numeral width n).all D.isDigit = true := by
  induction width generalizing n with
  | zero => rfl
  | succ width ih =>
      rw [numeral, List.all_append, ih, Bool.true_and, List.all_cons, List.all_nil, Bool.and_true]
      exact D.isDigit_digit (Nat.mod_lt _ D.base_pos)

lemma ofNumeral_append_singleton (s : List δ) (d : δ) :
    D.ofNumeral (s ++ [d]) = D.base * D.ofNumeral s + D.value d := by
  rw [ofNumeral, List.foldl_append]
  rfl

/-- Digits behind digits shift them to the left. -/
lemma ofNumeral_append (s t : List δ) :
    D.ofNumeral (s ++ t) = D.ofNumeral s * D.base ^ t.length + D.ofNumeral t := by
  induction t using List.reverseRecOn with
  | nil => simp [ofNumeral]
  | append_singleton t d ih =>
      rw [← List.append_assoc, ofNumeral_append_singleton, ih, ofNumeral_append_singleton,
        List.length_append, List.length_singleton, pow_succ]
      ring

/-- Leading zeros do not count. -/
lemma ofNumeral_dropWhile {p : δ → Bool} (h : ∀ d, p d = true → D.value d = 0) (s : List δ) :
    D.ofNumeral (s.dropWhile p) = D.ofNumeral s := by
  induction s with
  | nil => rfl
  | cons d s ih =>
      by_cases hd : p d = true
      · have hone : D.ofNumeral [d] = 0 := by
          rw [← List.nil_append [d], ofNumeral_append_singleton, h d hd]
          rfl
        rw [List.dropWhile_cons_of_pos hd, ih, ← List.singleton_append, ofNumeral_append, hone,
          Nat.zero_mul, Nat.zero_add]
      · rw [List.dropWhile_cons_of_neg hd]

/-- **What is written reads back.** -/
theorem ofNumeral_numeral {width n : ℕ} (h : n < D.base ^ width) :
    D.ofNumeral (D.numeral width n) = n := by
  induction width generalizing n with
  | zero =>
      rw [pow_zero, Nat.lt_one_iff] at h
      rw [h]
      rfl
  | succ width ih =>
      have hdiv : n / D.base < D.base ^ width := by
        rw [pow_succ] at h
        exact Nat.div_lt_of_lt_mul (by linarith)
      rw [numeral, ofNumeral_append_singleton, ih hdiv,
        D.value_digit (Nat.mod_lt _ D.base_pos)]
      exact Nat.div_add_mod n D.base

/-- Digits write a number that fits their width. -/
lemma ofNumeral_lt {s : List δ} (h : s.all D.isDigit = true) :
    D.ofNumeral s < D.base ^ s.length := by
  induction s using List.reverseRecOn with
  | nil => exact Nat.one_pos
  | append_singleton s d ih =>
      rw [List.all_append, Bool.and_eq_true, List.all_cons, List.all_nil, Bool.and_true] at h
      have hd := D.value_lt h.2
      have hs : D.base * (D.ofNumeral s + 1) ≤ D.base * D.base ^ s.length :=
        Nat.mul_le_mul_left D.base (ih h.1)
      rw [ofNumeral_append_singleton, List.length_append, List.length_singleton, pow_succ,
        Nat.mul_comm (D.base ^ s.length)]
      linarith

/-- **What is read writes back.** -/
theorem numeral_ofNumeral {s : List δ} (h : s.all D.isDigit = true) :
    D.numeral s.length (D.ofNumeral s) = s := by
  induction s using List.reverseRecOn with
  | nil => rfl
  | append_singleton s d ih =>
      rw [List.all_append, Bool.and_eq_true, List.all_cons, List.all_nil, Bool.and_true] at h
      have hd := D.value_lt h.2
      have hdiv : (D.base * D.ofNumeral s + D.value d) / D.base = D.ofNumeral s := by
        rw [Nat.mul_add_div D.base_pos, Nat.div_eq_of_lt hd, Nat.add_zero]
      have hmod : (D.base * D.ofNumeral s + D.value d) % D.base = D.value d := by
        rw [Nat.mul_add_mod, Nat.mod_eq_of_lt hd]
      rw [List.length_append, List.length_singleton, ofNumeral_append_singleton, numeral, hdiv,
        hmod, ih h.1, D.digit_value h.2]

/-! ## Order -/

/-- Lists of one length compare by their front and then by their back. -/
lemma append_lt_append [LT δ] {s s' t t' : List δ} (h : s.length = t.length) :
    s ++ s' < t ++ t' ↔ s < t ∨ (s = t ∧ s' < t') := by
  induction s generalizing t with
  | nil =>
      obtain rfl : t = [] := List.length_eq_zero_iff.mp h.symm
      simp
  | cons a s ih =>
      cases t with
      | nil => cases h
      | cons b t =>
          rw [List.length_cons, List.length_cons, Nat.succ_inj] at h
          rw [List.cons_append, List.cons_append, List.cons_lt_cons_iff, List.cons_lt_cons_iff,
            ih h, List.cons.injEq]
          tauto

/-- A number is compared by its leading digits and then by its last. -/
lemma lt_iff_div_mod (b m n : ℕ) (hb : 0 < b) :
    m < n ↔ m / b < n / b ∨ (m / b = n / b ∧ m % b < n % b) := by
  have hm := Nat.div_add_mod m b
  have hn := Nat.div_add_mod n b
  have hmlt := Nat.mod_lt m hb
  have hnlt := Nat.mod_lt n hb
  constructor
  · intro h
    rcases (Nat.div_le_div_right (c := b) h.le).lt_or_eq with hlt | heq
    · exact Or.inl hlt
    · rw [heq] at hm
      exact Or.inr ⟨heq, by omega⟩
  · rintro (h | ⟨heq, h⟩)
    · by_contra hle
      exact absurd (Nat.div_le_div_right (c := b) (Nat.not_lt.mp hle)) (Nat.not_le.mpr h)
    · rw [heq] at hm
      omega

/-- **Numerals of one width compare as their numbers do.** -/
theorem numeral_lt_numeral [LT δ]
    (hD : ∀ {m n}, m < D.base → n < D.base → (D.digit m < D.digit n ↔ m < n)) {width m n : ℕ}
    (hm : m < D.base ^ width) (hn : n < D.base ^ width) :
    D.numeral width m < D.numeral width n ↔ m < n := by
  induction width generalizing m n with
  | zero =>
      rw [pow_zero, Nat.lt_one_iff] at hm hn
      rw [hm, hn]
      simp [numeral]
  | succ width ih =>
      have hfit : ∀ {k}, k < D.base ^ (width + 1) → k / D.base < D.base ^ width := by
        intro k hk
        rw [pow_succ] at hk
        exact Nat.div_lt_of_lt_mul (by linarith)
      have hlast : [D.digit (m % D.base)] < [D.digit (n % D.base)] ↔ m % D.base < n % D.base := by
        rw [List.cons_lt_cons_iff, hD (Nat.mod_lt _ D.base_pos) (Nat.mod_lt _ D.base_pos)]
        simp
      have heq : D.numeral width (m / D.base) = D.numeral width (n / D.base)
          ↔ m / D.base = n / D.base := by
        constructor
        · intro h
          rw [← D.ofNumeral_numeral (hfit hm), h, D.ofNumeral_numeral (hfit hn)]
        · intro h
          rw [h]
      rw [numeral, numeral, append_lt_append (by simp), ih (hfit hm) (hfit hn), hlast, heq,
        ← lt_iff_div_mod D.base m n D.base_pos]

/-! ## Hexadecimal digits -/

/-- The lower-case digit for a value below 16. -/
def hexDigit (n : ℕ) : Char := if n < 10 then Char.ofNat (48 + n) else Char.ofNat (87 + n)

/-- The characters `0` to `9` and `a` to `f`. -/
def isHexDigit (c : Char) : Bool :=
  (48 ≤ c.toNat && c.toNat ≤ 57) || (97 ≤ c.toNat && c.toNat ≤ 102)

/-- The value of a hexadecimal digit. -/
def hexValue (c : Char) : ℕ := if c.toNat ≤ 57 then c.toNat - 48 else c.toNat - 87

lemma isHexDigit_iff {c : Char} : isHexDigit c = true ↔
    (48 ≤ c.toNat ∧ c.toNat ≤ 57) ∨ (97 ≤ c.toNat ∧ c.toNat ≤ 102) := by
  simp only [isHexDigit, Bool.or_eq_true, Bool.and_eq_true, decide_eq_true_eq]

lemma toNat_hexDigit {n : ℕ} (h : n < 16) :
    (hexDigit n).toNat = if n < 10 then 48 + n else 87 + n := by
  have hall : ∀ m : Fin 16,
      (hexDigit m.val).toNat = if m.val < 10 then 48 + m.val else 87 + m.val := by decide
  exact hall ⟨n, h⟩

lemma isHexDigit_hexDigit {n : ℕ} (h : n < 16) : isHexDigit (hexDigit n) = true := by
  rw [isHexDigit_iff, toNat_hexDigit h]
  split_ifs <;> omega

lemma hexValue_hexDigit {n : ℕ} (h : n < 16) : hexValue (hexDigit n) = n := by
  rw [hexValue, toNat_hexDigit h]
  split_ifs <;> omega

lemma hexValue_lt {c : Char} (h : isHexDigit c = true) : hexValue c < 16 := by
  rw [isHexDigit_iff] at h
  rw [hexValue]
  split_ifs <;> omega

lemma hexDigit_hexValue {c : Char} (h : isHexDigit c = true) : hexDigit (hexValue c) = c := by
  have hlt := hexValue_lt h
  rw [isHexDigit_iff] at h
  refine Char.toNat_inj.mp ?_
  rw [toNat_hexDigit hlt, hexValue]
  split_ifs <;> omega

lemma sixteen_pos : 0 < 16 := by decide

/-- Lower-case hexadecimal. -/
def hex : Digits Char where
  base := 16
  digit := hexDigit
  value := hexValue
  isDigit := isHexDigit
  base_pos := sixteen_pos
  isDigit_digit := isHexDigit_hexDigit
  value_digit := hexValue_hexDigit
  value_lt := hexValue_lt
  digit_value := hexDigit_hexValue

lemma hexDigit_lt_hexDigit {m n : ℕ} (hm : m < 16) (hn : n < 16) :
    hexDigit m < hexDigit n ↔ m < n := by
  have hall : ∀ m n : Fin 16, hexDigit m.val < hexDigit n.val ↔ m.val < n.val := by decide
  exact hall ⟨m, hm⟩ ⟨n, hn⟩

/-! ## Bytes -/

lemma toNat_ofNat_byte {n : ℕ} (h : n < 256) : (UInt8.ofNat n).toNat = n :=
  UInt8.toNat_ofNat_of_lt h

lemma byte_base_pos : 0 < 256 := by decide

/-- Base 256 with all bytes as digits: a numeral is a big-endian encoding. -/
def bytes : Digits UInt8 where
  base := 256
  digit := UInt8.ofNat
  value := UInt8.toNat
  isDigit _ := true
  base_pos := byte_base_pos
  isDigit_digit _ := rfl
  value_digit := toNat_ofNat_byte
  value_lt _ := UInt8.toNat_lt _
  digit_value _ := UInt8.ofNat_toNat

lemma all_bytes (s : List UInt8) : s.all bytes.isDigit = true := by
  rw [List.all_eq_true]
  intro _ _
  rfl

lemma byte_lt_byte {m n : ℕ} (hm : m < 256) (hn : n < 256) :
    UInt8.ofNat m < UInt8.ofNat n ↔ m < n := by
  rw [UInt8.lt_iff_toNat_lt, toNat_ofNat_byte hm, toNat_ofNat_byte hn]

end Digits
