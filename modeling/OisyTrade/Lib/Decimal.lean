import Mathlib.Algebra.Order.Field.Rat
import Mathlib.Data.List.DropRight
import Mathlib.Tactic.FieldSimp
import Mathlib.Tactic.Ring

/-!
# Decimal fractions

`readDecimal` reads digits with or without a point as the number they stand for.  Zeros in front do
not count (`ofDigitChars_leftpad`).  A point before the last `d` digits divides by `10 ^ d`, and the
zeros behind it may be dropped, with the point if nothing else is there (`readDecimal_trim`).
-/

/-- The number that digits with an optional point write. -/
def readDecimal (s : List Char) : ℚ :=
  let whole := s.takeWhile (· != '.')
  let frac := (s.dropWhile (· != '.')).tail
  Nat.ofDigitChars 10 whole 0 + Nat.ofDigitChars 10 frac 0 / 10 ^ frac.length

variable {s whole frac : List Char}

lemma bne_point_of_isDigit {c : Char} (h : c.isDigit = true) : (c != '.') = true := by
  refine bne_iff_ne.mpr ?_
  rintro rfl
  cases h

lemma readDecimal_whole (h : ∀ c ∈ s, c.isDigit = true) :
    readDecimal s = Nat.ofDigitChars 10 s 0 := by
  have htake : s.takeWhile (· != '.') = s :=
    List.takeWhile_eq_self_iff.mpr fun c hc => bne_point_of_isDigit (h c hc)
  have hdrop : s.dropWhile (· != '.') = [] :=
    List.dropWhile_eq_nil_iff.mpr fun c hc => bne_point_of_isDigit (h c hc)
  simp [readDecimal, htake, hdrop]

lemma readDecimal_point (h : ∀ c ∈ whole, c.isDigit = true) :
    readDecimal (whole ++ '.' :: frac)
      = Nat.ofDigitChars 10 whole 0 + Nat.ofDigitChars 10 frac 0 / 10 ^ frac.length := by
  have hpos : ∀ c ∈ whole, (c != '.') = true := fun c hc => bne_point_of_isDigit (h c hc)
  have htake : (whole ++ '.' :: frac).takeWhile (· != '.') = whole := by
    rw [List.takeWhile_append_of_pos hpos]
    exact List.append_nil _
  have hdrop : (whole ++ '.' :: frac).dropWhile (· != '.') = '.' :: frac := by
    rw [List.dropWhile_append_of_pos hpos]
    rfl
  rw [readDecimal, htake, hdrop, List.tail_cons]

/-- Digits behind digits. -/
lemma ofDigitChars_split (whole frac : List Char) :
    (Nat.ofDigitChars 10 (whole ++ frac) 0 : ℚ) / 10 ^ frac.length
      = Nat.ofDigitChars 10 whole 0 + Nat.ofDigitChars 10 frac 0 / 10 ^ frac.length := by
  rw [Nat.ofDigitChars_append, Nat.ofDigitChars_eq_ofDigitChars_zero]
  push_cast
  field_simp

/-- **Zeros behind the point do not count.** -/
theorem ofDigitChars_rdropWhile (s : List Char) :
    (Nat.ofDigitChars 10 (s.rdropWhile (· == '0')) 0 : ℚ) / 10 ^ (s.rdropWhile (· == '0')).length
      = Nat.ofDigitChars 10 s 0 / 10 ^ s.length := by
  induction s using List.reverseRecOn with
  | nil => rfl
  | append_singleton s c ih =>
      by_cases hc : (c == '0') = true
      · have hchar : c = '0' := eq_of_beq hc
        have hzero : Nat.ofDigitChars 10 (s ++ [c]) 0 = 10 * Nat.ofDigitChars 10 s 0 := by
          rw [Nat.ofDigitChars_append, hchar]
          rfl
        rw [List.rdropWhile_concat_pos (· == '0') s c hc, ih, hzero, List.length_append,
          List.length_singleton, pow_succ]
        push_cast
        field_simp
      · rw [List.rdropWhile_concat_neg (· == '0') s c hc]

/-- **A point divides, and the zeros behind it may be dropped.** -/
theorem readDecimal_trim (h : ∀ c ∈ whole, c.isDigit = true) :
    readDecimal (if (frac.rdropWhile (· == '0')).isEmpty then whole
        else whole ++ '.' :: frac.rdropWhile (· == '0'))
      = Nat.ofDigitChars 10 (whole ++ frac) 0 / 10 ^ frac.length := by
  rw [ofDigitChars_split, ← ofDigitChars_rdropWhile]
  split_ifs with hnone
  · rw [readDecimal_whole h, List.isEmpty_iff.mp hnone, Nat.ofDigitChars_nil, Nat.cast_zero,
      zero_div, add_zero]
  · exact readDecimal_point h

/-! ## Padding -/

lemma isDigit_leftpad (h : ∀ c ∈ s, c.isDigit = true) (width : ℕ) :
    ∀ c ∈ s.leftpad width '0', c.isDigit = true := by
  intro c hc
  rw [List.leftpad, List.mem_append] at hc
  rcases hc with hc | hc
  · rw [List.eq_of_mem_replicate hc]
    rfl
  · exact h c hc

lemma ofDigitChars_leftpad (s : List Char) (width : ℕ) :
    Nat.ofDigitChars 10 (s.leftpad width '0') 0 = Nat.ofDigitChars 10 s 0 := by
  rw [List.leftpad, Nat.ofDigitChars_append, Nat.ofDigitChars_replicate_zero, Nat.mul_zero]
