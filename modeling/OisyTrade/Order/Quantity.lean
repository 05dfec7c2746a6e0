import OisyTrade.Lib.Outcome
import Mathlib.Tactic.Linarith
import Mathlib.Tactic.Ring
import Mathlib.Tactic.NormNum

/-!
# 256-bit quantities

`Quantity` is the pair of 128-bit limbs of `order/mod.rs`, and the checked operations follow the
limb arithmetic of the source line by line.  Everything else in the development reads a quantity
through `toNat`, so each operation gets one equation that says what it computes over `ℕ`:
`checkedAdd_eq_some`, `checkedSub_eq_some`, `checkedMulU64_eq_some`, `checkedMulU128_eq_some`,
`checkedDivRemU64_eq`, `isMultipleOf_iff`, `lt_iff`.  After this file no proof unfolds a limb.
-/

namespace OisyTrade

/-- A `u64`. -/
abbrev U64 := BitVec 64

/-- A `u128`. -/
abbrev U128 := BitVec 128

namespace U128

/-- `u128::overflowing_add`: the wrapped sum and the carry. -/
def overflowingAdd (a b : U128) : U128 × Bool := (a + b, decide (2 ^ 128 ≤ a.toNat + b.toNat))

/-- `u128::overflowing_sub`: the wrapped difference and the borrow. -/
def overflowingSub (a b : U128) : U128 × Bool := (a - b, decide (a.toNat < b.toNat))

/-- `u128::checked_add`. -/
def checkedAdd (a b : U128) : Option U128 :=
  if a.toNat + b.toNat < 2 ^ 128 then some (a + b) else none

/-- `u128::checked_sub`. -/
def checkedSub (a b : U128) : Option U128 := if b.toNat ≤ a.toNat then some (a - b) else none

/-- `u128::checked_mul`. -/
def checkedMul (a b : U128) : Option U128 :=
  if a.toNat * b.toNat < 2 ^ 128 then some (a * b) else none

/-- `b as u128`. -/
def ofBool (b : Bool) : U128 := if b then 1 else 0

@[simp] lemma toNat_ofBool (b : Bool) : (ofBool b).toNat = b.toNat := by cases b <;> rfl

lemma checkedAdd_eq_some {a b c : U128} :
    checkedAdd a b = some c ↔ c.toNat = a.toNat + b.toNat := by
  unfold checkedAdd
  have hc := c.isLt
  split_ifs with h
  · rw [Option.some.injEq]
    constructor
    · rintro rfl
      rw [BitVec.toNat_add, Nat.mod_eq_of_lt h]
    · intro hn
      refine BitVec.eq_of_toNat_eq ?_
      rw [BitVec.toNat_add, Nat.mod_eq_of_lt h, hn]
  · constructor
    · intro hn; cases hn
    · intro hn; omega

lemma checkedSub_eq_some {a b c : U128} :
    checkedSub a b = some c ↔ c.toNat + b.toNat = a.toNat := by
  unfold checkedSub
  split_ifs with h
  · rw [Option.some.injEq]
    constructor
    · rintro rfl
      rw [BitVec.toNat_sub_of_le (BitVec.le_def.mpr h)]
      omega
    · intro hn
      refine BitVec.eq_of_toNat_eq ?_
      rw [BitVec.toNat_sub_of_le (BitVec.le_def.mpr h)]
      omega
  · constructor
    · intro hn; cases hn
    · intro hn; omega

lemma checkedMul_eq_some {a b c : U128} :
    checkedMul a b = some c ↔ c.toNat = a.toNat * b.toNat := by
  unfold checkedMul
  have hc := c.isLt
  split_ifs with h
  · rw [Option.some.injEq]
    constructor
    · rintro rfl
      rw [BitVec.toNat_mul, Nat.mod_eq_of_lt h]
    · intro hn
      refine BitVec.eq_of_toNat_eq ?_
      rw [BitVec.toNat_mul, Nat.mod_eq_of_lt h, hn]
  · constructor
    · intro hn; cases hn
    · intro hn
      exact absurd (hn ▸ hc) h

end U128

/-- A 256-bit unsigned quantity as a `(high, low)` pair of `u128` limbs. -/
structure Quantity where
  high : U128
  low : U128
deriving DecidableEq, Repr

namespace Quantity

/-- `Quantity::ZERO`. -/
def zero : Quantity := ⟨0, 0⟩

/-- `Quantity::MAX`. -/
def max : Quantity := ⟨BitVec.allOnes 128, BitVec.allOnes 128⟩

instance : Inhabited Quantity := ⟨zero⟩

/-- `Quantity::from_u128`. -/
def fromU128 (value : U128) : Quantity := ⟨0, value⟩

/-- `From<u64> for Quantity`. -/
def fromU64 (value : U64) : Quantity := ⟨0, value.setWidth 128⟩

/-- `Quantity::as_u128`. -/
def asU128 (q : Quantity) : Option U128 := if q.high = 0 then some q.low else none

/-- `Quantity::is_zero`. -/
def isZero (q : Quantity) : Bool := q.high = 0 && q.low = 0

/-- The natural number a quantity stands for. -/
def toNat (q : Quantity) : ℕ := q.high.toNat * 2 ^ 128 + q.low.toNat

/-- The quantity of a natural number below `2 ^ 256`. -/
def ofNat (n : ℕ) : Quantity := ⟨BitVec.ofNat 128 (n / 2 ^ 128), BitVec.ofNat 128 n⟩

/-- `TryFrom<&Nat> for Quantity`. -/
def tryFrom (n : ℕ) : Option Quantity := if n < 2 ^ 256 then some (ofNat n) else none

/-- `Ord for Quantity`: the high limbs first, then the low ones. -/
def cmp (a b : Quantity) : Ordering :=
  (compare a.high.toNat b.high.toNat).then (compare a.low.toNat b.low.toNat)

/-- `a < b` of the source. -/
def lt (a b : Quantity) : Bool := cmp a b = Ordering.lt

/-- `std::cmp::min`, which keeps the first argument on a tie. -/
def min (a b : Quantity) : Quantity := if cmp a b = Ordering.gt then b else a

/-- `Quantity::checked_sub`. -/
def checkedSub (a b : Quantity) : Option Quantity :=
  if b.isZero then some a
  else do
    let (low, borrow) := U128.overflowingSub a.low b.low
    let subtrahend ← U128.checkedAdd b.high (U128.ofBool borrow)
    let high ← U128.checkedSub a.high subtrahend
    some ⟨high, low⟩

/-- `Quantity::checked_add`. -/
def checkedAdd (a b : Quantity) : Option Quantity := do
  let (low, carry) := U128.overflowingAdd a.low b.low
  let high ← U128.checkedAdd a.high b.high
  let high ← U128.checkedAdd high (U128.ofBool carry)
  some ⟨high, low⟩

/-- `Quantity::checked_shl_64`: multiply by `2 ^ 64`. -/
def checkedShl64 (a : Quantity) : Option Quantity :=
  if a.high >>> 64 ≠ 0 then none
  else some ⟨(a.high <<< 64) ||| (a.low >>> 64), a.low <<< 64⟩

/-- `Quantity::checked_mul_u64`: the low limb is multiplied in two 64-bit halves. -/
def checkedMulU64 (a : Quantity) (rhs : U64) : Option Quantity := do
  let rhs : U128 := rhs.setWidth 128
  let lowLo := a.low &&& 0xFFFFFFFFFFFFFFFF#128
  let lowHi := a.low >>> 64
  let prodLo := lowLo * rhs
  let prodHi := lowHi * rhs
  let (low, carry) := U128.overflowingAdd prodLo (prodHi <<< 64)
  let high ← U128.checkedMul a.high rhs
  let high ← U128.checkedAdd high (prodHi >>> 64)
  let high ← U128.checkedAdd high (U128.ofBool carry)
  some ⟨high, low⟩

/-- `Quantity::checked_mul_u128`. -/
def checkedMulU128 (a : Quantity) (rhs : U128) : Option Quantity :=
  if rhs.toNat < 2 ^ 64 then a.checkedMulU64 (rhs.setWidth 64)
  else do
    let lo ← a.checkedMulU64 (rhs.setWidth 64)
    let hi ← a.checkedMulU64 ((rhs >>> 64).setWidth 64)
    lo.checkedAdd (← hi.checkedShl64)

/-- `Quantity::checked_div_rem_u64`: schoolbook division, one 64-bit digit of `low` at a time. -/
def checkedDivRemU64 (a : Quantity) (divisor : U64) : Option (Quantity × U64) :=
  if divisor = 0 then none
  else
    let d : U128 := divisor.setWidth 128
    if a.high = 0 then some (fromU128 (a.low / d), (a.low % d).setWidth 64)
    else
      let q1 := a.high / d
      let r1 := a.high % d
      let lowHi := a.low >>> 64
      let lowLo := a.low &&& 0xFFFFFFFFFFFFFFFF#128
      let dividend2 := (r1 <<< 64) ||| lowHi
      let q2 := dividend2 / d
      let r2 := dividend2 % d
      let dividend3 := (r2 <<< 64) ||| lowLo
      let q3 := dividend3 / d
      let r3 := dividend3 % d
      some (⟨q1, (q2 <<< 64) ||| q3⟩, r3.setWidth 64)

/-! ## Quantities as natural numbers -/

lemma toNat_lt (q : Quantity) : q.toNat < 2 ^ 256 := by
  have h1 := q.high.isLt
  have h2 := q.low.isLt
  unfold toNat
  omega

lemma toNat_inj {a b : Quantity} (h : a.toNat = b.toNat) : a = b := by
  have h1 := a.low.isLt
  have h2 := b.low.isLt
  unfold toNat at h
  have hh : a.high.toNat = b.high.toNat := by omega
  have hl : a.low.toNat = b.low.toNat := by omega
  cases a; cases b
  simp only [Quantity.mk.injEq]
  exact ⟨BitVec.eq_of_toNat_eq hh, BitVec.eq_of_toNat_eq hl⟩

@[simp] lemma toNat_zero : zero.toNat = 0 := (rfl)

lemma toNat_ofNat {n : ℕ} (h : n < 2 ^ 256) : (ofNat n).toNat = n := by
  unfold toNat ofNat
  rw [BitVec.toNat_ofNat, BitVec.toNat_ofNat, Nat.mod_eq_of_lt (by omega : n / 2 ^ 128 < 2 ^ 128)]
  omega

lemma toNat_fromU64 (v : U64) : (fromU64 v).toNat = v.toNat := by
  have hv := v.isLt
  simp only [toNat, fromU64, BitVec.ofNat_eq_ofNat, BitVec.toNat_ofNat, BitVec.toNat_setWidth]
  omega

lemma ofNat_toNat (q : Quantity) : ofNat q.toNat = q := toNat_inj (toNat_ofNat q.toNat_lt)

lemma isZero_iff {q : Quantity} : q.isZero = true ↔ q.toNat = 0 := by
  unfold isZero toNat
  have hh : q.high = 0 ↔ q.high.toNat = 0 := (BitVec.toNat_eq (y := 0#128))
  have hl : q.low = 0 ↔ q.low.toNat = 0 := (BitVec.toNat_eq (y := 0#128))
  rw [Bool.and_eq_true, decide_eq_true_eq, decide_eq_true_eq, hh, hl]
  omega

lemma eq_zero_iff {q : Quantity} : q = zero ↔ q.toNat = 0 :=
  ⟨fun h => by rw [h, toNat_zero], fun h => toNat_inj (by rw [h, toNat_zero])⟩

lemma cmp_eq (a b : Quantity) : cmp a b = compare a.toNat b.toNat := by
  have h1 := a.low.isLt
  have h2 := b.low.isLt
  unfold cmp
  rcases lt_trichotomy a.high.toNat b.high.toNat with h | h | h
  · have : a.toNat < b.toNat := by unfold toNat; omega
    rw [Nat.compare_eq_lt.mpr h, Nat.compare_eq_lt.mpr this]; rfl
  · rw [h, Nat.compare_eq_eq.mpr rfl]
    show compare a.low.toNat b.low.toNat = _
    rcases lt_trichotomy a.low.toNat b.low.toNat with hl | hl | hl
    · rw [Nat.compare_eq_lt.mpr hl, Nat.compare_eq_lt.mpr (by unfold toNat; omega)]
    · rw [Nat.compare_eq_eq.mpr hl, Nat.compare_eq_eq.mpr (by unfold toNat; omega)]
    · rw [Nat.compare_eq_gt.mpr hl, Nat.compare_eq_gt.mpr (by unfold toNat; omega)]
  · have : b.toNat < a.toNat := by unfold toNat; omega
    rw [Nat.compare_eq_gt.mpr h, Nat.compare_eq_gt.mpr this]; rfl

lemma lt_iff {a b : Quantity} : lt a b = true ↔ a.toNat < b.toNat := by
  rw [lt, cmp_eq, decide_eq_true_eq, Nat.compare_eq_lt]

lemma toNat_min (a b : Quantity) : (min a b).toNat = Nat.min a.toNat b.toNat := by
  unfold min
  rw [cmp_eq]
  split_ifs with h
  · rw [Nat.compare_eq_gt] at h
    exact (Nat.min_eq_right h.le).symm
  · rw [Nat.compare_eq_gt] at h
    exact (Nat.min_eq_left (not_lt.mp h)).symm

/-! ## What the operations compute -/

lemma toNat_and_mask (x : U128) : (x &&& 0xFFFFFFFFFFFFFFFF#128).toNat = x.toNat % 2 ^ 64 := by
  rw [BitVec.toNat_and]
  exact Nat.and_two_pow_sub_one_eq_mod x.toNat 64

lemma toNat_shr64 (x : U128) : (x >>> 64).toNat = x.toNat / 2 ^ 64 := by
  rw [BitVec.toNat_ushiftRight, Nat.shiftRight_eq_div_pow]

lemma toNat_shl64 (x : U128) : (x <<< 64).toNat = x.toNat % 2 ^ 64 * 2 ^ 64 := by
  rw [BitVec.toNat_shiftLeft, Nat.shiftLeft_eq]
  omega

/-- Two 64-bit digits side by side. -/
lemma toNat_shl64_or {x y : U128} (hy : y.toNat < 2 ^ 64) :
    ((x <<< 64) ||| y).toNat = x.toNat % 2 ^ 64 * 2 ^ 64 + y.toNat := by
  rw [BitVec.toNat_or, toNat_shl64, ← Nat.shiftLeft_eq, Nat.shiftLeft_add_eq_or_of_lt hy]

/-- **Addition is exact or fails.** -/
theorem checkedAdd_eq_some {a b c : Quantity} :
    a.checkedAdd b = some c ↔ c.toNat = a.toNat + b.toNat := by
  have ha := a.low.isLt
  have hb := b.low.isLt
  have hc := c.low.isLt
  have hsum : (a.low + b.low).toNat
      + (decide (2 ^ 128 ≤ a.low.toNat + b.low.toNat)).toNat * 2 ^ 128
        = a.low.toNat + b.low.toNat := by
    rw [BitVec.toNat_add]
    by_cases h : 2 ^ 128 ≤ a.low.toNat + b.low.toNat
    · simp only [h, decide_true, Bool.toNat_true]; omega
    · simp only [h, decide_false, Bool.toNat_false]; omega
  simp only [checkedAdd, U128.overflowingAdd, Option.bind_eq_bind, Option.bind_eq_some_iff,
    U128.checkedAdd_eq_some, U128.toNat_ofBool, Option.some.injEq]
  constructor
  · rintro ⟨h, hh, h', hh', rfl⟩
    simp only [toNat]
    omega
  · intro hn
    have hlow : (a.low + b.low).toNat = c.low.toNat := by
      unfold toNat at hn
      have := (a.low + b.low).isLt
      cases hcar : decide (2 ^ 128 ≤ a.low.toNat + b.low.toNat) <;>
        simp only [hcar, Bool.toNat_true, Bool.toNat_false] at hsum <;> omega
    refine ⟨BitVec.ofNat 128 (a.high.toNat + b.high.toNat), ?_, c.high, ?_, ?_⟩
    · rw [BitVec.toNat_ofNat]
      have := c.high.isLt
      unfold toNat at hn
      omega
    · rw [BitVec.toNat_ofNat]
      have := c.high.isLt
      unfold toNat at hn
      omega
    · exact toNat_inj (by simp only [toNat, hlow])

/-- **Subtraction is exact or fails.** -/
theorem checkedSub_eq_some {a b c : Quantity} :
    a.checkedSub b = some c ↔ c.toNat + b.toNat = a.toNat := by
  have ha := a.low.isLt
  have hb := b.low.isLt
  have hc := c.low.isLt
  unfold checkedSub
  split_ifs with hz
  · rw [isZero_iff] at hz
    rw [Option.some.injEq, hz, Nat.add_zero]
    exact ⟨fun h => h ▸ rfl, fun h => (toNat_inj h).symm⟩
  · have hdiff : (a.low - b.low).toNat + b.low.toNat
        = a.low.toNat + (decide (a.low.toNat < b.low.toNat)).toNat * 2 ^ 128 := by
      rw [BitVec.toNat_sub]
      by_cases h : a.low.toNat < b.low.toNat
      · simp only [h, decide_true, Bool.toNat_true]; omega
      · simp only [h, decide_false, Bool.toNat_false]; omega
    simp only [U128.overflowingSub, Option.bind_eq_bind, Option.bind_eq_some_iff,
      U128.checkedAdd_eq_some, U128.checkedSub_eq_some, U128.toNat_ofBool, Option.some.injEq]
    constructor
    · rintro ⟨h, hh, h', hh', rfl⟩
      simp only [toNat]
      omega
    · intro hn
      have hlow : (a.low - b.low).toNat = c.low.toNat := by
        unfold toNat at hn
        have := (a.low - b.low).isLt
        cases hbor : decide (a.low.toNat < b.low.toNat) <;>
          simp only [hbor, Bool.toNat_true, Bool.toNat_false] at hdiff <;> omega
      refine ⟨BitVec.ofNat 128 (b.high.toNat + (decide (a.low.toNat < b.low.toNat)).toNat),
        ?_, c.high, ?_, ?_⟩
      · rw [BitVec.toNat_ofNat]
        have := a.high.isLt
        unfold toNat at hn
        omega
      · rw [BitVec.toNat_ofNat]
        have := a.high.isLt
        unfold toNat at hn
        omega
      · exact toNat_inj (by simp only [toNat, hlow])

lemma checkedShl64_eq_some {a c : Quantity} :
    a.checkedShl64 = some c ↔ c.toNat = a.toNat * 2 ^ 64 := by
  have hl := a.low.isLt
  have hh := a.high.isLt
  have hc := c.toNat_lt
  have hshift : a.high >>> 64 ≠ 0 ↔ 2 ^ 64 ≤ a.high.toNat := by
    rw [Ne, BitVec.toNat_eq, toNat_shr64]
    simp only [BitVec.ofNat_eq_ofNat, BitVec.toNat_ofNat]
    omega
  unfold checkedShl64
  split_ifs with h
  · rw [hshift] at h
    constructor
    · intro hn; cases hn
    · intro hn; unfold toNat at hn hc; omega
  · rw [hshift] at h
    have hval : (⟨a.high <<< 64 ||| a.low >>> 64, a.low <<< 64⟩ : Quantity).toNat
        = a.toNat * 2 ^ 64 := by
      unfold toNat
      rw [toNat_shl64_or (by rw [toNat_shr64]; omega), toNat_shr64, toNat_shl64]
      omega
    rw [Option.some.injEq]
    exact ⟨fun e => e ▸ hval, fun e => toNat_inj (hval.trans e.symm)⟩

/-- **Multiplication by a `u64` is exact or fails.**  Writing `low = hi · 2^64 + lo`, the two
partial products `lo · rhs` and `hi · rhs` fit 128 bits, and the carry of adding them reassembles
the bits that spilled past bit 128. -/
theorem checkedMulU64_eq_some {a c : Quantity} {rhs : U64} :
    a.checkedMulU64 rhs = some c ↔ c.toNat = a.toNat * rhs.toNat := by
  have hr := rhs.isLt
  have hl := a.low.isLt
  set r := rhs.toNat with hrdef
  set lo := a.low.toNat % 2 ^ 64 with hlo
  set hi := a.low.toNat / 2 ^ 64 with hhi
  have hwid : (rhs.setWidth 128).toNat = r := by
    rw [BitVec.toNat_setWidth, Nat.mod_eq_of_lt (by omega)]
  have hplo : lo * r < 2 ^ 128 := by
    have : lo * r ≤ (2 ^ 64 - 1) * (2 ^ 64 - 1) := Nat.mul_le_mul (by omega) (by omega)
    omega
  have hphi : hi * r < 2 ^ 128 := by
    have : hi * r ≤ (2 ^ 64 - 1) * (2 ^ 64 - 1) := Nat.mul_le_mul (by omega) (by omega)
    omega
  have hsplit : a.low.toNat * r = hi * r * 2 ^ 64 + lo * r := by
    have : a.low.toNat = hi * 2 ^ 64 + lo := by omega
    rw [this]; ring
  have hPlo : ((a.low &&& 0xFFFFFFFFFFFFFFFF#128) * rhs.setWidth 128).toNat = lo * r := by
    rw [BitVec.toNat_mul, toNat_and_mask, hwid, Nat.mod_eq_of_lt hplo]
  have hPhi : ((a.low >>> 64) * rhs.setWidth 128).toNat = hi * r := by
    rw [BitVec.toNat_mul, toNat_shr64, hwid, Nat.mod_eq_of_lt hphi]
  have hsum : ((a.low &&& 0xFFFFFFFFFFFFFFFF#128) * rhs.setWidth 128
        + ((a.low >>> 64) * rhs.setWidth 128) <<< 64).toNat
      + (decide (2 ^ 128 ≤ lo * r + hi * r % 2 ^ 64 * 2 ^ 64)).toNat * 2 ^ 128
        = lo * r + hi * r % 2 ^ 64 * 2 ^ 64 := by
    rw [BitVec.toNat_add, toNat_shl64, hPlo, hPhi]
    by_cases h : 2 ^ 128 ≤ lo * r + hi * r % 2 ^ 64 * 2 ^ 64
    · simp only [h, decide_true, Bool.toNat_true]; omega
    · simp only [h, decide_false, Bool.toNat_false]; omega
  have htot : a.toNat * r = a.high.toNat * r * 2 ^ 128 + a.low.toNat * r := by
    unfold toNat; ring
  simp only [checkedMulU64, U128.overflowingAdd, Option.bind_eq_bind, Option.bind_eq_some_iff,
    U128.checkedAdd_eq_some, U128.checkedMul_eq_some, U128.toNat_ofBool, Option.some.injEq,
    hPlo, hPhi, toNat_shl64, toNat_shr64, hwid]
  rw [htot, hsplit]
  generalize a.high.toNat * r = m at *
  generalize lo * r = pl at *
  generalize hi * r = ph at *
  generalize hL : ((a.low &&& 0xFFFFFFFFFFFFFFFF#128) * rhs.setWidth 128
        + ((a.low >>> 64) * rhs.setWidth 128) <<< 64) = low at *
  have hlow := low.isLt
  have hc1 := c.low.isLt
  have hc2 := c.high.isLt
  constructor
  · rintro ⟨h1, e1, h2, e2, h3, e3, rfl⟩
    simp only [toNat]
    omega
  · intro hn
    have hcl : low.toNat = c.low.toNat := by
      unfold toNat at hn
      cases hcar : decide (2 ^ 128 ≤ pl + ph % 2 ^ 64 * 2 ^ 64) <;>
        simp only [hcar, Bool.toNat_true, Bool.toNat_false] at hsum <;> omega
    refine ⟨BitVec.ofNat 128 m, ?_, BitVec.ofNat 128 (m + ph / 2 ^ 64), ?_, c.high, ?_, ?_⟩
    · rw [BitVec.toNat_ofNat]
      unfold toNat at hn
      omega
    · rw [BitVec.toNat_ofNat, BitVec.toNat_ofNat]
      unfold toNat at hn
      omega
    · rw [BitVec.toNat_ofNat]
      unfold toNat at hn
      omega
    · exact toNat_inj (by simp only [toNat, hcl])

/-- **Multiplication by a `u128` is exact or fails.** -/
theorem checkedMulU128_eq_some {a c : Quantity} {rhs : U128} :
    a.checkedMulU128 rhs = some c ↔ c.toNat = a.toNat * rhs.toNat := by
  have hr := rhs.isLt
  have hc := c.toNat_lt
  unfold checkedMulU128
  have hlo : (rhs.setWidth 64).toNat = rhs.toNat % 2 ^ 64 := BitVec.toNat_setWidth _ _
  have hhi : ((rhs >>> 64).setWidth 64).toNat = rhs.toNat / 2 ^ 64 := by
    rw [BitVec.toNat_setWidth, toNat_shr64, Nat.mod_eq_of_lt (by omega)]
  split_ifs with h
  · rw [checkedMulU64_eq_some, hlo, Nat.mod_eq_of_lt h]
  · have hsplit : a.toNat * rhs.toNat
        = a.toNat * (rhs.toNat % 2 ^ 64) + a.toNat * (rhs.toNat / 2 ^ 64) * 2 ^ 64 := by
      have : rhs.toNat = rhs.toNat % 2 ^ 64 + rhs.toNat / 2 ^ 64 * 2 ^ 64 := by omega
      nth_rewrite 1 [this]
      ring
    simp only [Option.bind_eq_bind, Option.bind_eq_some_iff, checkedMulU64_eq_some,
      checkedShl64_eq_some, checkedAdd_eq_some, hlo, hhi]
    rw [hsplit]
    generalize a.toNat * (rhs.toNat % 2 ^ 64) = x
    generalize a.toNat * (rhs.toNat / 2 ^ 64) = y
    constructor
    · rintro ⟨lo, rfl, hi, rfl, sh, hsh, hn⟩
      omega
    · intro hn
      refine ⟨ofNat x, toNat_ofNat (by omega), ofNat y, toNat_ofNat (by omega),
        ofNat (y * 2 ^ 64), ?_, ?_⟩
      · rw [toNat_ofNat (by omega), toNat_ofNat (by omega)]
      · rw [toNat_ofNat (by omega), toNat_ofNat (by omega)]
        exact hn

/-- One digit of long division: `x · B + y` over `d`, when `x < d`. -/
lemma div_digit {x y d B : ℕ} (hx : x < d) (hy : y < B) : (x * B + y) / d < B := by
  have hd : 0 < d := by omega
  rw [Nat.div_lt_iff_lt_mul hd]
  calc x * B + y < x * B + B := by omega
    _ = (x + 1) * B := by ring
    _ ≤ d * B := Nat.mul_le_mul_right _ hx
    _ = B * d := Nat.mul_comm _ _

/-- **Division by a non-zero `u64` is Euclidean division.** -/
theorem checkedDivRemU64_eq {a : Quantity} {divisor : U64} (hd : divisor.toNat ≠ 0) :
    ∃ q r, a.checkedDivRemU64 divisor = some (q, r) ∧
      q.toNat = a.toNat / divisor.toNat ∧ r.toNat = a.toNat % divisor.toNat := by
  have hdlt := divisor.isLt
  have hne : divisor ≠ 0 := fun h => hd (by rw [h]; rfl)
  have hwid : (divisor.setWidth 128).toNat = divisor.toNat := by
    rw [BitVec.toNat_setWidth, Nat.mod_eq_of_lt (by omega)]
  have hpos : 0 < divisor.toNat := Nat.pos_of_ne_zero hd
  unfold checkedDivRemU64
  rw [if_neg hne]
  simp only
  split_ifs with hz
  · refine ⟨_, _, rfl, ?_, ?_⟩
    · have : a.toNat = a.low.toNat := by unfold toNat; rw [hz]; simp
      rw [this]
      show (0 : U128).toNat * 2 ^ 128 + (a.low / divisor.setWidth 128).toNat = _
      rw [BitVec.toNat_udiv, hwid]
      simp
    · have : a.toNat = a.low.toNat := by unfold toNat; rw [hz]; simp
      rw [this, BitVec.toNat_setWidth, BitVec.toNat_umod, hwid]
      have := Nat.mod_lt a.low.toNat hpos
      exact Nat.mod_eq_of_lt (by omega)
  · refine ⟨_, _, rfl, ?_, ?_⟩
    all_goals
      set d := divisor.toNat with hddef
      have hlow := a.low.isLt
      have hr1 : (a.high % divisor.setWidth 128).toNat = a.high.toNat % d := by
        rw [BitVec.toNat_umod, hwid]
      have hr1lt := Nat.mod_lt a.high.toNat hpos
      have hd2 : ((a.high % divisor.setWidth 128) <<< 64 ||| a.low >>> 64).toNat
          = a.high.toNat % d * 2 ^ 64 + a.low.toNat / 2 ^ 64 := by
        rw [toNat_shl64_or (by rw [toNat_shr64]; omega), hr1, toNat_shr64,
          Nat.mod_eq_of_lt (by omega)]
      generalize hX : (a.high % divisor.setWidth 128) <<< 64 ||| a.low >>> 64 = x at *
      have hr2 : (x % divisor.setWidth 128).toNat = x.toNat % d := by
        rw [BitVec.toNat_umod, hwid]
      have hr2lt := Nat.mod_lt x.toNat hpos
      have hd3 : ((x % divisor.setWidth 128) <<< 64
            ||| (a.low &&& 0xFFFFFFFFFFFFFFFF#128)).toNat
          = x.toNat % d * 2 ^ 64 + a.low.toNat % 2 ^ 64 := by
        rw [toNat_shl64_or (by rw [toNat_and_mask]; omega), hr2, toNat_and_mask,
          Nat.mod_eq_of_lt (by omega)]
      generalize hY : (x % divisor.setWidth 128) <<< 64
          ||| (a.low &&& 0xFFFFFFFFFFFFFFFF#128) = y at *
      have hq2lt : x.toNat / d < 2 ^ 64 := by
        rw [hd2]; exact div_digit hr1lt (by omega)
      have hq3lt : y.toNat / d < 2 ^ 64 := by
        rw [hd3]; exact div_digit hr2lt (by omega)
      have e1 := Nat.div_add_mod a.high.toNat d
      have e2 := Nat.div_add_mod x.toNat d
      have e3 := Nat.div_add_mod y.toNat d
      have hr3lt := Nat.mod_lt y.toNat hpos
      -- the three digit equations combine into one Euclidean division
      have htot : a.toNat
          = d * (a.high.toNat / d * 2 ^ 128 + (x.toNat / d * 2 ^ 64 + y.toNat / d))
            + y.toNat % d := by
        have hlowsplit : a.low.toNat = a.low.toNat / 2 ^ 64 * 2 ^ 64 + a.low.toNat % 2 ^ 64 := by
          omega
        have expand : d * (a.high.toNat / d * 2 ^ 128 + (x.toNat / d * 2 ^ 64 + y.toNat / d))
            = d * (a.high.toNat / d) * 2 ^ 128 + d * (x.toNat / d) * 2 ^ 64
              + d * (y.toNat / d) := by ring
        rw [expand]
        unfold toNat
        omega
    · show (a.high / divisor.setWidth 128).toNat * 2 ^ 128 + _ = _
      rw [toNat_shl64_or (by rw [BitVec.toNat_udiv, hwid]; exact hq3lt), BitVec.toNat_udiv,
        BitVec.toNat_udiv, BitVec.toNat_udiv, hwid, Nat.mod_eq_of_lt hq2lt]
      exact ((Nat.div_mod_unique hpos).mpr ⟨by rw [htot]; ring, hr3lt⟩).1.symm
    · rw [BitVec.toNat_setWidth, BitVec.toNat_umod, hwid, Nat.mod_eq_of_lt (by omega)]
      rw [htot, Nat.mul_add_mod, Nat.mod_mod]

/-- Addition fails exactly when the sum does not fit. -/
lemma checkedAdd_eq_none {a b : Quantity} :
    a.checkedAdd b = none ↔ 2 ^ 256 ≤ a.toNat + b.toNat := by
  constructor
  · intro h
    by_contra hlt
    have := (checkedAdd_eq_some (c := ofNat (a.toNat + b.toNat))).mpr (toNat_ofNat (by omega))
    rw [h] at this
    cases this
  · intro h
    cases hc : a.checkedAdd b with
    | none => rfl
    | some c =>
        have := checkedAdd_eq_some.mp hc
        have := c.toNat_lt
        omega

/-- Subtraction fails exactly when it would go below zero. -/
lemma checkedSub_eq_none {a b : Quantity} : a.checkedSub b = none ↔ a.toNat < b.toNat := by
  constructor
  · intro h
    by_contra hlt
    have hfit : a.toNat - b.toNat < 2 ^ 256 := by have := a.toNat_lt; omega
    have := (checkedSub_eq_some (a := a) (b := b) (c := ofNat (a.toNat - b.toNat))).mpr
      (by rw [toNat_ofNat hfit]; omega)
    rw [h] at this
    cases this
  · intro h
    cases hc : a.checkedSub b with
    | none => rfl
    | some c =>
        have := checkedSub_eq_some.mp hc
        omega

lemma checkedMulU128_eq_none {a : Quantity} {rhs : U128} :
    a.checkedMulU128 rhs = none ↔ 2 ^ 256 ≤ a.toNat * rhs.toNat := by
  constructor
  · intro h
    by_contra hlt
    have := (checkedMulU128_eq_some (c := ofNat (a.toNat * rhs.toNat))).mpr
      (toNat_ofNat (not_le.mp hlt))
    rw [h] at this
    cases this
  · intro h
    cases hc : a.checkedMulU128 rhs with
    | none => rfl
    | some c =>
        have := checkedMulU128_eq_some.mp hc
        have := c.toNat_lt
        omega

lemma checkedAdd_of_lt {a b : Quantity} (h : a.toNat + b.toNat < 2 ^ 256) :
    ∃ c, a.checkedAdd b = some c ∧ c.toNat = a.toNat + b.toNat :=
  ⟨ofNat (a.toNat + b.toNat), checkedAdd_eq_some.mpr (toNat_ofNat h), toNat_ofNat h⟩

lemma checkedSub_of_le {a b : Quantity} (h : b.toNat ≤ a.toNat) :
    ∃ c, a.checkedSub b = some c ∧ c.toNat + b.toNat = a.toNat := by
  cases hc : a.checkedSub b with
  | none => exact absurd (checkedSub_eq_none.mp hc) (not_lt.mpr h)
  | some c => exact ⟨c, rfl, checkedSub_eq_some.mp hc⟩

/-- Truncated subtraction, for the places where the difference is known to exist. -/
def sub (a b : Quantity) : Quantity := (a.checkedSub b).getD zero

lemma checkedSub_eq_sub {a b : Quantity} (h : b.toNat ≤ a.toNat) :
    a.checkedSub b = some (a.sub b) := by
  obtain ⟨c, hc, -⟩ := checkedSub_of_le h
  rw [sub, hc, Option.getD_some]

lemma toNat_sub {a b : Quantity} (h : b.toNat ≤ a.toNat) :
    (a.sub b).toNat = a.toNat - b.toNat := by
  have := checkedSub_eq_some.mp (checkedSub_eq_sub h)
  omega

lemma sub_self (a : Quantity) : a.sub a = zero := by
  rw [eq_zero_iff, toNat_sub le_rfl, Nat.sub_self]

-- From here on a quantity is read through `toNat`.
attribute [irreducible] toNat ofNat

end Quantity

end OisyTrade
