import OisyTrade.Order.Types
import Mathlib

/-!
# The arithmetic is exact

`Quantity` is hand-written limb arithmetic, and `BasisPoint::mul_ceil` recombines two partial
products over it.  The results of the checked operations are characterised in `Order/Quantity`;
what is left is what happens on the way.  A bare `*`, `<<`, `|` or `as u64` of the source wraps or
drops bits silently, so each function with such steps gets a structure with one field per step:
the value the step leaves in its `u128` is the true one, or, where the source drops bits on
purpose, the bits it drops are the ones another step keeps.
-/

namespace OisyTrade

namespace Quantity

/-- The true result of an operation, when 256 bits hold it. -/
def representable (n : ℕ) : Option ℕ := if n < 2 ^ 256 then some n else none

lemma map_toNat_eq_representable {r : Option Quantity} {n : ℕ}
    (h : ∀ c, r = some c ↔ c.toNat = n) : r.map toNat = representable n := by
  unfold representable
  split_ifs with hn
  · rw [(h (ofNat n)).mpr (toNat_ofNat hn), Option.map_some, toNat_ofNat hn]
  · cases hr : r with
    | none => rfl
    | some c =>
        have hc := c.toNat_lt
        rw [(h c).mp hr] at hc
        exact absurd hc hn

/-! ## No step loses bits -/

/-- The steps of `checkedAdd`: the wrapped sum and its carry are the whole sum. -/
structure AddLossless (a b : Quantity) : Prop where
  carried : (U128.overflowingAdd a.low b.low).1.toNat
      + (U128.ofBool (U128.overflowingAdd a.low b.low).2).toNat * 2 ^ 128
    = a.low.toNat + b.low.toNat

/-- The steps of `checkedSub`: the wrapped difference and its borrow are the whole difference. -/
structure SubLossless (a b : Quantity) : Prop where
  borrowed : (U128.overflowingSub a.low b.low).1.toNat + b.low.toNat
    = a.low.toNat + (U128.ofBool (U128.overflowingSub a.low b.low).2).toNat * 2 ^ 128

/-- The steps of `checkedShl64`, past its guard. -/
structure ShlLossless (a : Quantity) : Prop where
  highShifted : a.high >>> 64 = 0 → (a.high <<< 64).toNat = a.high.toNat * 2 ^ 64
  lowSplit : (a.low >>> 64).toNat * 2 ^ 128 + (a.low <<< 64).toNat = a.low.toNat * 2 ^ 64
  joined : ((a.high <<< 64) ||| (a.low >>> 64)).toNat
    = (a.high <<< 64).toNat + (a.low >>> 64).toNat

/-- The steps of `checkedMulU64`, over its own local values. -/
structure MulLossless (rhs : U64) (low wide lowLo lowHi prodLo prodHi : U128) : Prop where
  widened : wide.toNat = rhs.toNat
  halves : lowHi.toNat * 2 ^ 64 + lowLo.toNat = low.toNat
  lowProduct : prodLo.toNat = lowLo.toNat * wide.toNat
  highProduct : prodHi.toNat = lowHi.toNat * wide.toNat
  spilled : (prodHi >>> 64).toNat * 2 ^ 128 + (prodHi <<< 64).toNat = prodHi.toNat * 2 ^ 64
  carried : (U128.overflowingAdd prodLo (prodHi <<< 64)).1.toNat
      + (U128.ofBool (U128.overflowingAdd prodLo (prodHi <<< 64)).2).toNat * 2 ^ 128
    = prodLo.toNat + (prodHi <<< 64).toNat

/-- `checkedMulU64` loses nothing on the way. -/
def MulU64Lossless (a : Quantity) (rhs : U64) : Prop :=
  let wide : U128 := rhs.setWidth 128
  let lowLo := a.low &&& 0xFFFFFFFFFFFFFFFF#128
  let lowHi := a.low >>> 64
  MulLossless rhs a.low wide lowLo lowHi (lowLo * wide) (lowHi * wide)

/-- The casts of `checkedMulU128`: a factor below `2 ^ 64` survives the cast, and any other is the
sum of its two digits. -/
structure MulU128Lossless (a : Quantity) (rhs : U128) : Prop where
  narrow : rhs.toNat < 2 ^ 64 → (rhs.setWidth 64).toNat = rhs.toNat
  digits : ((rhs >>> 64).setWidth 64).toNat * 2 ^ 64 + (rhs.setWidth 64).toNat = rhs.toNat
  low : a.MulU64Lossless (rhs.setWidth 64)
  high : a.MulU64Lossless ((rhs >>> 64).setWidth 64)
  shifted : ∀ hi, a.checkedMulU64 ((rhs >>> 64).setWidth 64) = some hi → hi.ShlLossless

/-- The long division of `checkedDivRemU64`, over its own local values. -/
structure LongDivision (low d r1 lowHi lowLo dividend2 q2 r2 dividend3 q3 r3 : U128) : Prop where
  halves : lowHi.toNat * 2 ^ 64 + lowLo.toNat = low.toNat
  second : dividend2.toNat = r1.toNat * 2 ^ 64 + lowHi.toNat
  third : dividend3.toNat = r2.toNat * 2 ^ 64 + lowLo.toNat
  quotient : ((q2 <<< 64) ||| q3).toNat = q2.toNat * 2 ^ 64 + q3.toNat
  remainder : (r3.setWidth 64).toNat = r3.toNat

/-- `checkedDivRemU64` loses nothing on the way, on the fast path and on the long one. -/
def DivLossless (a : Quantity) (divisor : U64) : Prop :=
  let d : U128 := divisor.setWidth 128
  let r1 := a.high % d
  let lowHi := a.low >>> 64
  let lowLo := a.low &&& 0xFFFFFFFFFFFFFFFF#128
  let dividend2 := (r1 <<< 64) ||| lowHi
  let r2 := dividend2 % d
  let dividend3 := (r2 <<< 64) ||| lowLo
  d.toNat = divisor.toNat ∧ ((a.low % d).setWidth 64).toNat = (a.low % d).toNat ∧
    LongDivision a.low d r1 lowHi lowLo dividend2 (dividend2 / d) r2 dividend3 (dividend3 / d)
      (dividend3 % d)

lemma overflowingAdd_carry (x y : U128) :
    (U128.overflowingAdd x y).1.toNat
        + (U128.ofBool (U128.overflowingAdd x y).2).toNat * 2 ^ 128 = x.toNat + y.toNat := by
  have hx := x.isLt
  have hy := y.isLt
  simp only [U128.overflowingAdd, U128.toNat_ofBool, BitVec.toNat_add]
  by_cases h : 2 ^ 128 ≤ x.toNat + y.toNat
  · simp only [h, decide_true, Bool.toNat_true]
    omega
  · simp only [h, decide_false, Bool.toNat_false]
    omega

lemma overflowingSub_borrow (x y : U128) :
    (U128.overflowingSub x y).1.toNat + y.toNat
      = x.toNat + (U128.ofBool (U128.overflowingSub x y).2).toNat * 2 ^ 128 := by
  have hx := x.isLt
  have hy := y.isLt
  simp only [U128.overflowingSub, U128.toNat_ofBool, BitVec.toNat_sub]
  by_cases h : x.toNat < y.toNat
  · simp only [h, decide_true, Bool.toNat_true]
    omega
  · simp only [h, decide_false, Bool.toNat_false]
    omega

/-- A left shift by 64 drops exactly the bits a right shift by 64 keeps. -/
lemma shr64_shl64 (x : U128) :
    (x >>> 64).toNat * 2 ^ 128 + (x <<< 64).toNat = x.toNat * 2 ^ 64 := by
  rw [toNat_shr64, toNat_shl64]
  omega

lemma halves64 (x : U128) :
    (x >>> 64).toNat * 2 ^ 64 + (x &&& 0xFFFFFFFFFFFFFFFF#128).toNat = x.toNat := by
  rw [toNat_shr64, toNat_and_mask]
  omega

lemma toNat_widen (v : U64) : (v.setWidth 128).toNat = v.toNat := by
  have hv := v.isLt
  rw [BitVec.toNat_setWidth, Nat.mod_eq_of_lt (by omega)]

lemma toNat_narrow {x : U128} (h : x.toNat < 2 ^ 64) : (x.setWidth 64).toNat = x.toNat := by
  rw [BitVec.toNat_setWidth, Nat.mod_eq_of_lt h]

/-- The product of two 64-bit values fits 128 bits. -/
lemma toNat_mul_digits {x y : U128} (hx : x.toNat < 2 ^ 64) (hy : y.toNat < 2 ^ 64) :
    (x * y).toNat = x.toNat * y.toNat := by
  have hle : x.toNat * y.toNat ≤ (2 ^ 64 - 1) * (2 ^ 64 - 1) :=
    Nat.mul_le_mul (by omega) (by omega)
  rw [BitVec.toNat_mul, Nat.mod_eq_of_lt (by omega)]

lemma toNat_shr64_lt (x : U128) : (x >>> 64).toNat < 2 ^ 64 := by
  have hx := x.isLt
  rw [toNat_shr64]
  omega

lemma toNat_and_mask_lt (x : U128) : (x &&& 0xFFFFFFFFFFFFFFFF#128).toNat < 2 ^ 64 := by
  rw [toNat_and_mask]
  omega

/-- Two digits put side by side are their sum. -/
lemma toNat_digits {x y : U128} (hx : x.toNat < 2 ^ 64) (hy : y.toNat < 2 ^ 64) :
    ((x <<< 64) ||| y).toNat = x.toNat * 2 ^ 64 + y.toNat := by
  rw [toNat_shl64_or hy, Nat.mod_eq_of_lt hx]

lemma addLossless (a b : Quantity) : a.AddLossless b := ⟨overflowingAdd_carry a.low b.low⟩

lemma subLossless (a b : Quantity) : a.SubLossless b := ⟨overflowingSub_borrow a.low b.low⟩

lemma shlLossless (a : Quantity) : a.ShlLossless where
  highShifted := by
    intro h
    have hz : (a.high >>> 64).toNat = 0 := by rw [h]; rfl
    have hsum := shr64_shl64 a.high
    omega
  lowSplit := shr64_shl64 a.low
  joined := by rw [toNat_shl64_or (toNat_shr64_lt a.low), toNat_shl64]

lemma mulU64Lossless (a : Quantity) (rhs : U64) : a.MulU64Lossless rhs where
  widened := toNat_widen rhs
  halves := halves64 a.low
  lowProduct := toNat_mul_digits (toNat_and_mask_lt a.low) (by rw [toNat_widen]; exact rhs.isLt)
  highProduct := toNat_mul_digits (toNat_shr64_lt a.low) (by rw [toNat_widen]; exact rhs.isLt)
  spilled := shr64_shl64 _
  carried := overflowingAdd_carry _ _

lemma mulU128Lossless (a : Quantity) (rhs : U128) : a.MulU128Lossless rhs where
  narrow := toNat_narrow
  digits := by
    rw [toNat_narrow (toNat_shr64_lt rhs), toNat_shr64, BitVec.toNat_setWidth]
    omega
  low := a.mulU64Lossless _
  high := a.mulU64Lossless _
  shifted := fun hi _ => hi.shlLossless

lemma divLossless (a : Quantity) {divisor : U64} (hd : divisor ≠ 0) : a.DivLossless divisor := by
  have hpos : 0 < divisor.toNat := by
    rw [Ne, BitVec.toNat_eq] at hd
    exact Nat.pos_of_ne_zero hd
  have hdlt := divisor.isLt
  -- every remainder is below the divisor, hence a 64-bit digit
  have hrem : ∀ x : U128, (x % divisor.setWidth 128).toNat < divisor.toNat := by
    intro x
    rw [BitVec.toNat_umod, toNat_widen]
    exact Nat.mod_lt _ hpos
  have hdigit : ∀ x : U128, (x % divisor.setWidth 128).toNat < 2 ^ 64 :=
    fun x => (hrem x).trans hdlt
  have hnext : ∀ x y : U128, y.toNat < 2 ^ 64 →
      (((x % divisor.setWidth 128) <<< 64 ||| y) / divisor.setWidth 128).toNat < 2 ^ 64 := by
    intro x y hy
    rw [BitVec.toNat_udiv, toNat_widen, toNat_digits (hdigit x) hy]
    exact div_digit (hrem x) hy
  refine ⟨toNat_widen divisor, toNat_narrow (hdigit _), ?_⟩
  constructor
  · exact halves64 a.low
  · exact toNat_digits (hdigit _) (toNat_shr64_lt a.low)
  · exact toNat_digits (hdigit _) (toNat_and_mask_lt a.low)
  · exact toNat_digits (hnext _ _ (toNat_shr64_lt a.low)) (hnext _ _ (toNat_and_mask_lt a.low))
  · exact toNat_narrow (hdigit _)

/-! ## Exactness -/

lemma checkedDivRemU64_zero (a : Quantity) : a.checkedDivRemU64 0 = none := by
  rw [checkedDivRemU64, if_pos rfl]

lemma checkedDivRemU64_eq_none {a : Quantity} {divisor : U64} :
    a.checkedDivRemU64 divisor = none ↔ divisor = 0 := by
  constructor
  · intro h
    by_contra hd
    have hne : divisor.toNat ≠ 0 := fun hz => hd (BitVec.eq_of_toNat_eq hz)
    obtain ⟨q, r, hdiv, -, -⟩ := checkedDivRemU64_eq (a := a) hne
    rw [hdiv] at h
    cases h
  · rintro rfl
    exact checkedDivRemU64_zero a

lemma checkedDivRemU64_euclid {a q : Quantity} {divisor r : U64}
    (h : a.checkedDivRemU64 divisor = some (q, r)) :
    a.toNat = q.toNat * divisor.toNat + r.toNat ∧ r.toNat < divisor.toNat := by
  have hne : divisor.toNat ≠ 0 := by
    intro hz
    have hd : divisor = 0 := BitVec.eq_of_toNat_eq hz
    rw [hd, checkedDivRemU64_zero] at h
    cases h
  obtain ⟨q', r', hdiv, hq, hr⟩ := checkedDivRemU64_eq (a := a) hne
  rw [hdiv] at h
  cases h
  rw [hq, hr]
  exact ⟨(Nat.div_add_mod' _ _).symm, Nat.mod_lt _ (Nat.pos_of_ne_zero hne)⟩

/-- **Quantities are exact 256-bit arithmetic.**  Every checked operation returns the true result
over `ℕ` when it lies in `[0, 2 ^ 256)` and `None` otherwise, division is Euclidean, the order and
the divisibility test are those of `ℕ`, and no step on the way overflows or loses bits. -/
theorem arithmetic_exact (a b : Quantity) (m d : U64) (w : U128) (lot : LotSize) :
    ((a.checkedAdd b).map toNat = representable (a.toNat + b.toNat) ∧ a.AddLossless b) ∧
    ((a.checkedSub b).map toNat
        = (if b.toNat ≤ a.toNat then some (a.toNat - b.toNat) else none) ∧ a.SubLossless b) ∧
    ((a.checkedMulU64 m).map toNat = representable (a.toNat * m.toNat) ∧ a.MulU64Lossless m) ∧
    ((a.checkedMulU128 w).map toNat = representable (a.toNat * w.toNat) ∧ a.MulU128Lossless w) ∧
    (a.checkedShl64.map toNat = representable (a.toNat * 2 ^ 64) ∧ a.ShlLossless) ∧
    (a.checkedDivRemU64 d = none ↔ d = 0) ∧
    (∀ q r, a.checkedDivRemU64 d = some (q, r) →
      a.toNat = q.toNat * d.toNat + r.toNat ∧ r.toNat < d.toNat ∧ a.DivLossless d) ∧
    (a.isMultipleOf lot = true ↔ lot.get.toNat ∣ a.toNat) ∧
    (a.cmp b = compare a.toNat b.toNat) := by
  refine ⟨⟨?_, a.addLossless b⟩, ⟨?_, a.subLossless b⟩, ⟨?_, a.mulU64Lossless m⟩,
    ⟨?_, a.mulU128Lossless w⟩, ⟨?_, a.shlLossless⟩, checkedDivRemU64_eq_none, ?_,
    isMultipleOf_iff, cmp_eq a b⟩
  · exact map_toNat_eq_representable fun c => checkedAdd_eq_some
  · split_ifs with h
    · rw [checkedSub_eq_sub h, Option.map_some, toNat_sub h]
    · rw [checkedSub_eq_none.mpr (not_le.mp h), Option.map_none]
  · exact map_toNat_eq_representable fun c => checkedMulU64_eq_some
  · exact map_toNat_eq_representable fun c => checkedMulU128_eq_some
  · exact map_toNat_eq_representable fun c => checkedShl64_eq_some
  · intro q r h
    obtain ⟨heq, hlt⟩ := checkedDivRemU64_euclid h
    refine ⟨heq, hlt, a.divLossless ?_⟩
    rintro rfl
    rw [checkedDivRemU64_zero] at h
    cases h

end Quantity

/-! ## Fees -/

namespace BasisPoint

lemma ceilNat_eq_ceilDiv (b : BasisPoint) (amount : ℕ) :
    b.ceilNat amount = (amount * b.value) ⌈/⌉ 10000 := by
  rw [Nat.ceilDiv_eq_add_pred_div]
  rfl

lemma ceilNat_mono {b b' : BasisPoint} {n n' : ℕ} (hb : b.value ≤ b'.value) (hn : n ≤ n') :
    b.ceilNat n ≤ b'.ceilNat n' := by
  have hmul : n * b.value ≤ n' * b'.value := Nat.mul_le_mul hn hb
  rw [ceilNat, ceilNat]
  omega

/-- Rounding up twice is at least rounding up once. -/
lemma ceilNat_add_le (b : BasisPoint) (n n' : ℕ) :
    b.ceilNat (n + n') ≤ b.ceilNat n + b.ceilNat n' := by
  rw [ceilNat, ceilNat, ceilNat, Nat.add_mul]
  omega

lemma value_of_new {v : ℕ} {r : BasisPoint} (h : new v = some r) : r.value = v := by
  unfold new at h
  split_ifs at h
  cases h
  rfl

lemma toNat_mulCeil {r : BasisPoint} {a f : Quantity} (h : r.mulCeil a = .ok f) :
    f.toNat = r.ceilNat a.toNat := by
  rw [mulCeil_eq] at h
  cases h
  exact toNat_ofNat_ceilNat r a

/-- **A fee is the exact ceiling of its share.**  For every rate `BasisPoint::new` accepts, the fee
of every amount is computed without a trap and is the ceiling over `ℕ`.  So it never exceeds the
amount, it grows with the amount and with the rate, and charging in parts never charges less. -/
theorem mulCeil_exact {v : ℕ} {r : BasisPoint} (hr : new v = some r) :
    (∀ a, ∃ f, r.mulCeil a = .ok f ∧ f.toNat = (a.toNat * v) ⌈/⌉ 10000 ∧ f.toNat ≤ a.toNat) ∧
    (∀ a b f g, r.mulCeil a = .ok f → r.mulCeil b = .ok g →
      a.toNat ≤ b.toNat → f.toNat ≤ g.toNat) ∧
    (∀ v' r' a f g, new v' = some r' → v ≤ v' → r.mulCeil a = .ok f → r'.mulCeil a = .ok g →
      f.toNat ≤ g.toNat) ∧
    (∀ a b s f g t, a.checkedAdd b = some s → r.mulCeil a = .ok f → r.mulCeil b = .ok g →
      r.mulCeil s = .ok t → t.toNat ≤ f.toNat + g.toNat) := by
  refine ⟨?_, ?_, ?_, ?_⟩
  · intro a
    refine ⟨_, mulCeil_eq r a, ?_, ?_⟩
    · rw [toNat_ofNat_ceilNat, ceilNat_eq_ceilDiv, value_of_new hr]
    · rw [toNat_ofNat_ceilNat]
      exact r.ceilNat_le a.toNat
  · intro a b f g hf hg hab
    rw [toNat_mulCeil hf, toNat_mulCeil hg]
    exact ceilNat_mono le_rfl hab
  · intro v' r' a f g hr' hv hf hg
    rw [toNat_mulCeil hf, toNat_mulCeil hg]
    refine ceilNat_mono ?_ le_rfl
    rw [value_of_new hr, value_of_new hr']
    exact hv
  · intro a b s f g t hs hf hg ht
    rw [toNat_mulCeil hf, toNat_mulCeil hg, toNat_mulCeil ht, Quantity.checkedAdd_eq_some.mp hs]
    exact r.ceilNat_add_le a.toNat b.toNat

/-- A rate of 30 basis points. -/
theorem mulCeil_exact_thirty :
    new 30 = some ⟨30, by decide⟩ ∧
      ∃ f, mulCeil ⟨30, by decide⟩ (Quantity.fromU64 10001) = .ok f ∧
        f.toNat = ((Quantity.fromU64 10001).toNat * 30) ⌈/⌉ 10000 ∧
        f.toNat ≤ (Quantity.fromU64 10001).toNat :=
  ⟨rfl, (mulCeil_exact rfl).1 (Quantity.fromU64 10001)⟩

end BasisPoint

end OisyTrade
