import Mathlib.Data.Prod.Lex
import OisyTrade.Order.Quantity
import OisyTrade.Lib.SortedMap
import OisyTrade.Trap

/-!
# Identifiers, prices and orders

The value types of `ids/mod.rs`, `order/mod.rs`, `order/fees.rs` and `order/fill.rs`.  Types with
a restricted range carry the restriction as a field (`Seq`, `TickSize`, `LotSize`, `BasisPoint`),
so an out-of-range value cannot be built.
-/

namespace OisyTrade

/-! ## Sequences -/

/-- A `Seq<M>`: a `u64` counter, tagged by the family `M` it belongs to. -/
structure Seq (M : Type) where
  val : ℕ
  isLt : val < 2 ^ 64

namespace Seq

variable {M : Type}

lemma val_injective : Function.Injective (Seq.val : Seq M → ℕ) := by
  rintro ⟨a, ha⟩ ⟨b, hb⟩ h
  cases h
  rfl

instance : DecidableEq (Seq M) := fun a b =>
  decidable_of_iff (a.val = b.val) ⟨fun h => val_injective h, fun h => h ▸ rfl⟩

instance : LinearOrder (Seq M) := LinearOrder.lift' Seq.val val_injective

lemma lt_def {a b : Seq M} : a < b ↔ a.val < b.val := Iff.rfl

lemma le_def {a b : Seq M} : a ≤ b ↔ a.val ≤ b.val := Iff.rfl

lemma ext_val {a b : Seq M} (h : a.val = b.val) : a = b := val_injective h

/-- `Seq::ZERO`. -/
def zero : Seq M := ⟨0, by decide⟩

lemma one_lt : 1 < 2 ^ 64 := by decide

lemma max_lt : 2 ^ 64 - 1 < 2 ^ 64 := by decide

/-- `Seq::increment`, which panics at the end of the range. -/
def increment (s : Seq M) (c : Counter) : Except Trap (Seq M) :=
  if h : s.val + 1 < 2 ^ 64 then .ok ⟨s.val + 1, h⟩ else .error (.exhausted c)

/-- `Seq::new(map.len())`: the next id of a stable map that never shrinks. -/
def ofLen (n : ℕ) : Except Trap (Seq M) :=
  if h : n < 2 ^ 64 then .ok ⟨n, h⟩ else .error (.exhausted .stableMap)

/-- The member of the family with number `n`, modulo the range. -/
def wrap (n : ℕ) : Seq M := ⟨n % 2 ^ 64, Nat.mod_lt _ (by decide)⟩

lemma val_wrap {n : ℕ} (h : n < 2 ^ 64) : (wrap n : Seq M).val = n := Nat.mod_eq_of_lt h

@[simp] lemma wrap_val (s : Seq M) : wrap s.val = s := val_injective (val_wrap s.isLt)

@[simp] lemma val_zero : (zero : Seq M).val = 0 := rfl

lemma increment_eq_ok {s t : Seq M} {c : Counter} :
    s.increment c = .ok t ↔ t.val = s.val + 1 := by
  unfold increment
  split_ifs with h
  · rw [Except.ok.injEq]
    exact ⟨fun e => e ▸ rfl, fun e => ext_val e.symm⟩
  · constructor
    · intro e; cases e
    · intro e; have := t.isLt; omega

lemma increment_of_lt {s : Seq M} {c : Counter} (h : s.val + 1 < 2 ^ 64) :
    s.increment c = .ok ⟨s.val + 1, h⟩ := by rw [increment, dif_pos h]

lemma ofLen_eq_ok {n : ℕ} {t : Seq M} : (ofLen n : Except Trap (Seq M)) = .ok t ↔ t.val = n := by
  unfold ofLen
  split_ifs with h
  · rw [Except.ok.injEq]
    exact ⟨fun e => e ▸ rfl, fun e => ext_val e.symm⟩
  · constructor
    · intro e; cases e
    · intro e; have := t.isLt; omega

end Seq

/-- Marker of `OrderBookId`. -/
inductive OrderBookMarker
/-- Marker of `OrderSeq`. -/
inductive OrderSeqMarker
/-- Marker of `FillSeq`. -/
inductive FillSeqMarker
/-- Marker of `UserId`. -/
inductive UserIdMarker
/-- Marker of `InsertionSeq`. -/
inductive InsertionSeqMarker

abbrev OrderBookId := Seq OrderBookMarker
abbrev OrderSeq := Seq OrderSeqMarker
abbrev FillSeq := Seq FillSeqMarker
abbrev UserId := Seq UserIdMarker
abbrev InsertionSeq := Seq InsertionSeqMarker

/-- `CompositeId<A, B>`, ordered by its first component and then by its second. -/
abbrev CompositeId (A B : Type) := A ×ₗ B

/-- The bounds of the ids with one first component leave out the neighbours. -/
lemma CompositeId.range_iff {A M : Type} [LinearOrder A] {a : A} (id : CompositeId A (Seq M)) :
    ((toLex (a, Seq.zero) : CompositeId A (Seq M)) ≤ id ∧
      id ≤ toLex (a, ⟨2 ^ 64 - 1, Seq.max_lt⟩)) ↔ (ofLex id).1 = a := by
  have hlt := (ofLex id).2.isLt
  rw [Prod.Lex.le_iff, Prod.Lex.le_iff, Seq.le_def, Seq.le_def]
  simp only [ofLex_toLex, Seq.zero]
  constructor
  · rintro ⟨hlo | ⟨hlo, -⟩, hhi | ⟨hhi, -⟩⟩
    · exact absurd (hlo.trans hhi) (lt_irrefl _)
    · exact hhi
    · exact hlo.symm
    · exact hhi
  · intro ha
    exact ⟨Or.inr ⟨ha.symm, Nat.zero_le _⟩, Or.inr ⟨ha, by omega⟩⟩

/-- `OrderId`: the book and the sequence number within it. -/
abbrev OrderId := CompositeId OrderBookId OrderSeq

/-- `TradeId`: the order and the fill sequence of the match. -/
abbrev TradeId := CompositeId OrderId FillSeq

namespace OrderId

/-- `OrderId::new`. -/
def new (book : OrderBookId) (seq : OrderSeq) : OrderId := toLex (book, seq)

/-- `OrderId::book_id`. -/
def bookId (id : OrderId) : OrderBookId := (ofLex id).1

/-- `OrderId::seq`. -/
def seq (id : OrderId) : OrderSeq := (ofLex id).2

@[simp] lemma bookId_new (b : OrderBookId) (s : OrderSeq) : (new b s).bookId = b := rfl
@[simp] lemma seq_new (b : OrderBookId) (s : OrderSeq) : (new b s).seq = s := rfl
@[simp] lemma new_eta (id : OrderId) : new id.bookId id.seq = id := rfl

lemma new_inj {b b' : OrderBookId} {s s' : OrderSeq} : new b s = new b' s' ↔ b = b' ∧ s = s' := by
  constructor
  · intro h
    exact ⟨congrArg bookId h, congrArg seq h⟩
  · rintro ⟨rfl, rfl⟩; rfl

end OrderId

namespace TradeId

/-- `TradeId::new`. -/
def new (order : OrderId) (seq : FillSeq) : TradeId := toLex (order, seq)

/-- `TradeId::order_id`. -/
def orderId (id : TradeId) : OrderId := (ofLex id).1

/-- `TradeId::seq`. -/
def seq (id : TradeId) : FillSeq := (ofLex id).2

@[simp] lemma orderId_new (o : OrderId) (s : FillSeq) : (new o s).orderId = o := rfl
@[simp] lemma seq_new (o : OrderId) (s : FillSeq) : (new o s).seq = s := rfl
@[simp] lemma new_eta (id : TradeId) : new id.orderId id.seq = id := rfl

lemma new_inj {o o' : OrderId} {s s' : FillSeq} : new o s = new o' s' ↔ o = o' ∧ s = s' := by
  constructor
  · intro h
    exact ⟨congrArg orderId h, congrArg seq h⟩
  · rintro ⟨rfl, rfl⟩; rfl

end TradeId

/-! ## Principals, tokens and pairs -/

/-- A principal, numbered by its position in the length-then-bytes order that `Principal`
derives.  Principals are only compared, so the number stands for the bytes. -/
structure Principal where
  code : ℕ
deriving DecidableEq, Repr

namespace Principal

lemma code_injective : Function.Injective Principal.code := by
  rintro ⟨a⟩ ⟨b⟩ h
  cases h
  rfl

instance : LinearOrder Principal := LinearOrder.lift' Principal.code code_injective

/-- `Principal::management_canister()`, the empty byte string. -/
def managementCanister : Principal := ⟨0⟩

/-- `Principal::anonymous()`, the one-byte string `0x04`. -/
def anonymous : Principal := ⟨5⟩

end Principal

/-- `TokenId`: the ledger's principal. -/
structure TokenId where
  principal : Principal
deriving DecidableEq, Repr

namespace TokenId

lemma principal_injective : Function.Injective TokenId.principal := by
  rintro ⟨a⟩ ⟨b⟩ h
  cases h
  rfl

instance : LinearOrder TokenId := LinearOrder.lift' TokenId.principal principal_injective

end TokenId

/-- `TokenMetadata`. -/
structure TokenMetadata where
  symbol : String
  decimals : UInt8
deriving DecidableEq, Repr

/-- `PairToken`: the base or the quote token of a pair. -/
inductive PairToken
  | base | quote
deriving DecidableEq, Repr

/-- `TradingPair`. -/
structure TradingPair where
  base : TokenId
  quote : TokenId
deriving DecidableEq, Repr

namespace TradingPair

/-- The pair in the lexicographic order the source derives. -/
def key (p : TradingPair) : TokenId ×ₗ TokenId := toLex (p.base, p.quote)

lemma key_injective : Function.Injective key := by
  rintro ⟨a, b⟩ ⟨c, d⟩ h
  have h' : (a, b) = (c, d) := h
  cases h'
  rfl

instance : LinearOrder TradingPair := LinearOrder.lift' key key_injective

/-- `TradingPair::token`. -/
def token (p : TradingPair) : PairToken → TokenId
  | .base => p.base
  | .quote => p.quote

end TradingPair

/-- A point in time, in nanoseconds. -/
structure Timestamp where
  nanos : U64
deriving DecidableEq, Repr

namespace Timestamp

/-- `Timestamp::EPOCH`, the default. -/
def epoch : Timestamp := ⟨0⟩

instance : Inhabited Timestamp := ⟨epoch⟩

end Timestamp

/-! ## Prices and sizes -/

/-- `TickSize`: a non-zero `u128`. -/
structure TickSize where
  get : U128
  nonzero : get ≠ 0
deriving DecidableEq

/-- `LotSize`: a non-zero `u64`. -/
structure LotSize where
  get : U64
  nonzero : get ≠ 0
deriving DecidableEq

/-- A non-zero `u64`: the scale `10^base_decimals` of a base token. -/
structure BaseScale where
  get : U64
  nonzero : get ≠ 0
deriving DecidableEq

lemma LotSize.pos (l : LotSize) : 0 < l.get.toNat := by
  have := l.nonzero
  rw [Ne, BitVec.toNat_eq] at this
  exact Nat.pos_of_ne_zero this

lemma BaseScale.pos (s : BaseScale) : 0 < s.get.toNat := by
  have := s.nonzero
  rw [Ne, BitVec.toNat_eq] at this
  exact Nat.pos_of_ne_zero this

/-- `Price`: a `u128`. -/
structure Price where
  get : U128
deriving DecidableEq, Repr

namespace Price

/-- The natural number a price stands for. -/
def toNat (p : Price) : ℕ := p.get.toNat

lemma toNat_injective : Function.Injective toNat := by
  rintro ⟨a⟩ ⟨b⟩ h
  exact congrArg Price.mk (BitVec.eq_of_toNat_eq h)

instance : LinearOrder Price := LinearOrder.lift' toNat toNat_injective

lemma lt_def {a b : Price} : a < b ↔ a.toNat < b.toNat := Iff.rfl
lemma le_def {a b : Price} : a ≤ b ↔ a.toNat ≤ b.toNat := Iff.rfl

/-- `Price::is_zero`. -/
def isZero (p : Price) : Bool := p.get = 0

/-- `Price::is_multiple_of`. -/
def isMultipleOf (p : Price) (tick : TickSize) : Bool := p.get.toNat % tick.get.toNat = 0

/-- `Price::checked_sub`. -/
def checkedSub (a b : Price) : Option Price := (U128.checkedSub a.get b.get).map Price.mk

/-- `Price::checked_mul_quantity_scaled`: `price × quantity / base_scale`.  `none` only if the
product overflows 256 bits; a remainder trips the exactness assertion. -/
def checkedMulQuantityScaled (p : Price) (quantity : Quantity) (scale : BaseScale) :
    Except Trap (Option Quantity) :=
  match quantity.checkedMulU128 p.get with
  | none => .ok none
  | some product =>
      match product.checkedDivRemU64 scale.get with
      | none => .ok none
      | some (quote, remainder) => do
          assertBug (remainder = 0) .settlementNotExact
          .ok (some quote)

lemma isZero_iff {p : Price} : p.isZero = true ↔ p.toNat = 0 := by
  rw [isZero, decide_eq_true_eq, BitVec.toNat_eq]
  exact Iff.rfl

lemma isMultipleOf_iff {p : Price} {tick : TickSize} :
    p.isMultipleOf tick = true ↔ tick.get.toNat ∣ p.toNat := by
  rw [isMultipleOf, decide_eq_true_eq, Nat.dvd_iff_mod_eq_zero]
  exact Iff.rfl

lemma checkedSub_eq_some {a b c : Price} :
    a.checkedSub b = some c ↔ c.toNat + b.toNat = a.toNat := by
  rw [checkedSub, Option.map_eq_some_iff]
  constructor
  · rintro ⟨x, hx, rfl⟩
    exact U128.checkedSub_eq_some.mp hx
  · intro h
    exact ⟨c.get, U128.checkedSub_eq_some.mpr h, rfl⟩

lemma checkedSub_of_le {a b : Price} (h : b ≤ a) :
    ∃ c, a.checkedSub b = some c ∧ c.toNat + b.toNat = a.toNat := by
  have hlt := a.get.isLt
  have ha : a.toNat < 2 ^ 128 := hlt
  refine ⟨⟨BitVec.ofNat 128 (a.toNat - b.toNat)⟩, ?_⟩
  have hc : (⟨BitVec.ofNat 128 (a.toNat - b.toNat)⟩ : Price).toNat + b.toNat = a.toNat := by
    rw [toNat, BitVec.toNat_ofNat, Nat.mod_eq_of_lt (by omega)]
    have := le_def.mp h
    omega
  exact ⟨checkedSub_eq_some.mpr hc, hc⟩

/-- A product that fits and divides evenly is the exact quote amount. -/
lemma checkedMulQuantityScaled_of_dvd {p : Price} {q : Quantity} {scale : BaseScale}
    (hlt : p.toNat * q.toNat < 2 ^ 256) (hd : scale.get.toNat ∣ p.toNat * q.toNat) :
    ∃ r : Quantity, p.checkedMulQuantityScaled q scale = .ok (some r) ∧
      r.toNat * scale.get.toNat = p.toNat * q.toNat := by
  have hprod : q.checkedMulU128 p.get = some (Quantity.ofNat (p.toNat * q.toNat)) := by
    rw [Quantity.checkedMulU128_eq_some, Quantity.toNat_ofNat hlt, Nat.mul_comm]
    rfl
  obtain ⟨quote, rem, hdiv, hq, hr⟩ := Quantity.checkedDivRemU64_eq
    (a := Quantity.ofNat (p.toNat * q.toNat)) scale.pos.ne'
  rw [Quantity.toNat_ofNat hlt] at hq hr
  have hrem : rem = 0 := by
    refine BitVec.eq_of_toNat_eq ?_
    rw [hr, Nat.mod_eq_zero_of_dvd hd]
    rfl
  refine ⟨quote, ?_, ?_⟩
  · simp only [checkedMulQuantityScaled, hprod, hdiv, hrem, decide_true, Except.assert_true,
      Except.bind_ok]
  · rw [hq, Nat.div_mul_cancel hd]

/-- `none` is returned exactly when the product does not fit. -/
lemma checkedMulQuantityScaled_of_overflow {p : Price} {q : Quantity} {scale : BaseScale}
    (h : 2 ^ 256 ≤ p.toNat * q.toNat) : p.checkedMulQuantityScaled q scale = .ok none := by
  have hprod : q.checkedMulU128 p.get = none := by
    rw [Quantity.checkedMulU128_eq_none, Nat.mul_comm]
    exact h
  simp only [checkedMulQuantityScaled, hprod]

/-- What a returned amount says about the product. -/
lemma of_checkedMulQuantityScaled {p : Price} {q r : Quantity} {scale : BaseScale}
    (h : p.checkedMulQuantityScaled q scale = .ok (some r)) :
    r.toNat * scale.get.toNat = p.toNat * q.toNat ∧ p.toNat * q.toNat < 2 ^ 256 := by
  cases hprod : q.checkedMulU128 p.get with
  | none =>
      simp only [checkedMulQuantityScaled, hprod] at h
      cases h
  | some product =>
      have hp := Quantity.checkedMulU128_eq_some.mp hprod
      have hp' : product.toNat = p.toNat * q.toNat := by rw [hp, Nat.mul_comm]; rfl
      obtain ⟨quote, rem, hdiv, hq, hr⟩ := Quantity.checkedDivRemU64_eq
        (a := product) scale.pos.ne'
      simp only [checkedMulQuantityScaled, hprod, hdiv, Except.bind_eq_ok,
        Except.assert_eq_ok, decide_eq_true_eq] at h
      obtain ⟨_, hrem, hok⟩ := h
      cases hok
      have hmod : product.toNat % scale.get.toNat = 0 := by rw [← hr, hrem]; rfl
      refine ⟨?_, hp' ▸ product.toNat_lt⟩
      rw [hq, Nat.div_mul_cancel (Nat.dvd_of_mod_eq_zero hmod), hp']

end Price

/-- `Quantity::is_multiple_of`. -/
def Quantity.isMultipleOf (q : Quantity) (lot : LotSize) : Bool :=
  if q.high = 0 then q.low.toNat % lot.get.toNat = 0
  else
    match q.checkedDivRemU64 lot.get with
    | some (_, remainder) => remainder = 0
    | none => false

lemma Quantity.isMultipleOf_iff {q : Quantity} {lot : LotSize} :
    q.isMultipleOf lot = true ↔ lot.get.toNat ∣ q.toNat := by
  rw [Nat.dvd_iff_mod_eq_zero, Quantity.isMultipleOf]
  split_ifs with h
  · have hq : q.toNat = q.low.toNat := by simp [Quantity.toNat, h]
    rw [hq, decide_eq_true_eq]
  · obtain ⟨quote, rem, hdiv, -, hr⟩ := Quantity.checkedDivRemU64_eq
      (a := q) lot.pos.ne'
    simp only [hdiv, decide_eq_true_eq]
    rw [← hr, BitVec.toNat_eq]
    exact Iff.rfl

/-! ## Sides, statuses and orders -/

/-- `Side`. -/
inductive Side
  | buy | sell
deriving DecidableEq, Repr

/-- The other side of the book. -/
def Side.opposite : Side → Side
  | .buy => .sell
  | .sell => .buy

/-- `TimeInForce`. -/
inductive TimeInForce
  | goodTilCanceled | fillOrKill
deriving DecidableEq, Repr

/-- `OrderStatus`. -/
inductive OrderStatus
  | pending | open | filled | canceled | expired
deriving DecidableEq, Repr

/-- `PendingOrder`: a validated request before it gets a sequence number. -/
structure PendingOrder where
  side : Side
  price : Price
  quantity : Quantity
  timeInForce : TimeInForce
deriving DecidableEq

/-- `Order`. -/
structure Order where
  id : OrderSeq
  side : Side
  price : Price
  remainingQuantity : Quantity
  timeInForce : TimeInForce
deriving DecidableEq

/-- `RestingOrder`: side and price are implied by the level it rests at. -/
structure RestingOrder where
  id : OrderSeq
  remainingQuantity : Quantity
  timeInForce : TimeInForce
deriving DecidableEq

/-- `PendingOrder::into_order`. -/
def PendingOrder.intoOrder (p : PendingOrder) (id : OrderSeq) : Order :=
  { id, side := p.side, price := p.price, remainingQuantity := p.quantity,
    timeInForce := p.timeInForce }

/-- `From<Order> for RestingOrder`. -/
def RestingOrder.ofOrder (o : Order) : RestingOrder :=
  { id := o.id, remainingQuantity := o.remainingQuantity, timeInForce := o.timeInForce }

/-- `RestingOrder::to_order`. -/
def RestingOrder.toOrder (r : RestingOrder) (side : Side) (price : Price) : Order :=
  { id := r.id, side, price, remainingQuantity := r.remainingQuantity,
    timeInForce := r.timeInForce }

/-- `Order::reduce_quantity`. -/
def Order.reduceQuantity (o : Order) (amount : Quantity) : Except Trap Order := do
  let remaining ← expectBug (o.remainingQuantity.checkedSub amount) .reduceBelowZero
  .ok { o with remainingQuantity := remaining }

/-- `RestingOrder::reduce_quantity`. -/
def RestingOrder.reduceQuantity (r : RestingOrder) (amount : Quantity) :
    Except Trap RestingOrder := do
  let remaining ← expectBug (r.remainingQuantity.checkedSub amount) .reduceBelowZero
  .ok { r with remainingQuantity := remaining }

/-! ## Fees and fills -/

/-- `BasisPoint`: at most `10_000`. -/
structure BasisPoint where
  value : ℕ
  le : value ≤ 10000
deriving DecidableEq

namespace BasisPoint

/-- `BasisPoint::new`. -/
def new (value : ℕ) : Option BasisPoint := if h : value ≤ 10000 then some ⟨value, h⟩ else none

/-- `BasisPoint::mul_ceil`: `ceil(amount × self / 10_000)`, computed on the quotient and the
remainder of `amount` by `10_000` so that no intermediate product overflows. -/
def mulCeil (b : BasisPoint) (amount : Quantity) : Except Trap Quantity :=
  if b.value = 0 ∨ amount = Quantity.zero then .ok Quantity.zero
  else if b.value = 10000 then .ok amount
  else do
    let bps : U64 := BitVec.ofNat 64 b.value
    let (q, r) ← expectBug (amount.checkedDivRemU64 10000) .divisionByZero
    let main ← expectBug (q.checkedMulU64 bps) .feeProductOverflow
    let remNum ← expectBug
      (if r.toNat * bps.toNat < 2 ^ 64 then some (r * bps) else none) .feeRemainderOverflow
    let remCeil : U64 := BitVec.ofNat 64 ((remNum.toNat + 9999) / 10000)
    expectBug (main.checkedAdd (Quantity.fromU64 remCeil)) .feeSumOverflow

/-- The rounded-up fee over `ℕ`. -/
def ceilNat (b : BasisPoint) (amount : ℕ) : ℕ := (amount * b.value + 9999) / 10000

lemma ceilNat_le (b : BasisPoint) (amount : ℕ) : b.ceilNat amount ≤ amount := by
  have hle : amount * b.value ≤ amount * 10000 := Nat.mul_le_mul_left _ b.le
  rw [ceilNat]
  omega

/-- Splitting the amount at a multiple of `10_000` splits the rounded-up fee. -/
lemma ceilNat_split (b : BasisPoint) (amount : ℕ) :
    b.ceilNat amount
      = amount / 10000 * b.value + (amount % 10000 * b.value + 9999) / 10000 := by
  have hsplit : amount * b.value + 9999
      = 10000 * (amount / 10000 * b.value) + (amount % 10000 * b.value + 9999) := by
    have hd : amount = 10000 * (amount / 10000) + amount % 10000 := by omega
    calc amount * b.value + 9999
        = (10000 * (amount / 10000) + amount % 10000) * b.value + 9999 := by rw [← hd]
      _ = 10000 * (amount / 10000 * b.value) + (amount % 10000 * b.value + 9999) := by ring
  rw [ceilNat, hsplit, Nat.mul_add_div (by norm_num)]

/-- The share of the remainder of the division by `10_000` fits 64 bits. -/
lemma remainder_share_lt {r v : ℕ} (hr : r < 10000) (hv : v ≤ 10000) :
    (r * v + 9999) / 10000 < 2 ^ 64 ∧ r * v < 2 ^ 64 := by
  have h : r * v ≤ r * 10000 := Nat.mul_le_mul_left _ hv
  omega

lemma toNat_bps (b : BasisPoint) : (BitVec.ofNat 64 b.value).toNat = b.value := by
  rw [BitVec.toNat_ofNat, Nat.mod_eq_of_lt (by have := b.le; omega)]

lemma checkedMulU64_bps {b : BasisPoint} {q : Quantity} (h : q.toNat * 10000 < 2 ^ 256) :
    q.checkedMulU64 (BitVec.ofNat 64 b.value) = some (Quantity.ofNat (q.toNat * b.value)) := by
  have hqb : q.toNat * b.value ≤ q.toNat * 10000 := Nat.mul_le_mul_left _ b.le
  rw [Quantity.checkedMulU64_eq_some, toNat_bps, Quantity.toNat_ofNat (by omega)]

/-- The last addition of `mul_ceil` is the rounded-up fee. -/
lemma checkedAdd_shares {b : BasisPoint} {amount q : Quantity} {r : U64}
    (hq : q.toNat = amount.toNat / 10000) (hr : r.toNat = amount.toNat % 10000) :
    (Quantity.ofNat (q.toNat * b.value)).checkedAdd (Quantity.fromU64
        (BitVec.ofNat 64 (((r * BitVec.ofNat 64 b.value).toNat + 9999) / 10000)))
      = some (Quantity.ofNat (b.ceilNat amount.toNat)) := by
  have hlt := amount.toNat_lt
  have hle := b.ceilNat_le amount.toNat
  have hrlt : r.toNat < 10000 := by omega
  have hmul : (r * BitVec.ofNat 64 b.value).toNat = r.toNat * b.value := by
    rw [BitVec.toNat_mul, toNat_bps, Nat.mod_eq_of_lt (remainder_share_lt hrlt b.le).2]
  have hsum : b.ceilNat amount.toNat
      = q.toNat * b.value + (r.toNat * b.value + 9999) / 10000 := by
    rw [ceilNat_split, hq, hr]
  rw [Quantity.checkedAdd_eq_some, Quantity.toNat_ofNat (by omega),
    Quantity.toNat_ofNat (by omega), hmul, Quantity.toNat_fromU64, BitVec.toNat_ofNat,
    Nat.mod_eq_of_lt (remainder_share_lt hrlt b.le).1, hsum]

/-- **The fee never traps** and is the rounded-up share of the amount. -/
theorem mulCeil_eq (b : BasisPoint) (amount : Quantity) :
    b.mulCeil amount = .ok (Quantity.ofNat (b.ceilNat amount.toNat)) := by
  have hlt := amount.toNat_lt
  by_cases h0 : b.value = 0 ∨ amount = Quantity.zero
  · have hz : b.ceilNat amount.toNat = 0 := by
      rcases h0 with h0 | h0
      · simp [ceilNat, h0]
      · simp [ceilNat, h0]
    rw [mulCeil, if_pos h0, hz, ← Quantity.toNat_zero, Quantity.ofNat_toNat]
  by_cases h1 : b.value = 10000
  · have hfull : b.ceilNat amount.toNat = amount.toNat := by rw [ceilNat, h1]; omega
    rw [mulCeil, if_neg h0, if_pos h1, hfull, Quantity.ofNat_toNat]
  · obtain ⟨q, r, hdiv, hq, hr⟩ := Quantity.checkedDivRemU64_eq
      (a := amount) (show (10000 : U64).toNat ≠ 0 by simp)
    have h10 : (10000 : U64).toNat = 10000 := by simp
    rw [h10] at hq hr
    have hrcond : r.toNat * (BitVec.ofNat 64 b.value).toNat < 2 ^ 64 := by
      rw [toNat_bps]
      exact (remainder_share_lt (by omega) b.le).2
    rw [mulCeil, if_neg h0, if_neg h1]
    simp only [hdiv, Except.expect_some, Except.bind_ok,
      checkedMulU64_bps (b := b) (q := q) (by omega), if_pos hrcond, checkedAdd_shares hq hr]

lemma toNat_ofNat_ceilNat (b : BasisPoint) (amount : Quantity) :
    (Quantity.ofNat (b.ceilNat amount.toNat)).toNat = b.ceilNat amount.toNat :=
  Quantity.toNat_ofNat (lt_of_le_of_lt (b.ceilNat_le _) amount.toNat_lt)

end BasisPoint

/-- `FeeRates`. -/
structure FeeRates where
  maker : BasisPoint
  taker : BasisPoint
deriving DecidableEq

/-- `Fill`: one match of an incoming order against a resting one. -/
structure Fill where
  fillSeq : FillSeq
  takerOrderSeq : OrderSeq
  takerSide : Side
  takerPrice : Price
  makerOrderSeq : OrderSeq
  makerPrice : Price
  quantity : Quantity
deriving DecidableEq

end OisyTrade
