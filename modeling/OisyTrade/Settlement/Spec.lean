import OisyTrade.Settlement.Basic
import OisyTrade.Order.Effect

/-!
# What settling amounts to

The numbers behind `settlement/mod.rs`.  `FillSettlement.Spec` gives the notional, the fees and the
price improvement of a fill, `Spec.takenFrom` says that a fill takes from each of its two orders
exactly the reservation of the traded quantity, and `of_fromMatching` reads a round of matching as
one unit per fill and per killed order, with the sums of the fills in the order updates.
-/

namespace OisyTrade

/-- The token an order reserves. -/
def reserveToken : Side → PairToken
  | .buy => .quote
  | .sell => .base

/-- What an order of this side and price reserves for a quantity. -/
def reservation (side : Side) (price : Price) (scale : BaseScale) (q : ℕ) : ℕ :=
  match side with
  | .buy => price.toNat * q / scale.get.toNat
  | .sell => q

/-- What an order of this side receives for a quantity and its notional. -/
def received (side : Side) (q notional : ℕ) : ℕ :=
  match side with
  | .buy => q
  | .sell => notional

/-- The amount an operation takes from an order's reservation. -/
def BalanceOperation.taken (seq : OrderSeq) (token : PairToken) : BalanceOperation → ℕ
  | transfer fromOrder _ tok amount _ => if fromOrder = seq ∧ tok = token then amount.toNat else 0
  | unreserve order tok amount => if order = seq ∧ tok = token then amount.toNat else 0

/-- The amount a list of operations takes from an order's reservation. -/
def takenFrom (ops : List BalanceOperation) (seq : OrderSeq) (token : PairToken) : ℕ :=
  (ops.map (·.taken seq token)).sum

lemma takenFrom_append (ops ops' : List BalanceOperation) (seq : OrderSeq) (token : PairToken) :
    takenFrom (ops ++ ops') seq token = takenFrom ops seq token + takenFrom ops' seq token := by
  rw [takenFrom, List.map_append, List.sum_append]
  rfl

@[simp] lemma takenFrom_nil (seq : OrderSeq) (token : PairToken) : takenFrom [] seq token = 0 := rfl

lemma takenFrom_flatMap {α : Type} (f : α → List BalanceOperation) (l : List α) (seq : OrderSeq)
    (token : PairToken) :
    takenFrom (l.flatMap f) seq token = (l.map fun a => takenFrom (f a) seq token).sum := by
  induction l with
  | nil => rfl
  | cons a l ih => rw [List.flatMap_cons, takenFrom_append, ih, List.map_cons, List.sum_cons]

/-! ## One fill -/

/-- The numbers of a fill. -/
structure FillSettlement.Spec (f : Fill) (rates : FeeRates) (scale : BaseScale)
    (s : FillSettlement) : Prop where
  fill : s.fill = f
  feeRates : s.feeRates = rates
  notional : s.notional.toNat * scale.get.toNat = f.makerPrice.toNat * f.quantity.toNat
  takerFee : s.takerFee.toNat
    = rates.taker.ceilNat (received f.takerSide f.quantity.toNat s.notional.toNat)
  makerFee : s.makerFee.toNat
    = rates.maker.ceilNat (received f.takerSide.opposite f.quantity.toNat s.notional.toNat)
  surplus : s.surplus.toNat * scale.get.toNat = match f.takerSide with
    | .buy => (f.takerPrice.toNat - f.makerPrice.toNat) * f.quantity.toNat
    | .sell => 0

/-- What `fees` returns. -/
lemma of_fees {makerPrice : Price} {quantity n tf mf : Quantity} {takerSide : Side}
    {rates : FeeRates} {scale : BaseScale}
    (h : fees makerPrice quantity takerSide rates scale = .ok (n, tf, mf)) :
    n.toNat * scale.get.toNat = makerPrice.toNat * quantity.toNat ∧
      tf.toNat = rates.taker.ceilNat (received takerSide quantity.toNat n.toNat) ∧
      mf.toNat = rates.maker.ceilNat (received takerSide.opposite quantity.toNat n.toNat) := by
  cases takerSide with
  | buy =>
      simp only [fees, Except.bind_eq_ok, Except.expect_eq_ok, BasisPoint.mulCeil_eq,
        Except.ok.injEq, Prod.mk.injEq] at h
      obtain ⟨o, ho, n', rfl, q, rfl, b, rfl, rfl, rfl, rfl⟩ := h
      exact ⟨(Price.of_checkedMulQuantityScaled ho).1, BasisPoint.toNat_ofNat_ceilNat _ _,
        BasisPoint.toNat_ofNat_ceilNat _ _⟩
  | sell =>
      simp only [fees, Except.bind_eq_ok, Except.expect_eq_ok, BasisPoint.mulCeil_eq,
        Except.ok.injEq, Prod.mk.injEq] at h
      obtain ⟨o, ho, n', rfl, q, rfl, b, rfl, rfl, rfl, rfl⟩ := h
      exact ⟨(Price.of_checkedMulQuantityScaled ho).1, BasisPoint.toNat_ofNat_ceilNat _ _,
        BasisPoint.toNat_ofNat_ceilNat _ _⟩

/-- `fees` returns when the notional fits and is exact. -/
lemma fees_returns {makerPrice : Price} {quantity : Quantity} (takerSide : Side)
    (rates : FeeRates) {scale : BaseScale} (hlt : makerPrice.toNat * quantity.toNat < 2 ^ 256)
    (hd : scale.get.toNat ∣ makerPrice.toNat * quantity.toNat) :
    ∃ r, fees makerPrice quantity takerSide rates scale = .ok r := by
  obtain ⟨n, hn, -⟩ := Price.checkedMulQuantityScaled_of_dvd hlt hd
  cases takerSide with
  | buy =>
      simp only [fees, hn, Except.bind_ok, Except.expect_some, BasisPoint.mulCeil_eq]
      exact ⟨_, rfl⟩
  | sell =>
      simp only [fees, hn, Except.bind_ok, Except.expect_some, BasisPoint.mulCeil_eq]
      exact ⟨_, rfl⟩

namespace FillSettlement

variable {f : Fill} {rates : FeeRates} {scale : BaseScale} {s : FillSettlement}

lemma of_surplusOf {q : Quantity} (h : surplusOf f scale = .ok q) :
    q.toNat * scale.get.toNat = match f.takerSide with
      | .buy => (f.takerPrice.toNat - f.makerPrice.toNat) * f.quantity.toNat
      | .sell => 0 := by
  rw [surplusOf] at h
  cases hside : f.takerSide with
  | sell =>
      rw [hside] at h
      cases h
      simp
  | buy =>
      rw [hside] at h
      simp only at h ⊢
      cases hsub : f.takerPrice.checkedSub f.makerPrice with
      | none =>
          rw [hsub] at h
          cases h
          have hle : f.takerPrice.toNat ≤ f.makerPrice.toNat := by
            by_contra hlt
            obtain ⟨c, hc, -⟩ := Price.checkedSub_of_le (a := f.takerPrice) (b := f.makerPrice)
              (Price.le_def.mpr (by omega))
            rw [hsub] at hc
            cases hc
          rw [Quantity.toNat_zero, Nat.sub_eq_zero_of_le hle]
          simp
      | some diff =>
          have hd := Price.checkedSub_eq_some.mp hsub
          rw [hsub] at h
          simp only at h
          split_ifs at h with hz
          · cases h
            have h0 := Price.isZero_iff.mp hz
            rw [Quantity.toNat_zero, show f.takerPrice.toNat - f.makerPrice.toNat = 0 by omega]
            simp
          · simp only [Except.bind_eq_ok, Except.expect_eq_ok] at h
            obtain ⟨o, ho, rfl⟩ := h
            rw [(Price.of_checkedMulQuantityScaled ho).1,
              show f.takerPrice.toNat - f.makerPrice.toNat = diff.toNat by omega]

/-- The notional is the product that was computed. -/
lemma notional_of_new (h : new f rates scale = .ok s) :
    f.makerPrice.checkedMulQuantityScaled f.quantity scale = .ok (some s.notional) := by
  simp only [new, Except.bind_eq_ok, Prod.exists, Except.ok.injEq] at h
  obtain ⟨n, tf, mf, hfees, q, -, rfl⟩ := h
  cases hside : f.takerSide <;>
    simp only [hside, fees, Except.bind_eq_ok, Except.expect_eq_ok, Except.ok.injEq,
      Prod.mk.injEq] at hfees
  all_goals
    obtain ⟨_, hmul, _, rfl, _, -, _, -, rfl, -, -⟩ := hfees
    exact hmul

/-- **The numbers of a computed settlement.** -/
theorem of_new (h : new f rates scale = .ok s) : s.Spec f rates scale := by
  simp only [new, Except.bind_eq_ok, Except.ok.injEq] at h
  obtain ⟨⟨n, tf, mf⟩, hfees, q, hq, rfl⟩ := h
  obtain ⟨h1, h2, h3⟩ := of_fees hfees
  exact ⟨rfl, rfl, h1, h2, h3, of_surplusOf hq⟩

/-- A fill between exactly priced orders can be settled. -/
theorem new_returns (rates : FeeRates) (hlt : f.makerPrice.toNat * f.quantity.toNat < 2 ^ 256)
    (hd : scale.get.toNat ∣ f.makerPrice.toNat * f.quantity.toNat)
    (hbuy : f.takerSide = .buy → f.takerPrice.toNat * f.quantity.toNat < 2 ^ 256 ∧
      scale.get.toNat ∣ f.takerPrice.toNat * f.quantity.toNat) :
    ∃ s, new f rates scale = .ok s := by
  obtain ⟨⟨n, tf, mf⟩, hfees⟩ := fees_returns f.takerSide rates hlt hd
  have hsur : ∃ q, surplusOf f scale = .ok q := by
    rw [surplusOf]
    cases hside : f.takerSide with
    | sell => exact ⟨_, rfl⟩
    | buy =>
        simp only
        cases hsub : f.takerPrice.checkedSub f.makerPrice with
        | none => exact ⟨_, rfl⟩
        | some diff =>
            simp only
            split_ifs with hz
            · exact ⟨_, rfl⟩
            · have hdiff := Price.checkedSub_eq_some.mp hsub
              obtain ⟨hlt', hd'⟩ := hbuy hside
              have hmul : diff.toNat * f.quantity.toNat + f.makerPrice.toNat * f.quantity.toNat
                  = f.takerPrice.toNat * f.quantity.toNat := by
                rw [← Nat.add_mul, hdiff]
              obtain ⟨r, hr, -⟩ := Price.checkedMulQuantityScaled_of_dvd (p := diff)
                (q := f.quantity) (by omega)
                ((Nat.dvd_add_left hd).mp (hmul ▸ hd'))
              simp only [hr, Except.bind_ok, Except.expect_some]
              exact ⟨r, rfl⟩
  obtain ⟨q, hq⟩ := hsur
  simp only [new, hfees, hq, Except.bind_ok]
  exact ⟨_, rfl⟩

/-- The unit of a fill. -/
def unit (s : FillSettlement) : SettlementUnit := ⟨s.balanceOperations, some s.fillEvent⟩

lemma Spec.notional_eq (h : s.Spec f rates scale) :
    s.notional.toNat = f.makerPrice.toNat * f.quantity.toNat / scale.get.toNat := by
  rw [← h.notional, Nat.mul_div_cancel _ scale.pos]

/-- **A fill takes from its two orders the reservations of what they trade**, and nothing else. -/
theorem Spec.takenFrom (h : s.Spec f rates scale)
    (hcross : f.takerSide.crosses f.takerPrice f.makerPrice = true) (seq : OrderSeq)
    (token : PairToken) :
    OisyTrade.takenFrom s.balanceOperations seq token
      = (if f.takerOrderSeq = seq ∧ reserveToken f.takerSide = token then
          reservation f.takerSide f.takerPrice scale f.quantity.toNat else 0)
      + (if f.makerOrderSeq = seq ∧ reserveToken f.takerSide.opposite = token then
          reservation f.takerSide.opposite f.makerPrice scale f.quantity.toNat else 0) := by
  have hn := h.notional_eq
  have hs := h.surplus
  have hz : ∀ seq' : OrderSeq, OisyTrade.takenFrom (if s.surplus.isZero then []
      else [BalanceOperation.unreserve s.fill.takerOrderSeq .quote s.surplus]) seq' token
      = if s.fill.takerOrderSeq = seq' ∧ PairToken.quote = token then s.surplus.toNat else 0 := by
    intro seq'
    by_cases hz : s.surplus.isZero = true
    · rw [if_pos hz, Quantity.isZero_iff.mp hz, ite_self]
      rfl
    · rw [if_neg hz]
      exact List.sum_singleton
  rw [balanceOperations, takenFrom_append, takenFrom_append, hz, h.fill]
  have hone : ∀ op : BalanceOperation, OisyTrade.takenFrom [op] seq token = op.taken seq token :=
    fun op => List.sum_singleton
  cases hside : f.takerSide with
  | buy =>
      rw [hside] at hs hcross
      simp only [Side.crosses, decide_eq_true_eq] at hcross
      have hle := Price.le_def.mp hcross
      have htotal : s.notional.toNat + s.surplus.toNat
          = f.takerPrice.toNat * f.quantity.toNat / scale.get.toNat := by
        have hmul : (s.notional.toNat + s.surplus.toNat) * scale.get.toNat
            = f.takerPrice.toNat * f.quantity.toNat := by
          rw [Nat.add_mul, h.notional, hs, ← Nat.add_mul, Nat.add_sub_cancel' hle]
        rw [← hmul, Nat.mul_div_cancel _ scale.pos]
      simp only [hone, BalanceOperation.taken, reserveToken, reservation, Side.opposite, ← htotal]
      by_cases ht : f.takerOrderSeq = seq <;> by_cases hm : f.makerOrderSeq = seq <;>
        cases token <;> simp [ht, hm]
  | sell =>
      rw [hside] at hs
      have hs0 : s.surplus.toNat = 0 := by
        have hpos := scale.pos
        rcases Nat.mul_eq_zero.mp hs with h0 | h0
        · exact h0
        · omega
      simp only [hone, BalanceOperation.taken, reserveToken, reservation, Side.opposite, ← hn, hs0]
      by_cases ht : f.takerOrderSeq = seq <;> by_cases hm : f.makerOrderSeq = seq <;>
        cases token <;> simp [ht, hm]

end FillSettlement

/-! ## One removed order -/

namespace RemovedOrderSettlement

variable {seq : OrderSeq} {removed : RemovedOrder} {scale : BaseScale}
  {s : RemovedOrderSettlement}

/-- The unit of a removed order. -/
def unit (s : RemovedOrderSettlement) : SettlementUnit := ⟨s.balanceOperations, none⟩

/-- **A removed order gets its reservation back.** -/
theorem of_new (h : new seq removed scale = .ok s) :
    s.orderSeq = seq ∧ s.token = reserveToken removed.side ∧
      s.amount.toNat
        = reservation removed.side removed.price scale removed.remainingQuantity.toNat ∧
      (removed.side = .buy → s.amount.toNat * scale.get.toNat
        = removed.price.toNat * removed.remainingQuantity.toNat) := by
  rw [new] at h
  cases hside : removed.side with
  | sell =>
      rw [hside] at h
      cases h
      exact ⟨rfl, rfl, rfl, fun he => by cases he⟩
  | buy =>
      rw [hside] at h
      simp only [Except.bind_eq_ok, Except.expect_eq_ok, Except.ok.injEq] at h
      obtain ⟨o, ho, amount, rfl, rfl⟩ := h
      have hmul := (Price.of_checkedMulQuantityScaled ho).1
      refine ⟨rfl, rfl, ?_, fun _ => hmul⟩
      rw [reservation, ← hmul, Nat.mul_div_cancel _ scale.pos]

theorem new_returns (hbuy : removed.side = .buy →
      removed.price.toNat * removed.remainingQuantity.toNat < 2 ^ 256 ∧
      scale.get.toNat ∣ removed.price.toNat * removed.remainingQuantity.toNat) :
    ∃ s, new seq removed scale = .ok s := by
  rw [new]
  cases hside : removed.side with
  | sell => exact ⟨_, rfl⟩
  | buy =>
      obtain ⟨hlt, hd⟩ := hbuy hside
      obtain ⟨r, hr, -⟩ := Price.checkedMulQuantityScaled_of_dvd hlt hd
      simp only [hr, Except.bind_ok, Except.expect_some]
      exact ⟨_, rfl⟩

lemma takenFrom (s : RemovedOrderSettlement) (seq : OrderSeq) (token : PairToken) :
    OisyTrade.takenFrom s.balanceOperations seq token
      = if s.orderSeq = seq ∧ s.token = token then s.amount.toNat else 0 := List.sum_singleton

end RemovedOrderSettlement

/-! ## The columns of a record -/

/-- The three cumulative columns of an order record, which are also those of a trade record. -/
inductive Column
  | quantity | quote | fee
deriving DecidableEq

/-- The cumulative amounts of an order. -/
def OrderRecord.filled (r : OrderRecord) : Column → ℕ
  | .quantity => r.filledQuantity.toNat
  | .quote => r.filledQuote.toNat
  | .fee => r.filledFee.toNat

/-- What an update adds. -/
def OrderUpdate.delta (u : OrderUpdate) : Column → ℕ
  | .quantity => u.filledDelta.toNat
  | .quote => u.quoteDelta.toNat
  | .fee => u.feeDelta.toNat

lemma OrderUpdate.delta_default (c : Column) : default.delta c = 0 := by
  cases c <;> exact Quantity.toNat_zero

/-- The amounts of a trade. -/
def TradeRecord.amount (r : TradeRecord) : Column → ℕ
  | .quantity => r.quantity.toNat
  | .quote => r.notional.toNat
  | .fee => r.fee.toNat

lemma OrderUpdate.Applied.filled {u : OrderUpdate} {r r' : OrderRecord} (h : u.Applied r r')
    (c : Column) : r'.filled c = r.filled c + u.delta c := by
  cases c with
  | quantity => exact h.filledQuantity
  | quote => exact h.filledQuote
  | fee => exact h.filledFee

namespace FillSettlement

/-- The taker's leg. -/
def takerLeg (s : FillSettlement) (bookId : OrderBookId) (timestamp : Timestamp) : TradeLeg :=
  (TradeId.new (OrderId.new bookId s.fill.takerOrderSeq) s.fill.fillSeq,
    { side := s.fill.takerSide, price := s.fill.makerPrice, quantity := s.fill.quantity,
      notional := s.notional, fee := s.takerFee, feeToken := feeToken s.fill.takerSide,
      isMaker := false, timestamp })

/-- The maker's leg. -/
def makerLeg (s : FillSettlement) (bookId : OrderBookId) (timestamp : Timestamp) : TradeLeg :=
  (TradeId.new (OrderId.new bookId s.fill.makerOrderSeq) s.fill.fillSeq,
    { side := s.fill.takerSide.opposite, price := s.fill.makerPrice, quantity := s.fill.quantity,
      notional := s.notional, fee := s.makerFee, feeToken := feeToken s.fill.takerSide.opposite,
      isMaker := true, timestamp })

/-- **Rebuilt legs are the legs of the match.** -/
theorem tradeLegs_fillEvent {f : Fill} {rates : FeeRates} {scale : BaseScale} {s : FillSettlement}
    (h : new f rates scale = .ok s) (bookId : OrderBookId) (timestamp : Timestamp) :
    s.fillEvent.tradeLegs bookId f.takerSide f.makerPrice scale timestamp
      = .ok (s.takerLeg bookId timestamp, s.makerLeg bookId timestamp) := by
  simp only [new, Except.bind_eq_ok, Except.ok.injEq] at h
  obtain ⟨⟨n, tf, mf⟩, hfees, q, -, rfl⟩ := h
  simp only [FillEvent.tradeLegs, fillEvent, hfees, Except.bind_ok]
  rfl

/-- The amounts of the taker. -/
def takerAmount (s : FillSettlement) : Column → ℕ
  | .quantity => s.fill.quantity.toNat
  | .quote => s.notional.toNat
  | .fee => s.takerFee.toNat

/-- The amounts of the maker. -/
def makerAmount (s : FillSettlement) : Column → ℕ
  | .quantity => s.fill.quantity.toNat
  | .quote => s.notional.toNat
  | .fee => s.makerFee.toNat

/-- What a fill adds to the record of the order `seq`. -/
def share (s : FillSettlement) (seq : OrderSeq) (c : Column) : ℕ :=
  (if s.fill.makerOrderSeq = seq then s.makerAmount c else 0)
    + (if s.fill.takerOrderSeq = seq then s.takerAmount c else 0)

lemma amount_takerLeg (s : FillSettlement) (bookId : OrderBookId) (timestamp : Timestamp)
    (c : Column) : (s.takerLeg bookId timestamp).2.amount c = s.takerAmount c := by cases c <;> rfl

lemma amount_makerLeg (s : FillSettlement) (bookId : OrderBookId) (timestamp : Timestamp)
    (c : Column) : (s.makerLeg bookId timestamp).2.amount c = s.makerAmount c := by cases c <;> rfl

end FillSettlement

/-- What a list of fills adds to the record of the order `seq`. -/
def shares (l : List FillSettlement) (seq : OrderSeq) (c : Column) : ℕ :=
  (l.map fun s => s.share seq c).sum

/-! ## Order updates -/

/-- The update of an order, which is the default one if the map has none. -/
def updateOf (updates : SortedMap OrderSeq OrderUpdate) (seq : OrderSeq) : OrderUpdate :=
  (updates.get seq).getD .default

/-- `u'` adds `d` more than `u` and is otherwise the same. -/
structure OrderUpdate.Added (d : Column → ℕ) (u u' : OrderUpdate) : Prop where
  status : u'.status = u.status
  canceledBy : u'.canceledBy = u.canceledBy
  delta : ∀ c, u'.delta c = u.delta c + d c

lemma OrderUpdate.Added.refl (u : OrderUpdate) : Added (fun _ => 0) u u :=
  ⟨rfl, rfl, fun _ => rfl⟩

lemma OrderUpdate.Added.trans {d d' : Column → ℕ} {u u' u'' : OrderUpdate} (h : Added d u u')
    (h' : Added d' u' u'') : Added (fun c => d c + d' c) u u'' :=
  ⟨h'.status.trans h.status, h'.canceledBy.trans h.canceledBy, fun c => by
    rw [h'.delta, h.delta, Nat.add_assoc]⟩

namespace FillSettlement

variable {s : FillSettlement} {updates updates' : SortedMap OrderSeq OrderUpdate}

/-- The amounts `accrue_fill` adds for a party that pays `fee`. -/
def amountWith (s : FillSettlement) (fee : Quantity) : Column → ℕ
  | .quantity => s.fill.quantity.toNat
  | .quote => s.notional.toNat
  | .fee => fee.toNat

lemma accrueOrder_eq_ok {orderSeq : OrderSeq} {fee : Quantity}
    (h : s.accrueOrder updates orderSeq fee = .ok updates') (seq : OrderSeq) :
    (updateOf updates seq).Added (fun c => if orderSeq = seq then s.amountWith fee c else 0)
        (updateOf updates' seq) ∧
      ((updates'.get seq).isSome → orderSeq = seq ∨ (updates.get seq).isSome) := by
  simp only [accrueOrder, Except.bind_eq_ok, Except.expect_eq_ok, Quantity.checkedAdd_eq_some,
    Except.ok.injEq] at h
  obtain ⟨q, hq, n, hn, f, hf, rfl⟩ := h
  by_cases hs : orderSeq = seq
  · subst hs
    rw [updateOf, updateOf, SortedMap.get_insert_self, Option.getD_some]
    refine ⟨⟨rfl, rfl, fun c => ?_⟩, fun _ => Or.inl rfl⟩
    rw [if_pos rfl]
    cases c with
    | quantity => exact hq
    | quote => exact hn
    | fee => exact hf
  · simp only [updateOf, SortedMap.get_insert_of_ne _ _ hs, if_neg hs]
    exact ⟨OrderUpdate.Added.refl _, Or.inr⟩

/-- An accrual that fits goes through. -/
lemma accrueOrder_returns {orderSeq : OrderSeq} {fee : Quantity}
    (h : ∀ c, (updateOf updates orderSeq).delta c + s.amountWith fee c < 2 ^ 256) :
    ∃ updates', s.accrueOrder updates orderSeq fee = .ok updates' := by
  obtain ⟨_, h1, -⟩ := Quantity.checkedAdd_of_lt (h .quantity)
  obtain ⟨_, h2, -⟩ := Quantity.checkedAdd_of_lt (h .quote)
  obtain ⟨_, h3, -⟩ := Quantity.checkedAdd_of_lt (h .fee)
  rw [updateOf] at h1 h2 h3
  simp only [accrueOrder, h1, h2, h3, Except.expect_some, Except.bind_ok]
  exact ⟨_, rfl⟩

/-- **What accruing a fill does to every update.** -/
lemma accrueFill_eq_ok (h : s.accrueFill updates = .ok updates') (seq : OrderSeq) :
    (updateOf updates seq).Added (s.share seq) (updateOf updates' seq) ∧
      ((updates'.get seq).isSome → s.fill.involves seq = true ∨ (updates.get seq).isSome) := by
  simp only [accrueFill, Except.bind_eq_ok] at h
  obtain ⟨mid, hmid, hlast⟩ := h
  obtain ⟨h1, h1'⟩ := accrueOrder_eq_ok hmid seq
  obtain ⟨h2, h2'⟩ := accrueOrder_eq_ok hlast seq
  refine ⟨?_, fun hsome => ?_⟩
  · have h3 := h1.trans h2
    have hshare : (fun c => (if s.fill.makerOrderSeq = seq then s.amountWith s.makerFee c else 0)
        + if s.fill.takerOrderSeq = seq then s.amountWith s.takerFee c else 0)
        = s.share seq := by
      funext c
      cases c <;> rfl
    rwa [hshare] at h3
  · rcases h2' hsome with ht | hm
    · exact Or.inl (by simp [Fill.involves, ht])
    · rcases h1' hm with hm | hold
      · exact Or.inl (by simp [Fill.involves, hm])
      · exact Or.inr hold

/-- An accrual that fits goes through. -/
lemma accrueFill_returns
    (h : ∀ seq c, (updateOf updates seq).delta c + s.share seq c < 2 ^ 256) :
    ∃ updates', s.accrueFill updates = .ok updates' := by
  have hm : ∀ c, (updateOf updates s.fill.makerOrderSeq).delta c + s.amountWith s.makerFee c
      < 2 ^ 256 := by
    intro c
    have := h s.fill.makerOrderSeq c
    rw [share, if_pos rfl] at this
    have hc : s.amountWith s.makerFee c = s.makerAmount c := by cases c <;> rfl
    omega
  obtain ⟨mid, hmid⟩ := accrueOrder_returns hm
  have ht : ∀ c, (updateOf mid s.fill.takerOrderSeq).delta c + s.amountWith s.takerFee c
      < 2 ^ 256 := by
    intro c
    have hadd := (accrueOrder_eq_ok hmid s.fill.takerOrderSeq).1.delta c
    have := h s.fill.takerOrderSeq c
    rw [share, if_pos (rfl : s.fill.takerOrderSeq = s.fill.takerOrderSeq)] at this
    have hc : s.amountWith s.takerFee c = s.takerAmount c := by cases c <;> rfl
    have hc' : s.amountWith s.makerFee c = s.makerAmount c := by cases c <;> rfl
    rw [hadd, hc, hc']
    omega
  obtain ⟨last, hlast⟩ := accrueOrder_returns ht
  refine ⟨last, ?_⟩
  simp only [accrueFill, hmid, Except.bind_ok]
  exact hlast

end FillSettlement

/-! ## Packing -/

/-- The batch of a group of units. -/
def batchOf (group : List SettlementUnit) : SettlementBatch :=
  { balanceOperations := group.flatMap (·.balanceOperations)
    fills := group.flatMap (·.fill.toList) }

lemma batchOf_addUnit (group : List SettlementUnit) (unit : SettlementUnit) :
    (batchOf group).addUnit unit = batchOf (group ++ [unit]) := by
  simp [batchOf, SettlementBatch.addUnit]

/-- Groups cut at `cap`: all are full but the last, which is neither empty nor overfull. -/
structure CutAt (cap : ℕ) (groups : List (List SettlementUnit)) : Prop where
  full : ∀ group ∈ groups.dropLast, group.length = cap
  bounded : ∀ group ∈ groups, 0 < group.length ∧ group.length ≤ cap

/-- The loop of the packer: the flushed groups are full, the counter is the size of the current
one, and no unit is lost. -/
lemma packUnit_foldl (cap : ℕ) (units : List SettlementUnit) :
    ∀ (groups : List (List SettlementUnit)) (current : List SettlementUnit),
      (∀ group ∈ groups, group.length = cap) → (0 < cap → current.length ≤ cap) →
      ∃ (groups' : List (List SettlementUnit)) (current' : List SettlementUnit),
        units.foldl (packUnit cap) ⟨groups.map batchOf, batchOf current, current.length⟩
          = ⟨groups'.map batchOf, batchOf current', current'.length⟩ ∧
        groups'.flatten ++ current' = groups.flatten ++ current ++ units ∧
        (∀ group ∈ groups', group.length = cap) ∧ (0 < cap → current'.length ≤ cap) := by
  induction units with
  | nil =>
      intro groups current hfull hcurrent
      exact ⟨groups, current, rfl, by simp, hfull, hcurrent⟩
  | cons unit units ih =>
      intro groups current hfull hcurrent
      rw [List.foldl_cons]
      by_cases hn : current.length = cap
      · have hstep : packUnit cap ⟨groups.map batchOf, batchOf current, current.length⟩ unit
            = ⟨(groups ++ [current]).map batchOf, batchOf [unit], [unit].length⟩ := by
          rw [packUnit, if_pos hn]
          have : SettlementBatch.empty.addUnit unit = batchOf [unit] := batchOf_addUnit [] unit
          simp [this]
        have hfull' : ∀ group ∈ groups ++ [current], group.length = cap := by
          intro group hgroup
          rcases List.mem_append.mp hgroup with hgroup | hgroup
          · exact hfull group hgroup
          · rw [List.mem_singleton.mp hgroup]
            exact hn
        rw [hstep]
        obtain ⟨g', c', h1, h2, h3⟩ := ih (groups ++ [current]) [unit] hfull' fun hcap => hcap
        exact ⟨g', c', h1, by rw [h2]; simp, h3⟩
      · have hstep : packUnit cap ⟨groups.map batchOf, batchOf current, current.length⟩ unit
            = ⟨groups.map batchOf, batchOf (current ++ [unit]), (current ++ [unit]).length⟩ := by
          rw [packUnit, if_neg hn]
          simp [batchOf_addUnit]
        have hcurrent' : 0 < cap → (current ++ [unit]).length ≤ cap := by
          intro hcap
          have := hcurrent hcap
          rw [List.length_append, List.length_singleton]
          omega
        rw [hstep]
        obtain ⟨g', c', h1, h2, h3⟩ := ih groups (current ++ [unit]) hfull hcurrent'
        exact ⟨g', c', h1, by rw [h2]; simp, h3⟩

/-- **Packing only groups**: the batches are those of a partition of the units into runs, cut at
the cap. -/
theorem packSettlementUnits_groups {units : List SettlementUnit} (cap : ℕ)
    (hne : ∀ u ∈ units, u.balanceOperations ≠ []) :
    ∃ groups : List (List SettlementUnit), groups.flatten = units ∧
      packSettlementUnits units cap = groups.map batchOf ∧ (0 < cap → CutAt cap groups) := by
  have hstart : ∀ group ∈ ([] : List (List SettlementUnit)), group.length = cap := by simp
  obtain ⟨groups, current, hfold, hflat, hfull, hcurrent⟩ :=
    packUnit_foldl cap units [] [] hstart fun _ => Nat.zero_le cap
  have hfold' : units.foldl (packUnit cap) ⟨[], SettlementBatch.empty, 0⟩
      = ⟨groups.map batchOf, batchOf current, current.length⟩ := hfold
  have hflat' : groups.flatten ++ current = units := by simpa using hflat
  rw [packSettlementUnits, hfold']
  simp only
  by_cases hempty : (batchOf current).isEmpty = true
  · rw [if_pos hempty]
    have hcur : current = [] := by
      cases current with
      | nil => rfl
      | cons u rest =>
          have hu := hne u (hflat' ▸ List.mem_append_right _ List.mem_cons_self)
          simp [batchOf, SettlementBatch.isEmpty, hu] at hempty
    refine ⟨groups, by simpa [hcur] using hflat', rfl, fun hcap => ⟨?_, ?_⟩⟩
    · intro group hgroup
      exact hfull group (List.dropLast_subset groups hgroup)
    · intro group hgroup
      rw [hfull group hgroup]
      exact ⟨hcap, le_rfl⟩
  · rw [if_neg hempty]
    have hpos : 0 < current.length := by
      refine List.length_pos_iff.mpr ?_
      rintro rfl
      exact hempty rfl
    refine ⟨groups ++ [current], by simpa using hflat', by simp, fun hcap => ⟨?_, ?_⟩⟩
    · rw [List.dropLast_concat]
      exact hfull
    · intro group hgroup
      rcases List.mem_append.mp hgroup with hgroup | hgroup
      · rw [hfull group hgroup]
        exact ⟨hcap, le_rfl⟩
      · rw [List.mem_singleton.mp hgroup]
        exact ⟨hpos, hcurrent hcap⟩

/-! ## A round of matching -/

/-- The status a round of matching gives an order: the last loop wins. -/
def MatchingOutput.statusOf (output : MatchingOutput) (seq : OrderSeq) : Option OrderStatus :=
  if output.expiredOrders.contains seq then some .expired
  else if output.filledOrders.contains seq then some .filled
  else if output.restingOrders.contains seq then some .open
  else none

namespace MatchSettlement

variable {updates updates' : SortedMap OrderSeq OrderUpdate} {status : OrderStatus}

lemma setStatus_foldl (keys : List OrderSeq) :
    ∀ (updates : SortedMap OrderSeq OrderUpdate) (seq : OrderSeq),
      updateOf (keys.foldl (setStatus status) updates) seq
          = (if seq ∈ keys then { updateOf updates seq with status := some status }
            else updateOf updates seq) ∧
        (((keys.foldl (setStatus status) updates).get seq).isSome →
          seq ∈ keys ∨ (updates.get seq).isSome) := by
  induction keys with
  | nil =>
      intro updates seq
      simp
  | cons k keys ih =>
      intro updates seq
      rw [List.foldl_cons]
      obtain ⟨h1, h2⟩ := ih (setStatus status updates k) seq
      rw [h1]
      by_cases hk : k = seq
      · subst hk
        have hup : updateOf (setStatus status updates k) k
            = { updateOf updates k with status := some status } := by
          rw [updateOf, setStatus, SortedMap.get_insert_self, Option.getD_some]
          rfl
        refine ⟨?_, fun _ => Or.inl List.mem_cons_self⟩
        rw [hup, if_pos List.mem_cons_self]
        split_ifs <;> rfl
      · have hget : (setStatus status updates k).get seq = updates.get seq :=
          SortedMap.get_insert_of_ne _ _ hk
        have hup : updateOf (setStatus status updates k) seq = updateOf updates seq := by
          rw [updateOf, updateOf, hget]
        rw [hup]
        rw [hget] at h2
        refine ⟨?_, fun hsome => (h2 hsome).imp_left (List.mem_cons_of_mem k)⟩
        by_cases hm : seq ∈ keys
        · rw [if_pos hm, if_pos (List.mem_cons_of_mem k hm)]
        · have hm' : seq ∉ k :: keys := by
            rw [List.mem_cons]
            exact not_or.mpr ⟨Ne.symm hk, hm⟩
          rw [if_neg hm, if_neg hm']

/-- **What a round of matching is turned into.** -/
structure Spec (output : MatchingOutput) (rates : FeeRates) (scale : BaseScale)
    (fills : List FillSettlement) (refunds : List RemovedOrderSettlement) (m : MatchSettlement) :
    Prop where
  settled : List.Forall₂ (fun f s => FillSettlement.new f rates scale = .ok s) output.fills fills
  refunded : List.Forall₂ (fun e r => RemovedOrderSettlement.new e.1 e.2 scale = .ok r)
    output.expiredOrders.entries refunds
  batches : ∃ groups : List (List SettlementUnit),
    groups.flatten = fills.map FillSettlement.unit ++ refunds.map RemovedOrderSettlement.unit ∧
      m.settlingBatches = groups.map batchOf
  status : ∀ seq, (updateOf m.orderUpdates seq).status = output.statusOf seq
  canceledBy : ∀ seq, (updateOf m.orderUpdates seq).canceledBy = none
  delta : ∀ seq c, (updateOf m.orderUpdates seq).delta c = shares fills seq c
  updated : ∀ seq, (m.orderUpdates.get seq).isSome →
    (∃ f ∈ output.fills, f.involves seq = true) ∨ (output.statusOf seq).isSome

/-- The state of the fill loop. -/
lemma addFill_foldlM {rates : FeeRates} {scale : BaseScale} :
    ∀ {fills : List Fill} {updates : SortedMap OrderSeq OrderUpdate} {units : List SettlementUnit}
      {updates' : SortedMap OrderSeq OrderUpdate} {units' : List SettlementUnit},
      fills.foldlM (addFill rates scale) (updates, units) = .ok (updates', units') →
      ∃ settlements : List FillSettlement,
        List.Forall₂ (fun f s => FillSettlement.new f rates scale = .ok s) fills settlements ∧
        units' = units ++ settlements.map FillSettlement.unit ∧
        ∀ seq, (updateOf updates seq).Added (shares settlements seq) (updateOf updates' seq) ∧
          ((updates'.get seq).isSome →
            (∃ f ∈ fills, f.involves seq = true) ∨ (updates.get seq).isSome)
  | [], updates, units, updates', units', h => by
      cases h
      refine ⟨[], List.Forall₂.nil, by simp, fun seq => ⟨OrderUpdate.Added.refl _, Or.inr⟩⟩
  | f :: fills, updates, units, updates', units', h => by
      rw [List.foldlM_cons] at h
      simp only [addFill, Except.bind_eq_ok, Except.ok.injEq, Prod.exists, Prod.mk.injEq] at h
      obtain ⟨_, _, ⟨s, hs, mid, hmid, rfl, rfl⟩, hrest⟩ := h
      obtain ⟨settlements, h1, h2, h3⟩ := addFill_foldlM hrest
      have hfill := (FillSettlement.of_new hs).fill
      refine ⟨s :: settlements, List.Forall₂.cons hs h1, ?_, fun seq => ?_⟩
      · rw [h2, List.map_cons]
        simp [FillSettlement.unit]
      · obtain ⟨ha, hb⟩ := FillSettlement.accrueFill_eq_ok hmid seq
        obtain ⟨hc, hd⟩ := h3 seq
        refine ⟨?_, fun hsome => ?_⟩
        · have hsum : (fun c => s.share seq c + shares settlements seq c)
              = shares (s :: settlements) seq := by
            funext c
            rw [shares, shares, List.map_cons, List.sum_cons]
          exact hsum ▸ ha.trans hc
        · rcases hd hsome with ⟨f', hf', hinv⟩ | hmid
          · exact Or.inl ⟨f', List.mem_cons_of_mem _ hf', hinv⟩
          · refine (hb hmid).imp_left fun hinv => ⟨f, List.mem_cons_self, ?_⟩
            rw [← hfill]
            exact hinv

/-- The state of the loop over the killed orders. -/
lemma addExpired_foldlM {scale : BaseScale} :
    ∀ {entries : List (OrderSeq × RemovedOrder)} {units units' : List SettlementUnit},
      entries.foldlM (addExpired scale) units = .ok units' →
      ∃ refunds : List RemovedOrderSettlement,
        List.Forall₂ (fun e r => RemovedOrderSettlement.new e.1 e.2 scale = .ok r) entries refunds ∧
        units' = units ++ refunds.map RemovedOrderSettlement.unit
  | [], units, units', h => by
      cases h
      exact ⟨[], List.Forall₂.nil, by simp⟩
  | e :: entries, units, units', h => by
      rw [List.foldlM_cons] at h
      simp only [addExpired, Except.bind_eq_ok, Except.ok.injEq] at h
      obtain ⟨_, ⟨r, hr, rfl⟩, hrest⟩ := h
      obtain ⟨refunds, h1, h2⟩ := addExpired_foldlM hrest
      refine ⟨r :: refunds, List.Forall₂.cons hr h1, ?_⟩
      rw [h2, List.map_cons]
      simp [RemovedOrderSettlement.unit]

lemma unit_ops_ne_nil (fills : List FillSettlement) (refunds : List RemovedOrderSettlement)
    {u : SettlementUnit} (hu : u ∈ fills.map FillSettlement.unit
      ++ refunds.map RemovedOrderSettlement.unit) : u.balanceOperations ≠ [] := by
  rcases List.mem_append.mp hu with hu | hu
  · obtain ⟨s, -, rfl⟩ := List.mem_map.mp hu
    simp [FillSettlement.unit, FillSettlement.balanceOperations]
  · obtain ⟨r, -, rfl⟩ := List.mem_map.mp hu
    simp [RemovedOrderSettlement.unit, RemovedOrderSettlement.balanceOperations]

/-- **`from_matching` meets its specification.** -/
theorem of_fromMatching {output : MatchingOutput} {rates : FeeRates} {scale : BaseScale} {cap : ℕ}
    {m : MatchSettlement} (h : fromMatching output rates scale cap = .ok m) :
    ∃ fills refunds, m.Spec output rates scale fills refunds := by
  simp only [fromMatching, Except.bind_eq_ok, Except.ok.injEq, Prod.exists] at h
  obtain ⟨updates, units, hfills, units', hexp, rfl⟩ := h
  obtain ⟨fills, hf1, hf2, hf3⟩ := addFill_foldlM hfills
  obtain ⟨refunds, hr1, hr2⟩ := addExpired_foldlM hexp
  have hunits : units' = fills.map FillSettlement.unit
      ++ refunds.map RemovedOrderSettlement.unit := by rw [hr2, hf2, List.nil_append]
  have hmem : ∀ (set : SortedSet OrderSeq) (seq : OrderSeq),
      seq ∈ set.keys ↔ set.contains seq = true := fun set seq => set.mem_keys_iff
  have hmem' : ∀ seq, seq ∈ output.expiredOrders.keys ↔ output.expiredOrders.contains seq = true :=
    fun seq => output.expiredOrders.mem_keys_iff
  refine ⟨fills, refunds, ⟨hf1, hr1, ?_, fun seq => ?_, fun seq => ?_, fun seq c => ?_,
    fun seq hsome => ?_⟩⟩
  · obtain ⟨groups, hg1, hg2, -⟩ := packSettlementUnits_groups cap
      fun u hu => unit_ops_ne_nil fills refunds (hunits ▸ hu)
    exact ⟨groups, hg1.trans hunits, hg2⟩
  · have hs : (updateOf updates seq).status = none := (hf3 seq).1.status
    simp only [(setStatus_foldl _ _ _).1, hmem, hmem', MatchingOutput.statusOf]
    split_ifs <;> first | rfl | exact hs
  · have hc : (updateOf updates seq).canceledBy = none := (hf3 seq).1.canceledBy
    simp only [(setStatus_foldl _ _ _).1]
    split_ifs <;> exact hc
  · have hd := (hf3 seq).1.delta c
    have h0 : (updateOf SortedMap.empty seq).delta c = 0 := OrderUpdate.delta_default c
    rw [h0, Nat.zero_add] at hd
    rw [← hd]
    have hsame : ∀ (u : OrderUpdate) (st : OrderStatus),
        ({ u with status := some st } : OrderUpdate).delta c = u.delta c := by
      intro u st
      cases c <;> rfl
    simp only [(setStatus_foldl _ _ _).1]
    split_ifs <;> simp only [hsame]
  · rw [MatchingOutput.statusOf]
    rcases (setStatus_foldl _ _ seq).2 hsome with h1 | h1
    · exact Or.inr (by simp [(hmem' seq).mp h1])
    rcases (setStatus_foldl _ _ seq).2 h1 with h2 | h2
    · exact Or.inr (by simp only [(hmem _ seq).mp h2]; split_ifs <;> rfl)
    rcases (setStatus_foldl _ _ seq).2 h2 with h3 | h3
    · exact Or.inr (by simp only [(hmem _ seq).mp h3]; split_ifs <;> rfl)
    rcases (hf3 seq).2 h3 with h4 | h4
    · exact Or.inl h4
    · cases h4

lemma shares_cons (s : FillSettlement) (settlements : List FillSettlement) (seq : OrderSeq)
    (c : Column) : shares (s :: settlements) seq c = s.share seq c + shares settlements seq c := by
  rw [shares, shares, List.map_cons, List.sum_cons]

lemma addFill_foldlM_returns {rates : FeeRates} {scale : BaseScale} :
    ∀ {fills : List Fill} {settlements : List FillSettlement}
      {updates : SortedMap OrderSeq OrderUpdate} (units : List SettlementUnit),
      List.Forall₂ (fun f s => FillSettlement.new f rates scale = .ok s) fills settlements →
      (∀ seq c, (updateOf updates seq).delta c + shares settlements seq c < 2 ^ 256) →
      ∃ r, fills.foldlM (addFill rates scale) (updates, units) = .ok r
  | _, _, updates, units, .nil, _ => ⟨(updates, units), rfl⟩
  | _, _, updates, units, .cons (a := f) (b := s) hs hrest, hlt => by
      have hroom : ∀ seq c, (updateOf updates seq).delta c + s.share seq c < 2 ^ 256 := by
        intro seq c
        have := hlt seq c
        rw [shares_cons] at this
        omega
      obtain ⟨mid, hmid⟩ := FillSettlement.accrueFill_returns hroom
      rw [List.foldlM_cons]
      simp only [addFill, hs, hmid, Except.bind_ok]
      refine addFill_foldlM_returns _ hrest fun seq c => ?_
      have h1 := (FillSettlement.accrueFill_eq_ok hmid seq).1.delta c
      have h2 := hlt seq c
      rw [shares_cons] at h2
      omega

lemma addExpired_foldlM_returns {scale : BaseScale} :
    ∀ {entries : List (OrderSeq × RemovedOrder)} (units : List SettlementUnit),
      (∀ e ∈ entries, ∃ r, RemovedOrderSettlement.new e.1 e.2 scale = .ok r) →
      ∃ units', entries.foldlM (addExpired scale) units = .ok units'
  | [], units, _ => ⟨units, rfl⟩
  | e :: entries, units, h => by
      obtain ⟨r, hr⟩ := h e List.mem_cons_self
      rw [List.foldlM_cons]
      simp only [addExpired, hr, Except.bind_ok]
      exact addExpired_foldlM_returns _ fun e' he' => h e' (List.mem_cons_of_mem _ he')

/-- **`from_matching` returns** when every part of it can be computed and the sums fit. -/
theorem fromMatching_returns {output : MatchingOutput} {rates : FeeRates} {scale : BaseScale}
    (cap : ℕ) {settlements : List FillSettlement}
    (hfills : List.Forall₂ (fun f s => FillSettlement.new f rates scale = .ok s) output.fills
      settlements)
    (hexpired : ∀ e ∈ output.expiredOrders.entries,
      ∃ r, RemovedOrderSettlement.new e.1 e.2 scale = .ok r)
    (hlt : ∀ seq c, shares settlements seq c < 2 ^ 256) :
    ∃ m, fromMatching output rates scale cap = .ok m := by
  obtain ⟨⟨updates, units⟩, h1⟩ := addFill_foldlM_returns [] hfills (by
      intro seq c
      rw [show (updateOf SortedMap.empty seq).delta c = 0 from OrderUpdate.delta_default c,
        Nat.zero_add]
      exact hlt seq c)
  obtain ⟨units', h2⟩ := addExpired_foldlM_returns units hexpired
  simp only [fromMatching, h1, h2, Except.bind_ok]
  exact ⟨_, rfl⟩

end MatchSettlement

end OisyTrade
