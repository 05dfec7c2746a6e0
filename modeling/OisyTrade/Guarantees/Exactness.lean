import OisyTrade.Invariant.Amounts
import OisyTrade.Invariant.Reach
import OisyTrade.Script

/-!
# Settlement arithmetic is exact

`checked_mul_quantity_scaled` is evaluated in six places: twice when an order is placed, for the
notional and for the surplus of a fill, for the trades of a queued event, and for the refund of an
order that is canceled or killed.  `Multiplies` lists them with the arguments the code passes.  In
every state that a run passes through, all of them are exact: an amount is returned, nothing is left
over and the amount is not zero.

The amounts of a buy order then add up.  However its quantity is cut into fills and a rest, the
notionals and surpluses of the fills and the reservation of the rest are what was reserved.
-/

namespace OisyTrade

namespace State

/-- **The arguments of `checked_mul_quantity_scaled`.** -/
inductive Multiplies (s : State) : Price → Quantity → BaseScale → Prop
  /-- `validate_limit_order` of an order that is accepted. -/
  | validated {user : Principal} {pair : TradingPair} {pending : PendingOrder} {id : OrderId}
      {order : Order} {scale : BaseScale}
      (hok : s.validateLimitOrder user pair pending = .ok (.ok (id, order)))
      (hscale : s.baseScale pair.base = .ok scale) :
      Multiplies s pending.price pending.quantity scale
  /-- `record_limit_order` of a buy order. -/
  | reserved {user : Principal} {pair : TradingPair} {pending : PendingOrder} {id : OrderId}
      {order : Order} {scale : BaseScale}
      (hok : s.validateLimitOrder user pair pending = .ok (.ok (id, order)))
      (hscale : s.baseScaleForBook id.bookId = .ok scale) (hside : order.side = .buy) :
      Multiplies s order.price order.remainingQuantity scale
  /-- `fees` for `FillSettlement::new`. -/
  | notional {bookId : OrderBookId} {b b' : OrderBook} {n : ℕ} {out : MatchingOutput} {f : Fill}
      {scale : BaseScale} (hbook : s.orderBooks.get bookId = some b)
      (hscale : s.baseScaleForBook bookId = .ok scale)
      (hround : b.processPendingOrders (b.pendingOrderSeqs.take n) = .ok (out, b'))
      (hfill : f ∈ out.fills) : Multiplies s f.makerPrice f.quantity scale
  /-- The surplus in `FillSettlement::new`. -/
  | surplus {bookId : OrderBookId} {b b' : OrderBook} {n : ℕ} {out : MatchingOutput} {f : Fill}
      {diff : Price} {scale : BaseScale} (hbook : s.orderBooks.get bookId = some b)
      (hscale : s.baseScaleForBook bookId = .ok scale)
      (hround : b.processPendingOrders (b.pendingOrderSeqs.take n) = .ok (out, b'))
      (hfill : f ∈ out.fills) (hside : f.takerSide = .buy)
      (hdiff : f.takerPrice.checkedSub f.makerPrice = some diff) (hne : diff.isZero = false) :
      Multiplies s diff f.quantity scale
  /-- `RemovedOrderSettlement::new` of a killed order. -/
  | killed {bookId : OrderBookId} {b b' : OrderBook} {n : ℕ} {out : MatchingOutput}
      {seq : OrderSeq} {removed : RemovedOrder} {scale : BaseScale}
      (hbook : s.orderBooks.get bookId = some b) (hscale : s.baseScaleForBook bookId = .ok scale)
      (hround : b.processPendingOrders (b.pendingOrderSeqs.take n) = .ok (out, b'))
      (hexpired : (seq, removed) ∈ out.expiredOrders.entries) (hside : removed.side = .buy) :
      Multiplies s removed.price removed.remainingQuantity scale
  /-- `RemovedOrderSettlement::new` of a canceled order. -/
  | canceled {id : OrderId} {b b' : OrderBook} {removed : RemovedOrder} {scale : BaseScale}
      (hbook : s.orderBooks.get id.bookId = some b)
      (hscale : s.baseScaleForBook id.bookId = .ok scale)
      (hremoved : b.removeOrder id.seq = .ok (some (removed, b'))) (hside : removed.side = .buy) :
      Multiplies s removed.price removed.remainingQuantity scale
  /-- `fees` for the trades of a queued event. -/
  | settled {event : SettlingEvent} {f : FillEvent} {maker : OrderRecord} {scale : BaseScale}
      (hqueued : event ∈ s.pendingSettlingEvents)
      (hscale : s.baseScaleForBook event.bookId = .ok scale) (hfill : f ∈ event.fills)
      (hmaker : s.orderHistory.get (.new event.bookId f.makerOrderSeq) = some maker) :
      Multiplies s maker.price f.quantity scale

end State

/-! ## A buy order in pieces -/

/-- **A fill that a buy order at this price may have**, as taker or as maker. -/
structure OrderBook.FillsBuy (b : OrderBook) (price : Price) (f : Fill) : Prop where
  lot : b.lotSize.get.toNat ∣ f.quantity.toNat
  quantity : 0 < f.quantity.toNat
  tick : b.tickSize.get.toNat ∣ f.makerPrice.toNat
  makerPrice : 0 < f.makerPrice.toNat
  side : (f.takerSide = .buy ∧ f.takerPrice = price ∧ f.makerPrice ≤ price) ∨
    (f.takerSide = .sell ∧ f.makerPrice = price)

namespace FillSettlement

variable {b : OrderBook} {price : Price} {f : Fill} {scale : BaseScale}

/-- A fill takes its share of the reservation. -/
lemma Spec.notional_add_surplus {rates : FeeRates} {st : FillSettlement}
    (h : st.Spec f rates scale) (hf : b.FillsBuy price f) :
    (st.notional.toNat + st.surplus.toNat) * scale.get.toNat
      = price.toNat * f.quantity.toNat := by
  have hsurplus := h.surplus
  rw [Nat.add_mul, h.notional]
  rcases hf.side with ⟨hside, hprice, hle⟩ | ⟨hside, hprice⟩
  · rw [hside] at hsurplus
    simp only at hsurplus
    rw [hsurplus, hprice, ← Nat.add_mul, Nat.add_sub_cancel' (Price.le_def.mp hle)]
  · rw [hside] at hsurplus
    simp only at hsurplus
    rw [hsurplus, hprice, Nat.add_zero]

/-- A fill of a buy order is settled. -/
lemma returns_of_fillsBuy (rates : FeeRates) {q : Quantity} (hq : b.Tradable price q)
    (hle : f.quantity.toNat ≤ q.toNat) (hf : b.FillsBuy price f)
    (hscale : scale.get.toNat ∣ b.tickSize.get.toNat * b.lotSize.get.toNat) :
    ∃ st, FillSettlement.new f rates scale = .ok st := by
  have hown : b.Tradable price f.quantity := hq.le hf.lot hf.quantity hle
  rcases hf.side with ⟨hside, hprice, hcheaper⟩ | ⟨hside, hprice⟩
  · have hmaker := hown.cheaper hf.tick hf.makerPrice hcheaper
    refine new_returns rates hmaker.fits (hmaker.dvd hscale) fun _ => ?_
    rw [hprice]
    exact ⟨hown.fits, hown.dvd hscale⟩
  · refine new_returns rates ?_ ?_ fun hbuy => ?_
    · rw [hprice]
      exact hown.fits
    · rw [hprice]
      exact hown.dvd hscale
    · rw [hside] at hbuy
      cases hbuy

end FillSettlement

/-- The notionals and surpluses of some fills. -/
def paidAndReturned (settlements : List FillSettlement) : ℕ :=
  (settlements.map fun st => st.notional.toNat + st.surplus.toNat).sum

/-- **The pieces add up**: fills, surpluses and the rest are the reservation. -/
def OrderBook.AddsUp (b : OrderBook) (price : Price) (quantity : Quantity) (scale : BaseScale) :
    Prop :=
  ∀ (rates : FeeRates) (fills : List Fill) (rest : Quantity),
    (∀ f ∈ fills, b.FillsBuy price f) →
    (fills.map fun f => f.quantity.toNat).sum + rest.toNat = quantity.toNat →
    ∃ settlements left reserved,
      List.Forall₂ (fun f st => FillSettlement.new f rates scale = .ok st) fills settlements ∧
      price.checkedMulQuantityScaled rest scale = .ok (some left) ∧
      price.checkedMulQuantityScaled quantity scale = .ok (some reserved) ∧
      paidAndReturned settlements + left.toNat = reserved.toNat

namespace OrderBook

variable {b : OrderBook} {price : Price} {quantity : Quantity} {scale : BaseScale}

lemma Tradable.settlements (h : b.Tradable price quantity)
    (hscale : scale.get.toNat ∣ b.tickSize.get.toNat * b.lotSize.get.toNat) (rates : FeeRates) :
    ∀ {fills : List Fill}, (∀ f ∈ fills, b.FillsBuy price f) →
      (fills.map fun f => f.quantity.toNat).sum ≤ quantity.toNat →
      ∃ settlements,
        List.Forall₂ (fun f st => FillSettlement.new f rates scale = .ok st) fills settlements ∧
        paidAndReturned settlements * scale.get.toNat
          = price.toNat * (fills.map fun f => f.quantity.toNat).sum := by
  intro fills
  induction fills with
  | nil => exact fun _ _ => ⟨[], .nil, by simp [paidAndReturned]⟩
  | cons f fills ih =>
      intro hfills hsum
      rw [List.map_cons, List.sum_cons] at hsum
      have hf := hfills f List.mem_cons_self
      obtain ⟨st, hst⟩ := FillSettlement.returns_of_fillsBuy rates h (by omega) hf hscale
      obtain ⟨settlements, hrest, hpaid⟩ :=
        ih (fun f' hf' => hfills f' (List.mem_cons_of_mem _ hf')) (by omega)
      refine ⟨st :: settlements, .cons hst hrest, ?_⟩
      have hone := (FillSettlement.of_new hst).notional_add_surplus hf
      have hcons : paidAndReturned (st :: settlements)
          = st.notional.toNat + st.surplus.toNat + paidAndReturned settlements := List.sum_cons
      rw [hcons, Nat.add_mul, hone, hpaid, List.map_cons, List.sum_cons, Nat.mul_add]

/-- The lots of the fills are lots. -/
lemma dvd_sum_fills {fills : List Fill} (h : ∀ f ∈ fills, b.FillsBuy price f) :
    b.lotSize.get.toNat ∣ (fills.map fun f => f.quantity.toNat).sum := by
  induction fills with
  | nil => exact Nat.dvd_zero _
  | cons f fills ih =>
      rw [List.map_cons, List.sum_cons]
      exact Nat.dvd_add (h f List.mem_cons_self).lot
        (ih fun f' hf' => h f' (List.mem_cons_of_mem _ hf'))

theorem Tradable.addsUp (h : b.Tradable price quantity)
    (hscale : scale.get.toNat ∣ b.tickSize.get.toNat * b.lotSize.get.toNat) :
    b.AddsUp price quantity scale := by
  intro rates fills rest hfills hsum
  obtain ⟨settlements, hset, hpaid⟩ := h.settlements hscale rates hfills (by omega)
  have hlot : b.lotSize.get.toNat ∣ rest.toNat := by
    have hq := h.lot
    rw [← hsum] at hq
    exact (Nat.dvd_add_right (dvd_sum_fills hfills)).mp hq
  obtain ⟨left, hleft, hl⟩ := Price.checkedMulQuantityScaled_of_dvd (p := price) (q := rest)
    (lt_of_le_of_lt (Nat.mul_le_mul_left _ (by omega)) h.fits)
    (hscale.trans (Nat.mul_dvd_mul h.tick hlot))
  obtain ⟨reserved, hreserved, hr, -⟩ := h.exactTimes hscale
  refine ⟨settlements, left, reserved, hset, hleft, hreserved, ?_⟩
  refine Nat.eq_of_mul_eq_mul_right scale.pos ?_
  rw [Nat.add_mul, hpaid, hl, hr, ← Nat.mul_add, hsum]

end OrderBook

/-! ## In every state of a run -/

namespace State

variable {s : State}

/-- **Settlement arithmetic is exact**: every product that is computed, the sums of the pieces of
every order that is accepted, and what the fills of every round are. -/
structure ExactAmounts (s : State) : Prop where
  products : ∀ p q scale, s.Multiplies p q scale → p.ExactTimes q scale
  pieces : ∀ {user pair pending id order scale},
    s.validateLimitOrder user pair pending = .ok (.ok (id, order)) →
    s.baseScale pair.base = .ok scale → ∃ b, s.orderBooks.get id.bookId = some b ∧
      b.AddsUp order.price order.remainingQuantity scale
  fills : ∀ {bookId b b' n out f}, s.orderBooks.get bookId = some b →
    b.processPendingOrders (b.pendingOrderSeqs.take n) = .ok (out, b') → f ∈ out.fills →
    ∃ t m, s.orderHistory.get (.new bookId f.takerOrderSeq) = some t ∧
      s.orderHistory.get (.new bookId f.makerOrderSeq) = some m ∧
      match t.side with
      | .buy => b.FillsBuy t.price f
      | .sell => b.FillsBuy m.price f

/-- An accepted order can be settled on its book. -/
lemma Sound.accepted (h : s.Sound) {user : Principal} {pair : TradingPair} {pending : PendingOrder}
    {id : OrderId} {order : Order}
    (hok : s.validateLimitOrder user pair pending = .ok (.ok (id, order))) :
    ∃ b, s.orderBooks.get id.bookId = some b ∧ b.Tradable pending.price pending.quantity ∧
      order = pending.intoOrder b.nextSeq ∧ s.tradingPairs.getPair id.bookId = some pair ∧
      ∀ {scale}, s.baseScale pair.base = .ok scale →
        scale.get.toNat ∣ b.tickSize.get.toNat * b.lotSize.get.toNat := by
  obtain ⟨bookId, b, scale, amount, hid, hb, hvalid, hscale, hmul, -, -, rfl, rfl⟩ :=
    Canister.validateLimitOrder_eq_ok hok
  have hpair : s.tradingPairs.getPair bookId = some pair := (h.wired.pairs pair bookId).mp hid
  obtain ⟨hprice, htick, hquantity, hlot⟩ := (OrderBook.validateOrder_eq_ok
    (o := pending.intoOrder b.nextSeq)).mp hvalid
  refine ⟨b, hb, ⟨hprice, htick, hquantity, hlot, (Price.of_checkedMulQuantityScaled hmul).2⟩, rfl,
    hpair, fun hs => ?_⟩
  exact ((h.wired.listed bookId b hb).dvd ⟨hpair, hs⟩).2

/-- The batch that a round processes. -/
lemma Sound.chunk_of_round (h : s.Sound) {bookId : OrderBookId} {b b' : OrderBook} {n : ℕ}
    {out : MatchingOutput} (hb : s.orderBooks.get bookId = some b)
    (hround : b.processPendingOrders (b.pendingOrderSeqs.take n) = .ok (out, b')) :
    ∃ orders stepOut, OrderBook.Chunk b orders stepOut b' ∧ out = stepOut.output := by
  have hl := h.wired.listed bookId b hb
  obtain ⟨stepOut, b'', hchunk, hproc⟩ := OrderBook.processPendingOrders_spec hl.wf hl.drained
    (List.take_append_drop n b.pendingOrders).symm
  rw [OrderBook.pendingOrderSeqs, ← List.map_take, hproc] at hround
  cases hround
  exact ⟨_, stepOut, hchunk, rfl⟩

/-- The scale of a listed book divides. -/
lemma Sound.scale_dvd (h : s.Sound) {bookId : OrderBookId} {b : OrderBook} {scale : BaseScale}
    (hb : s.orderBooks.get bookId = some b) (hscale : s.baseScaleForBook bookId = .ok scale) :
    scale.get.toNat ∣ b.tickSize.get.toNat * b.lotSize.get.toNat := by
  obtain ⟨pair, hm⟩ := baseScaleForBook_eq_ok.mp hscale
  exact ((h.wired.listed bookId b hb).dvd hm).2

/-- The notional of a queued fill. -/
lemma EventOk.exactTimes (hs : s.Sound) {event : SettlingEvent} (h : s.EventOk event)
    {f : FillEvent} (hf : f ∈ event.fills) {maker : OrderRecord} {scale : BaseScale}
    (hscale : s.baseScaleForBook event.bookId = .ok scale)
    (hmaker : s.orderHistory.get (.new event.bookId f.makerOrderSeq) = some maker) :
    maker.price.ExactTimes f.quantity scale := by
  obtain ⟨pair, scale', pieces, hm, hevent, hpieces⟩ := h
  obtain ⟨pair', hm'⟩ := baseScaleForBook_eq_ok.mp hscale
  obtain ⟨rfl, rfl⟩ := hm.unique hm'
  rw [hevent, eventOf_fills, List.mem_flatMap] at hf
  obtain ⟨p, hp, hf⟩ := hf
  cases p with
  | refund rs => cases hf
  | fill st =>
      obtain rfl := List.mem_singleton.mp hf
      obtain ⟨t, m, hpiece⟩ := hpieces _ hp
      obtain rfl : m = maker := Option.some.inj (hpiece.maker.symm.trans hmaker)
      obtain ⟨b, -, -, hterms, -⟩ := (hs.records _ m hpiece.maker).book
      have hmul := FillSettlement.notional_of_new hpiece.new
      rw [hpiece.makerPrice] at hmul
      refine ⟨_, hmul, (Price.of_checkedMulQuantityScaled hmul).1, Nat.pos_of_ne_zero fun h0 => ?_⟩
      have hprod := Nat.mul_pos hterms.price hpiece.positive
      have heq := (Price.of_checkedMulQuantityScaled hmul).1
      rw [h0, Nat.zero_mul] at heq
      omega

lemma Sound.products (h : s.Sound) {p : Price} {q : Quantity} {scale : BaseScale}
    (hmul : s.Multiplies p q scale) : p.ExactTimes q scale := by
  cases hmul with
  | validated hok hscale =>
      obtain ⟨b, -, htrade, -, -, hdvd⟩ := h.accepted hok
      exact htrade.exactTimes (hdvd hscale)
  | reserved hok hscale hside =>
      obtain ⟨b, -, htrade, rfl, hpair, hdvd⟩ := h.accepted hok
      obtain ⟨pair', hm⟩ := baseScaleForBook_eq_ok.mp hscale
      obtain rfl := Option.some.inj (hpair.symm.trans hm.pair)
      exact htrade.exactTimes (hdvd hm.scale)
  | notional hbook hscale hround hfill =>
      obtain ⟨orders, out, hchunk, rfl⟩ := h.chunk_of_round hbook hround
      exact (h.tradable_fill hbook hchunk hfill).1.exactTimes (h.scale_dvd hbook hscale)
  | surplus hbook hscale hround hfill hside hdiff hne =>
      obtain ⟨orders, out, hchunk, rfl⟩ := h.chunk_of_round hbook hround
      obtain ⟨hmaker, htaker⟩ := h.tradable_fill hbook hchunk hfill
      exact (htaker.diff hmaker.tick hdiff hne).exactTimes (h.scale_dvd hbook hscale)
  | killed hbook hscale hround hexpired hside =>
      obtain ⟨orders, out, hchunk, rfl⟩ := h.chunk_of_round hbook hround
      obtain ⟨o, ho, -, rfl, -⟩ := hchunk.expired_order (h.wired.listed _ _ hbook).wf hexpired
      exact (h.tradable_live hbook (OrderBook.mem_live.mpr (Or.inl ho))).exactTimes
        (h.scale_dvd hbook hscale)
  | canceled hbook hscale hremoved hside =>
      rename_i id b b' removed
      have hwf := (h.wired.listed _ b hbook).wf
      cases hfind : b.find id.seq with
      | none =>
          rw [OrderBook.removeOrder_dead hwf.sound (OrderBook.find_eq_none.mp hfind)] at hremoved
          cases hremoved
      | some o =>
          obtain ⟨ho, hid⟩ := hwf.find_eq_some.mp hfind
          obtain ⟨b'', hspec, -⟩ := OrderBook.removeOrder_live hwf ho
          rw [← hid, hspec] at hremoved
          cases hremoved
          exact (h.tradable_live hbook ho).exactTimes (h.scale_dvd hbook hscale)
  | settled hqueued hscale hfill hmaker =>
      exact (h.queue _ hqueued).exactTimes h hfill hscale hmaker

/-- The fills of a round are fills of the buy orders they name. -/
lemma Sound.fillsBuy (h : s.Sound) {bookId : OrderBookId} {b b' : OrderBook} {n : ℕ}
    {out : MatchingOutput} {f : Fill} (hb : s.orderBooks.get bookId = some b)
    (hround : b.processPendingOrders (b.pendingOrderSeqs.take n) = .ok (out, b'))
    (hf : f ∈ out.fills) :
    ∃ t m, s.orderHistory.get (.new bookId f.takerOrderSeq) = some t ∧
      s.orderHistory.get (.new bookId f.makerOrderSeq) = some m ∧
      match t.side with
      | .buy => b.FillsBuy t.price f
      | .sell => b.FillsBuy m.price f := by
  obtain ⟨orders, stepOut, hchunk, rfl⟩ := h.chunk_of_round hb hround
  obtain ⟨t, m, hok⟩ := hchunk.fillOk (h.wired.listed bookId b hb).wf hf
  have htlive : t ∈ b.live := OrderBook.mem_live.mpr (Or.inl (by
    rw [hchunk.pending]
    exact List.mem_append_left _ hok.taker))
  obtain ⟨tr, htr, -, -, htstand, htfind⟩ := h.record_of_live hb htlive
  obtain ⟨mr, hmr, -, -, hmstand, hmfind⟩ := h.record_of_live hb hok.maker
  obtain ⟨htside, htprice, -⟩ := htstand.of_live htfind
  obtain ⟨-, hmprice, -⟩ := hmstand.of_live hmfind
  obtain ⟨hmaker, -⟩ := h.tradable_fill hb hchunk hf
  refine ⟨tr, mr, by rw [hok.takerSeq]; exact htr, by rw [hok.makerSeq]; exact hmr, ?_⟩
  have hcross := hok.crosses
  cases hside : t.side with
  | buy =>
      rw [hside] at hcross
      rw [← htside, hside]
      refine ⟨hmaker.lot, hmaker.quantity, hmaker.tick, hmaker.price, Or.inl ?_⟩
      rw [hok.takerSide, hok.takerPrice, hok.makerPrice, ← htprice]
      exact ⟨hside, rfl, of_decide_eq_true hcross⟩
  | sell =>
      rw [← htside, hside]
      refine ⟨hmaker.lot, hmaker.quantity, hmaker.tick, hmaker.price, Or.inr ?_⟩
      rw [hok.takerSide, hok.makerPrice, hmprice]
      exact ⟨hside, rfl⟩

end State

/-- **Settlement arithmetic is exact** in every state that a message passes through. -/
theorem World.Reachable.settlement_exact {w : World} (h : w.Reachable) {c : Canister}
    (hc : w.canister.Acts c) : c.state.ExactAmounts := by
  have hs : c.state.Sound := (hc.moved.sound h.guarded.sound).1
  refine ⟨fun p q scale hmul => hs.products hmul, fun hok hscale => ?_,
    fun hb hround hf => hs.fillsBuy hb hround hf⟩
  obtain ⟨b, hb, htrade, rfl, -, hdvd⟩ := hs.accepted hok
  exact ⟨b, hb, htrade.addsUp (hdvd hscale)⟩

/-- In the sample run a fill is queued. -/
theorem World.settlement_exact_sampleWorld :
    (sampleWorld.canister.state.pendingSettlingEvents.any fun e => !e.fills.isEmpty) = true ∧
      sampleWorld.canister.state.ExactAmounts :=
  ⟨by decide +kernel, reachable_sampleWorld.settlement_exact (Canister.Acts.refl _)⟩

end OisyTrade
