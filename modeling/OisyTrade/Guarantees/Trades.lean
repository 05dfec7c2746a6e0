import OisyTrade.Invariant.Trades
import OisyTrade.Script

/-!
# Order records, trade records and the fee pool

The three tell the same story in every reachable world: what a record has filled is what its trades
add up to, those still queued included; the two legs of a fill mirror each other and trade at the
limit price of the maker; and the fee pool is the sum of the fees of the recorded trades.
-/

namespace OisyTrade

/-- **What a leg in the trade history says.** -/
structure State.LegAgrees (s : State) (tid : TradeId) (leg : TradeRecord) : Prop where
  /-- The leg is on the side of its order, at a price within the order's limit. -/
  order : ∃ o, s.orderHistory.get tid.orderId = some o ∧ leg.side = o.side ∧
    (o.side = .buy → leg.price.toNat ≤ o.price.toNat) ∧
    (o.side = .sell → o.price.toNat ≤ leg.price.toNat)
  /-- The leg trades at the limit price of the maker of the fill. -/
  maker : ∃ makerId makerLeg m, OrderId.bookId makerId = tid.orderId.bookId ∧
    s.tradeHistory.get (.new makerId tid.seq) = some makerLeg ∧ makerLeg.isMaker = true ∧
    s.orderHistory.get makerId = some m ∧ leg.price = m.price
  /-- There is exactly one other leg of the fill, and it mirrors this one. -/
  mirror : ∃ other otherLeg, s.tradeHistory.get other = some otherLeg ∧ other ≠ tid ∧
    other.orderId.bookId = tid.orderId.bookId ∧ other.seq = tid.seq ∧
    otherLeg.side = leg.side.opposite ∧ otherLeg.price = leg.price ∧
    otherLeg.quantity = leg.quantity ∧ otherLeg.notional = leg.notional ∧
    otherLeg.isMaker = !leg.isMaker ∧
    ∀ third, (s.tradeHistory.get third).isSome → third.orderId.bookId = tid.orderId.bookId →
      third.seq = tid.seq → third = tid ∨ third = other

namespace State

variable {s : State}

lemma Trade.keys_ne {bookId : OrderBookId} {st : FillSettlement} {now : Timestamp}
    (h : s.Trade bookId st now) : (st.takerLeg bookId now).1 ≠ (st.makerLeg bookId now).1 := by
  obtain ⟨pair, scale, t, m, -, hp⟩ := h.piece
  intro he
  have hseq := congrArg (fun tid : TradeId => tid.orderId.seq) he
  exact (ne_of_lt hp.earlier) hseq.symm

/-- The legs of a settled fill agree with its orders. -/
lemma Trade.legAgrees {bookId : OrderBookId} {st : FillSettlement} {now : Timestamp}
    (h : s.Trade bookId st now) :
    s.LegAgrees (st.takerLeg bookId now).1 (st.takerLeg bookId now).2 ∧
      s.LegAgrees (st.makerLeg bookId now).1 (st.makerLeg bookId now).2 := by
  obtain ⟨pair, scale, t, m, hm, hp⟩ := h.piece
  have hmaker : ∃ makerId makerLeg m', OrderId.bookId makerId = bookId ∧
      s.tradeHistory.get (.new makerId st.fill.fillSeq) = some makerLeg ∧
      makerLeg.isMaker = true ∧ s.orderHistory.get makerId = some m' ∧
      st.fill.makerPrice = m'.price :=
    ⟨.new bookId st.fill.makerOrderSeq, _, m, rfl, h.maker, rfl, hp.maker, hp.makerPrice⟩
  have hcross := hp.crosses
  refine ⟨⟨⟨t, hp.taker, hp.takerSide, ?_, ?_⟩, hmaker, (st.makerLeg bookId now).1,
    (st.makerLeg bookId now).2, h.maker, h.keys_ne.symm, rfl, rfl, rfl, rfl, rfl, rfl, rfl,
    fun third hthird hbook hseq => h.only third hthird hbook hseq⟩,
    ⟨⟨m, hp.maker, ?_, ?_, ?_⟩, hmaker, (st.takerLeg bookId now).1, (st.takerLeg bookId now).2,
    h.taker, h.keys_ne, rfl, rfl, ?_, rfl, rfl, rfl, rfl,
    fun third hthird hbook hseq => (h.only third hthird hbook hseq).symm⟩⟩
  · intro hbuy
    rw [hbuy] at hcross
    show st.fill.makerPrice.toNat ≤ _
    rw [hp.makerPrice]
    exact of_decide_eq_true hcross
  · intro hsell
    rw [hsell] at hcross
    show _ ≤ st.fill.makerPrice.toNat
    rw [hp.makerPrice]
    exact of_decide_eq_true hcross
  · show st.fill.takerSide.opposite = _
    rw [hp.makerSide, hp.takerSide]
  · intro _
    show st.fill.makerPrice.toNat ≤ _
    rw [hp.makerPrice]
  · intro _
    show _ ≤ st.fill.makerPrice.toNat
    rw [hp.makerPrice]
  · show st.fill.takerSide = st.fill.takerSide.opposite.opposite
    cases st.fill.takerSide <;> rfl

lemma Numbered.legAgrees (hn : s.Numbered) {tid : TradeId} {leg : TradeRecord}
    (h : s.tradeHistory.get tid = some leg) : s.LegAgrees tid leg := by
  obtain ⟨st, now, ht, hid⟩ := hn.record_of_trade (by rw [h]; rfl)
  rcases hid with hid | hid
  · have hleg := ht.taker
    rw [← hid, h] at hleg
    have hagrees := ht.legAgrees.1
    rwa [← hid, ← Option.some.inj hleg] at hagrees
  · have hleg := ht.maker
    rw [← hid, h] at hleg
    have hagrees := ht.legAgrees.2
    rwa [← hid, ← Option.some.inj hleg] at hagrees

end State

namespace World

variable {w : World}

/-- **Order records, trade records and the fee pool tell the same story.** -/
theorem Reachable.same_story (h : Reachable w) :
    (∀ now id r c, w.canister.state.orderHistory.get id = some r →
      r.filled c = w.canister.state.settledTotal id c
        + legTotal (w.canister.state.queuedLegs now) id c) ∧
    (∀ tid leg, w.canister.state.tradeHistory.get tid = some leg →
      w.canister.state.LegAgrees tid leg) ∧
    ∀ t, w.canister.state.balances.pool t = w.canister.state.feesOf t :=
  ⟨h.accounted.filled, fun _ _ hleg => h.numbered.legAgrees hleg, h.accounted.pool⟩

/-- In the sample run the first order has filled twelve units: eight are in the history, four are
queued. -/
theorem same_story_sampleWorld :
    ∃ r, sampleWorld.canister.state.orderHistory.get (.new Seq.zero Seq.zero) = some r ∧
      r.filled .quantity = 12 ∧
      sampleWorld.canister.state.settledTotal (.new Seq.zero Seq.zero) .quantity = 8 ∧
      8 + legTotal (sampleWorld.canister.state.queuedLegs .epoch) (.new Seq.zero Seq.zero)
        .quantity = 12 := by
  have hsome : (sampleWorld.canister.state.orderHistory.get (.new Seq.zero Seq.zero)).any
      (fun r => r.filled .quantity = 12) = true := by decide +kernel
  have hsettled : sampleWorld.canister.state.settledTotal (.new Seq.zero Seq.zero) .quantity = 8 := by
    decide +kernel
  obtain ⟨r, hr, hp⟩ := (Option.any_eq_true _ _).mp hsome
  have hfilled := of_decide_eq_true hp
  have hstory := reachable_sampleWorld.same_story.1 .epoch _ r .quantity hr
  rw [hfilled, hsettled] at hstory
  exact ⟨r, hr, hfilled, hsettled, hstory.symm⟩

end World

end OisyTrade
