import OisyTrade.Invariant.Match

/-!
# Room for a round of the executor

`Roomy` bounds three things: the units of every token, what the live sell orders may still be paid,
and the entries of the trade history once everything that is queued or live has traded.  None of
these bounds grows while the executor matches a batch (`Ready.matched`) or drains the queue
(`Ready.drained`), so a canister with room keeps it, and neither of the two steps traps.
-/

namespace OisyTrade

namespace State

variable {s s' : State}

/-- The number of live orders of all books. -/
def liveCount (s : State) : ℕ := s.orderBooks.sum fun _ b => b.live.length

/-- The market of a book depends on the pairs and the tokens. -/
lemma Market.of_eq {bookId : OrderBookId} {pair : TradingPair} {scale : BaseScale}
    (h : s'.Market bookId pair scale) (hpairs : s'.tradingPairs = s.tradingPairs)
    (htokens : s'.tokens = s.tokens) : s.Market bookId pair scale := by
  refine ⟨by rw [← hpairs]; exact h.pair, ?_⟩
  have hscale := h.scale
  simp only [baseScale, htokens] at hscale ⊢
  exact hscale

/-- The rule for steps that do not raise the bounds. -/
lemma PayoutFits.of_le (h : s.PayoutFits) (hpairs : s'.tradingPairs = s.tradingPairs)
    (htokens : s'.tokens = s.tokens)
    (hrec : ∀ id r' pair scale, s'.orderHistory.get id = some r' → r'.side = .sell →
      r'.status.isTerminal = false → s.Market id.bookId pair scale →
      ∃ r, s.orderHistory.get id = some r ∧ r.side = .sell ∧ r.status.isTerminal = false ∧
        s'.payoutBound pair scale r' ≤ s.payoutBound pair scale r) : s'.PayoutFits := by
  intro id r' pair scale hr' hside hlive hm
  have hm' := hm.of_eq hpairs htokens
  obtain ⟨r, hr, hside', hlive', hle⟩ := hrec id r' pair scale hr' hside hlive hm'
  exact lt_of_le_of_lt hle (h id r pair scale hr hside' hlive' hm')

lemma PayoutFits.of_same (h : s.PayoutFits) (hpairs : s'.tradingPairs = s.tradingPairs)
    (htokens : s'.tokens = s.tokens) (horders : s'.orderHistory = s.orderHistory)
    (htotal : ∀ t, s'.balances.total t = s.balances.total t) : s'.PayoutFits := by
  refine h.of_le hpairs htokens fun id r pair scale hr hside hlive _ => ⟨r, ?_, hside, hlive, ?_⟩
  · rw [← horders]
    exact hr
  · rw [payoutBound, payoutBound, htotal]

section Matching

variable {bookId : OrderBookId} {now : Timestamp} {b b' : OrderBook} {orders : List Order}
  {out : OrderBook.StepOut} {pair : TradingPair} {scale : BaseScale} {fills : List FillSettlement}
  {refunds : List RemovedOrderSettlement} {groups : List (List Piece)}

lemma Matched.payoutFits
    (h : s.Matched bookId now b b' orders out pair scale fills refunds groups s') (hs : s.Sound)
    (hbacked : s.Backed) (hpay : s.PayoutFits) : s'.PayoutFits := by
  have hbalances : s'.balances = s.balances := by rw [h.state]
  refine hpay.of_le (by rw [h.state]) (by rw [h.state]) fun id r' pair' scale' hr' hside hlive hm => ?_
  by_cases hbook : id.bookId = bookId
  · subst hbook
    obtain ⟨rfl, rfl⟩ := h.market.unique hm
    obtain ⟨r, hr⟩ := Option.isSome_iff_exists.mp ((h.present id).mp (by rw [hr']; rfl))
    rw [← OrderId.new_eta id] at hr hr'
    obtain ⟨r₁, hr₁, hev, hstand', hfilled⟩ := h.recordEffect hs hr
    obtain rfl : r' = r₁ := Option.some.inj (hr'.symm.trans hr₁)
    have hterm : r.status.isTerminal = false := by
      cases ht : r.status.isTerminal with
      | false => rfl
      | true =>
          rw [hev.final ht, ht] at hlive
          exact hlive
    have hstand := (hs.book_of_record hr h.book).2.2
    obtain ⟨o, hfind⟩ := hstand.find_of_not_terminal hterm
    refine ⟨r, by rw [← OrderId.new_eta id]; exact hr, hev.side.symm.trans hside, hterm, ?_⟩
    have hle := hs.payout_le hbacked h.book h.market h.chunk h.settled hr
      (hev.side.symm.trans hside) hfind
    have hq : r'.filledQuantity.toNat = r.filledQuantity.toNat + shares fills id.seq .quantity :=
      hfilled .quantity
    have hn : r'.filledQuote.toNat = r.filledQuote.toNat + shares fills id.seq .quote :=
      hfilled .quote
    by_cases hpending : r'.status = .pending
    · -- The order has not been reached.
      have hzero : r'.filledQuantity.toNat = 0 := hstand'.filled_eq_zero (Or.inl hpending) .quantity
      have hold : r.filledQuantity.toNat = 0 := by omega
      have hst : r.status = .pending := by
        have hleads := hev.status
        rw [hpending] at hleads
        exact hleads.eq_pending
      rw [payoutBound, payoutBound, if_pos hpending, if_pos hst, hbalances, hev.price, hev.quantity,
        hzero, hold]
    · rw [payoutBound, if_neg hpending, hn, hev.price, hev.quantity, hq, ← Nat.sub_sub]
      exact hle
  · rw [h.others id hbook] at hr'
    refine ⟨r', hr', hside, hlive, ?_⟩
    rw [payoutBound, payoutBound, hbalances]

end Matching

/-- The number of fills that some events hold. -/
lemma fillCount_events (bookId : OrderBookId) (groups : List (List Piece)) :
    Canister.fillCount (groups.map (eventOf bookId))
      = (groups.flatten.flatMap Piece.fillEvents).length := by
  induction groups with
  | nil => rfl
  | cons g groups ih =>
      rw [List.map_cons, Canister.fillCount_cons, ih, eventOf_fills, List.flatten_cons,
        List.flatMap_append, List.length_append]

lemma length_fillEvents (fills : List FillSettlement) (refunds : List RemovedOrderSettlement) :
    ((fills.map Piece.fill ++ refunds.map Piece.refund).flatMap Piece.fillEvents).length
      = fills.length := by
  simp [List.flatMap_append, List.flatMap_map, Piece.fillEvents, List.length_flatMap]

end State

namespace Canister

variable {c c' : Canister} {rt : Runtime}

/-- **Room for the executor.** -/
structure Roomy (c : Canister) : Prop where
  balances : ∀ t, c.state.balances.total t < 2 ^ 256
  payout : c.state.PayoutFits
  trades : c.state.tradeHistory.primary.size
    + 2 * (fillCount c.state.pendingSettlingEvents + c.state.liveCount) ≤ 2 ^ 64

/-- Everything that matching and settling rely on. -/
structure Ready (c : Canister) : Prop where
  steady : c.Steady
  charged : c.state.Charged
  roomy : c.Roomy

lemma Ready.charged_of_acts (h : c.Ready) (hacts : c.Acts c') : c'.state.Charged :=
  (hacts.invariant (P := fun c => c.state.Charged) h.steady.sound h.charged
    fun _ _ hs hc hchange => hchange.charged hs hc).2

/-- What the executor does not touch. -/
structure SameRules (c c' : Canister) : Prop where
  permissions : c'.state.permissions = c.state.permissions
  policy : c'.state.executionPolicy = c.state.executionPolicy

lemma SameRules.refl (c : Canister) : c.SameRules c := ⟨rfl, rfl⟩

lemma SameRules.trans {c'' : Canister} (h : c.SameRules c') (h' : c'.SameRules c'') :
    c.SameRules c'' :=
  ⟨h'.permissions.trans h.permissions, h'.policy.trans h.policy⟩

/-- **Draining** settles some events of the queue and leaves the books alone; it settles all of them
if no reading reaches the budget. -/
theorem Steady.drained (hc : c.Steady) {budget n n' : ℕ}
    (h : c.drainSettling rt budget n = .ok (c', n')) :
    c'.Steady ∧ c.SameRules c' ∧ c'.state.orderBooks = c.state.orderBooks ∧
      ∃ done rest : List SettlingEvent, c'.state.pendingSettlingEvents = rest ∧
        c'.events = c.events ++ done.map (fun e => ⟨rt.time, .settling e⟩) ∧
        ((∀ k, rt.instructionCounter k < budget) → rest = []) := by
  obtain ⟨done, rest, -, hdrained, hlog, hall⟩ := drainLoop_drained hc h
  exact ⟨(drainSettling_works h).acts.steady hc, ⟨by rw [hdrained.state], by rw [hdrained.state]⟩,
    by rw [hdrained.state], done, rest, by rw [hdrained.state], hlog, fun hk => hall hk le_rfl⟩

/-- **Matching the first orders of a book** takes them off its queue. -/
theorem Steady.matched (hc : c.Steady) {bookId : OrderBookId} {b : OrderBook}
    (hb : c.state.orderBooks.get bookId = some b)
    (hhalted : c.state.permissions.isHalted bookId = false) {n : ℕ}
    (hne : b.pendingOrderSeqs.take n ≠ []) {now : Timestamp}
    (h : c.processEvent (.matching ⟨bookId, b.pendingOrderSeqs.take n⟩) now = .ok c') :
    c'.Steady ∧ c.SameRules c' ∧
      c'.events = c.events ++ [⟨now, .matching ⟨bookId, b.pendingOrderSeqs.take n⟩⟩] ∧
      ∃ b' out pair scale fills refunds groups,
        c.state.Matched bookId now b b' (b.pendingOrders.take n) out pair scale fills refunds groups
          c'.state ∧
        c'.state.orderBooks = c.state.orderBooks.insert bookId b' ∧
        b'.pendingOrders = b.pendingOrders.drop n := by
  have hadmits : c.state.Admits now (.matching ⟨bookId, b.pendingOrderSeqs.take n⟩) :=
    ⟨b, n, hb, rfl, hne, hhalted⟩
  have hsteady := (Act.event hadmits h).acts.steady hc
  obtain ⟨s', hok, rfl⟩ := processEvent_eq_ok h
  obtain ⟨b₀, b', orders, out, pair, scale, fills, refunds, groups, horders, -, hmatched⟩ :=
    hc.sound.matched hadmits hok
  obtain rfl : b = b₀ := Option.some.inj (hb.symm.trans hmatched.book)
  -- The batch is the first part of the queue of pending orders.
  have hsplit := hmatched.chunk.pending
  have hlen : orders.length = (b.pendingOrders.take n).length := by
    have hx := congrArg List.length horders
    rw [OrderBook.pendingOrderSeqs, List.length_take, List.length_map, List.length_map] at hx
    rw [List.length_take, hx]
  have hparts : orders ++ b'.pendingOrders = b.pendingOrders.take n ++ b.pendingOrders.drop n := by
    rw [← hsplit, List.take_append_drop]
  obtain ⟨rfl, hrest⟩ := List.append_inj hparts hlen
  exact ⟨hsteady, ⟨by show s'.permissions = _; rw [hmatched.state],
    by show s'.executionPolicy = _; rw [hmatched.state]⟩, rfl, b', out, pair, scale, fills, refunds,
    groups, hmatched, by show s'.orderBooks = _; rw [hmatched.state], hrest⟩

/-! ## Room is kept -/

/-- **The head of the queue can be settled**, and that keeps the room. -/
theorem Ready.settle (h : c.Ready) {event : SettlingEvent} {rest : List SettlingEvent}
    (hqueue : c.state.pendingSettlingEvents = event :: rest) (now : Timestamp) :
    ∃ c', (c.withQueue rest).processEvent (.settling event) now = .ok c' ∧ c'.Ready := by
  have hfits : c.Fits (fillCount c.state.pendingSettlingEvents + c.state.liveCount) :=
    ⟨h.roomy.balances, h.roomy.trades⟩
  obtain ⟨c', hproc, hwork, hdrained, hfits'⟩ := h.steady.settle_fits hfits hqueue now
  have hacts := hwork.act.acts
  have hlive : c'.state.liveCount = c.state.liveCount := by
    rw [hdrained.state]
    rfl
  refine ⟨c', hproc, hacts.steady h.steady, h.charged_of_acts hacts, hfits'.balances, ?_, ?_⟩
  · exact h.roomy.payout.of_same (by rw [hdrained.state]) (by rw [hdrained.state])
      (by rw [hdrained.state]) hdrained.total
  · rw [hlive]
    exact hfits'.trades

/-- **The front of a book can be matched**, and that keeps the room. -/
theorem Ready.match (h : c.Ready) {bookId : OrderBookId} {b : OrderBook}
    (hb : c.state.orderBooks.get bookId = some b)
    (hhalted : c.state.permissions.isHalted bookId = false) {n : ℕ}
    (hne : b.pendingOrderSeqs.take n ≠ []) (now : Timestamp) :
    ∃ c', c.processEvent (.matching ⟨bookId, b.pendingOrderSeqs.take n⟩) now = .ok c' ∧
      c'.Ready := by
  have hs := h.steady.sound
  obtain ⟨s', hok⟩ := hs.match_returns h.charged hb n now fun hm hchunk hset =>
    hs.payable h.steady.backed h.charged h.roomy.payout hb hm hchunk hset
  obtain ⟨c', hproc⟩ := c.processEvent_returns (.matching ⟨bookId, b.pendingOrderSeqs.take n⟩) now
    ⟨s', hok⟩
  obtain ⟨hsteady, -, -, b', out, pair, scale, fills, refunds, groups, hmatched, hbooks, -⟩ :=
    h.steady.matched hb hhalted hne hproc
  have hadmits : c.state.Admits now (.matching ⟨bookId, b.pendingOrderSeqs.take n⟩) :=
    ⟨b, n, hb, rfl, hne, hhalted⟩
  have hbalances : c'.state.balances = c.state.balances := by rw [hmatched.state]
  have htrades : c'.state.tradeHistory = c.state.tradeHistory := by rw [hmatched.state]
  have hqueue : c'.state.pendingSettlingEvents
      = c.state.pendingSettlingEvents ++ groups.map (eventOf bookId) := by rw [hmatched.state]
  refine ⟨c', hproc, hsteady, h.charged_of_acts (Act.event hadmits hproc).acts, fun t => ?_,
    hmatched.payoutFits hs h.steady.backed h.roomy.payout, ?_⟩
  · rw [hbalances]
    exact h.roomy.balances t
  · have hroom := h.roomy.trades
    have hlive := SortedMap.sum_insert_of_some c.state.orderBooks (fun _ b => b.live.length) b' hb
    have hfills := hmatched.chunk.length_live
    have hforall := hmatched.settled.length_eq
    rw [← hbooks] at hlive
    rw [htrades, hqueue, fillCount_append, State.fillCount_events, hmatched.pieces,
      State.length_fillEvents]
    rw [State.liveCount] at hroom ⊢
    omega

end Canister

lemma World.Reachable.ready {w : World} (h : w.Reachable) (hroomy : w.canister.Roomy) :
    w.canister.Ready := ⟨h.steady, h.charged, hroomy⟩

end OisyTrade
