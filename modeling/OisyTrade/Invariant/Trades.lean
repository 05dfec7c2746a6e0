import OisyTrade.Invariant.Numbered

/-!
# Records, trades and fees

Matching accrues a fill in the records of its two orders at once, while its trade legs are rebuilt
later from the queued event (`rebuiltLegs`), and the fees reach the pool through the operations of
the event.  `Accounted` says that the three agree at any time: a record holds what the legs in the
history and the legs still queued add up to, and the pool holds the fees of the legs in the history.
-/

namespace OisyTrade

/-- What legs add to an order in one column. -/
def legTotal (legs : List TradeLeg) (id : OrderId) (c : Column) : ℕ :=
  (legs.map fun leg => if leg.1.orderId = id then leg.2.amount c else 0).sum

lemma legTotal_append (legs legs' : List TradeLeg) (id : OrderId) (c : Column) :
    legTotal (legs ++ legs') id c = legTotal legs id c + legTotal legs' id c := by
  rw [legTotal, List.map_append, List.sum_append]
  rfl

lemma legTotal_eq_zero {legs : List TradeLeg} {id : OrderId} (c : Column)
    (h : ∀ leg ∈ legs, leg.1.orderId ≠ id) : legTotal legs id c = 0 := by
  rw [legTotal, List.sum_eq_zero_iff]
  intro n hn
  obtain ⟨leg, hleg, rfl⟩ := List.mem_map.mp hn
  exact if_neg (h leg hleg)

/-- The legs of a piece, without their users. -/
def Piece.legs (bookId : OrderBookId) (now : Timestamp) : Piece → List TradeLeg
  | fill st => [st.takerLeg bookId now, st.makerLeg bookId now]
  | refund _ => []

/-- **The legs of fills add up to their shares.** -/
lemma legTotal_fills (bookId : OrderBookId) (now : Timestamp) (seq : OrderSeq) (c : Column)
    (fills : List FillSettlement) :
    legTotal (fills.flatMap fun st => Piece.legs bookId now (.fill st)) (.new bookId seq) c
      = shares fills seq c := by
  induction fills with
  | nil => rfl
  | cons st fills ih =>
      have hone : legTotal (Piece.legs bookId now (.fill st)) (.new bookId seq) c
          = st.share seq c := by
        have hkey : ∀ x : OrderSeq, OrderId.new bookId x = OrderId.new bookId seq ↔ x = seq :=
          fun x => ⟨fun h => (OrderId.new_inj.mp h).2, fun h => OrderId.new_inj.mpr ⟨rfl, h⟩⟩
        rw [Piece.legs, legTotal, List.map_cons, List.map_singleton, List.sum_cons,
          List.sum_singleton, FillSettlement.amount_takerLeg, FillSettlement.amount_makerLeg,
          FillSettlement.share, Nat.add_comm]
        show (if OrderId.new bookId _ = _ then _ else 0) + (if OrderId.new bookId _ = _ then _ else 0)
          = _
        simp only [hkey]
      rw [List.flatMap_cons, legTotal_append, hone, ih, shares, shares, List.map_cons,
        List.sum_cons]

/-- The refunds of a batch have no legs. -/
lemma legs_pieces (bookId : OrderBookId) (now : Timestamp) (fills : List FillSettlement)
    (refunds : List RemovedOrderSettlement) :
    (fills.map Piece.fill ++ refunds.map Piece.refund).flatMap (Piece.legs bookId now)
      = fills.flatMap fun st => Piece.legs bookId now (.fill st) := by
  rw [List.flatMap_append, List.flatMap_map, List.flatMap_map]
  have h2 : refunds.flatMap (fun rs => Piece.legs bookId now (.refund rs)) = [] :=
    List.flatMap_eq_nil_iff.mpr fun _ _ => rfl
  rw [h2, List.append_nil]

lemma legs_book {bookId : OrderBookId} {now : Timestamp} {pieces : List Piece} {leg : TradeLeg}
    (h : leg ∈ pieces.flatMap (Piece.legs bookId now)) : leg.1.orderId.bookId = bookId := by
  obtain ⟨p, -, hp⟩ := List.mem_flatMap.mp h
  cases p with
  | fill st =>
      rcases List.mem_cons.mp hp with rfl | hp
      · rfl
      · rw [List.mem_singleton.mp hp]
        rfl
  | refund rs => cases hp

namespace State

variable {s s' : State} {bookId : OrderBookId} {pair : TradingPair} {scale : BaseScale}

/-- **The legs of a queued fill**, rebuilt from the records of its two orders as settling does. -/
def rebuiltLegs (s : State) (now : Timestamp) (bookId : OrderBookId) (f : FillEvent) :
    List TradeLeg :=
  match s.orderHistory.get (.new bookId f.takerOrderSeq),
      s.orderHistory.get (.new bookId f.makerOrderSeq), s.baseScaleForBook bookId with
  | some taker, some maker, .ok scale =>
      match f.tradeLegs bookId taker.side maker.price scale now with
      | .ok (takerLeg, makerLeg) => [takerLeg, makerLeg]
      | .error _ => []
  | _, _, _ => []

/-- The legs of all queued fills. -/
def queuedLegs (s : State) (now : Timestamp) : List TradeLeg :=
  s.pendingSettlingEvents.flatMap fun e => e.fills.flatMap (s.rebuiltLegs now e.bookId)

/-- What the legs in the history add up to. -/
def settledTotal (s : State) (id : OrderId) (c : Column) : ℕ :=
  s.tradeHistory.primary.sum fun tid e => if tid.orderId = id then e.record.amount c else 0

/-- The token that the fee of a leg is in. -/
def feeTokenOf (s : State) (tid : TradeId) (leg : TradeRecord) : Option TokenId :=
  (s.tradingPairs.getPair tid.orderId.bookId).map fun pair => pair.token leg.feeToken

/-- The fees of the legs in the history. -/
def feesOf (s : State) (t : TokenId) : ℕ :=
  s.tradeHistory.primary.sum fun tid e =>
    if s.feeTokenOf tid e.record = some t then e.record.fee.toNat else 0

/-- **Records, trades and fees agree.** -/
structure Accounted (s : State) : Prop where
  filled : ∀ now id r c, s.orderHistory.get id = some r →
    r.filled c = s.settledTotal id c + legTotal (s.queuedLegs now) id c
  pool : ∀ t, s.balances.pool t = s.feesOf t

/-! ## Rebuilt legs -/

lemma FillPiece.rebuiltLegs {st : FillSettlement} {t m : OrderRecord}
    (hm : s.Market bookId pair scale) (h : s.FillPiece bookId scale st t m) (now : Timestamp) :
    s.rebuiltLegs now bookId st.fillEvent = Piece.legs bookId now (.fill st) := by
  have hlegs := FillSettlement.tradeLegs_fillEvent h.new bookId now
  rw [h.takerSide, h.makerPrice] at hlegs
  have htaker : s.orderHistory.get (.new bookId st.fillEvent.takerOrderSeq) = some t := h.taker
  have hmaker : s.orderHistory.get (.new bookId st.fillEvent.makerOrderSeq) = some m := h.maker
  rw [State.rebuiltLegs, htaker, hmaker, baseScaleForBook_eq_ok.mpr ⟨pair, hm⟩]
  simp only [hlegs]
  rfl

/-- **The legs rebuilt from an event are those of its pieces.** -/
lemma rebuiltLegs_pieces {pieces : List Piece} (hm : s.Market bookId pair scale)
    (h : ∀ p ∈ pieces, s.PieceOk bookId scale p) (now : Timestamp) :
    (eventOf bookId pieces).fills.flatMap (s.rebuiltLegs now bookId)
      = pieces.flatMap (Piece.legs bookId now) := by
  rw [eventOf_fills, List.flatMap_assoc]
  refine List.flatMap_congr fun p hp => ?_
  cases p with
  | fill st =>
      obtain ⟨t, m, hpiece⟩ := h _ hp
      rw [Piece.fillEvents, List.flatMap_singleton]
      exact hpiece.rebuiltLegs hm now
  | refund rs => rfl

/-- The legs of a queued event are known from its pieces. -/
lemma Sound.queuedLegs_event (hs : s.Sound) {event : SettlingEvent}
    (hev : event ∈ s.pendingSettlingEvents) (now : Timestamp) :
    ∃ pair scale pieces, s.Market event.bookId pair scale ∧ event = eventOf event.bookId pieces ∧
      (∀ p ∈ pieces, s.PieceOk event.bookId scale p) ∧
      event.fills.flatMap (s.rebuiltLegs now event.bookId)
        = pieces.flatMap (Piece.legs event.bookId now) := by
  obtain ⟨pair, scale, pieces, hm, he, hok⟩ := hs.queue event hev
  refine ⟨pair, scale, pieces, hm, he, hok, ?_⟩
  have hlegs := rebuiltLegs_pieces hm hok now
  rwa [← he] at hlegs

/-- Rebuilt legs never change. -/
lemma Sound.rebuiltLegs_mono (hs : s.Sound) (hx : s.Extends s') {event : SettlingEvent}
    (hev : event ∈ s.pendingSettlingEvents) (now : Timestamp) :
    event.fills.flatMap (s'.rebuiltLegs now event.bookId)
      = event.fills.flatMap (s.rebuiltLegs now event.bookId) := by
  obtain ⟨pair, scale, pieces, hm, he, hok, hlegs⟩ := hs.queuedLegs_event hev now
  have hlegs' := rebuiltLegs_pieces (hx.market hm) (fun p hp => (hok p hp).mono hx) now
  rw [← he] at hlegs'
  exact hlegs'.trans hlegs.symm

lemma Sound.queuedLegs_mono (hs : s.Sound) (hx : s.Extends s') {queue : List SettlingEvent}
    (hsub : ∀ e ∈ queue, e ∈ s.pendingSettlingEvents) (now : Timestamp) :
    queue.flatMap (fun e => e.fills.flatMap (s'.rebuiltLegs now e.bookId))
      = queue.flatMap fun e => e.fills.flatMap (s.rebuiltLegs now e.bookId) :=
  List.flatMap_congr fun _ he => hs.rebuiltLegs_mono hx (hsub _ he) now

/-- The legs of a queue belong to orders on record. -/
lemma Sound.record_of_queuedLegs (hs : s.Sound) {now : Timestamp} {leg : TradeLeg}
    (hleg : leg ∈ s.queuedLegs now) : (s.orderHistory.get leg.1.orderId).isSome := by
  obtain ⟨event, hev, hmem⟩ := List.mem_flatMap.mp hleg
  obtain ⟨pair, scale, pieces, hm, he, hok, hlegs⟩ := hs.queuedLegs_event hev now
  rw [hlegs] at hmem
  obtain ⟨p, hp, hmem⟩ := List.mem_flatMap.mp hmem
  cases p with
  | fill st =>
      obtain ⟨t, m, hpiece⟩ := hok _ hp
      rcases List.mem_cons.mp hmem with rfl | hmem
      · exact Option.isSome_iff_exists.mpr ⟨t, hpiece.taker⟩
      · rw [List.mem_singleton.mp hmem]
        exact Option.isSome_iff_exists.mpr ⟨m, hpiece.maker⟩
  | refund rs => cases hmem

/-- The legs in the history belong to orders on record. -/
lemma Numbered.record_of_trade (hn : s.Numbered) {tid : TradeId}
    (h : (s.tradeHistory.get tid).isSome) :
    ∃ st now, s.Trade tid.orderId.bookId st now ∧
      (tid = (st.takerLeg tid.orderId.bookId now).1 ∨
        tid = (st.makerLeg tid.orderId.bookId now).1) := by
  obtain ⟨b, hb⟩ := Option.isSome_iff_exists.mp (hn.listed tid h)
  obtain ⟨k, hk⟩ := hn.books _ b hb
  obtain ⟨st, now, hst, ht⟩ := hk.settled _ (hk.below tid h rfl)
  exact ⟨st, now, ht, ht.only tid h rfl (Seq.ext_val hst.symm)⟩

lemma Numbered.order_of_trade (hn : s.Numbered) {tid : TradeId}
    (h : (s.tradeHistory.get tid).isSome) :
    (s.orderHistory.get tid.orderId).isSome ∧
      ∃ pair scale, s.Market tid.orderId.bookId pair scale := by
  obtain ⟨st, now, ht, hid⟩ := hn.record_of_trade h
  obtain ⟨pair, scale, t, m, hm, hp⟩ := ht.piece
  refine ⟨?_, pair, scale, hm⟩
  rcases hid with hid | hid
  · have horder : tid.orderId = .new tid.orderId.bookId st.fill.takerOrderSeq :=
      congrArg TradeId.orderId hid
    rw [horder]
    exact Option.isSome_iff_exists.mpr ⟨t, hp.taker⟩
  · have horder : tid.orderId = .new tid.orderId.bookId st.fill.makerOrderSeq :=
      congrArg TradeId.orderId hid
    rw [horder]
    exact Option.isSome_iff_exists.mpr ⟨m, hp.maker⟩

/-! ## The changes -/

lemma feeTokenOf_mono (hn : s.Numbered) (hx : s.Extends s') {tid : TradeId}
    (h : (s.tradeHistory.get tid).isSome) (leg : TradeRecord) :
    s'.feeTokenOf tid leg = s.feeTokenOf tid leg := by
  obtain ⟨-, pair, scale, hm⟩ := hn.order_of_trade h
  rw [feeTokenOf, feeTokenOf, hm.pair, (hx.market hm).pair]

lemma feesOf_mono (hn : s.Numbered) (hx : s.Extends s')
    (htrades : s'.tradeHistory = s.tradeHistory) (t : TokenId) : s'.feesOf t = s.feesOf t := by
  rw [feesOf, feesOf, htrades]
  refine SortedMap.sum_congr fun tid e he => ?_
  have hsome : (s.tradeHistory.get tid).isSome := by
    rw [History.get, he]
    rfl
  rw [feeTokenOf_mono hn hx hsome]

/-- An order that is not on record has no trades. -/
lemma Numbered.settledTotal_eq_zero (hn : s.Numbered) {id : OrderId}
    (h : s.orderHistory.get id = none) (c : Column) : s.settledTotal id c = 0 := by
  refine SortedMap.sum_eq_zero fun tid e he => if_neg ?_
  rintro rfl
  have hsome : (s.tradeHistory.get tid).isSome := by
    rw [History.get, he]
    rfl
  have hrec := (hn.order_of_trade hsome).1
  rw [h] at hrec
  cases hrec

lemma Sound.legTotal_queued_eq_zero (hs : s.Sound) {id : OrderId}
    (h : s.orderHistory.get id = none) (now : Timestamp) (c : Column) :
    legTotal (s.queuedLegs now) id c = 0 := by
  refine legTotal_eq_zero c fun leg hleg he => ?_
  have hrec := hs.record_of_queuedLegs hleg
  rw [he, h] at hrec
  cases hrec

/-- The rule for changes that add no fill: every order on record keeps its amounts or is new. -/
lemma Accounted.of_quiet (h : s.Accounted) (hs : s.Sound) (hn : s.Numbered) (hx : s.Extends s')
    (htrades : s'.tradeHistory = s.tradeHistory)
    (hqueue : ∀ now, s'.queuedLegs now = s.queuedLegs now)
    (hpool : ∀ t, s'.balances.pool t = s.balances.pool t)
    (hrecords : ∀ id r', s'.orderHistory.get id = some r' →
      (∃ r, s.orderHistory.get id = some r ∧ ∀ c, r'.filled c = r.filled c) ∨
      (s.orderHistory.get id = none ∧ ∀ c, r'.filled c = 0)) : s'.Accounted := by
  refine ⟨fun now id r' c hr' => ?_, fun t => ?_⟩
  · rw [hqueue, settledTotal, htrades]
    rcases hrecords id r' hr' with ⟨r, hr, hsame⟩ | ⟨hnone, hzero⟩
    · rw [hsame]
      exact h.filled now id r c hr
    · have h0 := hn.settledTotal_eq_zero hnone c
      rw [settledTotal] at h0
      rw [hzero, h0, hs.legTotal_queued_eq_zero hnone]
  · rw [hpool, feesOf_mono hn hx htrades]
    exact h.pool t

lemma Sound.queuedLegs_same (hs : s.Sound) (hx : s.Extends s')
    (hqueue : s'.pendingSettlingEvents = s.pendingSettlingEvents) (now : Timestamp) :
    s'.queuedLegs now = s.queuedLegs now := by
  rw [queuedLegs, hqueue]
  exact hs.queuedLegs_mono hx (fun _ he => he) now

/-- **A batch accrues in the records what it queues.** -/
lemma Matched.accounted {now : Timestamp} {b b' : OrderBook} {orders : List Order}
    {out : OrderBook.StepOut} {fills : List FillSettlement}
    {refunds : List RemovedOrderSettlement} {groups : List (List Piece)}
    (h : s.Matched bookId now b b' orders out pair scale fills refunds groups s') (hs : s.Sound)
    (hn : s.Numbered) (ha : s.Accounted) : s'.Accounted := by
  obtain ⟨-, hx⟩ := h.sound hs
  have htrades : s'.tradeHistory = s.tradeHistory := by rw [h.state]
  have hlegs : ∀ time, s'.queuedLegs time = s.queuedLegs time
      ++ fills.flatMap fun st => Piece.legs bookId time (.fill st) := by
    intro time
    have hqueue : s'.pendingSettlingEvents
        = s.pendingSettlingEvents ++ groups.map (eventOf bookId) := by rw [h.state]
    rw [queuedLegs, hqueue, List.flatMap_append, hs.queuedLegs_mono hx (fun _ he => he) time,
      ← legs_pieces bookId time fills refunds, ← h.pieces, List.flatMap_map]
    refine congrArg (_ ++ ·) ?_
    have hgroup : ∀ g ∈ groups, (eventOf bookId g).fills.flatMap (s'.rebuiltLegs time bookId)
        = g.flatMap (Piece.legs bookId time) := fun g hg =>
      rebuiltLegs_pieces h.market'
        (fun p hp => h.pieceOk hs (List.mem_flatten.mpr ⟨g, hg, hp⟩)) time
    rw [List.flatten_eq_flatMap, List.flatMap_assoc]
    exact List.flatMap_congr hgroup
  refine ⟨fun time id r' c hr' => ?_, fun t => ?_⟩
  · obtain ⟨r, hr⟩ := Option.isSome_iff_exists.mp ((h.present id).mp (by rw [hr']; rfl))
    have hold := ha.filled time id r c hr
    rw [hlegs, legTotal_append, settledTotal, htrades, ← Nat.add_assoc]
    by_cases hbook : id.bookId = bookId
    · obtain ⟨seq, rfl⟩ : ∃ seq, id = OrderId.new bookId seq :=
        ⟨id.seq, by rw [← hbook, OrderId.new_eta]⟩
      obtain ⟨r'', hr'', -, -, hfilled⟩ := h.recordEffect hs hr
      obtain rfl : r'' = r' := Option.some.inj (hr''.symm.trans hr')
      rw [hfilled c, hold, legTotal_fills]
      rfl
    · rw [h.others id hbook, hr] at hr'
      cases hr'
      have hnone : legTotal (fills.flatMap fun st => Piece.legs bookId time (.fill st)) id c = 0 := by
        refine legTotal_eq_zero c fun leg hleg he => ?_
        rw [← legs_pieces bookId time fills refunds] at hleg
        exact hbook (he ▸ legs_book hleg)
      rw [hold, hnone]
      rfl
  · have hpool : s'.balances = s.balances := by rw [h.state]
    rw [hpool, feesOf_mono hn hx htrades]
    exact ha.pool t

/-- What a fill withholds. -/
lemma withheld_fill (s : State) (bookId : OrderBookId) (pair : TradingPair) (st : FillSettlement)
    (t : TokenId) :
    withheldOf (s.postings bookId pair st.balanceOperations) t
      = (if pair.token (feeToken st.fill.takerSide) = t then st.takerFee.toNat else 0)
        + if pair.token (feeToken st.fill.takerSide.opposite) = t then st.makerFee.toNat
          else 0 := by
  have hsurplus : withheldOf (s.postings bookId pair (if st.surplus.isZero then []
      else [.unreserve st.fill.takerOrderSeq .quote st.surplus])) t = 0 := by
    split_ifs <;> rfl
  rw [FillSettlement.balanceOperations]
  simp only [postings, List.map_append] at hsurplus ⊢
  rw [withheldOf_append, withheldOf_append, hsurplus]
  cases hside : st.fill.takerSide with
  | buy =>
      simp only [List.map_singleton, withheldOf, posting, Posting.withheld, nonzero_getD,
        List.sum_singleton, feeToken, Side.opposite, Nat.add_zero]
      exact Nat.add_comm _ _
  | sell =>
      simp only [List.map_singleton, withheldOf, posting, Posting.withheld, nonzero_getD,
        List.sum_singleton, feeToken, Side.opposite, Nat.add_zero]
      rfl

/-- **What an event withholds are the fees of its legs.** -/
lemma withheld_pieces (now : Timestamp) (t : TokenId) (pieces : List Piece) :
    withheldOf (s.postings bookId pair (pieces.flatMap Piece.ops)) t
      = ((pieces.flatMap (Piece.legs bookId now)).map fun leg =>
          if pair.token leg.2.feeToken = t then leg.2.fee.toNat else 0).sum := by
  induction pieces with
  | nil => rfl
  | cons p pieces ih =>
      have hone : withheldOf (s.postings bookId pair p.ops) t
          = ((Piece.legs bookId now p).map fun leg =>
            if pair.token leg.2.feeToken = t then leg.2.fee.toNat else 0).sum := by
        cases p with
        | fill st =>
            rw [Piece.legs, List.map_cons, List.map_singleton, List.sum_cons, List.sum_singleton]
            exact withheld_fill s bookId pair st t
        | refund rs => rfl
      rw [List.flatMap_cons, List.flatMap_cons, List.map_append, List.sum_append, ← ih, ← hone,
        postings, List.map_append, withheldOf_append]
      rfl

lemma pieceLegs_snd (now : Timestamp) (pieces : List Piece) :
    (pieces.flatMap (s.pieceLegs bookId now)).map Prod.snd
      = pieces.flatMap (Piece.legs bookId now) := by
  rw [List.map_flatMap]
  refine List.flatMap_congr fun p _ => ?_
  cases p <;> rfl

/-- **Settling moves legs from the queue to the history** and their fees to the pool. -/
lemma Settled.accounted {before after : List SettlingEvent} {event : SettlingEvent}
    {now : Timestamp} {pieces : List Piece}
    (h : s.Settled (before ++ after) event.bookId now pair scale pieces s') (hs : s.Sound)
    (hx : s.Extends s') (hqueue : s.pendingSettlingEvents = before ++ event :: after)
    (hevent : event = eventOf event.bookId pieces) (ha : s.Accounted) : s'.Accounted := by
  have hsum : ∀ f : TradeId → TradeRecord → ℕ,
      s'.tradeHistory.primary.sum (fun tid e => f tid e.record)
        = s.tradeHistory.primary.sum (fun tid e => f tid e.record)
          + ((pieces.flatMap (Piece.legs event.bookId now)).map fun leg => f leg.1 leg.2).sum := by
    intro f
    rw [TradeHistory.sum_insertLegs f h.trades, ← pieceLegs_snd (s := s), List.map_map]
    rfl
  refine ⟨fun time id r c hr => ?_, fun t => ?_⟩
  · have hr₀ : s.orderHistory.get id = some r := by
      rw [h.state] at hr
      exact hr
    -- The legs carry the time of settling, which no column reads.
    have htime : legTotal (pieces.flatMap (Piece.legs event.bookId now)) id c
        = legTotal (pieces.flatMap (Piece.legs event.bookId time)) id c := by
      rw [legTotal, legTotal, List.map_flatMap, List.map_flatMap]
      refine congrArg List.sum (List.flatMap_congr fun p _ => ?_)
      cases p with
      | fill st => cases c <;> rfl
      | refund rs => rfl
    have hlegs : event.fills.flatMap (s.rebuiltLegs time event.bookId)
        = pieces.flatMap (Piece.legs event.bookId time) := by
      have hx := rebuiltLegs_pieces h.market h.agrees time
      rwa [← hevent] at hx
    have hqueued : s.queuedLegs time
        = before.flatMap (fun e => e.fills.flatMap (s.rebuiltLegs time e.bookId))
          ++ (pieces.flatMap (Piece.legs event.bookId time)
            ++ after.flatMap fun e => e.fills.flatMap (s.rebuiltLegs time e.bookId)) := by
      rw [queuedLegs, hqueue, List.flatMap_append, List.flatMap_cons, hlegs]
    have hqueued' : s'.queuedLegs time
        = before.flatMap (fun e => e.fills.flatMap (s.rebuiltLegs time e.bookId))
          ++ after.flatMap fun e => e.fills.flatMap (s.rebuiltLegs time e.bookId) := by
      rw [queuedLegs, h.state, ← List.flatMap_append]
      refine hs.queuedLegs_mono ?_ (fun e he => ?_) time
      · rw [← h.state]
        exact hx
      · rw [hqueue]
        rcases List.mem_append.mp he with he | he
        · exact List.mem_append_left _ he
        · exact List.mem_append_right _ (List.mem_cons_of_mem _ he)
    have hold := ha.filled time id r c hr₀
    have hnew := hsum fun tid leg => if tid.orderId = id then leg.amount c else 0
    rw [hqueued, legTotal_append, legTotal_append, ← htime] at hold
    rw [hqueued', legTotal_append, settledTotal, hnew, hold, settledTotal]
    show _ = _ + legTotal (pieces.flatMap (Piece.legs event.bookId now)) id c + _
    omega
  · have hfees : s'.feesOf t = s.feesOf t
        + ((pieces.flatMap (Piece.legs event.bookId now)).map fun leg =>
          if pair.token leg.2.feeToken = t then leg.2.fee.toNat else 0).sum := by
      have hpairs : s'.tradingPairs = s.tradingPairs := by rw [h.state]
      have hsame : ∀ tid leg, s'.feeTokenOf tid leg = s.feeTokenOf tid leg := by
        intro tid leg
        rw [feeTokenOf, feeTokenOf, hpairs]
      rw [feesOf]
      simp only [hsame]
      rw [hsum fun tid leg => if s.feeTokenOf tid leg = some t then leg.fee.toNat else 0]
      refine congrArg₂ (· + ·) rfl (congrArg List.sum (List.map_congr_left fun leg hleg => ?_))
      have htoken : s.feeTokenOf leg.1 leg.2 = some (pair.token leg.2.feeToken) := by
        rw [feeTokenOf, legs_book hleg, h.market.pair, Option.map_some]
      rw [htoken]
      simp only [Option.some.injEq]
    rw [h.posted.pool, ha.pool t, hfees, withheld_pieces now]

lemma pool_of_reserve {table table' : TokenBalance} {uid : UserId} {token : TokenId}
    {amount : Quantity} (h : table.reserve uid token amount = .ok (.ok (), table')) :
    table'.feePool = table.feePool := by
  rcases table.reserve_spec uid token amount with ⟨-, e, he⟩ | ⟨he, -⟩ |
    ⟨table₁, b, he, hrow, -⟩
  · rw [h] at he
    cases he
  · rw [h] at he
    cases he
  · rw [h] at he
    cases he
    exact hrow.feePool

lemma pool_of_withdraw {table table' : TokenBalance} {uid : UserId} {token : TokenId}
    {amount : Quantity} (h : table.withdraw uid token amount = .ok (.ok (), table')) :
    table'.feePool = table.feePool := by
  rcases table.withdraw_spec uid token amount with ⟨-, e, he⟩ | ⟨table₁, b, he, hrow, -⟩
  · rw [h] at he
    cases he
  · rw [h] at he
    cases he
    exact hrow.feePool

lemma pool_eq_of_feePool {table table' : TokenBalance} (h : table'.feePool = table.feePool)
    (t : TokenId) : table'.pool t = table.pool t := by
  rw [TokenBalance.pool, TokenBalance.pool, h]

end State

/-- **Every change keeps records, trades and fees in step.** -/
theorem Canister.Change.accounted {c c' : Canister} (hs : c.state.Sound) (hn : c.state.Numbered)
    (ha : c.state.Accounted) (h : c.Change c') : c'.state.Accounted := by
  obtain ⟨-, hx⟩ := h.sound hs
  -- Records that stay as they are.
  have hsame : c'.state.orderHistory = c.state.orderHistory → ∀ id r',
      c'.state.orderHistory.get id = some r' →
      (∃ r, c.state.orderHistory.get id = some r ∧ ∀ col, r'.filled col = r.filled col) ∨
      (c.state.orderHistory.get id = none ∧ ∀ col, r'.filled col = 0) := by
    intro heq id r' hr'
    rw [heq] at hr'
    exact Or.inl ⟨r', hr', fun _ => rfl⟩
  cases h with
  | listed event timestamp hadmits hok =>
      obtain ⟨_, -, -, -, -, -, -, -, hstate⟩ := State.recordTradingPair_eq_ok hok
      exact ha.of_quiet hs hn hx (by rw [hstate])
        (fun now => hs.queuedLegs_same hx (by rw [hstate]) now) (fun t => by rw [hstate])
        (hsame (by rw [hstate]))
  | placed event timestamp order b b' pair scale uid required _ _ h =>
      have hnew := History.get_eq_none_of_insertOnce h.history
      refine ha.of_quiet hs hn hx (by rw [h.state])
        (fun now => hs.queuedLegs_same hx (by rw [h.state]) now)
        (State.pool_eq_of_feePool (State.pool_of_reserve h.reserve)) fun id r' hr' => ?_
      rw [History.get_insertOnce h.history] at hr'
      split_ifs at hr' with he
      · cases hr'
        subst he
        refine Or.inr ⟨hnew, fun col => ?_⟩
        cases col <;> exact Quantity.toNat_zero
      · exact Or.inl ⟨r', hr', fun _ => rfl⟩
  | canceled event timestamp o r r' b b' pair scale refund _ h =>
      refine ha.of_quiet hs hn hx (by rw [h.state]) (fun now => ?_) (fun t => by rw [h.state])
        fun id r₁ hr₁ => ?_
      · have hqueue : c'.state.pendingSettlingEvents
            = c.state.pendingSettlingEvents ++ [eventOf event.orderId.bookId [.refund refund]] := by
          rw [h.state]
        rw [State.queuedLegs, hqueue, List.flatMap_append, List.flatMap_singleton,
          State.eventOf_refund, hs.queuedLegs_mono hx (fun _ he => he) now]
        exact List.append_nil _
      · rw [h.history] at hr₁
        split_ifs at hr₁ with he
        · cases hr₁
          subst he
          exact Or.inl ⟨r, h.record, h.status.2⟩
        · exact Or.inl ⟨r₁, hr₁, fun _ => rfl⟩
  | matched _ _ _ _ _ _ _ _ _ _ _ _ _ _ h => exact h.accounted hs hn ha
  | settled before after event _ _ _ _ hqueue _ hevent h =>
      exact h.accounted hs hx hqueue hevent ha
  | credited _ _ _ _ hok =>
      obtain ⟨_, _, _, -, hdep, hstate⟩ := State.deposit_eq_ok hok
      obtain ⟨_, hrow, -⟩ := TokenBalance.deposit_spec hdep
      refine ha.of_quiet hs hn hx (by rw [hstate])
        (fun now => hs.queuedLegs_same hx (by rw [hstate]) now) (fun t => ?_)
        (hsame (by rw [hstate]))
      rw [hstate]
      exact State.pool_eq_of_feePool hrow.feePool t
  | debited _ _ _ hok =>
      obtain ⟨_, _, -, hwd, hstate⟩ := State.withdraw_eq_ok hok
      refine ha.of_quiet hs hn hx (by rw [hstate])
        (fun now => hs.queuedLegs_same hx (by rw [hstate]) now) (fun t => ?_)
        (hsame (by rw [hstate]))
      rw [hstate]
      exact State.pool_eq_of_feePool (State.pool_of_withdraw hwd) t
  | frame h =>
      exact ha.of_quiet hs hn hx h.tradeHistory (fun now => hs.queuedLegs_same hx h.queue now)
        (fun t => by rw [h.balances]) (hsame h.orderHistory)

theorem World.Reachable.accounted {w : World} (h : w.Reachable) :
    w.canister.state.Accounted := by
  refine (h.invariant (P := fun c => c.state.Numbered ∧ c.state.Accounted)
    (fun arg rt c hinit => ?_)
    fun c c' hs ⟨hn, ha⟩ hchange => ⟨hchange.numbered hs hn, hchange.accounted hs hn ha⟩).2
  obtain ⟨-, -, -, hbooks, hbal, hord, htrades, -⟩ := Canister.init_eq_ok hinit
  refine ⟨⟨fun tid htid => ?_, fun id b hb => ?_⟩, fun now id r c hr => ?_, fun t => ?_⟩
  · rw [htrades] at htid
    cases htid
  · rw [hbooks] at hb
    cases hb
  · rw [hord] at hr
    cases hr
  · rw [hbal, State.feesOf, htrades]
    exact Quantity.toNat_zero

end OisyTrade
