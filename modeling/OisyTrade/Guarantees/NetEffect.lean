import OisyTrade.Invariant.Drain
import OisyTrade.Script

/-!
# The net effect of settling

What settling an event does to the balances, in the words of the fee schedule: `NetFill` reads off
the records of the two orders of a fill who buys from whom, at which limits and rates, and says what
each row and the fee pool gain and lose.  `SettlesNet` adds the fills of an event and its refunds.

The refunds of an event are its `Unreserve` operations, but for those of the takers of its fills, which
return a price improvement.  That they are for different killed or canceled orders is the invariant
`RefundsApart`.
-/

namespace OisyTrade

/-- **A fill, seen from its buyer and its seller.** -/
structure NetFill where
  buyer : UserId
  seller : UserId
  /-- Whether the buyer is the taker. -/
  buyerTakes : Bool
  /-- The limit price of the buyer. -/
  limit : ℕ
  /-- The limit price of the maker, at which the fill executes. -/
  price : ℕ
  quantity : ℕ
  buyerRate : BasisPoint
  sellerRate : BasisPoint
  scale : ℕ

namespace NetFill

/-- The notional of the fill. -/
def notional (x : NetFill) : ℕ := x.price * x.quantity / x.scale

/-- What leaves the reserved balances. -/
def reservedOut (x : NetFill) (pair : TradingPair) (t : TokenId) (u : UserId) : ℕ :=
  (if pair.quote = t ∧ x.buyer = u then
    (if x.buyerTakes then x.limit * x.quantity / x.scale else x.notional) else 0)
  + if pair.base = t ∧ x.seller = u then x.quantity else 0

/-- What arrives in the free balances: the buyer's price improvement, the proceeds and the goods. -/
def freeIn (x : NetFill) (pair : TradingPair) (t : TokenId) (u : UserId) : ℕ :=
  (if pair.quote = t ∧ x.buyer = u then
    (if x.buyerTakes then (x.limit - x.price) * x.quantity / x.scale else 0) else 0)
  + (if pair.quote = t ∧ x.seller = u then x.notional - x.sellerRate.ceilNat x.notional else 0)
  + if pair.base = t ∧ x.buyer = u then x.quantity - x.buyerRate.ceilNat x.quantity else 0

/-- What arrives in the fee pool. -/
def poolIn (x : NetFill) (pair : TradingPair) (t : TokenId) : ℕ :=
  (if pair.quote = t then x.sellerRate.ceilNat x.notional else 0)
  + if pair.base = t then x.buyerRate.ceilNat x.quantity else 0

end NetFill

/-- A queued fill with the records of its two orders. -/
def State.netFill (s : State) (bookId : OrderBookId) (scale : BaseScale) (f : FillEvent) :
    Option NetFill :=
  match s.orderHistory.get (.new bookId f.takerOrderSeq),
      s.orderHistory.get (.new bookId f.makerOrderSeq) with
  | some taker, some maker => some (match taker.side with
      | .buy =>
          { buyer := s.party bookId f.takerOrderSeq, seller := s.party bookId f.makerOrderSeq,
            buyerTakes := true, limit := taker.price.toNat, price := maker.price.toNat,
            quantity := f.quantity.toNat, buyerRate := f.feeRates.taker,
            sellerRate := f.feeRates.maker, scale := scale.get.toNat }
      | .sell =>
          { buyer := s.party bookId f.makerOrderSeq, seller := s.party bookId f.takerOrderSeq,
            buyerTakes := false, limit := maker.price.toNat, price := maker.price.toNat,
            quantity := f.quantity.toNat, buyerRate := f.feeRates.maker,
            sellerRate := f.feeRates.taker, scale := scale.get.toNat })
  | _, _ => none

/-- The fills of an event. -/
def State.netFills (s : State) (scale : BaseScale) (event : SettlingEvent) : List NetFill :=
  event.fills.filterMap (s.netFill event.bookId scale)

/-- **A killed or canceled order that an event refunds**: all that was left of it when it was
removed. -/
structure State.Refunded (s : State) (bookId : OrderBookId) (pair : TradingPair)
    (scale : BaseScale) (seq : OrderSeq) (u : UserId) (t : TokenId) (amount : ℕ) : Prop where
  record : ∃ r, s.orderHistory.get (.new bookId seq) = some r ∧
    (r.status = .canceled ∨ r.status = .expired) ∧
    s.userRegistry.fundingId r.owner = some u ∧ t = pair.token (reserveToken r.side) ∧
    amount = reservation r.side r.price scale (r.quantity.toNat - r.filledQuantity.toNat)

/-- A refund: the order, its owner, the token and the amount. -/
structure NetRefund where
  order : OrderSeq
  user : UserId
  token : TokenId
  amount : ℕ

/-- What a refund moves from reserved to free. -/
def NetRefund.moved (x : NetRefund) (t : TokenId) (u : UserId) : ℕ :=
  if x.token = t ∧ x.user = u then x.amount else 0

/-- The refund that an operation of the event makes.  An `Unreserve` of the taker of a fill returns its
price improvement. -/
def SettlingEvent.refundBy (event : SettlingEvent) :
    BalanceOperation → Option (OrderSeq × PairToken × Quantity)
  | .unreserve order token amount =>
      if event.fills.any fun f => f.takerOrderSeq = order then none else some (order, token, amount)
  | .transfer .. => none

/-- **The refunds of an event**, one for each `Unreserve` of an order that takes no fill of it. -/
def SettlingEvent.refunds (event : SettlingEvent) : List (OrderSeq × PairToken × Quantity) :=
  event.balanceOperations.filterMap event.refundBy

/-- The refunds of an event with the owners of the orders. -/
def State.netRefunds (s : State) (pair : TradingPair) (event : SettlingEvent) : List NetRefund :=
  event.refunds.map fun x =>
    ⟨x.1, s.party event.bookId x.1, pair.token x.2.1, x.2.2.toNat⟩

/-- **Settling the event changes the balances exactly by its fills and refunds.** -/
structure State.SettlesNet (s : State) (event : SettlingEvent) (pair : TradingPair)
    (scale : BaseScale) (s' : State) : Prop where
  market : s.Market event.bookId pair scale
  /-- Every fill of the event counts. -/
  fills : (s.netFills scale event).length = event.fills.length
  /-- The refunds are those of killed or canceled orders. -/
  removed : ∀ x ∈ s.netRefunds pair event,
    s.Refunded event.bookId pair scale x.order x.user x.token x.amount
  /-- No order is refunded twice. -/
  once : ((s.netRefunds pair event).map (·.order)).Nodup
  reserved : ∀ t u, s'.balances.reserved t u
      + (((s.netFills scale event).map fun x => x.reservedOut pair t u).sum
        + ((s.netRefunds pair event).map fun x => x.moved t u).sum) = s.balances.reserved t u
  free : ∀ t u, s'.balances.free t u = s.balances.free t u
      + (((s.netFills scale event).map fun x => x.freeIn pair t u).sum
        + ((s.netRefunds pair event).map fun x => x.moved t u).sum)
  pool : ∀ t, s'.balances.pool t = s.balances.pool t
      + ((s.netFills scale event).map fun x => x.poolIn pair t).sum

namespace State

variable {s s' : State} {bookId : OrderBookId} {pair : TradingPair} {scale : BaseScale}

/-- The three sums of postings. -/
lemma postings_append (ops ops' : List BalanceOperation) :
    s.postings bookId pair (ops ++ ops')
      = s.postings bookId pair ops ++ s.postings bookId pair ops' := List.map_append

/-- The price improvement, as postings. -/
lemma surplus_postings (st : FillSettlement) (t : TokenId) (u : UserId) :
    debits (s.postings bookId pair (if st.surplus.isZero then []
        else [.unreserve st.fill.takerOrderSeq .quote st.surplus])) t u
      = (if pair.quote = t ∧ s.party bookId st.fill.takerOrderSeq = u then st.surplus.toNat else 0) ∧
    credits (s.postings bookId pair (if st.surplus.isZero then []
        else [.unreserve st.fill.takerOrderSeq .quote st.surplus])) t u
      = if pair.quote = t ∧ s.party bookId st.fill.takerOrderSeq = u then st.surplus.toNat
        else 0 := by
  by_cases hz : st.surplus.isZero = true
  · rw [if_pos hz, Quantity.isZero_iff.mp hz, ite_self]
    exact ⟨rfl, rfl⟩
  · rw [if_neg hz]
    exact ⟨List.sum_singleton, List.sum_singleton⟩

/-- **The operations of a fill have its net effect.** -/
lemma FillPiece.netFill {st : FillSettlement} {taker maker : OrderRecord}
    (h : s.FillPiece bookId scale st taker maker) (pair : TradingPair) :
    ∃ x, s.netFill bookId scale st.fillEvent = some x ∧
      (∀ t u, debits (s.postings bookId pair st.balanceOperations) t u = x.reservedOut pair t u) ∧
      (∀ t u, credits (s.postings bookId pair st.balanceOperations) t u = x.freeIn pair t u) ∧
      ∀ t, withheldOf (s.postings bookId pair st.balanceOperations) t = x.poolIn pair t := by
  have hspec := FillSettlement.of_new h.new
  have hnot := hspec.notional_eq
  have hsur := hspec.surplus
  have htf := hspec.takerFee
  have hmf := hspec.makerFee
  have hcross := h.crosses
  have htaker : s.orderHistory.get (.new bookId st.fillEvent.takerOrderSeq) = some taker := h.taker
  have hmaker : s.orderHistory.get (.new bookId st.fillEvent.makerOrderSeq) = some maker := h.maker
  rw [h.makerPrice] at hnot
  have hwith := fun t => withheld_fill s bookId pair st t
  refine ⟨_, by rw [State.netFill, htaker, hmaker], ?_⟩
  cases hside : taker.side with
  | buy =>
      have hts : st.fill.takerSide = .buy := h.takerSide.trans hside
      rw [hts] at hsur htf hmf
      rw [hside] at hcross
      replace hsur : st.surplus.toNat * scale.get.toNat
          = (st.fill.takerPrice.toNat - st.fill.makerPrice.toNat) * st.fill.quantity.toNat := hsur
      rw [h.takerPrice, h.makerPrice] at hsur
      have hle : maker.price.toNat ≤ taker.price.toNat :=
        Price.le_def.mp (of_decide_eq_true hcross)
      have hsurplus : st.surplus.toNat
          = (taker.price.toNat - maker.price.toNat) * st.fill.quantity.toNat
            / scale.get.toNat := by
        rw [← hsur, Nat.mul_div_cancel _ scale.pos]
      have htotal : st.notional.toNat + st.surplus.toNat
          = taker.price.toNat * st.fill.quantity.toNat / scale.get.toNat := by
        have hmul : (st.notional.toNat + st.surplus.toNat) * scale.get.toNat
            = taker.price.toNat * st.fill.quantity.toNat := by
          rw [Nat.add_mul, hspec.notional, hsur, h.makerPrice, ← Nat.add_mul,
            Nat.add_sub_cancel' hle]
        rw [← hmul, Nat.mul_div_cancel _ scale.pos]
      refine ⟨fun t u => ?_, fun t u => ?_, fun t => ?_⟩
      · rw [FillSettlement.balanceOperations, postings_append, postings_append, debits_append,
          debits_append, (surplus_postings st t u).1, hts]
        simp only [NetFill.reservedOut, if_true, FillSettlement.fillEvent, ← htotal]
        show (if pair.quote = t ∧ s.party bookId st.fill.takerOrderSeq = u then
              st.notional.toNat else 0) + 0
            + (if pair.quote = t ∧ s.party bookId st.fill.takerOrderSeq = u then
              st.surplus.toNat else 0)
            + ((if pair.base = t ∧ s.party bookId st.fill.makerOrderSeq = u then
              st.fill.quantity.toNat else 0) + 0)
          = (if pair.quote = t ∧ s.party bookId st.fill.takerOrderSeq = u then
              st.notional.toNat + st.surplus.toNat else 0)
            + if pair.base = t ∧ s.party bookId st.fill.makerOrderSeq = u then
              st.fill.quantity.toNat else 0
        split_ifs <;> omega
      · rw [FillSettlement.balanceOperations, postings_append, postings_append, credits_append,
          credits_append, (surplus_postings st t u).2, hts]
        simp only [NetFill.freeIn, NetFill.notional, if_true, FillSettlement.fillEvent, ← hsurplus,
          ← hnot]
        show (if pair.quote = t ∧ _ then _ - ((nonzero st.makerFee).getD Quantity.zero).toNat else 0)
          + 0 + _ + ((if pair.base = t ∧ _ then
            _ - ((nonzero st.takerFee).getD Quantity.zero).toNat else 0) + 0) = _
        rw [nonzero_getD, nonzero_getD, htf, hmf, hspec.feeRates]
        simp only [received, Side.opposite, Nat.add_zero]
        ac_rfl
      · rw [hwith, hts, htf, hmf, hspec.feeRates]
        simp only [NetFill.poolIn, NetFill.notional, FillSettlement.fillEvent, ← hnot, received,
          Side.opposite, feeToken, TradingPair.token]
        ac_rfl
  | sell =>
      have hts : st.fill.takerSide = .sell := h.takerSide.trans hside
      rw [hts] at hsur htf hmf
      have hzero : st.surplus.toNat = 0 :=
        (Nat.mul_eq_zero.mp (show _ * scale.get.toNat = 0 from hsur)).resolve_right scale.pos.ne'
      refine ⟨fun t u => ?_, fun t u => ?_, fun t => ?_⟩
      · rw [FillSettlement.balanceOperations, postings_append, postings_append, debits_append,
          debits_append, (surplus_postings st t u).1, hzero, ite_self, hts]
        simp only [NetFill.reservedOut, NetFill.notional, Bool.false_eq_true, if_false,
          FillSettlement.fillEvent, ← hnot]
        rfl
      · rw [FillSettlement.balanceOperations, postings_append, postings_append, credits_append,
          credits_append, (surplus_postings st t u).2, hzero, ite_self, hts]
        simp only [NetFill.freeIn, NetFill.notional, Bool.false_eq_true, if_false, ite_self,
          FillSettlement.fillEvent, ← hnot]
        show (if pair.quote = t ∧ _ then _ - ((nonzero st.takerFee).getD Quantity.zero).toNat else 0)
          + 0 + 0 + ((if pair.base = t ∧ _ then
            _ - ((nonzero st.makerFee).getD Quantity.zero).toNat else 0) + 0) = _
        rw [nonzero_getD, nonzero_getD, htf, hmf, hspec.feeRates]
        simp only [received, Side.opposite, Nat.add_zero, Nat.zero_add]
        rfl
      · rw [hwith, hts, htf, hmf, hspec.feeRates]
        simp only [NetFill.poolIn, NetFill.notional, FillSettlement.fillEvent, ← hnot, received,
          Side.opposite, feeToken, TradingPair.token]
        rfl

/-- The refund of a piece. -/
def pieceRefund (s : State) (bookId : OrderBookId) (pair : TradingPair) : Piece → List NetRefund
  | .fill _ => []
  | .refund rs => [⟨rs.orderSeq, s.party bookId rs.orderSeq, pair.token rs.token, rs.amount.toNat⟩]

/-- A refund gives back all that was left. -/
lemma RefundPiece.refunded {rs : RemovedOrderSettlement} {r : OrderRecord} (hs : s.Sound)
    (h : s.RefundPiece bookId scale rs r) :
    s.Refunded bookId pair scale rs.orderSeq (s.party bookId rs.orderSeq) (pair.token rs.token)
      rs.amount.toNat := by
  obtain ⟨q, hq, -, hnew⟩ := h.new
  obtain ⟨-, htoken, hamount, -⟩ := RemovedOrderSettlement.of_new hnew
  obtain ⟨u, hu⟩ := (hs.records _ r h.record).owner
  refine ⟨r, h.record, h.removed, ?_, ?_, ?_⟩
  · rw [party_eq h.record hu, hu]
  · rw [htoken]
  · rw [hamount, ← hq, Nat.add_sub_cancel]

/-- **The operations of a list of pieces add up to the fills and refunds among them.** -/
lemma pieces_net {pieces : List Piece} (h : ∀ p ∈ pieces, s.PieceOk bookId scale p) :
    ((pieces.flatMap Piece.fillEvents).filterMap (s.netFill bookId scale)).length
        = (pieces.flatMap Piece.fillEvents).length ∧
      (∀ t u, debits (s.postings bookId pair (pieces.flatMap Piece.ops)) t u
        = (((pieces.flatMap Piece.fillEvents).filterMap (s.netFill bookId scale)).map
            fun x => x.reservedOut pair t u).sum
          + ((pieces.flatMap (s.pieceRefund bookId pair)).map fun x => x.moved t u).sum) ∧
      (∀ t u, credits (s.postings bookId pair (pieces.flatMap Piece.ops)) t u
        = (((pieces.flatMap Piece.fillEvents).filterMap (s.netFill bookId scale)).map
            fun x => x.freeIn pair t u).sum
          + ((pieces.flatMap (s.pieceRefund bookId pair)).map fun x => x.moved t u).sum) ∧
      ∀ t, withheldOf (s.postings bookId pair (pieces.flatMap Piece.ops)) t
        = (((pieces.flatMap Piece.fillEvents).filterMap (s.netFill bookId scale)).map
            fun x => x.poolIn pair t).sum := by
  induction pieces with
  | nil => exact ⟨rfl, fun _ _ => rfl, fun _ _ => rfl, fun _ => rfl⟩
  | cons p pieces ih =>
      obtain ⟨hlen, hd, hc, hw⟩ := ih fun q hq => h q (List.mem_cons_of_mem _ hq)
      simp only [List.flatMap_cons, postings_append, debits_append, credits_append,
        withheldOf_append, List.filterMap_append, List.map_append, List.sum_append,
        List.length_append, hlen, hd, hc, hw]
      cases p with
      | fill st =>
          obtain ⟨taker, maker, hpiece⟩ := h (.fill st) List.mem_cons_self
          obtain ⟨x, hx, hdx, hcx, hwx⟩ := hpiece.netFill pair
          have hone : (Piece.fillEvents (.fill st)).filterMap (s.netFill bookId scale) = [x] := by
            rw [Piece.fillEvents, List.filterMap_cons_some hx, List.filterMap_nil]
          simp only [Piece.ops, hone, hdx, hcx, hwx, List.map_cons, List.map_nil, List.sum_cons,
            List.sum_nil, pieceRefund, Nat.add_zero, Nat.zero_add, Nat.add_assoc]
          exact ⟨rfl, fun _ _ => trivial, fun _ _ => trivial, fun _ => trivial⟩
      | refund rs =>
          have hnone : (Piece.fillEvents (.refund rs)).filterMap (s.netFill bookId scale) = [] := rfl
          have hdebit : ∀ t u, debits (s.postings bookId pair (Piece.refund rs).ops) t u
              = ((s.pieceRefund bookId pair (.refund rs)).map fun x => x.moved t u).sum :=
            fun _ _ => rfl
          have hcredit : ∀ t u, credits (s.postings bookId pair (Piece.refund rs).ops) t u
              = ((s.pieceRefund bookId pair (.refund rs)).map fun x => x.moved t u).sum :=
            fun _ _ => rfl
          have hpool : ∀ t, withheldOf (s.postings bookId pair (Piece.refund rs).ops) t = 0 :=
            fun _ => rfl
          simp only [hnone, hdebit, hcredit, hpool, List.map_nil, List.sum_nil, Nat.zero_add]
          exact ⟨rfl, fun _ _ => Nat.add_left_comm _ _ _, fun _ _ => Nat.add_left_comm _ _ _,
            fun _ => trivial⟩

/-! ## The refunds of an event -/

/-- The refund that a piece makes. -/
def pieceRemoved : Piece → Option RemovedOrderSettlement
  | .fill _ => none
  | .refund rs => some rs

/-- **The refunds are for different orders**, which take no fill among the pieces. -/
structure Apart (pieces : List Piece) : Prop where
  nodup : ((pieces.filterMap pieceRemoved).map fun rs => rs.orderSeq).Nodup
  taker : ∀ rs, .refund rs ∈ pieces → ∀ st, .fill st ∈ pieces →
    st.fill.takerOrderSeq ≠ rs.orderSeq

/-- The refunds of an event are those of its pieces. -/
lemma Apart.refunds_eq {pieces : List Piece} (h : Apart pieces) :
    (eventOf bookId pieces).refunds
      = (pieces.filterMap pieceRemoved).map fun rs => (rs.orderSeq, rs.token, rs.amount) := by
  have hpiece : ∀ p ∈ pieces, p.ops.filterMap (eventOf bookId pieces).refundBy
      = ((pieceRemoved p).map fun rs => (rs.orderSeq, rs.token, rs.amount)).toList := by
    intro p hp
    cases p with
    | fill st =>
        have htakes : ((eventOf bookId pieces).fills.any fun f =>
            f.takerOrderSeq = st.fill.takerOrderSeq) = true :=
          List.any_eq_true.mpr ⟨_, fillEvent_mem bookId hp, decide_eq_true rfl⟩
        refine List.filterMap_eq_nil_iff.mpr fun op hop => ?_
        rw [Piece.ops, FillSettlement.balanceOperations, List.mem_append, List.mem_append,
          List.mem_singleton, List.mem_singleton] at hop
        rcases hop with (rfl | hop) | rfl
        · rfl
        · split_ifs at hop
          · cases hop
          · rw [List.mem_singleton.mp hop]
            exact if_pos htakes
        · rfl
    | refund rs =>
        have hnone : ¬ ((eventOf bookId pieces).fills.any fun f =>
            f.takerOrderSeq = rs.orderSeq) = true := by
          intro hany
          obtain ⟨f, hf, he⟩ := List.any_eq_true.mp hany
          obtain ⟨st, hst, rfl⟩ := exists_piece_of_fill hf
          exact h.taker rs hp st hst (of_decide_eq_true he)
        have hone : (eventOf bookId pieces).refundBy (.unreserve rs.orderSeq rs.token rs.amount)
            = some (rs.orderSeq, rs.token, rs.amount) := if_neg hnone
        exact List.filterMap_cons_some hone
  have hops : (eventOf bookId pieces).balanceOperations = pieces.flatMap Piece.ops := rfl
  rw [SettlingEvent.refunds, hops, List.filterMap_flatMap, List.flatMap_congr hpiece,
    List.map_filterMap, List.filterMap_eq_flatMap_toList]

/-- **Every queued event keeps its refunds apart.** -/
def RefundsApart (s : State) : Prop :=
  ∀ event ∈ s.pendingSettlingEvents, ∃ pair scale pieces, s.Market event.bookId pair scale ∧
    event = eventOf event.bookId pieces ∧ (∀ p ∈ pieces, s.PieceOk event.bookId scale p) ∧
    Apart pieces

/-- The rule for changes that queue nothing. -/
lemma RefundsApart.mono (h : s.RefundsApart) (hx : s.Extends s')
    (hqueue : ∀ event ∈ s'.pendingSettlingEvents, event ∈ s.pendingSettlingEvents) :
    s'.RefundsApart := by
  intro event hevent
  obtain ⟨pair, scale, pieces, hm, he, hok, hapart⟩ := h event (hqueue event hevent)
  exact ⟨pair, scale, pieces, hx.market hm, he, fun p hp => (hok p hp).mono hx, hapart⟩

lemma apart_refund (rs : RemovedOrderSettlement) : Apart [.refund rs] := by
  refine ⟨List.nodup_singleton _, fun _ _ st hst => ?_⟩
  cases List.mem_singleton.mp hst

/-- The groups of a batch keep their refunds apart. -/
lemma Matched.apart {now : Timestamp} {b b' : OrderBook} {orders : List Order}
    {out : OrderBook.StepOut} {fills : List FillSettlement} {refunds : List RemovedOrderSettlement}
    {groups : List (List Piece)} (hs : s.Sound)
    (h : s.Matched bookId now b b' orders out pair scale fills refunds groups s')
    {group : List Piece} (hgroup : group ∈ groups) : Apart group := by
  have hsub : group.Sublist groups.flatten := List.sublist_flatten_of_mem hgroup
  rw [h.pieces] at hsub
  constructor
  · have hfills : (fills.map Piece.fill).filterMap pieceRemoved = [] :=
      List.filterMap_eq_nil_iff.mpr fun p hp => by
        obtain ⟨st, -, rfl⟩ := List.mem_map.mp hp
        rfl
    have hrefunds : (refunds.map Piece.refund).filterMap pieceRemoved = refunds := by
      rw [List.filterMap_map]
      exact List.filterMap_some
    have hall := hsub.filterMap pieceRemoved
    rw [List.filterMap_append, hfills, hrefunds, List.nil_append] at hall
    exact h.nodup_refunds.sublist (hall.map _)
  · intro rs hrs st hst he
    have hrs' : rs ∈ refunds := by
      have hx := hsub.subset hrs
      simpa using hx
    have hst' : st ∈ fills := by
      have hx := hsub.subset hst
      simpa using hx
    -- A killed order has no fill in the output of the book.
    obtain ⟨o, -, hseq, -, -, -, hnone, -⟩ := h.refund_order hs hrs'
    obtain ⟨f, hf, hnew⟩ := forall₂_mem_right h.settled hst'
    have hfill : st.fill = f := (FillSettlement.of_new hnew).fill
    have hinvolved : f ∈ fillsOn out.fills o.id := by
      refine List.mem_filter.mpr ⟨hf, ?_⟩
      rw [← hseq, ← he, hfill, Fill.involves]
      simp
    rw [hnone] at hinvolved
    cases hinvolved

/-- **Settling a queued event has the net effect of its fills and refunds.** -/
lemma Drained.settlesNet {queue : List SettlingEvent} {event : SettlingEvent} {now : Timestamp}
    (hs : s.Sound) (hr : s.RefundsApart) (hevent : event ∈ s.pendingSettlingEvents)
    (h : s.Drained [event] queue now s') : ∃ pair scale, s.SettlesNet event pair scale s' := by
  obtain ⟨pair, scale, pieces, hm, he, hok, hapart⟩ := hr event hevent
  have hfills : event.fills = pieces.flatMap Piece.fillEvents := by
    rw [← eventOf_fills event.bookId, ← he]
  have hops : event.balanceOperations = pieces.flatMap Piece.ops :=
    congrArg SettlingEvent.balanceOperations he
  have hposted := h.posted
  rw [List.flatMap_singleton, eventPostings_eq hm, hops] at hposted
  have hall : event.refunds
      = (pieces.filterMap pieceRemoved).map fun rs => (rs.orderSeq, rs.token, rs.amount) := by
    have hx : (eventOf event.bookId pieces).refunds = _ := hapart.refunds_eq
    rwa [← he] at hx
  have hrefunds : s.netRefunds pair event = pieces.flatMap (s.pieceRefund event.bookId pair) := by
    rw [netRefunds, hall, List.map_map, List.map_filterMap, List.filterMap_eq_flatMap_toList]
    refine List.flatMap_congr fun p _ => ?_
    cases p <;> rfl
  obtain ⟨hlen, hd, hc, hw⟩ := @pieces_net s event.bookId pair scale pieces hok
  refine ⟨pair, scale, hm, ?_, ?_, ?_, fun t u => ?_, fun t u => ?_, fun t => ?_⟩
  · rw [netFills, hfills, hlen]
  · intro x hx
    rw [hrefunds] at hx
    obtain ⟨p, hp, hx⟩ := List.mem_flatMap.mp hx
    cases p with
    | fill st => cases hx
    | refund rs =>
        obtain ⟨r, hr⟩ := hok _ hp
        rw [List.mem_singleton.mp hx]
        exact hr.refunded hs
  · rw [netRefunds, hall, List.map_map, List.map_map]
    exact hapart.nodup
  · rw [netFills, hfills, hrefunds, ← hd]
    exact hposted.reserved t u
  · rw [netFills, hfills, hrefunds, ← hc]
    exact hposted.free t u
  · rw [netFills, hfills, ← hw]
    exact hposted.pool t

end State

/-- **Every change keeps the refunds apart.** -/
lemma Canister.Change.refundsApart {c c' : Canister} (hs : c.state.Sound)
    (hr : c.state.RefundsApart) (h : c.Change c') : c'.state.RefundsApart := by
  obtain ⟨hs', hx⟩ := h.sound hs
  cases h with
  | listed event timestamp hadmits hok =>
      obtain ⟨_, -, -, -, -, -, -, -, hstate⟩ := State.recordTradingPair_eq_ok hok
      exact hr.mono hx fun e he => by rwa [hstate] at he
  | placed _ _ _ _ _ _ _ _ _ _ _ h => exact hr.mono hx fun e he => by rwa [h.state] at he
  | canceled event _ _ _ r' _ _ pair scale refund _ h =>
      have hqueue : c'.state.pendingSettlingEvents = c.state.pendingSettlingEvents
          ++ [eventOf event.orderId.bookId [.refund refund]] := by rw [h.state]
      intro e he
      rw [hqueue, List.mem_append, List.mem_singleton] at he
      rcases he with he | rfl
      · obtain ⟨pair, scale, pieces, hm, heq, hok, hapart⟩ := hr e he
        exact ⟨pair, scale, pieces, hx.market hm, heq, fun p hp => (hok p hp).mono hx, hapart⟩
      · refine ⟨pair, scale, _, hx.market h.market, rfl, fun p hp => ?_, State.apart_refund refund⟩
        rw [List.mem_singleton.mp hp]
        exact ⟨r', h.refundPiece hs⟩
  | matched event _ _ _ _ _ pair scale _ _ groups _ _ _ h =>
      have hqueue : c'.state.pendingSettlingEvents = c.state.pendingSettlingEvents
          ++ groups.map (eventOf event.bookId) := by rw [h.state]
      intro e he
      rw [hqueue, List.mem_append, List.mem_map] at he
      rcases he with he | ⟨group, hgroup, rfl⟩
      · obtain ⟨pair, scale, pieces, hm, heq, hok, hapart⟩ := hr e he
        exact ⟨pair, scale, pieces, hx.market hm, heq, fun p hp => (hok p hp).mono hx, hapart⟩
      · refine ⟨pair, scale, group, hx.market h.market, rfl, fun p hp => ?_, h.apart hs hgroup⟩
        exact h.pieceOk hs (List.mem_flatten.mpr ⟨group, hgroup, hp⟩)
  | settled before after event _ _ _ _ hqueue _ _ h =>
      refine hr.mono hx fun e he => ?_
      rw [h.state] at he
      rw [hqueue]
      rcases List.mem_append.mp he with he | he
      · exact List.mem_append_left _ he
      · exact List.mem_append_right _ (List.mem_cons_of_mem _ he)
  | credited _ _ _ _ hok =>
      obtain ⟨_, _, _, -, -, hstate⟩ := State.deposit_eq_ok hok
      exact hr.mono hx fun e he => by rwa [hstate] at he
  | debited _ _ _ hok =>
      obtain ⟨_, _, -, -, hstate⟩ := State.withdraw_eq_ok hok
      exact hr.mono hx fun e he => by rwa [hstate] at he
  | frame h => exact hr.mono hx fun e he => by rwa [h.queue] at he

namespace World

lemma Reachable.refundsApart {w : World} (h : w.Reachable) : w.canister.state.RefundsApart := by
  refine h.invariant (P := fun c => c.state.RefundsApart) (fun arg rt c hinit e he => ?_)
    fun c c' hs hr hchange => hchange.refundsApart hs hr
  obtain ⟨-, -, -, -, -, -, -, -, hqueue, -⟩ := Canister.init_eq_ok hinit
  rw [hqueue] at he
  cases he

/-- Settling the event has a net effect: it succeeds, and the balances change as `SettlesNet` says. -/
def NetEffect (s : State) (queue : List SettlingEvent) (event : SettlingEvent) (now : Timestamp) :
    Prop :=
  ∃ s' pair scale,
    State.recordSettlingEvent { s with pendingSettlingEvents := queue } event now .write = .ok s' ∧
      s.SettlesNet event pair scale s'

/-- **Settling has the net effect of the fee schedule.**  At every point of the execution of any
message in any reachable world, the balances change by what the fills and refunds of a queued event say
and by nothing else, exactly if there is room for the event: in the rows that it credits, in the fee
pools and in the trade history. -/
theorem Reachable.settles_net {w : World} (h : w.Reachable) {c : Canister}
    (hacts : w.canister.Acts c) {before after : List SettlingEvent} {event : SettlingEvent}
    (hqueue : c.state.pendingSettlingEvents = before ++ event :: after) (now : Timestamp) :
    NetEffect c.state (before ++ after) event now ↔ c.state.RoomFor [event] := by
  have hsteady := hacts.steady h.steady
  have hs := hsteady.sound
  have hmem : event ∈ c.state.pendingSettlingEvents := by simp [hqueue]
  have hapart := (hacts.invariant (P := fun c => c.state.RefundsApart) h.guarded.sound h.refundsApart
    fun _ _ hs hr hchange => hchange.refundsApart hs hr).2
  constructor
  · rintro ⟨s', -, -, hok, -⟩
    obtain ⟨pair, scale, pieces, hevent, hset⟩ := hs.settled hqueue hok
    exact (hset.drained hevent).roomFor
      (fun e he => by rw [List.mem_singleton.mp he]; exact hs.queue event hmem) hsteady.stored
  · intro hroom
    have hout := hs.settle_outcome hsteady.backed hsteady.numbered hqueue now
    obtain ⟨s', hok, pair, scale, pieces, hevent, hset⟩ :=
      Except.Outcome.returns (hout.mono (fun e he => he.not_roomFor hroom) fun _ hx => hx)
    obtain ⟨pair', scale', hnet⟩ := (hset.drained hevent).settlesNet hs hapart hmem
    exact ⟨s', pair', scale', hok, hnet⟩

/-- The queued trade of the sample run settles. -/
theorem settles_net_sampleWorld : ∃ event,
    sampleWorld.canister.state.pendingSettlingEvents = [event] ∧ event.fills.length = 1 ∧
      NetEffect sampleWorld.canister.state [] event ⟨0⟩ := by
  have hfills : sampleWorld.canister.state.pendingSettlingEvents.map (·.fills.length) = [1] := by
    decide +kernel
  obtain ⟨event, hevent, hlen⟩ := List.map_eq_singleton_iff.mp hfills
  have hroom := reachable_sampleWorld.steady.roomFor_of_fits
    ⟨sampleWorld_total, by decide +kernel⟩
  rw [hevent] at hroom
  have hqueue : sampleWorld.canister.state.pendingSettlingEvents = [] ++ event :: [] := hevent
  exact ⟨event, hevent, hlen, (reachable_sampleWorld.settles_net (.refl _) hqueue ⟨0⟩).mpr hroom⟩

/-- The run at the brim: the seller's proceeds do not fit, so the event cannot be settled. -/
theorem not_settles_net_brimWorld : ¬ ∀ (w : World), w.Reachable → ∀ before event after,
    w.canister.state.pendingSettlingEvents = before ++ event :: after →
      ∀ now, NetEffect w.canister.state (before ++ after) event now := by
  intro hall
  have htraps : (brimWorld.canister.state.pendingSettlingEvents.map fun event =>
      (State.recordSettlingEvent { brimWorld.canister.state with pendingSettlingEvents := [] }
        event ⟨0⟩ .write).trap) = [some (.bug .depositOverflow)] := by decide +kernel
  obtain ⟨event, hevent, htrap⟩ := List.map_eq_singleton_iff.mp htraps
  obtain ⟨s', pair, scale, hok, -⟩ :=
    hall brimWorld reachable_brimWorld [] event [] hevent ⟨0⟩
  rw [List.append_nil] at hok
  rw [hok] at htrap
  cases htrap

end World

end OisyTrade
