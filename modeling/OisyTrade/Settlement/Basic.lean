import OisyTrade.Order.Book
import OisyTrade.Order.History

/-!
# From fills to balance operations

`settlement/mod.rs`: what a round of matching turns into.  Every fill becomes a settlement unit of
two or three balance operations with a lean `FillEvent`; every killed order becomes a unit that
releases its reservation.  Units are packed into batches of bounded size.  The records of the
orders are updated with the sums of the fills and their new statuses.
-/

namespace OisyTrade

/-- `event::BalanceOperation`.  Parties are order sequences of the event's book. -/
inductive BalanceOperation
  | transfer (fromOrder toOrder : OrderSeq) (token : PairToken) (amount : Quantity)
      (fee : Option Quantity)
  | unreserve (order : OrderSeq) (token : PairToken) (amount : Quantity)
deriving DecidableEq

/-- `FillEvent`. -/
structure FillEvent where
  fillSeq : FillSeq
  takerOrderSeq : OrderSeq
  makerOrderSeq : OrderSeq
  quantity : Quantity
  feeRates : FeeRates
deriving DecidableEq

/-- `fee_token`: fees are charged in the token the side receives. -/
def feeToken : Side → PairToken
  | .buy => .base
  | .sell => .quote

/-- `nonzero`. -/
def nonzero (q : Quantity) : Option Quantity := if q.isZero then none else some q

/-- `fees`: the notional and the fees of the taker and of the maker. -/
def fees (makerPrice : Price) (quantity : Quantity) (takerSide : Side) (feeRates : FeeRates)
    (baseScale : BaseScale) : Except Trap (Quantity × Quantity × Quantity) := do
  let (buyerRate, sellerRate) := match takerSide with
    | .buy => (feeRates.taker, feeRates.maker)
    | .sell => (feeRates.maker, feeRates.taker)
  let notional ← makerPrice.checkedMulQuantityScaled quantity baseScale
  let notional ← expectBug notional .notionalOverflow
  let quoteFee ← sellerRate.mulCeil notional
  let baseFee ← buyerRate.mulCeil quantity
  match takerSide with
  | .buy => .ok (notional, baseFee, quoteFee)
  | .sell => .ok (notional, quoteFee, baseFee)

/-- `FillSettlement`. -/
structure FillSettlement where
  fill : Fill
  notional : Quantity
  takerFee : Quantity
  makerFee : Quantity
  surplus : Quantity
  feeRates : FeeRates

namespace FillSettlement

/-- The price improvement of a buy taker. -/
def surplusOf (fill : Fill) (baseScale : BaseScale) : Except Trap Quantity :=
  match fill.takerSide with
  | .sell => .ok Quantity.zero
  | .buy =>
      match fill.takerPrice.checkedSub fill.makerPrice with
      | none => .ok Quantity.zero
      | some diff =>
          if diff.isZero then .ok Quantity.zero
          else do
            let surplus ← diff.checkedMulQuantityScaled fill.quantity baseScale
            expectBug surplus .priceDiffOverflow

/-- `FillSettlement::new`. -/
def new (fill : Fill) (feeRates : FeeRates) (baseScale : BaseScale) :
    Except Trap FillSettlement := do
  let (notional, takerFee, makerFee) ←
    fees fill.makerPrice fill.quantity fill.takerSide feeRates baseScale
  let surplus ← surplusOf fill baseScale
  .ok { fill, notional, takerFee, makerFee, surplus, feeRates }

/-- `FillSettlement::balance_operations`. -/
def balanceOperations (s : FillSettlement) : List BalanceOperation :=
  let (buyerSeq, sellerSeq) := match s.fill.takerSide with
    | .buy => (s.fill.takerOrderSeq, s.fill.makerOrderSeq)
    | .sell => (s.fill.makerOrderSeq, s.fill.takerOrderSeq)
  let (quoteFee, baseFee) := match s.fill.takerSide with
    | .buy => (s.makerFee, s.takerFee)
    | .sell => (s.takerFee, s.makerFee)
  [.transfer buyerSeq sellerSeq .quote s.notional (nonzero quoteFee)]
    ++ (if s.surplus.isZero then []
        else [.unreserve s.fill.takerOrderSeq .quote s.surplus])
    ++ [.transfer sellerSeq buyerSeq .base s.fill.quantity (nonzero baseFee)]

/-- One party of `accrue_fill`. -/
def accrueOrder (s : FillSettlement) (updates : SortedMap OrderSeq OrderUpdate)
    (orderSeq : OrderSeq) (fee : Quantity) : Except Trap (SortedMap OrderSeq OrderUpdate) := do
  let update := (updates.get orderSeq).getD .default
  let filledDelta ← expectBug (update.filledDelta.checkedAdd s.fill.quantity) .filledDeltaOverflow
  let quoteDelta ← expectBug (update.quoteDelta.checkedAdd s.notional) .quoteDeltaOverflow
  let feeDelta ← expectBug (update.feeDelta.checkedAdd fee) .feeDeltaOverflow
  .ok (updates.insert orderSeq { update with filledDelta, quoteDelta, feeDelta })

/-- `FillSettlement::accrue_fill`: the maker first. -/
def accrueFill (s : FillSettlement) (updates : SortedMap OrderSeq OrderUpdate) :
    Except Trap (SortedMap OrderSeq OrderUpdate) := do
  let updates ← s.accrueOrder updates s.fill.makerOrderSeq s.makerFee
  s.accrueOrder updates s.fill.takerOrderSeq s.takerFee

/-- `FillSettlement::fill_event`. -/
def fillEvent (s : FillSettlement) : FillEvent :=
  { fillSeq := s.fill.fillSeq, takerOrderSeq := s.fill.takerOrderSeq,
    makerOrderSeq := s.fill.makerOrderSeq, quantity := s.fill.quantity, feeRates := s.feeRates }

end FillSettlement

/-- `FillEvent::trade_legs`. -/
def FillEvent.tradeLegs (f : FillEvent) (bookId : OrderBookId) (takerSide : Side)
    (makerPrice : Price) (baseScale : BaseScale) (timestamp : Timestamp) :
    Except Trap (TradeLeg × TradeLeg) := do
  let (notional, takerFee, makerFee) ←
    fees makerPrice f.quantity takerSide f.feeRates baseScale
  let makerSide := takerSide.opposite
  let takerLeg : TradeRecord :=
    { side := takerSide, price := makerPrice, quantity := f.quantity, notional, fee := takerFee,
      feeToken := feeToken takerSide, isMaker := false, timestamp }
  let makerLeg : TradeRecord :=
    { side := makerSide, price := makerPrice, quantity := f.quantity, notional, fee := makerFee,
      feeToken := feeToken makerSide, isMaker := true, timestamp }
  .ok ((TradeId.new (OrderId.new bookId f.takerOrderSeq) f.fillSeq, takerLeg),
    (TradeId.new (OrderId.new bookId f.makerOrderSeq) f.fillSeq, makerLeg))

/-- `RemovedOrderSettlement`. -/
structure RemovedOrderSettlement where
  orderSeq : OrderSeq
  token : PairToken
  amount : Quantity

namespace RemovedOrderSettlement

/-- `RemovedOrderSettlement::new`. -/
def new (orderSeq : OrderSeq) (removed : RemovedOrder) (baseScale : BaseScale) :
    Except Trap RemovedOrderSettlement :=
  match removed.side with
  | .buy => do
      let amount ← removed.price.checkedMulQuantityScaled removed.remainingQuantity baseScale
      let amount ← expectBug amount .refundOverflow
      .ok { orderSeq, token := .quote, amount }
  | .sell => .ok { orderSeq, token := .base, amount := removed.remainingQuantity }

/-- `RemovedOrderSettlement::balance_operations`. -/
def balanceOperations (s : RemovedOrderSettlement) : List BalanceOperation :=
  [.unreserve s.orderSeq s.token s.amount]

end RemovedOrderSettlement

/-- `SettlementUnit`. -/
structure SettlementUnit where
  balanceOperations : List BalanceOperation
  fill : Option FillEvent

/-- `SettlementBatch`. -/
structure SettlementBatch where
  balanceOperations : List BalanceOperation
  fills : List FillEvent

namespace SettlementBatch

/-- `SettlementBatch::default`. -/
def empty : SettlementBatch := { balanceOperations := [], fills := [] }

/-- `SettlementBatch::add_unit`. -/
def addUnit (b : SettlementBatch) (unit : SettlementUnit) : SettlementBatch :=
  { balanceOperations := b.balanceOperations ++ unit.balanceOperations
    fills := b.fills ++ unit.fill.toList }

/-- `SettlementBatch::is_empty`. -/
def isEmpty (b : SettlementBatch) : Bool := b.balanceOperations.isEmpty && b.fills.isEmpty

end SettlementBatch

/-- The variables of the loop of `pack_settlement_units`. -/
structure Packing where
  batches : List SettlementBatch
  current : SettlementBatch
  unitsInCurrent : ℕ

/-- One iteration of `pack_settlement_units`. -/
def packUnit (cap : ℕ) (p : Packing) (unit : SettlementUnit) : Packing :=
  if p.unitsInCurrent = cap then
    { batches := p.batches ++ [p.current], current := SettlementBatch.empty.addUnit unit,
      unitsInCurrent := 1 }
  else { p with current := p.current.addUnit unit, unitsInCurrent := p.unitsInCurrent + 1 }

/-- `pack_settlement_units`. -/
def packSettlementUnits (units : List SettlementUnit) (cap : ℕ) : List SettlementBatch :=
  let p := units.foldl (packUnit cap)
    { batches := [], current := SettlementBatch.empty, unitsInCurrent := 0 }
  if p.current.isEmpty then p.batches else p.batches ++ [p.current]

/-- `MatchSettlement`. -/
structure MatchSettlement where
  orderUpdates : SortedMap OrderSeq OrderUpdate
  settlingBatches : List SettlementBatch

namespace MatchSettlement

/-- The fill loop of `from_matching`. -/
def addFill (feeRates : FeeRates) (baseScale : BaseScale)
    (acc : SortedMap OrderSeq OrderUpdate × List SettlementUnit) (fill : Fill) :
    Except Trap (SortedMap OrderSeq OrderUpdate × List SettlementUnit) := do
  let settlement ← FillSettlement.new fill feeRates baseScale
  let updates ← settlement.accrueFill acc.1
  .ok (updates, acc.2 ++ [{ balanceOperations := settlement.balanceOperations,
                            fill := some settlement.fillEvent }])

/-- The expired loop of `from_matching`. -/
def addExpired (baseScale : BaseScale) (units : List SettlementUnit)
    (entry : OrderSeq × RemovedOrder) : Except Trap (List SettlementUnit) := do
  let settlement ← RemovedOrderSettlement.new entry.1 entry.2 baseScale
  .ok (units ++ [{ balanceOperations := settlement.balanceOperations, fill := none }])

/-- `order_updates.entry(seq).or_default().status = Some(status)`. -/
def setStatus (status : OrderStatus) (updates : SortedMap OrderSeq OrderUpdate) (seq : OrderSeq) :
    SortedMap OrderSeq OrderUpdate :=
  updates.insert seq { (updates.get seq).getD .default with status := some status }

/-- `MatchSettlement::from_matching`. -/
def fromMatching (output : MatchingOutput) (feeRates : FeeRates) (baseScale : BaseScale)
    (maxSettlementUnitsPerEvent : ℕ) : Except Trap MatchSettlement := do
  let (updates, units) ← output.fills.foldlM (addFill feeRates baseScale) (SortedMap.empty, [])
  let units ← output.expiredOrders.entries.foldlM (addExpired baseScale) units
  let settlingBatches := packSettlementUnits units maxSettlementUnitsPerEvent
  let updates := output.restingOrders.keys.foldl (setStatus .open) updates
  let updates := output.filledOrders.keys.foldl (setStatus .filled) updates
  let updates := output.expiredOrders.keys.foldl (setStatus .expired) updates
  .ok { orderUpdates := updates, settlingBatches }

end MatchSettlement

end OisyTrade
