import OisyTrade.Order.Types
import OisyTrade.Order.Queue

/-!
# The order book

`order/plan.rs` and `order/book.rs`.  Matching is split in two passes.  `planFills` walks the
crossing makers without touching the book and records the fully consumed makers, an optional last
partial fill and what the taker has left.  `applyPlan` replays that plan on the book and checks at
every step that the book still agrees with it.

A fill-or-kill order that the plan does not fully fill is killed before `applyPlan`, so it never
reaches the book.
-/

namespace OisyTrade

/-! ## Fill plans -/

/-- `FillPlan`. -/
structure FillPlan where
  takerOrder : OrderSeq
  filledMakers : List OrderSeq
  lastPartial : Option (OrderSeq × Quantity)
  takerRemaining : Quantity

/-- `FillPlanBuilder`. -/
structure FillPlanBuilder where
  order : Order
  filledMakers : List OrderSeq
  lastPartial : Option (OrderSeq × Quantity)
  takerRemaining : Quantity

/-- `PlanOutcome`. -/
inductive PlanOutcome
  | execute (plan : FillPlan)
  | kill

/-- `FillPlan::builder`. -/
def FillPlan.builder (order : Order) : FillPlanBuilder :=
  { order, filledMakers := [], lastPartial := none, takerRemaining := order.remainingQuantity }

namespace FillPlanBuilder

/-- `FillPlanBuilder::add_fill`. -/
def addFill (b : FillPlanBuilder) (resting : RestingOrder) : Except Trap FillPlanBuilder := do
  assertBug b.lastPartial.isNone .fillAfterPartial
  assertBug (resting.id ≠ b.order.id) .selfFill
  let makerQty := resting.remainingQuantity
  let fillQty := b.takerRemaining.min makerQty
  let takerRemaining ← expectBug (b.takerRemaining.checkedSub fillQty) .fillExceedsTakerRemaining
  if fillQty = makerQty then
    .ok { b with takerRemaining, filledMakers := b.filledMakers ++ [resting.id] }
  else do
    assertBug (takerRemaining = Quantity.zero) .partialFillTakerNotConsumed
    .ok { b with takerRemaining, lastPartial := some (resting.id, fillQty) }

/-- `FillPlanBuilder::into_plan`. -/
def intoPlan (b : FillPlanBuilder) : FillPlan :=
  { takerOrder := b.order.id, filledMakers := b.filledMakers, lastPartial := b.lastPartial,
    takerRemaining := b.takerRemaining }

/-- `FillPlanBuilder::build`. -/
def build (b : FillPlanBuilder) : PlanOutcome :=
  match b.order.timeInForce with
  | .goodTilCanceled => .execute b.intoPlan
  | .fillOrKill => if b.takerRemaining.isZero then .execute b.intoPlan else .kill

/-- The loop of `plan_fills` over the makers in priority order, left by its `break`. -/
def addFills (stop : Price → Bool) :
    List (Price × RestingOrder) → FillPlanBuilder → Except Trap FillPlanBuilder
  | [], b => .ok b
  | (makerPrice, resting) :: makers, b =>
      if stop makerPrice || b.takerRemaining.isZero then .ok b
      else do
        let b' ← b.addFill resting
        addFills stop makers b'

end FillPlanBuilder

/-! ## Results of matching -/

/-- `RemovedOrder`. -/
structure RemovedOrder where
  side : Side
  price : Price
  remainingQuantity : Quantity
deriving DecidableEq

/-- `MatchResult`. -/
inductive MatchResult
  | filled (fills : List Fill)
  | partiallyFilled (fills : List Fill) (restingOrderSeq : OrderSeq)
  | resting (restingOrderSeq : OrderSeq)
  | killed (killedOrderSeq : OrderSeq) (killed : RemovedOrder)

namespace MatchResult

/-- `MatchResult::fills` and `MatchResult::into_fills`. -/
def fills : MatchResult → List Fill
  | .filled fills => fills
  | .partiallyFilled fills _ => fills
  | .resting _ => []
  | .killed _ _ => []

/-- `MatchResult::resting_order_seq`. -/
def restingOrderSeq : MatchResult → Option OrderSeq
  | .partiallyFilled _ seq => some seq
  | .resting seq => some seq
  | .filled _ => none
  | .killed _ _ => none

end MatchResult

/-- `MatchOrderError`. -/
inductive MatchOrderError
  | invalidTickSize (price : Price) (tickSize : TickSize)
  | invalidLotSize (quantity : Quantity) (lotSize : LotSize)
deriving DecidableEq

/-- `NotionalError`. -/
structure NotionalError where
  notional : Quantity
  min : Quantity
  max : Option Quantity

/-- `MatchingOutput`. -/
structure MatchingOutput where
  fills : List Fill
  restingOrders : SortedSet OrderSeq
  filledOrders : SortedSet OrderSeq
  expiredOrders : SortedMap OrderSeq RemovedOrder

/-! ## The book -/

/-- `OrderBook`.  `Reverse<Price>` is the order dual of `Price`. -/
structure OrderBook where
  id : OrderBookId
  nextSeq : OrderSeq
  nextFill : FillSeq
  tickSize : TickSize
  lotSize : LotSize
  minNotional : Quantity
  maxNotional : Option Quantity
  feeRates : FeeRates
  pendingOrders : List Order
  bids : OrderQueue Priceᵒᵈ RestingOrder
  asks : OrderQueue Price RestingOrder
  restingOrders : SortedMap OrderSeq (Side × Price)
  filledOrders : SortedSet OrderSeq

namespace OrderBook

/-- `OrderBook::new`. -/
def new (id : OrderBookId) (tickSize : TickSize) (lotSize : LotSize) (minNotional : Quantity)
    (maxNotional : Option Quantity) (feeRates : FeeRates) : OrderBook :=
  { id, nextSeq := Seq.zero, nextFill := Seq.zero, tickSize, lotSize, minNotional, maxNotional,
    feeRates, pendingOrders := [], bids := OrderQueue.new, asks := OrderQueue.new,
    restingOrders := SortedMap.empty, filledOrders := SortedSet.empty }

/-- `OrderBook::asks_pop_front`. -/
def asksPopFront (b : OrderBook) : Except Trap (Option ((Price × RestingOrder) × OrderBook)) := do
  match ← b.asks.popFront with
  | none => .ok none
  | some ((price, resting), asks) =>
      assertBug (b.restingOrders.contains resting.id) .poppedMissingFromIndex
      .ok (some ((price, resting),
        { b with asks, restingOrders := b.restingOrders.erase resting.id }))

/-- `OrderBook::bids_pop_front`. -/
def bidsPopFront (b : OrderBook) : Except Trap (Option ((Price × RestingOrder) × OrderBook)) := do
  match ← b.bids.popFront with
  | none => .ok none
  | some ((price, resting), bids) =>
      assertBug (b.restingOrders.contains resting.id) .poppedMissingFromIndex
      .ok (some ((OrderDual.ofDual price, resting),
        { b with bids, restingOrders := b.restingOrders.erase resting.id }))

/-- `OrderBook::asks_front_mut`, read. -/
def asksFront (b : OrderBook) : Except Trap (Option (Price × RestingOrder)) := b.asks.front

/-- `OrderBook::bids_front_mut`, read. -/
def bidsFront (b : OrderBook) : Except Trap (Option (Price × RestingOrder)) := do
  match ← b.bids.front with
  | none => .ok none
  | some (price, resting) => .ok (some (OrderDual.ofDual price, resting))

/-- The side an incoming order trades against: `Buy` pops asks, `Sell` pops bids. -/
def popMaker (b : OrderBook) : Side → Except Trap (Option ((Price × RestingOrder) × OrderBook))
  | .buy => b.asksPopFront
  | .sell => b.bidsPopFront

/-- The best maker of an incoming order. -/
def frontMaker (b : OrderBook) : Side → Except Trap (Option (Price × RestingOrder))
  | .buy => b.asksFront
  | .sell => b.bidsFront

/-- Write through the reference `front_mut` hands out. -/
def setFrontMaker (b : OrderBook) (resting : RestingOrder) : Side → OrderBook
  | .buy => { b with asks := b.asks.setFront resting }
  | .sell => { b with bids := b.bids.setFront resting }

/-- `OrderBook::bids_iter`, with the natural price. -/
def bidsIter (b : OrderBook) : List (Price × RestingOrder) :=
  b.bids.iter.map fun e => (OrderDual.ofDual e.1, e.2)

/-- `OrderBook::asks_iter`. -/
def asksIter (b : OrderBook) : List (Price × RestingOrder) := b.asks.iter

/-- `OrderBook::validate_order`. -/
def validateOrder (b : OrderBook) (price : Price) (quantity : Quantity) :
    Except MatchOrderError Unit :=
  if price.isZero || !price.isMultipleOf b.tickSize then
    .error (.invalidTickSize price b.tickSize)
  else if quantity.isZero || !quantity.isMultipleOf b.lotSize then
    .error (.invalidLotSize quantity b.lotSize)
  else .ok ()

/-- `OrderBook::check_notional`. -/
def checkNotional (b : OrderBook) (notional : Quantity) : Except NotionalError Unit :=
  if notional.lt b.minNotional || b.maxNotional.any (fun max => max.lt notional) then
    .error { notional, min := b.minNotional, max := b.maxNotional }
  else .ok ()

/-- `OrderBook::plan_fills`. -/
def planFills (b : OrderBook) (order : Order) : Except Trap FillPlanBuilder :=
  let takerPrice := order.price
  match order.side with
  | .buy => FillPlanBuilder.addFills (fun makerPrice => takerPrice < makerPrice) b.asksIter
      (FillPlan.builder order)
  | .sell => FillPlanBuilder.addFills (fun makerPrice => makerPrice < takerPrice) b.bidsIter
      (FillPlan.builder order)

/-- `OrderBook::mint_fill_seq`. -/
def mintFillSeq (b : OrderBook) : Except Trap (FillSeq × OrderBook) := do
  let next ← b.nextFill.increment .fillSeq
  .ok (b.nextFill, { b with nextFill := next })

/-- `OrderBook::insert_order`. -/
def insertOrder (b : OrderBook) (order : Order) : Except Trap OrderBook := do
  assertBug (!b.restingOrders.contains order.id) .restingOrderExists
  let restingOrders := b.restingOrders.insert order.id (order.side, order.price)
  let resting := RestingOrder.ofOrder order
  match order.side with
  | .buy => .ok { b with restingOrders, bids := b.bids.pushBack (OrderDual.toDual order.price) resting }
  | .sell => .ok { b with restingOrders, asks := b.asks.pushBack order.price resting }

/-- One pass of the first loop of `apply_plan`: pop the next maker of the plan and record its
fill. -/
def consumeMaker (acc : OrderBook × Order × List Fill) (makerSeq : OrderSeq) :
    Except Trap (OrderBook × Order × List Fill) := do
  let (b, order, fills) := acc
  let ((makerPrice, filled), b) ← expectBug (← b.popMaker order.side) .noMakerLevelToPop
  assertBug (filled.id = makerSeq) .makerNotAtFront
  let fullQty := filled.remainingQuantity
  let order ← order.reduceQuantity fullQty
  let (fillSeq, b) ← b.mintFillSeq
  let fill : Fill :=
    { fillSeq, takerOrderSeq := order.id, takerSide := order.side, takerPrice := order.price,
      makerOrderSeq := makerSeq, makerPrice, quantity := fullQty }
  .ok ({ b with filledOrders := b.filledOrders.insert filled.id () }, order, fills ++ [fill])

/-- The partial fill of `apply_plan`: reduce the maker at the front in place. -/
def reduceMaker (acc : OrderBook × Order × List Fill) (makerSeq : OrderSeq) (fillQty : Quantity) :
    Except Trap (OrderBook × Order × List Fill) := do
  let (b, order, fills) := acc
  let (makerPrice, resting) ← expectBug (← b.frontMaker order.side) .noMakerLevelForPartial
  assertBug (resting.id = makerSeq) .partialMakerNotAtFront
  let resting ← resting.reduceQuantity fillQty
  assertBug (resting.remainingQuantity ≠ Quantity.zero) .partialMakerFullyFilled
  let b := b.setFrontMaker resting order.side
  let order ← order.reduceQuantity fillQty
  let (fillSeq, b) ← b.mintFillSeq
  let fill : Fill :=
    { fillSeq, takerOrderSeq := order.id, takerSide := order.side, takerPrice := order.price,
      makerOrderSeq := makerSeq, makerPrice, quantity := fillQty }
  .ok (b, order, fills ++ [fill])

/-- The mutating part of `apply_plan`: the consumed makers, then the partial one. -/
def replayPlan (b : OrderBook) (plan : FillPlan) (order : Order) :
    Except Trap (OrderBook × Order × List Fill) := do
  let acc ← plan.filledMakers.foldlM consumeMaker (b, order, [])
  match plan.lastPartial with
  | none => .ok acc
  | some (makerSeq, fillQty) => reduceMaker acc makerSeq fillQty

/-- The last part of `apply_plan`: the taker is filled or rests its remainder. -/
def restOrder (b : OrderBook) (order : Order) (fills : List Fill) :
    Except Trap (MatchResult × OrderBook) :=
  if order.remainingQuantity.isZero then
    .ok (.filled fills, { b with filledOrders := b.filledOrders.insert order.id () })
  else do
    let restingOrderSeq := order.id
    let b ← b.insertOrder order
    if fills.isEmpty then .ok (.resting restingOrderSeq, b)
    else .ok (.partiallyFilled fills restingOrderSeq, b)

/-- `OrderBook::apply_plan`. -/
def applyPlan (b : OrderBook) (plan : FillPlan) (order : Order) :
    Except Trap (MatchResult × OrderBook) := do
  assertBug (order.id = plan.takerOrder) .takerOrderMismatch
  let (b, order, fills) ← b.replayPlan plan order
  assertBug (order.remainingQuantity = plan.takerRemaining) .takerRemainingMismatch
  b.restOrder order fills

/-- `OrderBook::match_order`.  The inner `Except` is the source's `Result`. -/
def matchOrder (b : OrderBook) (order : Order) :
    Except Trap (Except MatchOrderError (MatchResult × OrderBook)) :=
  match b.validateOrder order.price order.remainingQuantity with
  | .error e => .ok (.error e)
  | .ok () => do
      let builder ← b.planFills order
      match builder.build with
      | .kill =>
          let killed : RemovedOrder := ⟨order.side, order.price, order.remainingQuantity⟩
          .ok (.ok (.killed order.id killed, b))
      | .execute plan => .ok <$> b.applyPlan plan order

/-- `OrderBook::add_pending_order`. -/
def addPendingOrder (b : OrderBook) (order : Order) : Except Trap OrderBook := do
  assertBug (b.validateOrder order.price order.remainingQuantity).isOk .invalidOrder
  assertBug (order.id = b.nextSeq) .orderSeqMismatch
  let next ← b.nextSeq.increment .orderSeq
  .ok { b with pendingOrders := b.pendingOrders ++ [order], nextSeq := next }

/-- The accumulators of `process_pending_orders`. -/
structure MatchingAcc where
  book : OrderBook
  allFills : List Fill
  restingOrderSeqs : SortedSet OrderSeq
  expiredOrders : SortedMap OrderSeq RemovedOrder

/-- Append the fills of one match, none of which may be there already. -/
def pushFills (allFills : List Fill) (fills : List Fill) : Except Trap (List Fill) :=
  fills.foldlM (fun all fill => do
    assertBug (!all.contains fill) .duplicateFill
    .ok (all ++ [fill])) allFills

/-- One pass of the loop of `process_pending_orders`. -/
def processPendingOrder (acc : MatchingAcc) (expectedSeq : OrderSeq) : Except Trap MatchingAcc := do
  let (order, pendingOrders) ← expectBug
    (match acc.book.pendingOrders with
      | [] => none
      | order :: rest => some (order, rest)) .fewerPendingOrders
  assertBug (order.id = expectedSeq) .pendingSeqMismatch
  match ← matchOrder { acc.book with pendingOrders } order with
  | .error _ => .error (.bug .failedToMatchOrder)
  | .ok (.killed seq killed, book) =>
      .ok { acc with book, expiredOrders := acc.expiredOrders.insert seq killed }
  | .ok (result, book) => do
      let restingOrderSeqs := match result.restingOrderSeq with
        | some seq => acc.restingOrderSeqs.insert seq ()
        | none => acc.restingOrderSeqs
      let allFills ← pushFills acc.allFills result.fills
      .ok { acc with book, restingOrderSeqs, allFills }

/-- `OrderBook::process_pending_orders`. -/
def processPendingOrders (b : OrderBook) (expectedSeqs : List OrderSeq) :
    Except Trap (MatchingOutput × OrderBook) := do
  let acc ← expectedSeqs.foldlM processPendingOrder
    { book := b, allFills := [], restingOrderSeqs := SortedSet.empty,
      expiredOrders := SortedMap.empty }
  let filledOrders := acc.book.filledOrders
  let restingOrders := acc.restingOrderSeqs.filter fun seq _ => !filledOrders.contains seq
  assertBug (restingOrders.keys.all fun seq => !filledOrders.contains seq) .restingFilledOverlap
  .ok ({ fills := acc.allFills, restingOrders, filledOrders, expiredOrders := acc.expiredOrders },
    { acc.book with filledOrders := SortedSet.empty })

/-- `OrderBook::remove_order`. -/
def removeOrder (b : OrderBook) (seq : OrderSeq) :
    Except Trap (Option (RemovedOrder × OrderBook)) :=
  match b.restingOrders.get seq with
  | some (.buy, price) => do
      let (removed, bids) ← expectBug (b.bids.remove (OrderDual.toDual price) (·.id = seq))
        .indexInconsistent
      .ok (some ({ side := .buy, price, remainingQuantity := removed.remainingQuantity },
        { b with bids, restingOrders := b.restingOrders.erase seq }))
  | some (.sell, price) => do
      let (removed, asks) ← expectBug (b.asks.remove price (·.id = seq)) .indexInconsistent
      .ok (some ({ side := .sell, price, remainingQuantity := removed.remainingQuantity },
        { b with asks, restingOrders := b.restingOrders.erase seq }))
  | none =>
      match b.pendingOrders.find? (·.id = seq) with
      | none => .ok none
      | some order =>
          let removed : RemovedOrder := ⟨order.side, order.price, order.remainingQuantity⟩
          .ok (some (removed, { b with pendingOrders := b.pendingOrders.eraseP (·.id = seq) }))

/-- `OrderBook::pending_order_seqs`. -/
def pendingOrderSeqs (b : OrderBook) : List OrderSeq := b.pendingOrders.map Order.id

end OrderBook

/-! ## Snapshots of a book -/

/-- `PriceLevel`. -/
structure PriceLevel where
  price : Price
  orders : List RestingOrder

/-- `OrderBookSnapshot`. -/
structure OrderBookSnapshot where
  id : OrderBookId
  nextSeq : OrderSeq
  tickSize : TickSize
  lotSize : LotSize
  pendingOrders : List Order
  bids : List PriceLevel
  asks : List PriceLevel
  filledOrders : List OrderSeq
  feeRates : FeeRates
  minNotional : Quantity
  maxNotional : Option Quantity
  nextFill : FillSeq

/-- `From<&OrderBook> for OrderBookSnapshot`. -/
def OrderBookSnapshot.ofBook (b : OrderBook) : OrderBookSnapshot :=
  { id := b.id, nextSeq := b.nextSeq, nextFill := b.nextFill, tickSize := b.tickSize,
    lotSize := b.lotSize, pendingOrders := b.pendingOrders,
    bids := b.bids.levels.entries.map fun level => ⟨OrderDual.ofDual level.1, level.2⟩,
    asks := b.asks.levels.entries.map fun level => ⟨level.1, level.2⟩,
    filledOrders := b.filledOrders.keys, feeRates := b.feeRates,
    minNotional := b.minNotional, maxNotional := b.maxNotional }

namespace OrderBookSnapshot

/-- Index the orders of one level, each sequence once. -/
def indexLevel (side : Side) (price : Price) (index : SortedMap OrderSeq (Side × Price))
    (orders : List RestingOrder) : Except Trap (SortedMap OrderSeq (Side × Price)) :=
  orders.foldlM (fun index order => do
    assertBug (!index.contains order.id) .duplicateRestingSeq
    .ok (index.insert order.id (side, price))) index

/-- The loop that restores one side: index the orders of a level, then add the level. -/
def restoreLevel {K : Type} [LinearOrder K] (side : Side) (toKey : Price → K)
    (acc : SortedMap K (List RestingOrder) × SortedMap OrderSeq (Side × Price))
    (level : PriceLevel) :
    Except Trap (SortedMap K (List RestingOrder) × SortedMap OrderSeq (Side × Price)) := do
  let (levels, index) := acc
  let index ← indexLevel side level.price index level.orders
  assertBug (!levels.contains (toKey level.price)) .duplicatePriceLevel
  .ok (levels.insert (toKey level.price) level.orders, index)

/-- `From<OrderBookSnapshot> for OrderBook`. -/
def intoBook (s : OrderBookSnapshot) : Except Trap OrderBook := do
  let (bids, index) ← s.bids.foldlM (restoreLevel .buy OrderDual.toDual)
    (SortedMap.empty, SortedMap.empty)
  let (asks, index) ← s.asks.foldlM (restoreLevel .sell fun price => price) (SortedMap.empty, index)
  .ok { id := s.id, nextSeq := s.nextSeq, nextFill := s.nextFill, tickSize := s.tickSize,
        lotSize := s.lotSize, minNotional := s.minNotional, maxNotional := s.maxNotional,
        feeRates := s.feeRates, pendingOrders := s.pendingOrders,
        bids := OrderQueue.fromLevels bids, asks := OrderQueue.fromLevels asks,
        restingOrders := index,
        filledOrders := s.filledOrders.foldl (fun set seq => set.insert seq ()) SortedSet.empty }

end OrderBookSnapshot

end OisyTrade
