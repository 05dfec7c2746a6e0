import OisyTrade.State.Types

/-!
# Validating requests and recording events

`state/mod.rs`: the checks a request passes before an event is made of it, and the `record_*`
functions that apply an event to the state.  With `StableMemoryOptions.skip`, which only replay
uses, the parts that live in stable memory are left alone.
-/

namespace OisyTrade

/-- `10u64.checked_pow(decimals)`. -/
def checkedPow10 (decimals : UInt8) : Option U64 :=
  if 10 ^ decimals.toNat < 2 ^ 64 then some (BitVec.ofNat 64 (10 ^ decimals.toNat)) else none

/-- `AddLimitOrderError`. -/
inductive AddLimitOrderError
  | unknownTradingPair
  | invalidOrder (error : MatchOrderError)
  | amountExceedsMaximum
  | invalidNotional (notional min : Quantity) (max : Option Quantity)
  | insufficientBalance (token : TokenId) (available required : Quantity)
  | tradingHalted
deriving DecidableEq

/-- `CancelLimitOrderError`, with the parse error of the entry point. -/
inductive CancelLimitOrderError
  | orderNotFound | notOrderOwner | orderAlreadyTerminal | invalidOrderId
deriving DecidableEq

/-- `AddTradingAccountError`. -/
inductive AddTradingAccountError
  | grant (error : GrantError)
  | fundingOperationInProgress
deriving DecidableEq

/-- `ResolvedOrder`. -/
structure ResolvedOrder where
  user : UserId
  side : Side
  price : Price
deriving DecidableEq

namespace BalanceOperation

/-- The order sequences an operation names. -/
def seqs : BalanceOperation → List OrderSeq
  | transfer fromOrder toOrder _ _ _ => [fromOrder, toOrder]
  | unreserve order _ _ => [order]

/-- The token of an operation. -/
def token : BalanceOperation → PairToken
  | transfer _ _ token _ _ => token
  | unreserve _ token _ => token

end BalanceOperation

/-- The lookup `resolve_op_orders` does for one sequence. -/
def resolveOrder (bookId : OrderBookId) (history : OrderHistory) (registry : UserRegistry)
    (seq : OrderSeq) : Except Trap ResolvedOrder := do
  let record ← expectBug (history.get (.new bookId seq)) .missingOrderRecord
  let user ← registry.lookupFundingId record.owner
  let user ← expectBug user .ownerNotRegistered
  .ok { user, side := record.side, price := record.price }

/-- `resolve_op_orders`. -/
def resolveOpOrders (bookId : OrderBookId) (ops : List BalanceOperation) (history : OrderHistory)
    (registry : UserRegistry) : Except Trap (SortedMap OrderSeq ResolvedOrder) :=
  let seqs := SortedSet.empty.addAll (ops.flatMap BalanceOperation.seqs)
  seqs.keys.foldlM (fun (m : SortedMap OrderSeq ResolvedOrder) seq => do
    let order ← resolveOrder bookId history registry seq
    .ok (m.insert seq order)) SortedMap.empty

/-- One iteration of the balance loop of `record_settling_event`. -/
def applyOperation (pair : TradingPair) (resolved : SortedMap OrderSeq ResolvedOrder)
    (wb : BalanceWriteBack) : BalanceOperation → Except Trap BalanceWriteBack
  | .transfer fromOrder toOrder token amount fee => do
      let debtor ← expectBug (resolved.get fromOrder) .operationOrderNotResolved
      let creditor ← expectBug (resolved.get toOrder) .operationOrderNotResolved
      wb.transfer debtor.user creditor.user (pair.token token) amount (fee.getD Quantity.zero)
  | .unreserve order token amount => do
      let owner ← expectBug (resolved.get order) .operationOrderNotResolved
      wb.unreserve owner.user (pair.token token) amount

namespace State

/-! ## Reading -/

/-- `State::base_scale`. -/
def baseScale (s : State) (base : TokenId) : Except Trap BaseScale := do
  let metadata ← expectBug (s.tokens.get base) .baseMetadataMissing
  let scale ← expectBug (checkedPow10 metadata.decimals) .baseScaleOverflow
  if h : scale ≠ 0 then .ok ⟨scale, h⟩ else .error (.bug .baseScaleZero)

/-- `State::base_scale_for_book`. -/
def baseScaleForBook (s : State) (bookId : OrderBookId) : Except Trap BaseScale := do
  let pair ← expectBug (s.tradingPairs.getPair bookId) .unknownTradingPair
  s.baseScale pair.base

/-- `State::get_balance`. -/
def getBalance (s : State) (user : Principal) (token : TokenId) : Except Trap Balance := do
  let userId ← s.userRegistry.lookupFundingId user
  .ok ((userId.bind fun u => s.balances.getBalance u token).getD Balance.zero)

/-- `State::effective_account`. -/
def effectiveAccount (s : State) (caller : Principal) : Except Trap Principal := do
  let account ← s.userRegistry.lookup caller
  .ok ((account.map UserAccount.effectivePrincipal).getD caller)

/-- `State::get_cached_ledger_fee`. -/
def getCachedLedgerFee (s : State) (token : TokenId) : ℕ := (s.ledgerFeeCache.get token).getD 0

/-- `State::set_cached_ledger_fee`. -/
def setCachedLedgerFee (s : State) (token : TokenId) (fee : ℕ) : State :=
  { s with ledgerFeeCache := s.ledgerFeeCache.insert token fee }

/-- `State::is_known_token`. -/
def isKnownToken (s : State) (token : TokenId) : Bool := s.tokens.contains token

/-! ## Pairs and tokens -/

/-- `State::record_token`. -/
def recordToken (s : State) (token : TokenId) (metadata : TokenMetadata) : Except Trap State :=
  match s.tokens.get token with
  | some existing => do
      assertBug (existing = metadata) .tokenMetadataMismatch
      .ok s
  | none => .ok { s with tokens := s.tokens.insert token metadata }

/-- `State::record_trading_pair`. -/
def recordTradingPair (s : State) (event : AddTradingPairEvent) : Except Trap State := do
  let pair : TradingPair := ⟨event.base, event.quote⟩
  let s ← s.recordToken pair.base event.baseMetadata
  let s ← s.recordToken pair.quote event.quoteMetadata
  assertBug (event.bookId = s.nextBookId) .bookIdMismatch
  let book := OrderBook.new event.bookId event.tickSize event.lotSize event.minNotional
    event.maxNotional event.feeRates
  let tradingPairs ← s.tradingPairs.insert pair event.bookId
  assertBug (!s.orderBooks.contains event.bookId) .duplicateOrderBook
  let nextBookId ← s.nextBookId.increment .orderBookId
  .ok { s with tradingPairs, orderBooks := s.orderBooks.insert event.bookId book, nextBookId }

/-! ## Orders -/

/-- The token and the amount an order reserves, given its notional. -/
def requiredFunds (pair : TradingPair) (side : Side) (notional quantity : Quantity) :
    TokenId × Quantity :=
  match side with
  | .buy => (pair.quote, notional)
  | .sell => (pair.base, quantity)

/-- `State::validate_limit_order`. -/
def validateLimitOrder (s : State) (user : Principal) (pair : TradingPair)
    (pending : PendingOrder) : Except Trap (Except AddLimitOrderError (OrderId × Order)) :=
  match s.tradingPairs.getBookId pair with
  | none => .ok (.error .unknownTradingPair)
  | some bookId => do
      let book ← expectBug (s.orderBooks.get bookId) .orderBookMissing
      match book.validateOrder pending.price pending.quantity with
      | .error e => .ok (.error (.invalidOrder e))
      | .ok _ => do
          let scale ← s.baseScale pair.base
          match ← pending.price.checkedMulQuantityScaled pending.quantity scale with
          | none => .ok (.error .amountExceedsMaximum)
          | some amount =>
              match book.checkNotional amount with
              | .error e => .ok (.error (.invalidNotional e.notional e.min e.max))
              | .ok _ => do
                  let (token, required) := requiredFunds pair pending.side amount pending.quantity
                  let balance ← s.getBalance user token
                  if balance.free.lt required then
                    .ok (.error (.insufficientBalance token balance.free required))
                  else
                    .ok (.ok (.new bookId book.nextSeq, pending.intoOrder book.nextSeq))

/-- The record of a newly placed order. -/
def newRecord (user : Principal) (order : Order) (placedBy : Option Principal)
    (timestamp : Timestamp) : OrderRecord :=
  { owner := user, side := order.side, price := order.price, quantity := order.remainingQuantity,
    status := .pending, createdAt := timestamp, filledQuantity := Quantity.zero,
    lastUpdatedAt := none, timeInForce := order.timeInForce, filledQuote := Quantity.zero,
    filledFee := Quantity.zero, placedBy, canceledBy := none }

/-- The token and the amount that `record_limit_order` reserves. -/
def fundsToReserve (pair : TradingPair) (scale : BaseScale) (order : Order) :
    Except Trap (TokenId × Quantity) :=
  match order.side with
  | .buy => do
      let amount ← order.price.checkedMulQuantityScaled order.remainingQuantity scale
      let amount ← expectBug amount .priceQuantityOverflow
      .ok (pair.quote, amount)
  | .sell => .ok (pair.base, order.remainingQuantity)

/-- `State::record_limit_order`. -/
def recordLimitOrder (s : State) (user : Principal) (bookId : OrderBookId) (order : Order)
    (placedBy : Option Principal) (timestamp : Timestamp) (persistence : StableMemoryOptions) :
    Except Trap State := do
  let pair ← expectBug (s.tradingPairs.getPair bookId) .unknownTradingPair
  let scale ← s.baseScale pair.base
  let book ← expectBug (s.orderBooks.get bookId) .orderBookMissing
  let (token, required) ← fundsToReserve pair scale order
  let s ← match persistence with
    | .skip => .ok s
    | .write => do
        let userId ← s.userRegistry.lookupFundingId user
        let userId ← expectBug userId .ownerNotRegistered
        let (result, balances) ← s.balances.reserve userId token required
        assertBug result.isOk .insufficientBalanceForOrder
        let orderHistory ← s.orderHistory.insertOnce userId (.new bookId order.id)
          (newRecord user order placedBy timestamp)
        .ok { s with balances, orderHistory }
  let book ← book.addPendingOrder order
  .ok { s with orderBooks := s.orderBooks.insert bookId book }

/-- `State::validate_cancel_limit_order`. -/
def validateCancelLimitOrder (s : State) (owner : Principal) (orderId : OrderId) :
    Except CancelLimitOrderError Unit :=
  match s.orderHistory.get orderId with
  | none => .error .orderNotFound
  | some record =>
      if record.owner ≠ owner then .error .notOrderOwner
      else
        match record.status with
        | .pending | .open => .ok ()
        | .filled | .canceled | .expired => .error .orderAlreadyTerminal

/-- `State::record_cancel_limit_order`. -/
def recordCancelLimitOrder (s : State) (orderId : OrderId) (canceledBy : Option Principal)
    (now : Timestamp) (persistence : StableMemoryOptions) : Except Trap State := do
  let scale ← s.baseScaleForBook orderId.bookId
  let book ← expectBug (s.orderBooks.get orderId.bookId) .orderBookMissing
  let removed ← book.removeOrder orderId.seq
  let (removed, book) ← expectBug removed .canceledOrderNotInBook
  let s := { s with orderBooks := s.orderBooks.insert orderId.bookId book }
  match persistence with
  | .skip => .ok s
  | .write => do
      let orderHistory ← s.orderHistory.applyUpdate orderId (.cancel canceledBy) now
      let refund ← RemovedOrderSettlement.new orderId.seq removed scale
      let event : SettlingEvent :=
        { bookId := orderId.bookId, balanceOperations := refund.balanceOperations, fills := [] }
      .ok { s with orderHistory, pendingSettlingEvents := s.pendingSettlingEvents ++ [event] }

/-! ## Matching and settling -/

/-- The update loop of `record_matching_event`. -/
def applyUpdates (history : OrderHistory) (bookId : OrderBookId)
    (updates : SortedMap OrderSeq OrderUpdate) (now : Timestamp) : Except Trap OrderHistory :=
  updates.entries.foldlM (fun (h : OrderHistory) entry =>
    h.applyUpdate (.new bookId entry.1) entry.2 now) history

/-- The settling event of a batch. -/
def settlingEventOf (bookId : OrderBookId) (batch : SettlementBatch) : SettlingEvent :=
  { bookId, balanceOperations := batch.balanceOperations, fills := batch.fills }

/-- `State::record_matching_event`. -/
def recordMatchingEvent (s : State) (event : MatchingEvent) (now : Timestamp)
    (persistence : StableMemoryOptions) : Except Trap State := do
  let scale ← s.baseScaleForBook event.bookId
  let book ← expectBug (s.orderBooks.get event.bookId) .orderBookMissing
  let (output, book') ← book.processPendingOrders event.orders
  let s := { s with orderBooks := s.orderBooks.insert event.bookId book' }
  match persistence with
  | .skip => .ok s
  | .write => do
      let settlement ← MatchSettlement.fromMatching output book.feeRates scale
        s.executionPolicy.maxSettlementUnitsPerEvent.toNat
      let orderHistory ← applyUpdates s.orderHistory event.bookId settlement.orderUpdates now
      .ok { s with
        orderHistory
        pendingSettlingEvents := s.pendingSettlingEvents
          ++ settlement.settlingBatches.map (settlingEventOf event.bookId) }

/-- One iteration of the trade loop of `record_settling_event`. -/
def appendTrade (bookId : OrderBookId) (resolved : SortedMap OrderSeq ResolvedOrder)
    (scale : BaseScale) (timestamp : Timestamp) (history : TradeHistory) (fill : FillEvent) :
    Except Trap TradeHistory := do
  let taker ← expectBug (resolved.get fill.takerOrderSeq) .takerNotResolved
  let maker ← expectBug (resolved.get fill.makerOrderSeq) .makerNotResolved
  let (takerLeg, makerLeg) ← fill.tradeLegs bookId taker.side maker.price scale timestamp
  history.append takerLeg taker.user makerLeg maker.user

/-- `State::record_settling_event`. -/
def recordSettlingEvent (s : State) (event : SettlingEvent) (timestamp : Timestamp)
    (persistence : StableMemoryOptions) : Except Trap State :=
  match persistence with
  | .skip => .ok s
  | .write => do
      let pair ← expectBug (s.tradingPairs.getPair event.bookId) .unknownTradingPair
      let scale ← s.baseScaleForBook event.bookId
      let resolved ← resolveOpOrders event.bookId event.balanceOperations s.orderHistory
        s.userRegistry
      let tradeHistory ← event.fills.foldlM (appendTrade event.bookId resolved scale timestamp)
        s.tradeHistory
      let balances ← s.balances.withWriteBack fun wb =>
        event.balanceOperations.foldlM (applyOperation pair resolved) wb
      .ok { s with tradeHistory, balances }

/-! ## Funds and delegation -/

/-- `State::deposit`. -/
def deposit (s : State) (user : Principal) (token : TokenId) (amount : Quantity)
    (persistence : StableMemoryOptions) : Except Trap State :=
  match persistence with
  | .skip => .ok s
  | .write => do
      let (userId, userRegistry) ← s.userRegistry.getOrRegister user
      let balances ← s.balances.deposit userId token amount
      .ok { s with userRegistry, balances }

/-- `State::withdraw`. -/
def withdraw (s : State) (user : Principal) (token : TokenId) (amount : Quantity) :
    Except Trap (Except InsufficientBalanceError State) := do
  match ← s.userRegistry.lookupFundingId user with
  | none => .ok (.error { available := Quantity.zero, required := amount })
  | some userId => do
      let (result, balances) ← s.balances.withdraw userId token amount
      match result with
      | .error e => .ok (.error e)
      | .ok _ => .ok (.ok { s with balances })

/-- `State::validate_add_trading_account`. -/
def validateAddTradingAccount (s : State) (funding : FundingAccount) (trading : TradingAccount)
    (now : Timestamp) : Except Trap (Except AddTradingAccountError Unit) := do
  match ← s.userRegistry.validateAddTradingAccount funding trading now with
  | .error e => .ok (.error (.grant e))
  | .ok _ =>
      if s.inFlightUserOps.keys.any fun key => (ofLex key).1 = trading.principal then
        .ok (.error .fundingOperationInProgress)
      else .ok (.ok ())

/-- `State::record_add_trading_account`. -/
def recordAddTradingAccount (s : State) (funding : FundingAccount) (trading : TradingAccount)
    (now : Timestamp) (persistence : StableMemoryOptions) : Except Trap State :=
  match persistence with
  | .skip => .ok s
  | .write => do
      let userRegistry ← s.userRegistry.recordAddTradingAccount funding trading now
      .ok { s with userRegistry }

/-- `State::validate_remove_trading_account`. -/
def validateRemoveTradingAccount (s : State) (funding : FundingAccount)
    (trading : TradingAccount) : Except RevokeError Unit :=
  s.userRegistry.validateRemoveTradingAccount funding trading

/-- `State::record_remove_trading_account`. -/
def recordRemoveTradingAccount (s : State) (funding : FundingAccount) (trading : TradingAccount)
    (persistence : StableMemoryOptions) : Except Trap State :=
  match persistence with
  | .skip => .ok s
  | .write => do
      let userRegistry ← s.userRegistry.recordRemoveTradingAccount funding trading
      .ok { s with userRegistry }

/-! ## Events -/

/-- The `Upgrade` branch of `apply_state_transition`. -/
def applyUpgrade (s : State) (arg : UpgradeArg) : Except Trap State := do
  let s := { s with mode := arg.mode.getD s.mode }
  if arg.maxOrdersPerChunk.isSome || arg.instructionBudget.isSome
      || arg.maxSettlementUnitsPerEvent.isSome then
    let current := s.executionPolicy
    match ExecutionPolicy.tryNew (arg.maxOrdersPerChunk.getD current.maxOrdersPerChunk)
        (arg.instructionBudget.getD current.instructionBudget)
        (arg.maxSettlementUnitsPerEvent.getD current.maxSettlementUnitsPerEvent) with
    | .ok executionPolicy => .ok { s with executionPolicy }
    | .error _ => .error (.bug .invalidExecutionPolicy)
  else .ok s

/-- `apply_state_transition`. -/
def applyStateTransition (s : State) (payload : EventType) (timestamp : Timestamp)
    (persistence : StableMemoryOptions) : Except Trap State :=
  match payload with
  | .init _ => .error (.bug .reinitialization)
  | .upgrade arg => s.applyUpgrade arg
  | .addTradingPair event => s.recordTradingPair event
  | .deposit event => s.deposit event.user event.token event.amount persistence
  | .withdraw event =>
      match persistence with
      | .skip => .ok s
      | .write => do
          match ← s.withdraw event.user event.token event.amount with
          | .ok s => .ok s
          | .error _ => .error (.bug .insufficientBalanceForWithdraw)
  | .addLimitOrder event =>
      let pending : PendingOrder :=
        { side := event.side, price := event.price, quantity := event.quantity,
          timeInForce := event.timeInForce }
      s.recordLimitOrder event.user event.orderId.bookId (pending.intoOrder event.orderId.seq)
        event.placedBy timestamp persistence
  | .cancelLimitOrder event =>
      s.recordCancelLimitOrder event.orderId event.canceledBy timestamp persistence
  | .matching event => s.recordMatchingEvent event timestamp persistence
  | .settling event => s.recordSettlingEvent event timestamp persistence
  | .addTradingAccount event =>
      s.recordAddTradingAccount event.funding event.trading timestamp persistence
  | .removeTradingAccount event =>
      s.recordRemoveTradingAccount event.funding event.trading persistence
  | .setHalt event =>
      .ok { s with permissions := s.permissions.setHalt event.bookIds event.halted }

end State

end OisyTrade
