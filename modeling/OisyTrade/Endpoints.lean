import OisyTrade.Canister
import OisyTrade.State.Snapshot

/-!
# Entry points

The synchronous update calls of `lib.rs` and the life cycle of `lifecycle/mod.rs`.  Each takes the
canister and returns the answer with the canister after it; a trap aborts the message and leaves
nothing behind.

Order ids arrive as text.  Their parser is not modelled here, so an argument is the id it parses to,
or `none` if it does not parse.
-/

namespace OisyTrade

/-! ## Requests and errors -/

/-- `LimitOrderRequest`. -/
structure LimitOrderRequest where
  pair : TradingPair
  side : Side
  price : ℕ
  quantity : ℕ
  timeInForce : Option TimeInForce

/-- `Token`. -/
structure Token where
  id : TokenId
  metadata : TokenMetadata

/-- `AddTradingPairRequest`. -/
structure AddTradingPairRequest where
  base : Token
  quote : Token
  tickSize : ℕ
  lotSize : ℕ
  makerFeeBps : ℕ
  takerFeeBps : ℕ
  minNotional : ℕ
  maxNotional : Option ℕ

/-- `AddTradingPairError`. -/
inductive AddTradingPairError
  | notController | baseEqualsQuote | invalidTickSize | invalidLotSize
  | invalidBasisPoint (value : ℕ)
  | invalidNotional (minNotional : ℕ) (maxNotional : Option ℕ)
  | tradingPairAlreadyExists
  | inconsistentTokenMetadata (token : TokenId) (expected submitted : TokenMetadata)
  | baseDecimalsTooLarge (decimals : UInt8)
  | indivisibleTickLotForBaseDecimals (tickSize : TickSize) (lotSize : LotSize)
      (baseDecimals : UInt8)
deriving DecidableEq

/-- `TryFrom<LimitOrderRequest> for PendingOrder`. -/
def PendingOrder.tryFrom (request : LimitOrderRequest) : Option PendingOrder :=
  if request.price < 2 ^ 128 then
    (Quantity.tryFrom request.quantity).map fun quantity =>
      { side := request.side, price := ⟨BitVec.ofNat 128 request.price⟩, quantity,
        timeInForce := request.timeInForce.getD .goodTilCanceled }
  else none

/-- `TickSize::new(NonZeroU128::new(u128::try_from(…)))`. -/
def TickSize.tryFrom (n : ℕ) : Option TickSize :=
  if n < 2 ^ 128 then
    let get : U128 := BitVec.ofNat 128 n
    if h : get ≠ 0 then some ⟨get, h⟩ else none
  else none

/-- `LotSize::new(NonZeroU64::new(u64::try_from(…)))`. -/
def LotSize.tryFrom (n : ℕ) : Option LotSize :=
  if n < 2 ^ 64 then
    let get : U64 := BitVec.ofNat 64 n
    if h : get ≠ 0 then some ⟨get, h⟩ else none
  else none

/-! ## Trading pairs -/

/-- The bounds of the notional in `add_trading_pair`. -/
def checkNotionalBounds (request : AddTradingPairRequest) :
    Except AddTradingPairError (Quantity × Option Quantity) :=
  let invalid := AddTradingPairError.invalidNotional request.minNotional request.maxNotional
  match Quantity.tryFrom request.minNotional with
  | none => .error invalid
  | some min =>
      if min.isZero then .error invalid
      else
        match request.maxNotional with
        | none => .ok (min, none)
        | some max =>
            match Quantity.tryFrom max with
            | none => .error invalid
            | some max => if max.lt min then .error invalid else .ok (min, some max)

/-- The checks of `add_trading_pair` that only look at the request. -/
def checkTradingPair (request : AddTradingPairRequest) :
    Except AddTradingPairError
      (TickSize × LotSize × FeeRates × Quantity × Option Quantity) := do
  if request.base.id = request.quote.id then .error .baseEqualsQuote
  let tickSize ← Except.expect (TickSize.tryFrom request.tickSize) .invalidTickSize
  let lotSize ← Except.expect (LotSize.tryFrom request.lotSize) .invalidLotSize
  let maker ← Except.expect (BasisPoint.new request.makerFeeBps)
    (.invalidBasisPoint request.makerFeeBps)
  let taker ← Except.expect (BasisPoint.new request.takerFeeBps)
    (.invalidBasisPoint request.takerFeeBps)
  let (min, max) ← checkNotionalBounds request
  .ok (tickSize, lotSize, ⟨maker, taker⟩, min, max)

/-- `State::check_token_metadata_consistency`. -/
def State.checkTokenMetadataConsistency (s : State) (token : TokenId) (submitted : TokenMetadata) :
    Except AddTradingPairError Unit :=
  match s.tokens.get token with
  | none => .ok ()
  | some existing =>
      if existing ≠ submitted then .error (.inconsistentTokenMetadata token existing submitted)
      else .ok ()

/-- The remainder of `tick_size × lot_size` by the base scale. -/
def tickLotRemainder (tickSize : TickSize) (lotSize : LotSize) (scale : U64) :
    Except Trap U64 := do
  let tickLot ← expectBug ((Quantity.fromU128 tickSize.get).checkedMulU64 lotSize.get)
    .tickLotOverflow
  let (_, remainder) ← expectBug (tickLot.checkedDivRemU64 scale) .divisionByZero
  .ok remainder

namespace Canister

/-- The part of `add_trading_pair` that looks at the state. -/
def addCheckedPair (c : Canister) (rt : Runtime) (request : AddTradingPairRequest)
    (tickSize : TickSize) (lotSize : LotSize) (feeRates : FeeRates) (minNotional : Quantity)
    (maxNotional : Option Quantity) : Except Trap (Except AddTradingPairError Unit × Canister) :=
  let pair : TradingPair := ⟨request.base.id, request.quote.id⟩
  if c.state.tradingPairs.contains pair then .ok (.error .tradingPairAlreadyExists, c)
  else
    match c.state.checkTokenMetadataConsistency pair.base request.base.metadata with
    | .error e => .ok (.error e, c)
    | .ok _ =>
        match c.state.checkTokenMetadataConsistency pair.quote request.quote.metadata with
        | .error e => .ok (.error e, c)
        | .ok _ =>
            let baseDecimals := request.base.metadata.decimals
            match checkedPow10 baseDecimals with
            | none => .ok (.error (.baseDecimalsTooLarge baseDecimals), c)
            | some scale => do
                let remainder ← tickLotRemainder tickSize lotSize scale
                if remainder ≠ 0 then
                  .ok (.error (.indivisibleTickLotForBaseDecimals tickSize lotSize baseDecimals), c)
                else
                  let c ← c.processEvent (.addTradingPair
                    { bookId := c.state.nextBookId, base := pair.base, quote := pair.quote,
                      tickSize, lotSize, baseMetadata := request.base.metadata,
                      quoteMetadata := request.quote.metadata, feeRates, minNotional,
                      maxNotional }) rt.time
                  .ok (.ok (), c)

/-- `add_trading_pair`. -/
def addTradingPair (c : Canister) (rt : Runtime) (request : AddTradingPairRequest) :
    Except Trap (Except AddTradingPairError Unit × Canister) :=
  if !rt.isController rt.msgCaller then .ok (.error .notController, c)
  else
    match checkTradingPair request with
    | .error e => .ok (.error e, c)
    | .ok (tickSize, lotSize, feeRates, minNotional, maxNotional) =>
        c.addCheckedPair rt request tickSize lotSize feeRates minNotional maxNotional

/-- `MAX_HALT_BOOKS`. -/
def maxHaltBooks : ℕ := 100

/-- The books of the pairs named in a halt. -/
def haltBooks (s : State) (pairs : List TradingPair) : Except Trap (List OrderBookId) := do
  Except.assert (pairs.length ≤ maxHaltBooks) (.rejected .tooManyTradingPairs)
  pairs.mapM fun pair =>
    Except.expect (s.tradingPairs.getBookId pair) (.rejected .unknownPair)

/-- `set_halt`: `halt_trading` and `resume_trading`. -/
def setHalt (c : Canister) (rt : Runtime) (pairs : Option (List TradingPair)) (halted : Bool) :
    Except Trap (Except UnauthorizedError Unit × Canister) :=
  if !rt.isController rt.msgCaller then .ok (.error .notController, c)
  else do
    let bookIds ← match pairs with
      | none => .ok none
      | some pairs => do
          let ids ← haltBooks c.state pairs
          .ok (some ids)
    let c ← c.processEvent (.setHalt { bookIds, halted }) rt.time
    .ok (.ok (), c)

/-! ## Orders -/

/-- `add_limit_order`. -/
def addLimitOrder (c : Canister) (rt : Runtime) (request : LimitOrderRequest) :
    Except Trap (Except AddLimitOrderError OrderId × Canister) := do
  c.state.assertCallerIsAllowed rt
  let owner ← c.state.effectiveAccount rt.msgCaller
  let placedBy := if rt.msgCaller ≠ owner then some rt.msgCaller else none
  match PendingOrder.tryFrom request with
  | none => .ok (.error .amountExceedsMaximum, c)
  | some pending => do
      match ← c.state.validateLimitOrder owner request.pair pending with
      | .error e => .ok (.error e, c)
      | .ok (orderId, order) =>
          match c.state.permissions.permitTrading orderId.bookId with
          | .error _ => .ok (.error .tradingHalted, c)
          | .ok _ => do
              let c ← c.processEvent (.addLimitOrder
                { user := owner, orderId, side := order.side, price := order.price,
                  quantity := order.remainingQuantity, timeInForce := order.timeInForce,
                  placedBy }) rt.time
              .ok (.ok orderId, c)

/-- `cancel_limit_order`. -/
def cancelOrder (c : Canister) (rt : Runtime) (orderId : Option OrderId) :
    Except Trap (Except CancelLimitOrderError OrderRecord × Canister) := do
  c.state.assertCallerIsAllowed rt
  let owner ← c.state.effectiveAccount rt.msgCaller
  let canceledBy := if rt.msgCaller ≠ owner then some rt.msgCaller else none
  match orderId with
  | none => .ok (.error .invalidOrderId, c)
  | some id => c.cancelLimitOrder owner canceledBy id rt.time

/-- `process_pending_orders`: one chunk, under the timer guard. -/
def processPendingOrders (c : Canister) (rt : Runtime) :
    Except Trap (ExecutionStatus × Canister) :=
  if c.state.activeTasks.contains .processPendingOrders then .ok (.alreadyRunning, c)
  else do
    let s := { c.state with activeTasks := c.state.activeTasks.insert .processPendingOrders () }
    let (status, c) ← runOnce rt { c with state := s }
    let s := { c.state with activeTasks := c.state.activeTasks.erase .processPendingOrders }
    .ok (status, { c with state := s })

/-! ## Delegation -/

/-- `add_trading_account`. -/
def addTradingAccount (c : Canister) (rt : Runtime) (trading : Principal) :
    Except Trap (Except AddTradingAccountError Unit × Canister) := do
  c.state.assertCallerIsAllowed rt
  match ← c.state.validateAddTradingAccount ⟨rt.msgCaller⟩ ⟨trading⟩ rt.time with
  | .error e => .ok (.error e, c)
  | .ok _ => do
      let c ← c.processEvent (.addTradingAccount ⟨⟨rt.msgCaller⟩, ⟨trading⟩⟩) rt.time
      .ok (.ok (), c)

/-- `remove_trading_account`. -/
def removeTradingAccount (c : Canister) (rt : Runtime) (trading : Principal) :
    Except Trap (Except RevokeError Unit × Canister) := do
  c.state.assertCallerIsAllowed rt
  match c.state.validateRemoveTradingAccount ⟨rt.msgCaller⟩ ⟨trading⟩ with
  | .error e => .ok (.error e, c)
  | .ok _ => do
      let c ← c.processEvent (.removeTradingAccount ⟨⟨rt.msgCaller⟩, ⟨trading⟩⟩) rt.time
      .ok (.ok (), c)

/-! ## Life cycle -/

/-- `OisyTradeArg`. -/
inductive OisyTradeArg
  | init (arg : InitArg)
  | upgrade (arg : Option UpgradeArg)

/-- `lifecycle::init`. -/
def init (arg : OisyTradeArg) (rt : Runtime) : Except Trap Canister :=
  match arg with
  | .upgrade _ => .error (.rejected .expectedInitArgument)
  | .init arg =>
      match State.new arg History.empty History.empty UserRegistry.empty TokenBalance.empty with
      | .error _ => .error (.rejected .invalidInitArgs)
      | .ok state => .ok { state, events := [{ timestamp := rt.time, payload := .init arg }],
                           journal := [] }

/-- `lifecycle::pre_upgrade` followed by `lifecycle::post_upgrade`. -/
def upgrade (c : Canister) (rt : Runtime) (arg : Option OisyTradeArg) : Except Trap Canister := do
  let snapshot := StateSnapshot.ofState c.state
  let state ← snapshot.intoState c.state.orderHistory c.state.tradeHistory c.state.balances.reopen
    c.state.userRegistry
  let c := { c with state }
  match arg with
  | some (.init _) => .error (.rejected .expectedUpgradeArgument)
  | some (.upgrade (some arg)) => c.processEvent (.upgrade arg) rt.time
  | some (.upgrade none) | none => .ok c

end Canister

end OisyTrade
