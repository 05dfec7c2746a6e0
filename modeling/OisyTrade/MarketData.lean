import OisyTrade.Queries

/-!
# Market data

What the canister shows of its markets to everybody: the price levels of a book (`order/book.rs`)
and the queries of `lib.rs` for pairs, tokens, ticker, depth and collected fees.

A price level is a price with the quantity that rests there.  As in the other queries the answers
keep prices and quantities of the state, which the source converts to `Nat`.
-/

namespace OisyTrade

/-! ## Levels of a book -/

/-- `sum_remaining`.  The sum stays at `Quantity::MAX` once it does not fit. -/
def sumRemaining (queue : List RestingOrder) : Quantity :=
  queue.foldl (fun acc order => (acc.checkedAdd order.remainingQuantity).getD Quantity.max)
    Quantity.zero

namespace OrderBook

/-- `OrderBook::bid_levels`. -/
def bidLevels (b : OrderBook) (limit : ℕ) : List (Price × Quantity) :=
  (b.bids.levels.entries.take limit).map fun level =>
    (OrderDual.ofDual level.1, sumRemaining level.2)

/-- `OrderBook::ask_levels`. -/
def askLevels (b : OrderBook) (limit : ℕ) : List (Price × Quantity) :=
  (b.asks.levels.entries.take limit).map fun level => (level.1, sumRemaining level.2)

end OrderBook

/-! ## Arguments and answers -/

/-- `DEFAULT_DEPTH_LIMIT`. -/
def defaultDepthLimit : U32 := 100

/-- `MAX_DEPTH_LIMIT`. -/
def maxDepthLimit : U32 := 1000

/-- `OrderBookTicker`. -/
structure OrderBookTicker where
  bid : Option (Price × Quantity)
  ask : Option (Price × Quantity)
deriving DecidableEq

/-- `OrderBookDepth`. -/
structure OrderBookDepth where
  bids : List (Price × Quantity)
  asks : List (Price × Quantity)
deriving DecidableEq

/-- `GetOrderBookTickerRequestError`. -/
inductive GetOrderBookTickerError
  | unknownTradingPair
deriving DecidableEq

/-- `GetOrderBookDepthRequestError`. -/
inductive GetOrderBookDepthError
  | unknownTradingPair
  | limitTooLarge (requested max : U32)
deriving DecidableEq

/-- `GetOrderBookDepthRequest`. -/
structure GetOrderBookDepthRequest where
  tradingPair : TradingPair
  limit : Option U32

/-- `TradingStatus`. -/
inductive TradingStatus
  | trading | halted
deriving DecidableEq

/-- `TradingPairInfo`. -/
structure TradingPairInfo where
  base : Token
  quote : Token
  status : TradingStatus
  tickSize : TickSize
  lotSize : LotSize
  makerFeeBps : BasisPoint
  takerFeeBps : BasisPoint
  minNotional : Quantity
  maxNotional : Option Quantity

/-! ## Reading the state -/

namespace State

/-- `State::get_order_book`. -/
def getOrderBook (s : State) (pair : TradingPair) : Option OrderBook :=
  (s.tradingPairs.getBookId pair).bind s.orderBooks.get

/-- One row of `get_trading_pairs`. -/
def tradingPairInfo (s : State) (entry : TradingPair × OrderBookId) :
    Except Trap TradingPairInfo := do
  let book ← expectBug (s.orderBooks.get entry.2) .orderBookMissing
  let baseMeta ← expectBug (s.tokens.get entry.1.base) .baseMetadataMissing
  let quoteMeta ← expectBug (s.tokens.get entry.1.quote) .quoteMetadataMissing
  let halted := s.permissions.isHalted entry.2
  .ok { base := ⟨entry.1.base, baseMeta⟩, quote := ⟨entry.1.quote, quoteMeta⟩,
        status := if halted then .halted else .trading,
        tickSize := book.tickSize, lotSize := book.lotSize, makerFeeBps := book.feeRates.maker,
        takerFeeBps := book.feeRates.taker, minNotional := book.minNotional,
        maxNotional := book.maxNotional }

/-- `fee_only_balance`. -/
def feeOnlyBalance (amount : Quantity) : Balance := { free := amount, reserved := Quantity.zero }

/-- One row of the collected fees. -/
def collectedFee (s : State) (entry : TokenId × Quantity) : Except Trap UserTokenBalance := do
  let metadata ← expectBug (s.tokens.get entry.1) .feePoolTokenUnregistered
  .ok ⟨⟨entry.1, metadata⟩, feeOnlyBalance entry.2⟩

/-- `State::get_fee_balances`. -/
def getFeeBalances (s : State) (filter : Option (List FilterToken)) :
    Except Trap (Except GetBalancesError (List UserTokenBalance)) :=
  match filter with
  | some entries => .ok (s.applyFilter entries fun t =>
      feeOnlyBalance ((s.balances.feePool.perToken.get t).getD Quantity.zero))
  | none => do
      let rows ← (s.balances.feePool.perToken.entries.filter fun e => !e.2.isZero).mapM
        s.collectedFee
      .ok (.ok rows)

end State

/-! ## Entry points -/

namespace Canister

/-- `get_order_book_ticker`. -/
def getOrderBookTicker (c : Canister) (pair : TradingPair) :
    Except GetOrderBookTickerError OrderBookTicker :=
  match c.state.getOrderBook pair with
  | none => .error .unknownTradingPair
  | some book => .ok { bid := (book.bidLevels 1).head?, ask := (book.askLevels 1).head? }

/-- `get_order_book_depth`. -/
def getOrderBookDepth (c : Canister) (request : GetOrderBookDepthRequest) :
    Except GetOrderBookDepthError OrderBookDepth := do
  let limit ← match request.limit with
    | none => .ok defaultDepthLimit
    | some n =>
        if n ≤ maxDepthLimit then .ok n else .error (.limitTooLarge n maxDepthLimit)
  match c.state.getOrderBook request.tradingPair with
  | none => .error .unknownTradingPair
  | some book =>
      .ok { bids := book.bidLevels limit.toNat, asks := book.askLevels limit.toNat }

/-- `get_trading_pairs`. -/
def getTradingPairs (c : Canister) : Except Trap (List TradingPairInfo) :=
  c.state.tradingPairs.byPair.entries.mapM c.state.tradingPairInfo

/-- `list_supported_tokens`. -/
def listSupportedTokens (c : Canister) : List Token :=
  c.state.tokens.entries.map fun e => ⟨e.1, e.2⟩

/-- `get_fee_balances`. -/
def getFeeBalances (c : Canister) (filter : Option (List FilterToken)) :
    Except Trap (Except GetBalancesError (List UserTokenBalance)) :=
  match validateFilterLen filter with
  | .error e => .ok (.error e)
  | .ok _ => c.state.getFeeBalances filter

end Canister

end OisyTrade
