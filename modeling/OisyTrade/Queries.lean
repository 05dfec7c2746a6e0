import OisyTrade.Endpoints
import OisyTrade.Order.Ids

/-!
# Queries

The queries of `lib.rs` that answer for their caller, with the readers of `state/mod.rs` they call,
and the debug endpoint that serves the event log.  Ids and cursors come and go as text.

The answers keep the amounts and records of the state: the source converts them field by field into
the types of its interface, and nothing is lost on the way.
-/

namespace OisyTrade

/-! ## Arguments and answers -/

/-- `MAX_ORDERS_PER_RESPONSE`. -/
def maxOrdersPerResponse : ℕ := 100

/-- `MAX_TRADES_PER_RESPONSE`. -/
def maxTradesPerResponse : ℕ := 100

/-- `MAX_EVENTS_PER_RESPONSE`. -/
def maxEventsPerResponse : ℕ := 2000

/-- `MAX_FILTER_LEN`. -/
def maxFilterLen : ℕ := 100

/-- `GetEventsArgs`. -/
structure GetEventsArgs where
  start : U64
  length : U64

/-- `GetEventsResult`. -/
structure GetEventsResult where
  events : List Event
  totalEventCount : ℕ

/-- `usize::try_from` of a `u64`, where a `usize` has 32 bits. -/
def usizeTryFrom (n : U64) : Option ℕ := if n.toNat < 2 ^ 32 then some n.toNat else none

/-- `GetMyOrdersPage`. -/
structure GetMyOrdersPage where
  after : Option String
  length : ℕ

/-- `GetMyOrdersFilter`. -/
inductive GetMyOrdersFilter
  | byId (id : String)
  | byPage (page : GetMyOrdersPage)

/-- `GetMyOrdersArgs`. -/
structure GetMyOrdersArgs where
  filter : GetMyOrdersFilter

/-- `GetMyOrdersArgs::default`: the first page. -/
def GetMyOrdersArgs.default : GetMyOrdersArgs := ⟨.byPage ⟨none, maxOrdersPerResponse⟩⟩

/-- `GetMyOrdersError`. -/
inductive GetMyOrdersError
  | invalidOrderId (error : ParseFixedWithIdError)
  | orderNotFound
deriving DecidableEq

/-- `UserOrder`. -/
structure UserOrder where
  id : String
  pair : TradingPair
  order : OrderRecord
deriving DecidableEq

/-- The answer for one order. -/
def UserOrder.ofOrder (order : OrderId × TradingPair × OrderRecord) : UserOrder :=
  { id := FixedWidthId.toText order.1, pair := order.2.1, order := order.2.2 }

/-- `TradesByOrder`. -/
structure TradesByOrder where
  orderId : String
  after : Option String
  length : ℕ

/-- `TradesByAccount`. -/
structure TradesByAccount where
  after : Option String
  length : ℕ

/-- `TradesFilter`. -/
inductive TradesFilter
  | byOrder (filter : TradesByOrder)
  | byAccount (filter : TradesByAccount)

/-- `GetMyTradesArgs`. -/
structure GetMyTradesArgs where
  filter : TradesFilter

/-- `GetMyTradesError`. -/
inductive GetMyTradesError
  | invalidOrderId (error : ParseFixedWithIdError)
  | invalidTradeId (error : ParseFixedWithIdError)
  | orderNotFound
deriving DecidableEq

/-- `Trade`. -/
structure Trade where
  id : String
  orderId : String
  side : Side
  price : Price
  quantity : Quantity
  notional : Quantity
  fee : Quantity
  feeToken : PairToken
  isMaker : Bool
  timestamp : Timestamp
deriving DecidableEq

/-- `TradeRecord::into_public`. -/
def TradeRecord.intoPublic (trade : TradeRecord) (id : TradeId) : Trade :=
  { id := FixedWidthId.toText id, orderId := FixedWidthId.toText id.orderId, side := trade.side,
    price := trade.price, quantity := trade.quantity, notional := trade.notional, fee := trade.fee,
    feeToken := trade.feeToken, isMaker := trade.isMaker, timestamp := trade.timestamp }

/-- `FilterToken`. -/
inductive FilterToken
  | byId (token : TokenId)
deriving DecidableEq

/-- The token of a filter entry. -/
def FilterToken.token : FilterToken → TokenId
  | byId token => token

/-- `UserTokenBalance`. -/
structure UserTokenBalance where
  token : Token
  balance : Balance

/-- `GetBalancesError`. -/
inductive GetBalancesError
  | filterTooLarge (len max : ℕ)
  | tokenNotSupported (token : FilterToken)
deriving DecidableEq

/-- `GetUserOrderTradesError`. -/
inductive GetUserOrderTradesError
  | orderNotFound | cursorNotFound
deriving DecidableEq

/-- `after.map(parse).transpose()`. -/
def parseCursor (α : Type) [FixedWidthId α] (after : Option String) :
    Except ParseFixedWithIdError (Option α) :=
  match after with
  | none => .ok none
  | some text => do
      let id ← FixedWidthId.parse α text
      .ok (some id)

/-! ## Reading the state -/

namespace State

/-- An order of the index with its pair and its record. -/
def indexedOrder (s : State) (id : OrderId) :
    Except Trap (OrderId × TradingPair × OrderRecord) := do
  let record ← expectBug (s.orderHistory.get id) .indexedOrderMissing
  let pair ← expectBug (s.tradingPairs.getPair id.bookId) .unknownTradingPair
  .ok (id, pair, record)

/-- `State::get_user_orders`. -/
def getUserOrders (s : State) (owner : Principal) (after : Option OrderId) (length : ℕ) :
    Except Trap (Except CursorNotFound (List (OrderId × TradingPair × OrderRecord))) := do
  match ← s.userRegistry.lookupFundingId owner with
  | none =>
      match after with
      | some _ => .ok (.error .mk)
      | none => .ok (.ok [])
  | some userId =>
      match s.orderHistory.pageByUser userId after length with
      | .error e => .ok (.error e)
      | .ok ids => do
          let orders ← ids.mapM s.indexedOrder
          .ok (.ok orders)

/-- `State::get_user_order`. -/
def getUserOrder (s : State) (owner : Principal) (id : OrderId) :
    Except Trap (Option (OrderId × TradingPair × OrderRecord)) :=
  match s.orderHistory.get id with
  | none => .ok none
  | some record =>
      if record.owner ≠ owner then .ok none
      else do
        let pair ← expectBug (s.tradingPairs.getPair id.bookId) .unknownTradingPair
        .ok (some (id, pair, record))

/-- `State::get_user_order_trades`. -/
def getUserOrderTrades (s : State) (owner : Principal) (orderId : OrderId)
    (after : Option TradeId) (length : ℕ) :
    Except GetUserOrderTradesError (List (FillSeq × TradeRecord)) :=
  if (s.orderHistory.get orderId).any fun record => record.owner = owner then
    match s.tradeHistory.tradesForOrder orderId after length with
    | .error _ => .error .cursorNotFound
    | .ok trades => .ok trades
  else .error .orderNotFound

/-- `State::get_user_trades`. -/
def getUserTrades (s : State) (owner : Principal) (after : Option TradeId) (length : ℕ) :
    Except Trap (Except CursorNotFound (List (TradeId × TradeRecord))) := do
  match ← s.userRegistry.lookupFundingId owner with
  | none => .ok (.ok [])
  | some userId => s.tradeHistory.tradesAfter userId after length

/-- One entry of `apply_filter`. -/
def filteredBalance (s : State) (lookup : TokenId → Balance) (entry : FilterToken) :
    Except GetBalancesError UserTokenBalance :=
  match s.tokens.get entry.token with
  | none => .error (.tokenNotSupported entry)
  | some metadata => .ok ⟨⟨entry.token, metadata⟩, lookup entry.token⟩

/-- `State::apply_filter`: an entry that occurs again is skipped. -/
def applyFilter (s : State) (filter : List FilterToken) (lookup : TokenId → Balance) :
    Except GetBalancesError (List UserTokenBalance) :=
  filter.eraseDups.mapM (s.filteredBalance lookup)

/-- The balance of a supported token, if there is one. -/
def heldBalance (s : State) (userId : UserId) (entry : TokenId × TokenMetadata) :
    Option UserTokenBalance :=
  ((s.balances.getBalance userId entry.1).filter fun b => !b.isZero).map fun b =>
    ⟨⟨entry.1, entry.2⟩, b⟩

/-- `State::get_balances`. -/
def getBalances (s : State) (user : Principal) (filter : Option (List FilterToken)) :
    Except Trap (Except GetBalancesError (List UserTokenBalance)) := do
  let userId ← s.userRegistry.lookupFundingId user
  match filter with
  | some entries => .ok (s.applyFilter entries fun t =>
      (userId.bind fun u => s.balances.getBalance u t).getD Balance.zero)
  | none =>
      match userId with
      | none => .ok (.ok [])
      | some userId => .ok (.ok (s.tokens.entries.filterMap (s.heldBalance userId)))

end State

/-! ## Entry points -/

namespace Canister

/-- `validate_filter_len`. -/
def validateFilterLen (filter : Option (List FilterToken)) : Except GetBalancesError Unit :=
  match filter with
  | none => .ok ()
  | some entries =>
      let len := entries.length % 2 ^ 32
      if maxFilterLen < len then .error (.filterTooLarge len maxFilterLen) else .ok ()

/-- `get_balances`. -/
def getBalances (c : Canister) (caller : Principal) (filter : Option (List FilterToken)) :
    Except Trap (Except GetBalancesError (List UserTokenBalance)) :=
  match validateFilterLen filter with
  | .error e => .ok (.error e)
  | .ok _ => do
      let caller ← c.state.effectiveAccount caller
      c.state.getBalances caller filter

/-- `get_my_orders`. -/
def getMyOrders (c : Canister) (caller : Principal) (args : Option GetMyOrdersArgs) :
    Except Trap (Except GetMyOrdersError (List UserOrder)) :=
  match (args.getD .default).filter with
  | .byId id =>
      match FixedWidthId.parse OrderId id with
      | .error e => .ok (.error (.invalidOrderId e))
      | .ok id => do
          let caller ← c.state.effectiveAccount caller
          match ← c.state.getUserOrder caller id with
          | none => .ok (.error .orderNotFound)
          | some order => .ok (.ok [UserOrder.ofOrder order])
  | .byPage page =>
      match parseCursor OrderId page.after with
      | .error e => .ok (.error (.invalidOrderId e))
      | .ok after => do
          let caller ← c.state.effectiveAccount caller
          match ← c.state.getUserOrders caller after (min page.length maxOrdersPerResponse) with
          | .error _ => .ok (.error .orderNotFound)
          | .ok orders => .ok (.ok (orders.map UserOrder.ofOrder))

/-- `get_my_trades`. -/
def getMyTrades (c : Canister) (caller : Principal) (args : GetMyTradesArgs) :
    Except Trap (Except GetMyTradesError (List Trade)) :=
  match args.filter with
  | .byOrder filter =>
      match FixedWidthId.parse OrderId filter.orderId with
      | .error e => .ok (.error (.invalidOrderId e))
      | .ok orderId =>
          match parseCursor TradeId filter.after with
          | .error e => .ok (.error (.invalidTradeId e))
          | .ok after => do
              let caller ← c.state.effectiveAccount caller
              match c.state.getUserOrderTrades caller orderId after
                  (min filter.length maxTradesPerResponse) with
              | .ok trades =>
                  .ok (.ok (trades.map fun e => e.2.intoPublic (TradeId.new orderId e.1)))
              | .error .orderNotFound => .ok (.error .orderNotFound)
              | .error .cursorNotFound => .ok (.ok [])
  | .byAccount filter =>
      match parseCursor TradeId filter.after with
      | .error e => .ok (.error (.invalidTradeId e))
      | .ok after => do
          let caller ← c.state.effectiveAccount caller
          match ← c.state.getUserTrades caller after
              (min filter.length maxTradesPerResponse) with
          | .ok trades => .ok (.ok (trades.map fun e => e.2.intoPublic e.1))
          | .error _ => .ok (.ok [])

/-- `get_my_trading_accounts`. -/
def getMyTradingAccounts (c : Canister) (caller : Principal) : Except Trap (List Principal) :=
  c.state.userRegistry.tradingAccountsOf caller

/-- `get_events`.  The length is cut before it is converted, so that conversion never fails. -/
def getEvents (c : Canister) (args : GetEventsArgs) : Except Trap GetEventsResult := do
  let start ← expectBug (usizeTryFrom args.start) .startIndexExceedsUsize
  let length := min args.length.toNat maxEventsPerResponse
  .ok { events := (c.events.drop start).take length, totalEventCount := c.events.length }

end Canister

end OisyTrade
