import OisyTrade.Balance.Table
import OisyTrade.Settlement.Basic
import OisyTrade.User

/-!
# The state of the canister

The parts of `state/` that hold data: who may call (`Mode`), how much work a chunk may do
(`execution_policy/mod.rs`), what is halted (`permissions/mod.rs`), the pairs
(`map/trading_pair_map.rs`), the event payloads (`event/mod.rs`) and the `State` record itself.

The stable-memory parts of `State` (user registry, balances, order and trade history) are ordinary
fields here; what survives an upgrade on its own and what goes through the snapshot is modelled by
the snapshot's two functions.
-/

namespace OisyTrade

/-- A 32-bit word. -/
abbrev U32 := BitVec 32

/-! ## Arguments and policies -/

/-- `Mode`. -/
inductive Mode
  | generalAvailability
  | restrictedTo (allowed : SortedSet Principal)
deriving DecidableEq

/-- `InitArg`. -/
structure InitArg where
  mode : Mode
  maxOrdersPerChunk : U32
  instructionBudget : U64
  maxSettlementUnitsPerEvent : Option U32
deriving DecidableEq

/-- `UpgradeArg`. -/
structure UpgradeArg where
  mode : Option Mode
  maxOrdersPerChunk : Option U32
  instructionBudget : Option U64
  maxSettlementUnitsPerEvent : Option U32
deriving DecidableEq

/-- `MAX_INSTRUCTION_BUDGET`. -/
def maxInstructionBudget : U64 := 40000000000

/-- `DEFAULT_MAX_ORDERS_PER_CHUNK`. -/
def defaultMaxOrdersPerChunk : U32 := 1000

/-- `DEFAULT_INSTRUCTION_BUDGET`. -/
def defaultInstructionBudget : U64 := 1000000000

/-- `DEFAULT_MAX_SETTLEMENT_UNITS_PER_EVENT`. -/
def defaultMaxSettlementUnitsPerEvent : U32 := 256

/-- `ExecutionPolicy`.  The fields carry what `try_new` checks, so an invalid policy cannot be
built. -/
structure ExecutionPolicy where
  maxOrdersPerChunk : U32
  instructionBudget : U64
  maxSettlementUnitsPerEvent : U32
  chunkNonzero : maxOrdersPerChunk ≠ 0
  budgetNonzero : instructionBudget ≠ 0
  unitsNonzero : maxSettlementUnitsPerEvent ≠ 0
  budgetBounded : instructionBudget ≤ maxInstructionBudget

namespace ExecutionPolicy

lemma ext_iff_limits {a b : ExecutionPolicy} :
    (a.maxOrdersPerChunk = b.maxOrdersPerChunk ∧ a.instructionBudget = b.instructionBudget ∧
      a.maxSettlementUnitsPerEvent = b.maxSettlementUnitsPerEvent) ↔ a = b := by
  cases a
  cases b
  simp

instance : DecidableEq ExecutionPolicy := fun _ _ => decidable_of_iff _ ext_iff_limits

/-- `ExecutionPolicy::try_new`. -/
def tryNew (maxOrdersPerChunk : U32) (instructionBudget : U64) (maxSettlementUnitsPerEvent : U32) :
    Except String ExecutionPolicy :=
  if h₁ : maxOrdersPerChunk = 0 then .error "max_orders_per_chunk must be non-zero"
  else if h₂ : instructionBudget = 0 then .error "instruction_budget must be non-zero"
  else if h₃ : maxSettlementUnitsPerEvent = 0 then
    .error "max_settlement_units_per_event must be non-zero"
  else if h₄ : instructionBudget ≤ maxInstructionBudget then
    .ok { maxOrdersPerChunk, instructionBudget, maxSettlementUnitsPerEvent, chunkNonzero := h₁,
          budgetNonzero := h₂, unitsNonzero := h₃, budgetBounded := h₄ }
  else .error ("instruction_budget " ++ toString instructionBudget.toNat
    ++ " exceeds IC per-message cap (" ++ toString maxInstructionBudget.toNat ++ ")")

/-- `ExecutionPolicy::default`. -/
def default : ExecutionPolicy :=
  { maxOrdersPerChunk := defaultMaxOrdersPerChunk
    instructionBudget := defaultInstructionBudget
    maxSettlementUnitsPerEvent := defaultMaxSettlementUnitsPerEvent
    chunkNonzero := by decide, budgetNonzero := by decide, unitsNonzero := by decide
    budgetBounded := by decide }

/-- A policy passes its own check. -/
lemma tryNew_self (p : ExecutionPolicy) :
    tryNew p.maxOrdersPerChunk p.instructionBudget p.maxSettlementUnitsPerEvent = .ok p := by
  rw [tryNew, dif_neg p.chunkNonzero, dif_neg p.budgetNonzero, dif_neg p.unitsNonzero,
    dif_pos p.budgetBounded]

end ExecutionPolicy

/-- `Permissions`. -/
structure Permissions where
  tradingHalted : Bool
  haltedPairs : SortedSet OrderBookId
deriving DecidableEq

/-- `UnauthorizedError` of `permissions/mod.rs`. -/
inductive UnauthorizedError
  | tradingHalted | notController
deriving DecidableEq

/-- `FundingDenied`. -/
inductive FundingDenied
  | tradingAccountForbidden
deriving DecidableEq

namespace Permissions

/-- `Permissions::default`. -/
def default : Permissions := { tradingHalted := false, haltedPairs := SortedSet.empty }

/-- `Permissions::halt_trading_globally`. -/
def haltTradingGlobally (p : Permissions) : Permissions := { p with tradingHalted := true }

/-- `Permissions::resume_trading_globally`. -/
def resumeTradingGlobally (_ : Permissions) : Permissions :=
  { tradingHalted := false, haltedPairs := SortedSet.empty }

/-- `Permissions::halt_trading`. -/
def haltTrading (p : Permissions) (book : OrderBookId) : Permissions :=
  { p with haltedPairs := p.haltedPairs.insert book () }

/-- `Permissions::resume_trading`. -/
def resumeTrading (p : Permissions) (book : OrderBookId) : Permissions :=
  { p with haltedPairs := p.haltedPairs.erase book }

/-- `Permissions::is_halted`. -/
def isHalted (p : Permissions) (book : OrderBookId) : Bool :=
  p.tradingHalted || p.haltedPairs.contains book

/-- `Permissions::permit_trading`. -/
def permitTrading (p : Permissions) (book : OrderBookId) : Except UnauthorizedError Unit :=
  if p.isHalted book then .error .tradingHalted else .ok ()

/-- `Permissions::permit_matching`. -/
def permitMatching (p : Permissions) (book : OrderBookId) : Except UnauthorizedError Unit :=
  if p.isHalted book then .error .tradingHalted else .ok ()

/-- `Permissions::permit_deposit`. -/
def permitDeposit (callerIsTradingAccount : Bool) : Except FundingDenied Unit :=
  if callerIsTradingAccount then .error .tradingAccountForbidden else .ok ()

/-- `Permissions::permit_withdraw`. -/
def permitWithdraw (callerIsTradingAccount : Bool) : Except FundingDenied Unit :=
  if callerIsTradingAccount then .error .tradingAccountForbidden else .ok ()

/-- The part of a `SetHalt` event that touches the permissions. -/
def setHalt (p : Permissions) (bookIds : Option (List OrderBookId)) (halted : Bool) : Permissions :=
  match bookIds with
  | none => if halted then p.haltTradingGlobally else p.resumeTradingGlobally
  | some ids => ids.foldl (fun p id => if halted then p.haltTrading id else p.resumeTrading id) p

end Permissions

/-! ## Pairs -/

/-- `TradingPairMap`: the two directions of a one-to-one map. -/
structure TradingPairMap where
  byPair : SortedMap TradingPair OrderBookId
  byBook : SortedMap OrderBookId TradingPair
deriving DecidableEq

namespace TradingPairMap

/-- `TradingPairMap::default`. -/
def empty : TradingPairMap := { byPair := SortedMap.empty, byBook := SortedMap.empty }

/-- `TradingPairMap::insert`. -/
def insert (m : TradingPairMap) (pair : TradingPair) (bookId : OrderBookId) :
    Except Trap TradingPairMap := do
  assertBug (!m.byPair.contains pair && !m.byBook.contains bookId) .duplicateTradingPair
  .ok { byPair := m.byPair.insert pair bookId, byBook := m.byBook.insert bookId pair }

/-- `TradingPairMap::contains`. -/
def contains (m : TradingPairMap) (pair : TradingPair) : Bool := m.byPair.contains pair

/-- `TradingPairMap::get_book_id`. -/
def getBookId (m : TradingPairMap) (pair : TradingPair) : Option OrderBookId := m.byPair.get pair

/-- `TradingPairMap::get_pair`. -/
def getPair (m : TradingPairMap) (bookId : OrderBookId) : Option TradingPair := m.byBook.get bookId

end TradingPairMap

/-! ## Events -/

/-- `AddTradingPairEvent`. -/
structure AddTradingPairEvent where
  bookId : OrderBookId
  base : TokenId
  quote : TokenId
  tickSize : TickSize
  lotSize : LotSize
  baseMetadata : TokenMetadata
  quoteMetadata : TokenMetadata
  feeRates : FeeRates
  minNotional : Quantity
  maxNotional : Option Quantity
deriving DecidableEq

/-- `DepositEvent`. -/
structure DepositEvent where
  user : Principal
  token : TokenId
  amount : Quantity
deriving DecidableEq

/-- `WithdrawEvent`. -/
structure WithdrawEvent where
  blockIndex : U64
  user : Principal
  token : TokenId
  amount : Quantity
deriving DecidableEq

/-- `AddLimitOrderEvent`. -/
structure AddLimitOrderEvent where
  user : Principal
  orderId : OrderId
  side : Side
  price : Price
  quantity : Quantity
  timeInForce : TimeInForce
  placedBy : Option Principal
deriving DecidableEq

/-- `MatchingEvent`. -/
structure MatchingEvent where
  bookId : OrderBookId
  orders : List OrderSeq
deriving DecidableEq

/-- `SettlingEvent`. -/
structure SettlingEvent where
  bookId : OrderBookId
  balanceOperations : List BalanceOperation
  fills : List FillEvent
deriving DecidableEq

/-- `CancelLimitOrderEvent`. -/
structure CancelLimitOrderEvent where
  orderId : OrderId
  canceledBy : Option Principal
deriving DecidableEq

/-- `SetHaltEvent`. -/
structure SetHaltEvent where
  bookIds : Option (List OrderBookId)
  halted : Bool
deriving DecidableEq

/-- `AddTradingAccountEvent`. -/
structure AddTradingAccountEvent where
  funding : FundingAccount
  trading : TradingAccount
deriving DecidableEq

/-- `RemoveTradingAccountEvent`. -/
structure RemoveTradingAccountEvent where
  funding : FundingAccount
  trading : TradingAccount
deriving DecidableEq

/-- `EventType`. -/
inductive EventType
  | init (arg : InitArg)
  | upgrade (arg : UpgradeArg)
  | addTradingPair (event : AddTradingPairEvent)
  | deposit (event : DepositEvent)
  | addLimitOrder (event : AddLimitOrderEvent)
  | settling (event : SettlingEvent)
  | matching (event : MatchingEvent)
  | withdraw (event : WithdrawEvent)
  | cancelLimitOrder (event : CancelLimitOrderEvent)
  | setHalt (event : SetHaltEvent)
  | addTradingAccount (event : AddTradingAccountEvent)
  | removeTradingAccount (event : RemoveTradingAccountEvent)
deriving DecidableEq

/-- `Event`. -/
structure Event where
  timestamp : Timestamp
  payload : EventType
deriving DecidableEq

/-! ## The state -/

/-- `Task`. -/
inductive Task
  | processPendingOrders
deriving DecidableEq

instance : LinearOrder Task :=
  LinearOrder.lift' (fun _ => (0 : ℕ)) (fun a b _ => by cases a; cases b; rfl)

/-- `StableMemoryOptions`. -/
inductive StableMemoryOptions
  | write | skip
deriving DecidableEq

/-- The key of an in-flight deposit or withdrawal. -/
abbrev UserOpKey := Principal ×ₗ TokenId

/-- `State`. -/
structure State where
  mode : Mode
  executionPolicy : ExecutionPolicy
  nextBookId : OrderBookId
  tokens : SortedMap TokenId TokenMetadata
  tradingPairs : TradingPairMap
  orderBooks : SortedMap OrderBookId OrderBook
  userRegistry : UserRegistry
  balances : TokenBalance
  orderHistory : OrderHistory
  tradeHistory : TradeHistory
  ledgerFeeCache : SortedMap TokenId ℕ
  pendingSettlingEvents : List SettlingEvent
  activeTasks : SortedSet Task
  inFlightUserOps : SortedSet UserOpKey
  permissions : Permissions

/-- `State::new`. -/
def State.new (arg : InitArg) (orderHistory : OrderHistory) (tradeHistory : TradeHistory)
    (userRegistry : UserRegistry) (balances : TokenBalance) : Except String State := do
  let executionPolicy ← ExecutionPolicy.tryNew arg.maxOrdersPerChunk arg.instructionBudget
    (arg.maxSettlementUnitsPerEvent.getD defaultMaxSettlementUnitsPerEvent)
  .ok { mode := arg.mode, executionPolicy, nextBookId := Seq.zero, tokens := SortedMap.empty,
        tradingPairs := TradingPairMap.empty, orderBooks := SortedMap.empty, userRegistry,
        balances, orderHistory, tradeHistory, ledgerFeeCache := SortedMap.empty,
        pendingSettlingEvents := [], activeTasks := SortedSet.empty,
        inFlightUserOps := SortedSet.empty, permissions := Permissions.default }

end OisyTrade
