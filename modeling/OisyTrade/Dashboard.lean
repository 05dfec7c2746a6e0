import OisyTrade.MarketData
import Mathlib.Data.List.DropRight

/-!
# Dashboard

The page that shows the markets to everybody (`dashboard/mod.rs`): the data its template is filled
with.  Texts are lists of characters.  How Candid writes a number or a principal is not in this
repository, so it is a parameter (`Texts`).
-/

namespace OisyTrade

/-- How `Nat` and `Principal` are written. -/
structure Texts where
  nat : ℕ → List Char
  principal : Principal → List Char

/-- `DEPTH_LEVELS`. -/
def depthLevelsShown : ℕ := 20

/-! ## Amounts -/

/-- `format_scaled`. -/
def formatScaled (raw : List Char) (decimals : UInt8) : List Char :=
  if decimals.toNat = 0 then raw
  else
    let padded := raw.leftpad (decimals.toNat + 1) '0'
    let split := padded.length - decimals.toNat
    let frac := (padded.drop split).rdropWhile (· == '0')
    if frac.isEmpty then padded.take split else padded.take split ++ '.' :: frac

/-- `Amount`. -/
structure Amount where
  decimalValue : List Char
  rawValue : List Char
deriving DecidableEq

/-- `Amount::new`. -/
def Amount.new (texts : Texts) (raw : ℕ) (decimals : UInt8) : Amount :=
  { decimalValue := formatScaled (Nat.toDigits 10 raw) decimals, rawValue := texts.nat raw }

/-! ## Bars -/

/-- `saturating_to_u128`. -/
def saturatingToU128 (q : Quantity) : U128 := if q.high ≠ 0 then BitVec.allOnes 128 else q.low

/-- A division of `u128` values, which traps on zero. -/
def U128.div (a b : U128) : Except Trap U128 :=
  if b = 0 then .error (.bug .divisionByZero) else .ok (a / b)

/-- `bar_width_percent`. -/
def barWidthPercent (qty max : U128) : Except Trap UInt8 :=
  if max = 0 then .ok 0
  else do
    let percent ← match U128.checkedMul qty 100 with
      | some scaled => U128.div scaled max
      | none => do
          let step ← U128.div max 100
          U128.div qty step
    .ok (UInt8.ofNat (if percent ≤ 100 then percent else 100).toNat)

/-! ## Levels -/

/-- `PairDecimals`. -/
structure PairDecimals where
  base : UInt8
  quote : UInt8

/-- `DashboardLevel`. -/
structure DashboardLevel where
  price : Amount
  quantity : Amount
deriving DecidableEq

/-- `DashboardDepthLevel`. -/
structure DashboardDepthLevel where
  price : Amount
  quantity : Amount
  barWidthPercent : UInt8
deriving DecidableEq

/-- `DashboardDepth`. -/
structure DashboardDepth where
  bids : List DashboardDepthLevel
  asks : List DashboardDepthLevel
deriving DecidableEq

/-- `level`. -/
def dashboardLevel (texts : Texts) (decimals : PairDecimals) (l : Price × Quantity) :
    DashboardLevel :=
  { price := Amount.new texts l.1.toNat decimals.quote
    quantity := Amount.new texts l.2.toNat decimals.base }

/-- One row of `depth_levels`. -/
def depthLevel (texts : Texts) (max : U128) (decimals : PairDecimals) (l : Price × Quantity) :
    Except Trap DashboardDepthLevel := do
  let bar ← OisyTrade.barWidthPercent (saturatingToU128 l.2) max
  .ok { price := Amount.new texts l.1.toNat decimals.quote
        quantity := Amount.new texts l.2.toNat decimals.base
        barWidthPercent := bar }

/-- The largest quantity of the levels, zero if there are none. -/
def largestLevel (levels : List (Price × Quantity)) : U128 :=
  levels.foldr (fun l max => if saturatingToU128 l.2 ≤ max then max else saturatingToU128 l.2) 0

/-- `build_depth`. -/
def buildDepth (texts : Texts) (bids asks : List (Price × Quantity)) (decimals : PairDecimals) :
    Except Trap DashboardDepth := do
  let max := largestLevel (bids ++ asks)
  let bidRows ← bids.mapM (depthLevel texts max decimals)
  let askRows ← asks.mapM (depthLevel texts max decimals)
  .ok { bids := bidRows, asks := askRows }

/-! ## Pages -/

/-- `DashboardToken`. -/
structure DashboardToken where
  ledgerId : Principal
  symbol : String
  decimals : UInt8
deriving DecidableEq

/-- `DashboardPair`. -/
structure DashboardPair where
  bookId : OrderBookId
  baseSymbol : String
  quoteSymbol : String
  quoteDecimals : UInt8
  tickSize : Amount
  lotSize : Amount
  makerFeeBps : ℕ
  takerFeeBps : ℕ
  bidsLen : ℕ
  asksLen : ℕ
  pendingOrdersLen : ℕ
  restingOrdersLen : ℕ
  bestBid : Option DashboardLevel
  bestAsk : Option DashboardLevel
  spread : Option Amount
  depth : DashboardDepth
deriving DecidableEq

/-- The spread between the best levels. -/
def dashboardSpread (texts : Texts) (decimals : PairDecimals) :
    Option (Price × Quantity) → Option (Price × Quantity) → Option Amount
  | some (bid, _), some (ask, _) =>
      (ask.checkedSub bid).map fun s => Amount.new texts s.toNat decimals.quote
  | _, _ => none

/-- `build_pair`. -/
def buildPair (texts : Texts) (bookId : OrderBookId) (baseSymbol quoteSymbol : String)
    (decimals : PairDecimals) (book : OrderBook) : Except Trap DashboardPair := do
  let bids := book.bidLevels depthLevelsShown
  let asks := book.askLevels depthLevelsShown
  let depth ← buildDepth texts bids asks decimals
  .ok { bookId, baseSymbol, quoteSymbol
        quoteDecimals := decimals.quote
        tickSize := Amount.new texts book.tickSize.get.toNat decimals.quote
        lotSize := Amount.new texts book.lotSize.get.toNat decimals.base
        makerFeeBps := book.feeRates.maker.value
        takerFeeBps := book.feeRates.taker.value
        bidsLen := book.bids.len
        asksLen := book.asks.len
        pendingOrdersLen := book.pendingOrders.length
        restingOrdersLen := book.restingOrders.size
        bestBid := bids.head?.map (dashboardLevel texts decimals)
        bestAsk := asks.head?.map (dashboardLevel texts decimals)
        spread := dashboardSpread texts decimals bids.head? asks.head?
        depth }

/-- `DashboardTemplate`. -/
structure DashboardTemplate where
  canisterId : Principal
  mode : List Char
  totalEvents : U64
  tokens : List DashboardToken
  pairs : List DashboardPair

/-- `format_mode`. -/
def formatMode (texts : Texts) : Mode → List Char
  | .generalAvailability => "GeneralAvailability".toList
  | .restrictedTo principals =>
      if principals.entries.isEmpty then "RestrictedTo: (none)".toList
      else "RestrictedTo: ".toList
        ++ ", ".toList.intercalate (principals.entries.map fun e => texts.principal e.1)

/-- One pair of the page. -/
def dashboardPair (texts : Texts) (s : State) (entry : TradingPair × OrderBookId) :
    Except Trap DashboardPair := do
  let book ← expectBug (s.orderBooks.get entry.2) .orderBookMissing
  let baseMeta ← expectBug (s.tokens.get entry.1.base) .baseMetadataMissing
  let quoteMeta ← expectBug (s.tokens.get entry.1.quote) .quoteMetadataMissing
  buildPair texts book.id baseMeta.symbol quoteMeta.symbol
    { base := baseMeta.decimals, quote := quoteMeta.decimals } book

/-- `DashboardTemplate::from_state`. -/
def DashboardTemplate.fromState (texts : Texts) (s : State) (canisterId : Principal)
    (totalEvents : U64) : Except Trap DashboardTemplate := do
  let tokens := s.tokens.entries.map fun e =>
    { ledgerId := e.1.principal, symbol := e.2.symbol, decimals := e.2.decimals }
  let pairs ← s.tradingPairs.byPair.entries.mapM (dashboardPair texts s)
  .ok { canisterId, mode := formatMode texts s.mode, totalEvents, tokens, pairs }

end OisyTrade
