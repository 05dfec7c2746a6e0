import OisyTrade.Lib.Outcome

/-!
# Traps

Every `expect`, `assert!`, `debug_assert!` and `panic!` of the canister aborts the message that
runs it.  A modelled function that can reach one returns in `Except Trap`.

`Bug` has one constructor for each internal check of the source, named after what the check says;
nearly all of them carry the text `BUG`.  `Rejection` collects the panics that refuse a caller or
an argument, and `Counter` the identifiers whose 64-bit range can run out.
-/

namespace OisyTrade

/-- The internal checks of the source. -/
inductive Bug
  -- order/plan.rs
  | fillAfterPartial | selfFill | fillExceedsTakerRemaining | partialFillTakerNotConsumed
  -- order/queue/mod.rs
  | emptyLevel
  -- order/book.rs
  | emptyIndexMismatch | poppedMissingFromIndex | takerOrderMismatch | noMakerLevelToPop
  | makerNotAtFront | noMakerLevelForPartial | partialMakerNotAtFront | partialMakerFullyFilled
  | takerRemainingMismatch | reduceBelowZero | invalidOrder | orderSeqMismatch
  | fewerPendingOrders | pendingSeqMismatch | duplicateFill | failedToMatchOrder
  | restingFilledOverlap | restingOrderExists | indexInconsistent
  | duplicateRestingSeq | duplicatePriceLevel
  -- order/mod.rs, order/fees.rs
  | settlementNotExact | divisionByZero | feeProductOverflow | feeRemainderOverflow
  | feeSumOverflow
  -- settlement/mod.rs
  | priceDiffOverflow | filledDeltaOverflow | quoteDeltaOverflow | feeDeltaOverflow
  | notionalOverflow | refundOverflow
  -- balance/
  | depositOverflow | debitReservedUnderflow | unreserveUnderflow | unreserveOverflow
  | reserveOverflow | feeExceedsGross | feeAccrualOverflow | debtorBalanceMissing
  | unreserveBalanceMissing | duplicateFeeEntry
  -- ids/mod.rs, order/mod.rs: a slice at an index out of range or inside a character, and a copy
  -- or conversion of a slice of another length
  | sliceIndex | sliceLength
  -- history/mod.rs, order/history/mod.rs, order/trades/mod.rs
  | duplicateHistoryKey | duplicateUserIndexEntry | historyKeyMissing | filledQuantityOverflow
  | filledExceedsQuantity | filledQuoteOverflow | filledFeeOverflow | indexedTradeMissing
  -- user/mod.rs
  | fundingAndTradingAccount | grantUnregisteredFunding | grantOverwroteTrading
  | revokeUnregisteredFunding | revokeNoGrant | revokeOtherFunding | revokeNoList
  -- state/
  | orderBookMissing | unknownTradingPair | priceQuantityOverflow | ownerNotRegistered
  | insufficientBalanceForOrder | orderNotFoundAfterCancel | orderNotCanceled
  | canceledOrderNotInBook | takerNotResolved | makerNotResolved | missingOrderRecord
  | indexedOrderMissing | bookIdMismatch | duplicateOrderBook | duplicateTradingPair
  | tokenMetadataMismatch | baseMetadataMissing | quoteMetadataMissing | baseScaleOverflow
  | baseScaleZero | operationOrderNotResolved
  | feePoolTokenUnregistered | reinitialization | invalidExecutionPolicy
  | insufficientBalanceForWithdraw | emptyEventLog | firstEventNotInit | stateInitialization
  -- state/snapshot/mod.rs
  | snapshotDuplicateToken | snapshotDuplicateOrderBook | snapshotDuplicateLedgerFee
  | snapshotInvalidPolicy | snapshotPartialPolicy
  -- execute/mod.rs, lib.rs, main.rs
  | bookIdMissing | chunkExceedsBudget | tickLotOverflow | blockIndexOverflow
  | startIndexExceedsUsize
deriving DecidableEq, Repr

/-- The 64-bit ranges that can run out. -/
inductive Counter
  | orderBookId | orderSeq | fillSeq | stableMap
deriving DecidableEq, Repr

/-- Panics that refuse a caller or an argument. -/
inductive Rejection
  | callerNotAllowed | tooManyTradingPairs | unknownPair | invalidInitArgs
  | expectedInitArgument | expectedUpgradeArgument
deriving DecidableEq, Repr

/-- Why a message was aborted. -/
inductive Trap
  | bug (b : Bug)
  | exhausted (c : Counter)
  | rejected (r : Rejection)
deriving DecidableEq, Repr

/-- The traps of an addition that does not fit. -/
inductive Trap.Overflow : Trap → Prop
  | deposit : Overflow (.bug .depositOverflow)
  | unreserve : Overflow (.bug .unreserveOverflow)
  | reserve : Overflow (.bug .reserveOverflow)
  | fee : Overflow (.bug .feeAccrualOverflow)

/-- `expect("BUG: …")`. -/
abbrev expectBug {α : Type} (o : Option α) (b : Bug) : Except Trap α := Except.expect o (.bug b)

/-- `assert!(…, "BUG: …")`. -/
abbrev assertBug (c : Bool) (b : Bug) : Except Trap Unit := Except.assert c (.bug b)

end OisyTrade
