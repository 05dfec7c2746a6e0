import OisyTrade.Endpoints

/-!
# Deposits and withdrawals

`deposit` and `withdraw` of `lib.rs` with the ledger client of `ledger/mod.rs`.  Both wait for a
ledger in the middle, and any number of other messages run meanwhile, so each is cut at its awaits:
a start, which runs up to the call, and what happens once the reply is there.  A withdrawal whose
first transfer is refused for its fee waits a second time.

The guard of `guard/mod.rs` is held from the start to the end and released on every way out.
-/

namespace OisyTrade

/-! ## Ledgers -/

/-- What comes back from a ledger: no reply, one that cannot be decoded, a block index, or an
error.  `reason` is the text the canister reads off it: the ledger error as it prints, and for an
`insufficientAllowance`, which `icrc1_transfer` does not have, what the decoder says of it there. -/
inductive LedgerReply
  | callFailed (reason : String)
  | undecodable (reason : String)
  | ok (blockIndex : ℕ)
  | badFee (expectedFee : ℕ) (reason : String)
  | insufficientFunds (balance : ℕ)
  | insufficientAllowance (allowance : ℕ) (reason : String)
  | temporarilyUnavailable
  | other (reason : String)
deriving DecidableEq

/-- The amount and the fee of an `icrc1_transfer`. -/
structure Transfer where
  amount : ℕ
  fee : ℕ
deriving DecidableEq

/-- `DepositError`. -/
inductive DepositError
  | amountExceedsMaximum
  | unsupportedToken (token : TokenId)
  | insufficientFunds (balance : ℕ)
  | insufficientAllowance (allowance : ℕ)
  | tradingAccountForbidden
  | operationInProgress
  | ledgerTemporarilyUnavailable
  | callFailed (ledger : Principal) (method reason : String)
  | ledgerError (reason : String)
  | candidDecodeFailed (ledger : Principal) (method reason : String)
deriving DecidableEq

/-- `WithdrawError`. -/
inductive WithdrawError
  | amountExceedsMaximum
  | amountTooSmall (minAmount : ℕ)
  | unsupportedToken (token : TokenId)
  | insufficientBalance (available : Quantity)
  | tradingAccountForbidden
  | operationInProgress
  | ledgerTemporarilyUnavailable
  | callFailed (ledger : Principal) (method reason : String)
  | ledgerFeeChanged
  | ledgerError (reason : String)
  | ledgerInsufficientFunds (balance : ℕ)
  | candidDecodeFailed (ledger : Principal) (method reason : String)
deriving DecidableEq

/-- The decoding of the reply to `icrc2_transfer_from`, with `to_ledger_error`. -/
def depositReply (token : TokenId) : LedgerReply → Except DepositError ℕ
  | .callFailed reason => .error (.callFailed token.principal "icrc2_transfer_from" reason)
  | .undecodable reason => .error (.candidDecodeFailed token.principal "icrc2_transfer_from" reason)
  | .ok blockIndex => .ok blockIndex
  | .badFee _ reason => .error (.ledgerError reason)
  | .insufficientFunds balance => .error (.insufficientFunds balance)
  | .insufficientAllowance allowance _ => .error (.insufficientAllowance allowance)
  | .temporarilyUnavailable => .error .ledgerTemporarilyUnavailable
  | .other reason => .error (.ledgerError reason)

/-- `Icrc1TransferError`. -/
inductive Icrc1TransferError
  | badFee (expectedFee : ℕ)
  | other (error : WithdrawError)

/-- The decoding of the reply to `icrc1_transfer`, with `to_ledger_transfer_error`. -/
def transferReply (token : TokenId) : LedgerReply → Except Icrc1TransferError ℕ
  | .callFailed reason => .error (.other (.callFailed token.principal "icrc1_transfer" reason))
  | .undecodable reason =>
      .error (.other (.candidDecodeFailed token.principal "icrc1_transfer" reason))
  | .ok blockIndex => .ok blockIndex
  | .badFee expectedFee _ => .error (.badFee expectedFee)
  | .insufficientFunds balance => .error (.other (.ledgerInsufficientFunds balance))
  | .insufficientAllowance _ reason =>
      .error (.other (.candidDecodeFailed token.principal "icrc1_transfer" reason))
  | .temporarilyUnavailable => .error (.other .ledgerTemporarilyUnavailable)
  | .other reason => .error (.other (.ledgerError reason))

/-- `WithdrawOutcome`. -/
structure WithdrawOutcome where
  result : Except WithdrawError ℕ
  ledgerFee : Option ℕ

/-- The first transfer of `ledger::withdraw`: the cached fee, capped so that something is left. -/
def firstTransfer (amount : Quantity) (cachedFee : ℕ) : Transfer :=
  let cappedFee := min cachedFee (amount.toNat - 1)
  { amount := amount.toNat - cappedFee, fee := cappedFee }

/-- `ledger::withdraw` after the first reply: done, or one more transfer with the right fee. -/
def afterFirst (token : TokenId) (amount : Quantity) (reply : LedgerReply) :
    WithdrawOutcome ⊕ Transfer :=
  match transferReply token reply with
  | .ok blockIndex => .inl { result := .ok blockIndex, ledgerFee := none }
  | .error (.badFee expectedFee) =>
      if amount.toNat ≤ expectedFee then
        .inl { result := .error (.amountTooSmall (expectedFee + 1)), ledgerFee := some expectedFee }
      else .inr { amount := amount.toNat - expectedFee, fee := expectedFee }
  | .error (.other e) => .inl { result := .error e, ledgerFee := none }

/-- `ledger::withdraw` after the second reply. -/
def afterRetry (token : TokenId) (expectedFee : ℕ) (reply : LedgerReply) : WithdrawOutcome :=
  match transferReply token reply with
  | .ok blockIndex => { result := .ok blockIndex, ledgerFee := some expectedFee }
  | .error (.badFee latestFee) => { result := .error .ledgerFeeChanged, ledgerFee := some latestFee }
  | .error (.other e) => { result := .error e, ledgerFee := some expectedFee }

/-! ## The guard -/

namespace Canister

/-- `UserOpGuard::new`. -/
def guardUserOp (c : Canister) (caller : Principal) (token : TokenId) : Option Canister :=
  let key : UserOpKey := toLex (caller, token)
  if c.state.inFlightUserOps.contains key then none
  else some { c with state :=
    { c.state with inFlightUserOps := c.state.inFlightUserOps.insert key () } }

/-- The drop of a `UserOpGuard`. -/
def dropUserOp (c : Canister) (caller : Principal) (token : TokenId) : Canister :=
  let key : UserOpKey := toLex (caller, token)
  { c with state := { c.state with inFlightUserOps := c.state.inFlightUserOps.erase key } }

/-- `lookup_account` matched against a trading account. -/
def isTradingAccount (c : Canister) (caller : Principal) : Except Trap Bool := do
  match ← c.state.userRegistry.lookup caller with
  | some (.trading _ _) => .ok true
  | _ => .ok false

/-! ## Deposits -/

/-- Whether the caller could hold the amount on top of what it has. -/
def fitsBalance (balance : Balance) (amount : Quantity) : Bool :=
  ((balance.free.checkedAdd balance.reserved).bind fun held => held.checkedAdd amount).isSome

/-- `deposit` up to the call of the ledger.  `.ok amount` goes on to wait for the reply. -/
def depositStart (c : Canister) (rt : Runtime) (token : TokenId) (amount : ℕ) :
    Except Trap (Except DepositError Quantity × Canister) := do
  c.state.assertCallerIsAllowed rt
  match Quantity.tryFrom amount with
  | none => .ok (.error .amountExceedsMaximum, c)
  | some amount =>
      if !c.state.isKnownToken token then .ok (.error (.unsupportedToken token), c)
      else do
        match Permissions.permitDeposit (← c.isTradingAccount rt.msgCaller) with
        | .error .tradingAccountForbidden => .ok (.error .tradingAccountForbidden, c)
        | .ok _ =>
            match c.guardUserOp rt.msgCaller token with
            | none => .ok (.error .operationInProgress, c)
            | some guarded => do
                let existing ← guarded.state.getBalance rt.msgCaller token
                if fitsBalance existing amount then .ok (.ok amount, guarded)
                else .ok (.error .amountExceedsMaximum, guarded.dropUserOp rt.msgCaller token)

/-- `deposit` from the reply on. -/
def depositFinish (c : Canister) (rt : Runtime) (caller : Principal) (token : TokenId)
    (amount : Quantity) (reply : LedgerReply) :
    Except Trap (Except DepositError ℕ × Canister) :=
  match depositReply token reply with
  | .error e => .ok (.error e, c.dropUserOp caller token)
  | .ok blockIndex => do
      let c ← c.processEvent (.deposit { user := caller, token, amount }) rt.time
      .ok (.ok blockIndex, c.dropUserOp caller token)

/-! ## Withdrawals -/

/-- `withdraw` up to the first call of the ledger: the amount is debited before it.
`.ok (amount, transfer)` goes on to wait for the reply. -/
def withdrawStart (c : Canister) (rt : Runtime) (token : TokenId) (amount : ℕ) :
    Except Trap (Except WithdrawError (Quantity × Transfer) × Canister) := do
  c.state.assertCallerIsAllowed rt
  match Quantity.tryFrom amount with
  | none => .ok (.error .amountExceedsMaximum, c)
  | some amount =>
      if !c.state.isKnownToken token then .ok (.error (.unsupportedToken token), c)
      else
        let cachedFee := c.state.getCachedLedgerFee token
        if amount.isZero then .ok (.error (.amountTooSmall (cachedFee + 1)), c)
        else do
          match Permissions.permitWithdraw (← c.isTradingAccount rt.msgCaller) with
          | .error .tradingAccountForbidden => .ok (.error .tradingAccountForbidden, c)
          | .ok _ =>
              match c.guardUserOp rt.msgCaller token with
              | none => .ok (.error .operationInProgress, c)
              | some guarded => do
                  match ← guarded.state.withdraw rt.msgCaller token amount with
                  | .error e =>
                      .ok (.error (.insufficientBalance e.available),
                        guarded.dropUserOp rt.msgCaller token)
                  | .ok state =>
                      .ok (.ok (amount, firstTransfer amount cachedFee), { guarded with state })

/-- `withdraw` from the outcome of the ledger client on. -/
def withdrawFinish (c : Canister) (rt : Runtime) (caller : Principal) (token : TokenId)
    (amount : Quantity) (outcome : WithdrawOutcome) :
    Except Trap (Except WithdrawError ℕ × Canister) := do
  let c := match outcome.ledgerFee with
    | none => c
    | some fee => { c with state := c.state.setCachedLedgerFee token fee }
  match outcome.result with
  | .ok blockIndex =>
      if blockIndex < 2 ^ 64 then
        let c := c.recordEvent (.withdraw
          { blockIndex := BitVec.ofNat 64 blockIndex, user := caller, token, amount }) rt.time
        .ok (.ok blockIndex, c.dropUserOp caller token)
      else .error (.bug .blockIndexOverflow)
  | .error e => do
      let state ← c.state.deposit caller token amount .write
      .ok (.error e, ({ c with state } : Canister).dropUserOp caller token)

end Canister

end OisyTrade
