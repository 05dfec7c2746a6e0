import OisyTrade.Funding

/-!
# Runs of the canister

The canister, the calls that wait for a ledger, and the canister's accounts on the ledgers.  A step
of the world is one message, one start of a deposit or withdrawal, one execution on a ledger, one
delivery of a reply, or one upgrade; `Reachable` closes the initial worlds under steps, so a theorem
about reachable worlds is about every interleaving.

Of a ledger only three things are assumed: `icrc2_transfer_from` moves the amount in when it
succeeds, `icrc1_transfer` moves amount and fee out when it succeeds, and a block index fits in 64
bits.  Every other answer moves nothing.

A message that traps leaves no trace and is no step.  The delivery of a reply is different: the call
is over even if its continuation traps.  Then the state is as before the delivery, except that the
guard of the call is released.  An upgrade discards the calls that wait; their ledger requests may
still be executed.
-/

namespace OisyTrade

/-! ## Messages -/

/-- The update calls that do not wait, and the timer. -/
inductive Message
  | addTradingPair (request : AddTradingPairRequest)
  | setHalt (pairs : Option (List TradingPair)) (halted : Bool)
  | addLimitOrder (request : LimitOrderRequest)
  | cancelLimitOrder (orderId : Option OrderId)
  | processPendingOrders
  | addTradingAccount (trading : Principal)
  | removeTradingAccount (trading : Principal)

/-- Run a message, without its answer. -/
def Message.run (m : Message) (rt : Runtime) (c : Canister) : Except Trap Canister := do
  match m with
  | addTradingPair request => do
      let (_, c) ← c.addTradingPair rt request
      .ok c
  | setHalt pairs halted => do
      let (_, c) ← c.setHalt rt pairs halted
      .ok c
  | addLimitOrder request => do
      let (_, c) ← c.addLimitOrder rt request
      .ok c
  | cancelLimitOrder orderId => do
      let (_, c) ← c.cancelOrder rt orderId
      .ok c
  | processPendingOrders => do
      let (_, c) ← c.processPendingOrders rt
      .ok c
  | addTradingAccount trading => do
      let (_, c) ← c.addTradingAccount rt trading
      .ok c
  | removeTradingAccount trading => do
      let (_, c) ← c.removeTradingAccount rt trading
      .ok c

/-! ## Calls that wait for a ledger -/

/-- Deposits pull with `icrc2_transfer_from`, withdrawals push with `icrc1_transfer`. -/
inductive CallKind
  | deposit | withdraw
deriving DecidableEq

/-- One request to a ledger, with its answer once the ledger has executed it. -/
structure LedgerRequest where
  transfer : Transfer
  reply : Option LedgerReply
deriving DecidableEq

/-- A deposit or withdrawal, with its requests, the newest first. -/
structure Call where
  kind : CallKind
  caller : Principal
  token : TokenId
  amount : Quantity
  requests : List LedgerRequest
deriving DecidableEq

/-- How a call ended. -/
inductive CallResult
  | ok (blockIndex : ℕ)
  | deposit (error : DepositError)
  | withdraw (error : WithdrawError)
  | trapped (trap : Trap)
deriving DecidableEq

/-- The call with the answer to its newest request. -/
def Call.answered (call : Call) (reply : LedgerReply) : Call :=
  match call.requests with
  | [] => call
  | request :: earlier =>
      { call with requests := { request with reply := some reply } :: earlier }

/-- What the continuation of a call does with a reply: it ends, or it asks the ledger again. -/
def Call.resume (call : Call) (rt : Runtime) (c : Canister) (reply : LedgerReply) :
    Except Trap (Canister × (CallResult ⊕ Transfer)) :=
  let finish (outcome : WithdrawOutcome) : Except Trap (Canister × (CallResult ⊕ Transfer)) := do
    match ← c.withdrawFinish rt call.caller call.token call.amount outcome with
    | (.ok blockIndex, c) => .ok (c, .inl (.ok blockIndex))
    | (.error e, c) => .ok (c, .inl (.withdraw e))
  match call.kind, call.requests with
  | .deposit, _ => do
      match ← c.depositFinish rt call.caller call.token call.amount reply with
      | (.ok blockIndex, c) => .ok (c, .inl (.ok blockIndex))
      | (.error e, c) => .ok (c, .inl (.deposit e))
  | .withdraw, [_] =>
      match afterFirst call.token call.amount reply with
      | .inl outcome => finish outcome
      | .inr transfer => .ok (c, .inr transfer)
  | .withdraw, requests =>
      finish (afterRetry call.token ((requests.head?.map (·.transfer.fee)).getD 0) reply)

/-! ## Worlds -/

/-- The canister with everything that waits for a ledger.  `calls` wait for their reply,
`abandoned` were discarded by an upgrade, `finished` are over. -/
structure World where
  canister : Canister
  calls : List Call
  abandoned : List Call
  finished : List (Call × CallResult)
  ledger : TokenId → ℕ

/-- **A ledger executes a transfer**: what its answer does to the canister's account.  Two things are
assumed: nobody else moves tokens into or out of that account, and a request that is not answered by a
block index has moved nothing, also if the call failed or its reply cannot be decoded. -/
inductive LedgerMoves (kind : CallKind) (token : TokenId) (transfer : Transfer)
    (ledger : TokenId → ℕ) : LedgerReply → (TokenId → ℕ) → Prop
  | pulled {blockIndex : ℕ} (hkind : kind = .deposit) (hindex : blockIndex < 2 ^ 64) :
      LedgerMoves kind token transfer ledger (.ok blockIndex)
        (Function.update ledger token (ledger token + transfer.amount))
  | pushed {blockIndex : ℕ} (hkind : kind = .withdraw) (hindex : blockIndex < 2 ^ 64)
      (hfunds : transfer.amount + transfer.fee ≤ ledger token) :
      LedgerMoves kind token transfer ledger (.ok blockIndex)
        (Function.update ledger token (ledger token - (transfer.amount + transfer.fee)))
  | refused {reply : LedgerReply} (hreply : ∀ blockIndex, reply ≠ .ok blockIndex) :
      LedgerMoves kind token transfer ledger reply ledger

namespace World

/-- The canister and the calls after a reply has been delivered to one of them. -/
def delivered (w : World) (before : List Call) (call : Call) (after : List Call) (rt : Runtime)
    (reply : LedgerReply) : World :=
  match call.resume rt w.canister reply with
  | .ok (c, .inl result) =>
      { w with canister := c, calls := before ++ after,
               finished := (call, result) :: w.finished }
  | .ok (c, .inr transfer) =>
      { w with canister := c,
               calls := before ++ { call with requests := ⟨transfer, none⟩ :: call.requests } ::
                 after }
  | .error trap =>
      { w with canister := w.canister.dropUserOp call.caller call.token, calls := before ++ after,
               finished := (call, .trapped trap) :: w.finished }

/-- **One step of the world.** -/
inductive Step : World → World → Prop
  | message {w : World} {m : Message} {rt : Runtime} {c : Canister}
      (hrun : m.run rt w.canister = .ok c) : Step w { w with canister := c }
  | depositStarted {w : World} {rt : Runtime} {token : TokenId} {n : ℕ} {amount : Quantity}
      {c : Canister} (hrun : w.canister.depositStart rt token n = .ok (.ok amount, c)) :
      Step w { w with canister := c, calls :=
        ⟨.deposit, rt.msgCaller, token, amount, [⟨⟨amount.toNat, 0⟩, none⟩]⟩ :: w.calls }
  | depositRefused {w : World} {rt : Runtime} {token : TokenId} {n : ℕ} {e : DepositError}
      {c : Canister} (hrun : w.canister.depositStart rt token n = .ok (.error e, c)) :
      Step w { w with canister := c }
  | withdrawStarted {w : World} {rt : Runtime} {token : TokenId} {n : ℕ} {amount : Quantity}
      {transfer : Transfer} {c : Canister}
      (hrun : w.canister.withdrawStart rt token n = .ok (.ok (amount, transfer), c)) :
      Step w { w with canister := c, calls :=
        ⟨.withdraw, rt.msgCaller, token, amount, [⟨transfer, none⟩]⟩ :: w.calls }
  | withdrawRefused {w : World} {rt : Runtime} {token : TokenId} {n : ℕ} {e : WithdrawError}
      {c : Canister} (hrun : w.canister.withdrawStart rt token n = .ok (.error e, c)) :
      Step w { w with canister := c }
  | executed {w : World} {before after : List Call} {call : Call} {transfer : Transfer}
      {earlier : List LedgerRequest} {reply : LedgerReply} {ledger : TokenId → ℕ}
      (hcalls : w.calls = before ++ call :: after)
      (hwaiting : call.requests = ⟨transfer, none⟩ :: earlier)
      (hmoves : LedgerMoves call.kind call.token transfer w.ledger reply ledger) :
      Step w { w with calls := before ++ call.answered reply :: after, ledger }
  | executedAbandoned {w : World} {before after : List Call} {call : Call} {transfer : Transfer}
      {earlier : List LedgerRequest} {reply : LedgerReply} {ledger : TokenId → ℕ}
      (hcalls : w.abandoned = before ++ call :: after)
      (hwaiting : call.requests = ⟨transfer, none⟩ :: earlier)
      (hmoves : LedgerMoves call.kind call.token transfer w.ledger reply ledger) :
      Step w { w with abandoned := before ++ call.answered reply :: after, ledger }
  | delivered {w : World} {before after : List Call} {call : Call} {transfer : Transfer}
      {reply : LedgerReply} {earlier : List LedgerRequest} {rt : Runtime}
      (hcalls : w.calls = before ++ call :: after)
      (hanswered : call.requests = ⟨transfer, some reply⟩ :: earlier) :
      Step w (w.delivered before call after rt reply)
  | upgraded {w : World} {rt : Runtime} {arg : Option Canister.OisyTradeArg} {c : Canister}
      (hrun : w.canister.upgrade rt arg = .ok c) :
      Step w { w with canister := c, calls := [], abandoned := w.calls ++ w.abandoned }

/-- The world of a canister that has just been installed, with no funds on any ledger. -/
def start (c : Canister) : World :=
  { canister := c, calls := [], abandoned := [], finished := [], ledger := fun _ => 0 }

/-- **Worlds reachable through worlds that satisfy `P`.** -/
inductive ReachableWhile (P : World → Prop) : World → Prop
  | init {arg : Canister.OisyTradeArg} {rt : Runtime} {c : Canister}
      (hinit : Canister.init arg rt = .ok c) : ReachableWhile P (start c)
  | step {w w' : World} (hreach : ReachableWhile P w) (hP : P w) (hstep : Step w w') :
      ReachableWhile P w'

/-- The worlds of any run. -/
def Reachable (w : World) : Prop := ReachableWhile (fun _ => True) w

/-- A run from one world to another. -/
def Run (w w' : World) : Prop := Relation.ReflTransGen Step w w'

lemma ReachableWhile.reachable {P : World → Prop} {w : World} (h : ReachableWhile P w) :
    Reachable w := by
  induction h with
  | init hinit => exact .init hinit
  | step _ _ hstep ih => exact .step ih trivial hstep

lemma Reachable.run {w w' : World} (h : Reachable w) (hrun : Run w w') : Reachable w' := by
  induction hrun with
  | refl => exact h
  | tail _ hstep ih => exact .step ih trivial hstep

end World

end OisyTrade
