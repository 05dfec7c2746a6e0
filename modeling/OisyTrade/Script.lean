import OisyTrade.World
import OisyTrade.Balance.WriteBack

/-!
# Schedules

A schedule says which step is taken next: which message is run, which call starts, which waiting
call the ledger answers and how, and which answer is delivered.  `play` executes one entry, and
`playAll` a whole schedule; an entry that is no step stops it.  `playAll_run` says that a schedule
that goes through is a run, so a concrete run can be given by computing it.
-/

namespace OisyTrade

/-- One entry of a schedule.  Calls are named by their position, the newest first. -/
inductive Entry
  | message (rt : Runtime) (m : Message)
  | deposit (rt : Runtime) (token : TokenId) (amount : ℕ)
  | withdraw (rt : Runtime) (token : TokenId) (amount : ℕ)
  | execute (call : ℕ) (reply : LedgerReply)
  | deliver (call : ℕ) (rt : Runtime)
  | upgrade (rt : Runtime) (arg : Option Canister.OisyTradeArg)

/-- What a ledger's answer moves, if it can give that answer. -/
def ledgerAfter (kind : CallKind) (token : TokenId) (transfer : Transfer) (ledger : TokenId → ℕ) :
    LedgerReply → Option (TokenId → ℕ)
  | .ok blockIndex =>
      if blockIndex < 2 ^ 64 then
        match kind with
        | .deposit => some (Function.update ledger token (ledger token + transfer.amount))
        | .withdraw =>
            if transfer.amount + transfer.fee ≤ ledger token then
              some (Function.update ledger token (ledger token - (transfer.amount + transfer.fee)))
            else none
      else none
  | _ => some ledger

lemma LedgerMoves.of_ledgerAfter {kind : CallKind} {token : TokenId} {transfer : Transfer}
    {ledger ledger' : TokenId → ℕ} {reply : LedgerReply}
    (h : ledgerAfter kind token transfer ledger reply = some ledger') :
    LedgerMoves kind token transfer ledger reply ledger' := by
  cases reply with
  | ok blockIndex =>
      cases kind with
      | deposit =>
          simp only [ledgerAfter] at h
          split_ifs at h with hindex
          cases h
          exact .pulled rfl hindex
      | withdraw =>
          simp only [ledgerAfter] at h
          split_ifs at h with hindex hfunds
          cases h
          exact .pushed rfl hindex hfunds
  | _ =>
      cases h
      exact .refused nofun

namespace World

/-- Execute one entry of a schedule. -/
def play (w : World) : Entry → Option World
  | .message rt m =>
      match m.run rt w.canister with
      | .ok c => some { w with canister := c }
      | .error _ => none
  | .deposit rt token n =>
      match w.canister.depositStart rt token n with
      | .ok (.ok amount, c) => some { w with canister := c, calls :=
          ⟨.deposit, rt.msgCaller, token, amount, [⟨⟨amount.toNat, 0⟩, none⟩]⟩ :: w.calls }
      | .ok (.error _, c) => some { w with canister := c }
      | .error _ => none
  | .withdraw rt token n =>
      match w.canister.withdrawStart rt token n with
      | .ok (.ok (amount, transfer), c) => some { w with canister := c, calls :=
          ⟨.withdraw, rt.msgCaller, token, amount, [⟨transfer, none⟩]⟩ :: w.calls }
      | .ok (.error _, c) => some { w with canister := c }
      | .error _ => none
  | .execute i reply =>
      match w.calls.drop i with
      | [] => none
      | call :: after =>
          match call.requests with
          | ⟨transfer, none⟩ :: _ =>
              (ledgerAfter call.kind call.token transfer w.ledger reply).map fun ledger =>
                { w with calls := w.calls.take i ++ call.answered reply :: after, ledger }
          | _ => none
  | .deliver i rt =>
      match w.calls.drop i with
      | [] => none
      | call :: after =>
          match call.requests with
          | ⟨_, some reply⟩ :: _ => some (w.delivered (w.calls.take i) call after rt reply)
          | _ => none
  | .upgrade rt arg =>
      match w.canister.upgrade rt arg with
      | .ok c => some { w with canister := c, calls := [], abandoned := w.calls ++ w.abandoned }
      | .error _ => none

/-- Execute a schedule. -/
def playAll (w : World) (entries : List Entry) : Option World := entries.foldlM play w

variable {w w' : World}

lemma calls_split {i : ℕ} {call : Call} {after : List Call} (h : w.calls.drop i = call :: after) :
    w.calls = w.calls.take i ++ call :: after := by
  rw [← h, List.take_append_drop]

/-- **An entry that goes through is a step.** -/
theorem play_step {e : Entry} (h : w.play e = some w') : Step w w' := by
  cases e with
  | message rt m =>
      rw [play] at h
      cases hrun : m.run rt w.canister with
      | error e => simp only [hrun] at h; cases h
      | ok c =>
          simp only [hrun] at h
          cases h
          exact .message hrun
  | deposit rt token n =>
      rw [play] at h
      cases hrun : w.canister.depositStart rt token n with
      | error e => simp only [hrun] at h; cases h
      | ok r =>
          obtain ⟨result, c⟩ := r
          cases result with
          | ok amount =>
              simp only [hrun] at h
              cases h
              exact .depositStarted hrun
          | error e =>
              simp only [hrun] at h
              cases h
              exact .depositRefused hrun
  | withdraw rt token n =>
      rw [play] at h
      cases hrun : w.canister.withdrawStart rt token n with
      | error e => simp only [hrun] at h; cases h
      | ok r =>
          obtain ⟨result, c⟩ := r
          cases result with
          | ok r =>
              simp only [hrun] at h
              cases h
              exact .withdrawStarted hrun
          | error e =>
              simp only [hrun] at h
              cases h
              exact .withdrawRefused hrun
  | execute i reply =>
      rw [play] at h
      cases hdrop : w.calls.drop i with
      | nil => simp only [hdrop] at h; cases h
      | cons call after =>
          simp only [hdrop] at h
          split at h
          · rename_i transfer earlier hreq
            obtain ⟨ledger, hledger, rfl⟩ := Option.map_eq_some_iff.mp h
            exact .executed (calls_split hdrop) hreq (LedgerMoves.of_ledgerAfter hledger)
          · cases h
  | deliver i rt =>
      rw [play] at h
      cases hdrop : w.calls.drop i with
      | nil => simp only [hdrop] at h; cases h
      | cons call after =>
          simp only [hdrop] at h
          split at h
          · rename_i transfer reply earlier hreq
            cases h
            exact .delivered (calls_split hdrop) hreq
          · cases h
  | upgrade rt arg =>
      rw [play] at h
      cases hrun : w.canister.upgrade rt arg with
      | error e => simp only [hrun] at h; cases h
      | ok c =>
          simp only [hrun] at h
          cases h
          exact .upgraded hrun

/-- **A schedule that goes through is a run.** -/
theorem playAll_run {entries : List Entry} (h : w.playAll entries = some w') : Run w w' := by
  induction entries generalizing w with
  | nil =>
      cases h
      exact Relation.ReflTransGen.refl
  | cons e entries ih =>
      rw [playAll, List.foldlM_cons, Option.bind_eq_bind, Option.bind_eq_some_iff] at h
      obtain ⟨w₁, hplay, hrest⟩ := h
      exact (Relation.ReflTransGen.single (play_step hplay)).trans (ih hrest)

/-- Install the canister and execute a schedule. -/
def schedule (arg : InitArg) (rt : Runtime) (entries : List Entry) : Option World :=
  match Canister.init (.init arg) rt with
  | .ok c => (start c).playAll entries
  | .error _ => none

/-- **The world at the end of a schedule is reachable.** -/
theorem schedule_reachable {arg : InitArg} {rt : Runtime} {entries : List Entry}
    (h : schedule arg rt entries = some w) : Reachable w := by
  rw [schedule] at h
  cases hinit : Canister.init (.init arg) rt with
  | error e => simp only [hinit] at h; cases h
  | ok c =>
      simp only [hinit] at h
      exact Reachable.run (.init hinit) (playAll_run h)

/-- Execute a schedule as long as the worlds pass a check. -/
def playAllWhile (check : World → Bool) (w : World) (entries : List Entry) : Option World :=
  entries.foldlM (fun w e => if check w then w.play e else none) w

/-- **A schedule whose worlds pass the check** is a run through worlds with the property that is
checked, and it ends where the schedule ends. -/
theorem playAllWhile_spec {P : World → Prop} {check : World → Bool}
    (hcheck : ∀ w, Reachable w → check w = true → P w) {entries : List Entry}
    (h : w.playAllWhile check entries = some w') (hw : ReachableWhile P w) :
    ReachableWhile P w' ∧ w.playAll entries = some w' := by
  induction entries generalizing w with
  | nil =>
      cases h
      exact ⟨hw, rfl⟩
  | cons e entries ih =>
      rw [playAllWhile, List.foldlM_cons, Option.bind_eq_bind, Option.bind_eq_some_iff] at h
      obtain ⟨w₁, hplay, hrest⟩ := h
      split_ifs at hplay with hpass
      obtain ⟨hreach, hall⟩ := ih hrest (.step hw (hcheck w hw.reachable hpass) (play_step hplay))
      refine ⟨hreach, ?_⟩
      rw [playAll, List.foldlM_cons, hplay]
      exact hall

/-- Install the canister and execute a schedule as long as the worlds pass a check. -/
def scheduleWhile (check : World → Bool) (arg : InitArg) (rt : Runtime) (entries : List Entry) :
    Option World :=
  match Canister.init (.init arg) rt with
  | .ok c => (start c).playAllWhile check entries
  | .error _ => none

/-- **The world at the end of a checked schedule** is reachable through worlds with the property. -/
theorem scheduleWhile_reachable {P : World → Prop} (check : World → Bool)
    (hcheck : ∀ w, Reachable w → check w = true → P w) {arg : InitArg} {rt : Runtime}
    {entries : List Entry} (hpass : (scheduleWhile check arg rt entries).isSome = true)
    (h : schedule arg rt entries = some w) : ReachableWhile P w := by
  obtain ⟨w', hw'⟩ := Option.isSome_iff_exists.mp hpass
  rw [schedule] at h
  rw [scheduleWhile] at hw'
  cases hinit : Canister.init (.init arg) rt with
  | error e => simp only [hinit] at h; cases h
  | ok c =>
      simp only [hinit] at h hw'
      obtain ⟨hreach, hall⟩ := playAllWhile_spec hcheck hw' (.init hinit)
      rw [h, Option.some.injEq] at hall
      rw [hall]
      exact hreach

/-! ## A sample run

Two users trade twice.  The second trade is matched by a round whose budget ends before settling, so
its settling event is still queued; one more order is pending. -/

/-- The tokens of the sample run. -/
def sampleBase : TokenId := ⟨⟨100⟩⟩

def sampleQuote : TokenId := ⟨⟨101⟩⟩

/-- The sample pair. -/
def samplePair : TradingPair := ⟨sampleBase, sampleQuote⟩

/-- A message of a caller.  The instruction counter reaches the budget of the sample policy at
reading `cut`. -/
def sampleRuntime (caller cut : ℕ) : Runtime :=
  { msgCaller := ⟨caller⟩, isController := fun p => p.code = 1, time := ⟨0⟩,
    instructionCounter := fun n => if n < cut then 0 else 1000 }

def sampleArg : InitArg :=
  { mode := .generalAvailability, maxOrdersPerChunk := 10, instructionBudget := 1000,
    maxSettlementUnitsPerEvent := none }

def sampleListing : AddTradingPairRequest :=
  { base := ⟨sampleBase, ⟨"BASE", 0⟩⟩, quote := ⟨sampleQuote, ⟨"QUOTE", 0⟩⟩, tickSize := 1,
    lotSize := 1, makerFeeBps := 10, takerFeeBps := 20, minNotional := 1, maxNotional := none }

/-- The pair is listed and both users have funds. -/
def sampleFunding : List Entry :=
  [.message (sampleRuntime 1 9) (.addTradingPair sampleListing),
    .deposit (sampleRuntime 10 9) sampleQuote 1000, .execute 0 (.ok 7),
    .deliver 0 (sampleRuntime 10 9),
    .deposit (sampleRuntime 11 9) sampleBase 1000, .execute 0 (.ok 8),
    .deliver 0 (sampleRuntime 11 9)]

/-- A limit order of a caller on the sample pair. -/
def sampleOrder (caller : ℕ) (side : Side) (price quantity : ℕ) : Entry :=
  .message (sampleRuntime caller 9)
    (.addLimitOrder ⟨samplePair, side, price, quantity, none⟩)

def sampleEntries : List Entry :=
  sampleFunding ++
    [sampleOrder 10 .buy 5 20, sampleOrder 11 .sell 4 8,
      .message (sampleRuntime 1 9) .processPendingOrders,
      sampleOrder 11 .sell 5 4, .message (sampleRuntime 1 3) .processPendingOrders,
      sampleOrder 11 .sell 9 1]

/-- The world at the end of the sample run. -/
def sampleWorld : World :=
  (schedule sampleArg (sampleRuntime 1 9) sampleEntries).get (by decide +kernel)

lemma reachable_sampleWorld : Reachable sampleWorld :=
  schedule_reachable (Option.some_get _).symm

lemma sampleWorld_total (t : TokenId) :
    sampleWorld.canister.state.balances.total t < 2 ^ 256 :=
  Nat.lt_of_le_of_lt (TokenBalance.total_le_units _ t) (by decide +kernel)

/-! The next run ends when the first trade of the sample run has been settled. -/

def settledWorld : World :=
  (schedule sampleArg (sampleRuntime 1 9) (sampleEntries.take 10)).get (by decide +kernel)

lemma reachable_settledWorld : Reachable settledWorld :=
  schedule_reachable (Option.some_get _).symm

/-! In the next run the buyer of that trade withdraws, and the ledger has not answered. -/

def withdrawingWorld : World :=
  (schedule sampleArg (sampleRuntime 1 9)
    (sampleEntries.take 10 ++ [.withdraw (sampleRuntime 10 9) sampleQuote 100])).get
      (by decide +kernel)

lemma reachable_withdrawingWorld : Reachable withdrawingWorld :=
  schedule_reachable (Option.some_get _).symm

/-! In the next run orders of two pairs are pending, and nothing was matched yet. -/

def otherBase : TokenId := ⟨⟨102⟩⟩

def crowdedEntries : List Entry :=
  sampleFunding ++
    [.message (sampleRuntime 1 9) (.addTradingPair
        { sampleListing with base := ⟨otherBase, ⟨"OTHER", 0⟩⟩ }),
      .deposit (sampleRuntime 11 9) otherBase 50, .execute 0 (.ok 9),
      .deliver 0 (sampleRuntime 11 9),
      sampleOrder 10 .buy 5 20, sampleOrder 11 .sell 4 8,
      .message (sampleRuntime 11 9) (.addLimitOrder ⟨⟨otherBase, sampleQuote⟩, .sell, 3, 10, none⟩),
      .message (sampleRuntime 10 9) (.addLimitOrder ⟨⟨otherBase, sampleQuote⟩, .buy, 3, 4, none⟩),
      .message (sampleRuntime 11 9) (.addLimitOrder ⟨samplePair, .sell, 5, 30, some .fillOrKill⟩),
      sampleOrder 11 .sell 5 12]

def crowdedWorld : World :=
  (schedule sampleArg (sampleRuntime 1 9) crowdedEntries).get (by decide +kernel)

lemma reachable_crowdedWorld : Reachable crowdedWorld :=
  schedule_reachable (Option.some_get _).symm

/-! In the next run the only order is a fill-or-kill order that finds no maker. -/

def killedEntries : List Entry :=
  sampleFunding ++
    [.message (sampleRuntime 10 9) (.addLimitOrder ⟨samplePair, .buy, 5, 20, some .fillOrKill⟩),
      .message (sampleRuntime 1 9) .processPendingOrders]

def killedWorld : World :=
  (schedule sampleArg (sampleRuntime 1 9) killedEntries).get (by decide +kernel)

lemma reachable_killedWorld : Reachable killedWorld :=
  schedule_reachable (Option.some_get _).symm

/-! In the next run the buyer grants trading to another principal, which places the order. -/

def grantedEntries : List Entry :=
  sampleFunding ++
    [.message (sampleRuntime 10 9) (.addTradingAccount ⟨12⟩), sampleOrder 12 .buy 5 20,
      sampleOrder 11 .sell 9 1]

def grantedWorld : World :=
  (schedule sampleArg (sampleRuntime 1 9) grantedEntries).get (by decide +kernel)

lemma reachable_grantedWorld : Reachable grantedWorld :=
  schedule_reachable (Option.some_get _).symm

/-! In the next run the buyer grants trading to a second principal an hour later, revokes the first
grant, and starts a withdrawal that the ledger has not answered. -/

/-- A message of a caller an hour later. -/
def laterRuntime (caller : ℕ) : Runtime :=
  { sampleRuntime caller 9 with time := ⟨3600000000000⟩ }

def delegatedEntries : List Entry :=
  grantedEntries ++
    [.message (laterRuntime 10) (.addTradingAccount ⟨13⟩),
      .message (laterRuntime 10) (.removeTradingAccount ⟨12⟩),
      .withdraw (laterRuntime 10) sampleQuote 100]

def delegatedWorld : World :=
  (schedule sampleArg (sampleRuntime 1 9) delegatedEntries).get (by decide +kernel)

lemma reachable_delegatedWorld : Reachable delegatedWorld :=
  schedule_reachable (Option.some_get _).symm

/-! In the next run the ledger refuses the buyer's withdrawal, and the refusal is delivered. -/

def creditedWorld : World :=
  (schedule sampleArg (sampleRuntime 1 9)
    (sampleEntries.take 10 ++ [.withdraw (sampleRuntime 10 9) sampleQuote 100,
      .execute 0 .temporarilyUnavailable, .deliver 0 (sampleRuntime 10 9)])).get (by decide +kernel)

lemma reachable_creditedWorld : Reachable creditedWorld :=
  schedule_reachable (Option.some_get _).symm

/-! In the next run the pair is halted after the sample run. -/

def haltedEntries : List Entry :=
  sampleEntries ++ [.message (sampleRuntime 1 9) (.setHalt (some [samplePair]) true)]

def haltedWorld : World :=
  (schedule sampleArg (sampleRuntime 1 9) haltedEntries).get (by decide +kernel)

lemma reachable_haltedWorld : Reachable haltedWorld :=
  schedule_reachable (Option.some_get _).symm

/-! ## A run at the brim

A balance has 256 bits, but nothing bounds what all users together hold of a token.  In this run the
seller already holds the largest possible quote balance when the proceeds of a trade are queued. -/

/-- A caller deposits an amount. -/
def sampleDeposit (caller : ℕ) (token : TokenId) (amount : ℕ) : List Entry :=
  [.deposit (sampleRuntime caller 9) token amount, .execute 0 (.ok 9),
    .deliver 0 (sampleRuntime caller 9)]

def brimEntries : List Entry :=
  sampleFunding ++ sampleDeposit 11 sampleQuote (2 ^ 256 - 1) ++
    [sampleOrder 10 .buy 5 1, sampleOrder 11 .sell 5 1,
      .message (sampleRuntime 1 3) .processPendingOrders]

def brimWorld : World :=
  (schedule sampleArg (sampleRuntime 1 9) brimEntries).get (by decide +kernel)

lemma reachable_brimWorld : Reachable brimWorld :=
  schedule_reachable (Option.some_get _).symm

/-! In the next run a user with the largest possible balance has an order on the book and then sells
something: the free balance is so large that what the order reserves does not fit any more. -/

def fullEntries : List Entry :=
  sampleFunding ++ sampleDeposit 11 sampleQuote (2 ^ 256 - 1) ++
    [sampleOrder 11 .buy 1 5, sampleOrder 10 .buy 5 1, sampleOrder 11 .sell 5 1,
      .message (sampleRuntime 1 9) .processPendingOrders]

def fullWorld : World :=
  (schedule sampleArg (sampleRuntime 1 9) fullEntries).get (by decide +kernel)

lemma reachable_fullWorld : Reachable fullWorld :=
  schedule_reachable (Option.some_get _).symm

/-! In the last run a user with the largest possible balance withdraws some of it, sells something
while the withdrawal waits, and the ledger refuses the transfer: what was debited does not fit any
more. -/

def refusedEntries : List Entry :=
  sampleFunding ++ sampleDeposit 11 sampleQuote (2 ^ 256 - 1) ++
    [.withdraw (sampleRuntime 11 9) sampleQuote 2000, sampleOrder 10 .buy 5 200,
      sampleOrder 11 .sell 5 200, .message (sampleRuntime 1 9) .processPendingOrders,
      .execute 0 .temporarilyUnavailable]

def refusedWorld : World :=
  (schedule sampleArg (sampleRuntime 1 9) refusedEntries).get (by decide +kernel)

lemma reachable_refusedWorld : Reachable refusedWorld :=
  schedule_reachable (Option.some_get _).symm

/-- The withdrawal that waits there. -/
def refusedCall : Call :=
  { kind := .withdraw, caller := ⟨11⟩, token := sampleQuote, amount := .fromU64 2000,
    requests := [⟨firstTransfer (.fromU64 2000) 0, some .temporarilyUnavailable⟩] }

/-- The refusal is delivered. -/
def lostWorld : World :=
  (schedule sampleArg (sampleRuntime 1 9)
    (refusedEntries ++ [.deliver 0 (sampleRuntime 11 9)])).get (by decide +kernel)

lemma reachable_lostWorld : Reachable lostWorld :=
  schedule_reachable (Option.some_get _).symm

end World

end OisyTrade
