import OisyTrade.Invariant.Trades
import OisyTrade.Replay
import OisyTrade.Script

/-!
# Replaying next to the surviving stable structures

`State.around` is what the events of a log determine: the heap, next to given stable structures.
An event applied in skip mode does to it what the live event did to the heap (`around_skip`), so the
replay of a log rebuilds the heap of the live state (`Recorded.replays`).

The fee pool is the exception.  It lives on the heap, inside `TokenBalance`, but skip mode leaves
balances alone, so the replayed pool stays empty.  The live pool is empty only as long as no event of
the log charges a fee (`Recorded.pool`).
-/

namespace OisyTrade

/-- What lives in stable memory. -/
structure StableStructures where
  orderHistory : OrderHistory
  tradeHistory : TradeHistory
  userRegistry : UserRegistry
  balances : TokenBalance

namespace State

variable {s s' : State} {m : StableStructures}

/-- The stable structures of a state, with the balances reopened. -/
def surviving (s : State) : StableStructures :=
  ⟨s.orderHistory, s.tradeHistory, s.userRegistry, s.balances.reopen⟩

/-- The heap of a state as far as events determine it, next to other stable structures. -/
def around (s : State) (m : StableStructures) : State :=
  { s with
    orderHistory := m.orderHistory
    tradeHistory := m.tradeHistory
    userRegistry := m.userRegistry
    balances := m.balances
    ledgerFeeCache := SortedMap.empty
    pendingSettlingEvents := []
    activeTasks := SortedSet.empty
    inFlightUserOps := SortedSet.empty }

lemma applyUpgrade_around {arg : UpgradeArg} (h : s.applyUpgrade arg = .ok s') :
    (s.around m).applyUpgrade arg = .ok (s'.around m) := by
  rw [applyUpgrade] at h ⊢
  split_ifs at h ⊢ with hpolicy
  · simp only [around] at h ⊢
    split at h
    · rename_i policy hnew
      cases h
      rfl
    · cases h
  · cases h
    rfl

lemma recordToken_around {token : TokenId} {metadata : TokenMetadata}
    (h : s.recordToken token metadata = .ok s') :
    (s.around m).recordToken token metadata = .ok (s'.around m) := by
  rw [recordToken] at h ⊢
  rw [show (s.around m).tokens = s.tokens from rfl]
  cases hg : s.tokens.get token with
  | none =>
      rw [hg] at h
      cases h
      rfl
  | some existing =>
      simp only [hg, Except.bind_eq_ok, Except.ok.injEq] at h ⊢
      obtain ⟨u, hu, rfl⟩ := h
      exact ⟨u, hu, rfl⟩

/-- **Skip mode does to the heap what the live event did.** -/
theorem around_skip {payload : EventType} {timestamp : Timestamp}
    (h : s.applyStateTransition payload timestamp .write = .ok s') :
    (s.around m).applyStateTransition payload timestamp .skip = .ok (s'.around m) := by
  cases payload with
  | init arg => cases h
  | upgrade arg => exact applyUpgrade_around h
  | addTradingPair event =>
      simp only [applyStateTransition, recordTradingPair, Except.bind_eq_ok, Except.ok.injEq] at h ⊢
      obtain ⟨s₁, h₁, s₂, h₂, u, hid, pairs, hpairs, u', hbook, next, hnext, rfl⟩ := h
      exact ⟨_, recordToken_around h₁, _, recordToken_around h₂, u, hid, pairs, hpairs, u', hbook,
        next, hnext, rfl⟩
  | deposit event =>
      obtain ⟨_, _, _, -, -, rfl⟩ := deposit_eq_ok h
      rfl
  | addLimitOrder event =>
      simp only [applyStateTransition, recordLimitOrder, Except.bind_eq_ok, Except.ok.injEq,
        Prod.exists] at h ⊢
      obtain ⟨pair, hpair, scale, hscale, b, hb, token, required, hreq, _, _, _, _, _, _, _, _, _, _,
        _, s₁, rfl, b', hadd, rfl⟩ := h
      exact ⟨pair, hpair, scale, hscale, b, hb, token, required, hreq, _, rfl, b', hadd, rfl⟩
  | settling event =>
      obtain ⟨_, _, _, _, _, -, -, -, -, rfl⟩ := recordSettlingEvent_eq_ok h
      rfl
  | matching event =>
      simp only [applyStateTransition, recordMatchingEvent, Except.bind_eq_ok, Except.ok.injEq,
        Prod.exists] at h ⊢
      obtain ⟨scale, hscale, b, hb, output, b', hproc, _, -, _, -, rfl⟩ := h
      exact ⟨scale, hscale, b, hb, output, b', hproc, rfl⟩
  | withdraw event =>
      simp only [applyStateTransition, Except.bind_eq_ok] at h
      obtain ⟨r, hr, h⟩ := h
      cases r with
      | error e => cases h
      | ok s₁ =>
          cases h
          obtain ⟨_, _, -, -, rfl⟩ := withdraw_eq_ok hr
          rfl
  | cancelLimitOrder event =>
      simp only [applyStateTransition, recordCancelLimitOrder, Except.bind_eq_ok, Except.ok.injEq,
        Prod.exists] at h ⊢
      obtain ⟨scale, hscale, b, hb, o, hrem, removed, b', ho, _, -, _, -, rfl⟩ := h
      exact ⟨scale, hscale, b, hb, o, hrem, removed, b', ho, rfl⟩
  | setHalt event =>
      cases h
      rfl
  | addTradingAccount event =>
      simp only [applyStateTransition, recordAddTradingAccount, Except.bind_eq_ok,
        Except.ok.injEq] at h
      obtain ⟨_, -, rfl⟩ := h
      rfl
  | removeTradingAccount event =>
      simp only [applyStateTransition, recordRemoveTradingAccount, Except.bind_eq_ok,
        Except.ok.injEq] at h
      obtain ⟨_, -, rfl⟩ := h
      rfl

lemma applyEvents_append {before after : List Event} {persistence : StableMemoryOptions}
    {s₁ : State} (h : s.applyEvents before persistence = .ok s₁) :
    s.applyEvents (before ++ after) persistence = s₁.applyEvents after persistence := by
  rw [applyEvents, List.foldlM_append, ← applyEvents, h]
  rfl

end State

/-! ## Fees in the log -/

/-- Whether an operation puts something into the fee pool. -/
def BalanceOperation.chargesFee : BalanceOperation → Bool
  | .transfer _ _ _ _ fee => !(fee.getD Quantity.zero).isZero
  | .unreserve _ _ _ => false

/-- Whether an event puts something into the fee pool. -/
def EventType.chargesFee : EventType → Bool
  | .settling event => event.balanceOperations.any BalanceOperation.chargesFee
  | _ => false

namespace FeePool

lemma insert_ne_empty (pool : FeePool) (token : TokenId) (amount : Quantity) :
    (⟨pool.perToken.insert token amount⟩ : FeePool) ≠ empty := by
  intro heq
  have hget := congrArg (fun pool => pool.perToken.get token) heq
  simp only [SortedMap.get_insert_self] at hget
  cases hget

/-- A pool is empty after a fee exactly if it was and the fee is zero. -/
lemma withhold_eq_empty {pool pool' : FeePool} {token : TokenId} {gross fee net : Quantity}
    (h : pool.withhold token gross fee = .ok (net, pool')) :
    pool' = empty ↔ pool = empty ∧ fee.isZero = true := by
  simp only [withhold, Except.bind_eq_ok] at h
  obtain ⟨net', -, h⟩ := h
  cases hz : fee.isZero with
  | true =>
      rw [hz, if_pos rfl] at h
      cases h
      exact (and_iff_left rfl).symm
  | false =>
      simp only [hz, Bool.false_eq_true, if_false, Except.bind_eq_ok, Except.ok.injEq,
        Prod.mk.injEq] at h
      obtain ⟨accrued, -, -, rfl⟩ := h
      exact ⟨fun heq => absurd heq (insert_ne_empty _ _ _),
        fun heq => absurd heq.2 Bool.false_ne_true⟩

end FeePool

namespace BalanceWriteBack

variable {wb wb' : BalanceWriteBack}

lemma feePool_modifyExisting {key : BalanceKey} {bug : Bug} {f : Balance → Except Trap Balance}
    (h : wb.modifyExisting key bug f = .ok wb') : wb'.feePool = wb.feePool := by
  simp only [modifyExisting, Except.bind_eq_ok, Except.ok.injEq] at h
  obtain ⟨-, -, -, -, rfl⟩ := h
  rfl

lemma feePool_modifyOrCreate {key : BalanceKey} {f : Balance → Except Trap Balance}
    (h : wb.modifyOrCreate key f = .ok wb') : wb'.feePool = wb.feePool := by
  simp only [modifyOrCreate, Except.bind_eq_ok, Except.ok.injEq] at h
  obtain ⟨-, -, rfl⟩ := h
  rfl

/-- An operation leaves the pool empty if it charges no fee. -/
lemma applyOperation_eq_empty {pair : TradingPair} {resolved : SortedMap OrderSeq ResolvedOrder}
    {op : BalanceOperation} (h : applyOperation pair resolved wb op = .ok wb') :
    wb'.feePool = FeePool.empty ↔ wb.feePool = FeePool.empty ∧ op.chargesFee = false := by
  cases op with
  | transfer fromOrder toOrder token amount fee =>
      simp only [applyOperation, transfer, Except.bind_eq_ok, Prod.exists] at h
      obtain ⟨_, -, _, -, net, pool, hwithhold, wb₁, hdebit, hcredit⟩ := h
      rw [feePool_modifyOrCreate hcredit, feePool_modifyExisting hdebit,
        FeePool.withhold_eq_empty hwithhold, BalanceOperation.chargesFee, Bool.not_eq_false']
  | unreserve order token amount =>
      simp only [applyOperation, unreserve, Except.bind_eq_ok] at h
      obtain ⟨_, -, hmodify⟩ := h
      rw [feePool_modifyExisting hmodify]
      exact (and_iff_left rfl).symm

lemma applyOperations_eq_empty {pair : TradingPair} {resolved : SortedMap OrderSeq ResolvedOrder}
    {ops : List BalanceOperation} (h : ops.foldlM (applyOperation pair resolved) wb = .ok wb') :
    wb'.feePool = FeePool.empty ↔
      wb.feePool = FeePool.empty ∧ ops.any BalanceOperation.chargesFee = false := by
  induction ops generalizing wb with
  | nil =>
      cases h
      exact (and_iff_left rfl).symm
  | cons op ops ih =>
      rw [List.foldlM_cons, Except.bind_eq_ok] at h
      obtain ⟨wb₁, hop, hops⟩ := h
      rw [ih hops, applyOperation_eq_empty hop, List.any_cons, Bool.or_eq_false_iff, and_assoc]

end BalanceWriteBack

/-- **The pool after an event** is empty if it was and the event charges no fee. -/
lemma State.feePool_eq_empty {s s' : State} {payload : EventType} {timestamp : Timestamp}
    (h : s.applyStateTransition payload timestamp .write = .ok s') :
    s'.balances.feePool = FeePool.empty ↔
      s.balances.feePool = FeePool.empty ∧ payload.chargesFee = false := by
  have hsame : s'.balances.feePool = s.balances.feePool → payload.chargesFee = false →
      (s'.balances.feePool = FeePool.empty ↔
        s.balances.feePool = FeePool.empty ∧ payload.chargesFee = false) := by
    intro hpool hcharges
    rw [hpool, hcharges]
    exact (and_iff_left rfl).symm
  cases payload with
  | init arg => cases h
  | upgrade arg =>
      obtain ⟨policy, rfl⟩ := applyUpgrade_eq_ok h
      exact hsame rfl rfl
  | addTradingPair event =>
      obtain ⟨next, -, -, -, -, -, -, -, rfl⟩ := recordTradingPair_eq_ok h
      exact hsame rfl rfl
  | deposit event =>
      obtain ⟨uid, registry, balances, -, hdeposit, rfl⟩ := deposit_eq_ok h
      refine hsame ?_ rfl
      simp only [TokenBalance.deposit, BalanceWriteBack.deposit, Except.bind_eq_ok,
        Except.ok.injEq] at hdeposit
      obtain ⟨wb, hwb, rfl⟩ := hdeposit
      exact BalanceWriteBack.feePool_modifyOrCreate hwb
  | addLimitOrder event =>
      obtain ⟨_, _, _, _, _, balances, _, _, -, -, -, -, hreserve, -, -, rfl⟩ :=
        recordLimitOrder_eq_ok h
      exact hsame (pool_of_reserve hreserve) rfl
  | settling event =>
      simp only [applyStateTransition, recordSettlingEvent, TokenBalance.withWriteBack,
        Except.bind_eq_ok, Except.ok.injEq] at h
      obtain ⟨_, -, _, -, _, -, _, -, _, ⟨wb, hwb, rfl⟩, rfl⟩ := h
      exact BalanceWriteBack.applyOperations_eq_empty hwb
  | matching event =>
      obtain ⟨_, _, _, _, _, _, _, -, -, -, -, -, rfl⟩ := recordMatchingEvent_eq_ok h
      exact hsame rfl rfl
  | withdraw event =>
      simp only [applyStateTransition, Except.bind_eq_ok] at h
      obtain ⟨r, hr, h⟩ := h
      cases r with
      | error e => cases h
      | ok s₁ =>
          cases h
          obtain ⟨_, _, -, hwithdraw, rfl⟩ := withdraw_eq_ok hr
          exact hsame (pool_of_withdraw hwithdraw) rfl
  | cancelLimitOrder event =>
      obtain ⟨_, _, _, _, _, _, _, -, -, -, -, -, rfl⟩ := recordCancelLimitOrder_eq_ok h
      exact hsame rfl rfl
  | setHalt event =>
      cases h
      exact hsame rfl rfl
  | addTradingAccount event =>
      simp only [applyStateTransition, recordAddTradingAccount, Except.bind_eq_ok,
        Except.ok.injEq] at h
      obtain ⟨_, -, rfl⟩ := h
      exact hsame rfl rfl
  | removeTradingAccount event =>
      simp only [applyStateTransition, recordRemoveTradingAccount, Except.bind_eq_ok,
        Except.ok.injEq] at h
      obtain ⟨_, -, rfl⟩ := h
      exact hsame rfl rfl

/-! ## The log of a run -/

namespace Canister

/-- **The log rebuilds the heap** next to any stable structures, and it tells whether the fee pool
is empty. -/
structure Recorded (c : Canister) : Prop where
  replays : ∃ arg time rest, c.events = ⟨time, .init arg⟩ :: rest ∧
    ∀ m : StableStructures, ∃ s₀,
      State.new arg m.orderHistory m.tradeHistory m.userRegistry m.balances = .ok s₀ ∧
      s₀.applyEvents rest .skip = .ok (c.state.around m)
  pool : c.state.balances.feePool = FeePool.empty ↔
    ∀ event ∈ c.events, event.payload.chargesFee = false

variable {c c' : Canister} {rt : Runtime}

/-- Changes outside the heap that log nothing. -/
lemma Recorded.of_same (h : c.Recorded) (hevents : c'.events = c.events)
    (haround : ∀ m, c'.state.around m = c.state.around m)
    (hpool : c'.state.balances.feePool = c.state.balances.feePool) : c'.Recorded := by
  refine ⟨?_, ?_⟩
  · simp only [haround, hevents]
    exact h.replays
  · rw [hpool, hevents]
    exact h.pool

/-- One more event. -/
lemma Recorded.of_event (h : c.Recorded) {event : Event}
    (hevents : c'.events = c.events ++ [event])
    (hskip : ∀ m, (c.state.around m).applyStateTransition event.payload event.timestamp .skip
      = .ok (c'.state.around m))
    (hpool : c'.state.balances.feePool = FeePool.empty ↔
      c.state.balances.feePool = FeePool.empty ∧ event.payload.chargesFee = false) :
    c'.Recorded := by
  obtain ⟨arg, time, rest, hlog, hreplay⟩ := h.replays
  refine ⟨⟨arg, time, rest ++ [event], ?_, ?_⟩, ?_⟩
  · rw [hevents, hlog, List.cons_append]
  · intro m
    obtain ⟨s₀, hnew, happly⟩ := hreplay m
    refine ⟨s₀, hnew, ?_⟩
    rw [State.applyEvents_append happly, State.applyEvents, List.foldlM_cons, hskip]
    rfl
  · rw [hpool, h.pool, hevents]
    simp only [List.mem_append, List.mem_singleton, or_imp, forall_and, forall_eq]

lemma Recorded.processEvent (h : c.Recorded) {payload : EventType} {timestamp : Timestamp}
    (hok : c.processEvent payload timestamp = .ok c') : c'.Recorded := by
  obtain ⟨s, hs, rfl⟩ := processEvent_eq_ok hok
  exact h.of_event rfl (fun m => State.around_skip hs) (State.feePool_eq_empty hs)

/-- **Every move keeps the log in step.** -/
lemma Moves.recorded (h : c.Recorded) (hmove : c.Moves c') : c'.Recorded := by
  rcases hmove with hact | ⟨ops, rfl⟩
  · cases hact with
    | event hadmits hok => exact h.processEvent hok
    | @settle before after event timestamp _ hqueue hfront hok =>
        have hwithout : (c.withQueue (before ++ after)).Recorded :=
          h.of_same rfl (fun _ => rfl) rfl
        exact hwithout.processEvent hok
    | debit hok =>
        obtain ⟨_, _, -, hwithdraw, rfl⟩ := State.withdraw_eq_ok hok
        exact h.of_same rfl (fun _ => rfl) (State.pool_of_withdraw hwithdraw)
    | @credit user token amount state huser hok =>
        have happlied : c.state.applyStateTransition (.deposit ⟨user, token, amount⟩) .epoch .write
            = .ok state := hok
        have hpool := State.feePool_eq_empty happlied
        obtain ⟨_, _, _, -, -, rfl⟩ := State.deposit_eq_ok hok
        refine ⟨h.replays, hpool.trans ((and_iff_left rfl).trans h.pool)⟩
    | logged event timestamp =>
        exact h.of_event rfl (fun _ => rfl) (and_iff_left rfl).symm
    | note hsame =>
        rw [hsame.eq]
        exact h.of_same rfl (fun _ => rfl) rfl
  · exact h.of_same rfl (fun _ => rfl) rfl

lemma Moved.recorded (h : c.Recorded) (hmoved : c.Moved c') : c'.Recorded := by
  induction hmoved with
  | refl => exact h
  | tail _ hmove ih => exact hmove.recorded ih

/-- A newly installed canister. -/
lemma recorded_init {arg : OisyTradeArg} (h : init arg rt = .ok c) : c.Recorded := by
  cases arg with
  | upgrade arg => cases h
  | init arg =>
      simp only [init, State.new] at h
      cases hpolicy : ExecutionPolicy.tryNew arg.maxOrdersPerChunk arg.instructionBudget
          (arg.maxSettlementUnitsPerEvent.getD defaultMaxSettlementUnitsPerEvent) with
      | error e =>
          rw [hpolicy] at h
          cases h
      | ok policy =>
          rw [hpolicy] at h
          cases h
          refine ⟨⟨arg, rt.time, [], rfl, fun m => ⟨_, ?_, rfl⟩⟩, ?_⟩
          · rw [State.new, hpolicy]
            rfl
          · simp only [List.mem_singleton, forall_eq]
            exact iff_of_true rfl rfl

/-- `replay_events` in skip mode, with the structures that survive an upgrade. -/
def skipReplay (c : Canister) : Except Trap State :=
  replayEvents c.events c.state.orderHistory c.state.tradeHistory c.state.userRegistry
    c.state.balances.reopen .skip

/-- **The replay gives the heap of the live state**, next to the structures it was given. -/
lemma Recorded.skipReplay_eq (h : c.Recorded) :
    c.skipReplay = .ok (c.state.around c.state.surviving) := by
  obtain ⟨arg, time, rest, hlog, hreplay⟩ := h.replays
  obtain ⟨s₀, hnew, happly⟩ := hreplay c.state.surviving
  rw [skipReplay, hlog, replayEvents]
  simp only [State.surviving] at hnew happly ⊢
  simp only [hnew, happly, Except.bind_ok]
  rfl

end Canister

/-- **`s'` is a rebuilt `s`**: the same stable structures, and the same heap as far as events
determine it. -/
structure State.Rebuilds (s s' : State) : Prop where
  orderHistory : s'.orderHistory = s.orderHistory
  tradeHistory : s'.tradeHistory = s.tradeHistory
  userRegistry : s'.userRegistry = s.userRegistry
  rows : s'.balances.balances = s.balances.balances
  orderBooks : s'.orderBooks = s.orderBooks
  tradingPairs : s'.tradingPairs = s.tradingPairs
  tokens : s'.tokens = s.tokens
  mode : s'.mode = s.mode
  executionPolicy : s'.executionPolicy = s.executionPolicy
  permissions : s'.permissions = s.permissions
  nextBookId : s'.nextBookId = s.nextBookId
  feePool : s'.balances.feePool = s.balances.feePool

namespace World

variable {w : World}

lemma Reachable.recorded (h : Reachable w) : w.canister.Recorded := by
  induction h with
  | init hinit => exact Canister.recorded_init hinit
  | step hreach _ hstep ih =>
      exact (hstep.guarded (ReachableWhile.reachable hreach).guarded).1.recorded ih

/-- **A replay in skip mode rebuilds the live state exactly if the log charges no fee.**  It never
traps, and everything but the fee pool comes back in any case. -/
theorem Reachable.skipReplay_rebuilds_iff (h : Reachable w) :
    (∃ s, w.canister.skipReplay = .ok s ∧ w.canister.state.Rebuilds s) ↔
      ∀ event ∈ w.canister.events, event.payload.chargesFee = false := by
  rw [h.recorded.skipReplay_eq, ← h.recorded.pool]
  constructor
  · rintro ⟨s, hs, hrebuilds⟩
    cases hs
    exact hrebuilds.feePool.symm
  · intro hpool
    exact ⟨_, rfl, rfl, rfl, rfl, rfl, rfl, rfl, rfl, rfl, rfl, rfl, rfl, hpool.symm⟩

/-- In the granted run nothing has been matched. -/
theorem skipReplay_rebuilds_grantedWorld :
    ∃ s, grantedWorld.canister.skipReplay = .ok s ∧ grantedWorld.canister.state.Rebuilds s :=
  reachable_grantedWorld.skipReplay_rebuilds_iff.mpr (by decide +kernel)

/-- After one trade the queue is empty, and so is the pool of the replay, but not the live one. -/
theorem skipReplay_settledWorld : Reachable settledWorld ∧
    settledWorld.canister.state.pendingSettlingEvents = [] ∧
    ¬ ∃ s, settledWorld.canister.skipReplay = .ok s ∧
      settledWorld.canister.state.Rebuilds s := by
  refine ⟨reachable_settledWorld, by decide +kernel, ?_⟩
  rintro ⟨s, hs, hrebuilds⟩
  rw [reachable_settledWorld.recorded.skipReplay_eq] at hs
  cases hs
  have hlive : settledWorld.canister.state.balances.feePool ≠ FeePool.empty := by decide +kernel
  exact hlive hrebuilds.feePool.symm

end World

end OisyTrade
