import OisyTrade.Guarantees.Halts
import OisyTrade.Guarantees.Schedules
import OisyTrade.Guarantees.Traps
import OisyTrade.Invariant.Halts
import OisyTrade.Timers

/-!
# No wakeup is lost

Orders wait in their book until a timer runs the executor, and queued events wait in the state.
Three things keep them from waiting for the periodic timer.  A message that sets no timer leaves
nothing to do that there was not before (`State.Calm`).  A placed order and a resume set a timer.
And a run of the executor that sets no timer has left nothing behind, since the guard of the task is
free whenever it starts.  So while no timer was lost, work is left only if a timer is set
(`TimedWorld.Awake`).

If in addition no run is cut short, every run with something left to match takes orders off the
books, so the timers come to an end (`Ready.fireTimers`).
-/

namespace OisyTrade

/-! ## Work -/

namespace State

variable {s s' s'' : State} {payload : EventType} {timestamp : Timestamp}

/-- The executor is not running. -/
def Idle (s : State) : Prop := s.activeTasks.contains .processPendingOrders = false

/-- **Calm**: in `s'` there is nothing to do that there was not in `s`. -/
structure Calm (s s' : State) : Prop where
  idle : s.Idle → s'.Idle
  matchable : ∀ id, s'.matchable id ≤ s.matchable id
  queue : s'.pendingSettlingEvents = s.pendingSettlingEvents

lemma Calm.refl (s : State) : s.Calm s := ⟨id, fun _ => le_rfl, rfl⟩

lemma Calm.trans (h : s.Calm s') (h' : s'.Calm s'') : s.Calm s'' :=
  ⟨fun hs => h'.idle (h.idle hs), fun id => (h'.matchable id).trans (h.matchable id),
    h'.queue.trans h.queue⟩

/-- Nothing the executor looks at has changed. -/
lemma Calm.of_same (htasks : s'.activeTasks = s.activeTasks) (hbooks : s'.orderBooks = s.orderBooks)
    (hrules : s'.permissions = s.permissions)
    (hqueue : s'.pendingSettlingEvents = s.pendingSettlingEvents) : s.Calm s' := by
  refine ⟨fun hs => ?_, fun id => le_of_eq (matchable_congr (by rw [hbooks]) hrules), hqueue⟩
  rw [Idle, htasks]
  exact hs

lemma matchable_mono {id : OrderBookId} (hcount : s'.pendingCount id ≤ s.pendingCount id)
    (hhalt : s.permissions.isHalted id = true → s'.permissions.isHalted id = true) :
    s'.matchable id ≤ s.matchable id := by
  rw [matchable, matchable]
  cases h : s.permissions.isHalted id with
  | true => rw [hhalt h, if_pos rfl, if_pos rfl]
  | false =>
      rw [if_neg Bool.false_ne_true]
      split_ifs
      · exact Nat.zero_le _
      · exact hcount

/-- A book without pending orders is added or orders are taken off a book. -/
lemma pendingCount_insert {bookId : OrderBookId} {b' : OrderBook}
    (hbooks : s'.orderBooks = s.orderBooks.insert bookId b')
    (hle : b'.pendingOrders.length ≤ s.pendingCount bookId) (id : OrderBookId) :
    s'.pendingCount id ≤ s.pendingCount id := by
  rw [pendingCount, hbooks, SortedMap.get_insert]
  split_ifs with hid
  · subst hid
    exact hle
  · exact le_rfl

lemma matchable_eq_zero {id : OrderBookId} : s.matchable id = 0 ↔
    ∀ b, s.orderBooks.get id = some b → s.permissions.isHalted id = false →
      b.pendingOrders = [] := by
  rw [matchable, pendingCount]
  cases hhalt : s.permissions.isHalted id with
  | true =>
      rw [if_pos rfl]
      exact iff_of_true rfl fun _ _ h => Bool.noConfusion h
  | false =>
      rw [if_neg Bool.false_ne_true]
      cases hb : s.orderBooks.get id with
      | none =>
          refine iff_of_true rfl fun b h => ?_
          cases h
      | some b =>
          refine List.length_eq_zero_iff.trans ⟨fun h b' hb' _ => ?_, fun h => h b rfl rfl⟩
          rw [← Option.some.inj hb']
          exact h

/-- The executor is done if no book has an order to match and the queue is empty. -/
lemma complete_iff_matchable : s.executionStatus = .complete ↔
    (∀ id, s.matchable id = 0) ∧ s.pendingSettlingEvents = [] := by
  rw [executionStatus_eq_complete]
  refine and_congr_left fun _ => ⟨fun h id => matchable_eq_zero.mpr (h id), fun h id => ?_⟩
  exact matchable_eq_zero.mp (h id)

lemma complete_or_moreWork (s : State) :
    s.executionStatus = .complete ∨ s.executionStatus = .moreWork := by
  rw [executionStatus]
  split_ifs
  · exact Or.inr rfl
  · exact Or.inl rfl

lemma Calm.complete (h : s.Calm s') (hdone : s.executionStatus = .complete) :
    s'.executionStatus = .complete := by
  obtain ⟨hmatched, hsettled⟩ := complete_iff_matchable.mp hdone
  refine complete_iff_matchable.mpr ⟨fun id => ?_, h.queue.trans hsettled⟩
  exact Nat.le_zero.mp ((hmatched id) ▸ h.matchable id)

/-! ## Events -/

/-- No event touches the running tasks. -/
lemma applyStateTransition_activeTasks
    (h : s.applyStateTransition payload timestamp .write = .ok s') :
    s'.activeTasks = s.activeTasks := by
  cases payload with
  | init arg => cases h
  | upgrade arg =>
      obtain ⟨policy, rfl⟩ := applyUpgrade_eq_ok h
      rfl
  | addTradingPair event =>
      obtain ⟨next, -, -, -, -, -, -, -, rfl⟩ := recordTradingPair_eq_ok h
      rfl
  | deposit event =>
      obtain ⟨_, _, _, -, -, rfl⟩ := deposit_eq_ok h
      rfl
  | addLimitOrder event =>
      obtain ⟨_, _, _, _, _, _, _, _, -, -, -, -, -, -, -, rfl⟩ := recordLimitOrder_eq_ok h
      rfl
  | settling event =>
      obtain ⟨_, _, _, _, _, -, -, -, -, rfl⟩ := recordSettlingEvent_eq_ok h
      rfl
  | matching event =>
      obtain ⟨_, _, _, _, _, _, _, -, -, -, -, -, rfl⟩ := recordMatchingEvent_eq_ok h
      rfl
  | withdraw event =>
      simp only [applyStateTransition, Except.bind_eq_ok] at h
      obtain ⟨r, hr, h⟩ := h
      cases r with
      | error e => cases h
      | ok s₁ =>
          cases h
          obtain ⟨_, _, -, -, rfl⟩ := withdraw_eq_ok hr
          rfl
  | cancelLimitOrder event =>
      obtain ⟨_, _, _, _, _, _, _, -, -, -, -, -, rfl⟩ := recordCancelLimitOrder_eq_ok h
      rfl
  | setHalt event =>
      cases h
      rfl
  | addTradingAccount event =>
      simp only [applyStateTransition, recordAddTradingAccount, Except.bind_eq_ok,
        Except.ok.injEq] at h
      obtain ⟨registry, -, rfl⟩ := h
      rfl
  | removeTradingAccount event =>
      simp only [applyStateTransition, recordRemoveTradingAccount, Except.bind_eq_ok,
        Except.ok.injEq] at h
      obtain ⟨registry, -, rfl⟩ := h
      rfl

lemma Idle.of_event (hs : s.Idle) (h : s.applyStateTransition payload timestamp .write = .ok s') :
    s'.Idle := by
  rw [Idle, applyStateTransition_activeTasks h]
  exact hs

/-- An event that leaves books and queue alone and lifts no halt. -/
lemma Calm.of_event (h : s.applyStateTransition payload timestamp .write = .ok s')
    (hlift : ∀ scope, ¬ payload.Lifts scope) (hbooks : s'.orderBooks = s.orderBooks)
    (hqueue : s'.pendingSettlingEvents = s.pendingSettlingEvents) : s.Calm s' := by
  refine ⟨fun hs => hs.of_event h, fun id => matchable_mono (le_of_eq ?_) fun hhalt => ?_, hqueue⟩
  · rw [pendingCount, pendingCount, hbooks]
  · rw [permissions_after h, Permissions.isHalted_iff, Permissions.halted_after,
      Permissions.halted_after]
    rw [Permissions.isHalted_iff] at hhalt
    exact hhalt.imp (fun h => Or.inr ⟨h, hlift _⟩) fun h => Or.inr ⟨h, hlift _⟩

/-- A new book has no orders. -/
lemma Calm.listed {event : AddTradingPairEvent} (h : s.recordTradingPair event = .ok s') :
    s.Calm s' := by
  obtain ⟨next, -, -, -, -, -, -, -, rfl⟩ := recordTradingPair_eq_ok h
  exact ⟨id, fun id => matchable_mono (pendingCount_insert rfl (Nat.zero_le _) id) fun h => h, rfl⟩

end State

/-! ## Steps -/

namespace Canister

variable {c c' : Canister} {rt : Runtime} {n : ℕ}

/-- A cancel takes an order off its book and settles its refund at once. -/
lemma cancelLimitOrder_calm (hs : c.state.Sound) {owner : Principal} {canceledBy : Option Principal}
    {orderId : OrderId} {timestamp : Timestamp} {result : Except CancelLimitOrderError OrderRecord}
    (h : c.cancelLimitOrder owner canceledBy orderId timestamp = .ok (result, c')) :
    c.state.Calm c'.state := by
  rcases cancelLimitOrder_acts h with ⟨e, -, -, rfl⟩ | ⟨-, c₁, event, r, hproc, -, -, hsettle, -⟩
  · exact State.Calm.refl _
  · obtain ⟨s₁, hs₁, rfl⟩ := processEvent_eq_ok hproc
    obtain ⟨o, r, r', b, b', pair, scale, refund, hcanceled⟩ := hs.canceled hs₁
    obtain ⟨s₂, hs₂, rfl⟩ := processEvent_eq_ok hsettle
    have htasks := State.applyStateTransition_activeTasks hs₁
    obtain ⟨_, _, _, trades, balances, -, -, -, -, rfl⟩ := State.recordSettlingEvent_eq_ok hs₂
    have hbooks : s₁.orderBooks = c.state.orderBooks.insert orderId.bookId b' := by
      rw [hcanceled.state]
    have hrules : s₁.permissions = c.state.permissions := by
      rw [hcanceled.state]
    refine ⟨fun hidle => ?_, fun id => State.matchable_mono ?_ fun hhalt => ?_, rfl⟩
    · show s₁.activeTasks.contains .processPendingOrders = false
      rw [htasks]
      exact hidle
    · refine State.pendingCount_insert hbooks ?_ id
      rw [State.pendingCount, hcanceled.book, hcanceled.removed.pending]
      exact List.length_filter_le _ _
    · show s₁.permissions.isHalted id = true
      rw [hrules]
      exact hhalt

/-- The executor finds its guard free and leaves it free, and it reports what it leaves behind. -/
lemma processPendingOrders_spec {status : ExecutionStatus} (hidle : c.state.Idle)
    (h : c.processPendingOrders rt = .ok (status, c')) :
    c'.state.Idle ∧ status = c'.state.executionStatus := by
  rw [State.Idle] at hidle
  rw [processPendingOrders, if_neg (by rw [hidle]; exact Bool.false_ne_true)] at h
  simp only [Except.bind_eq_ok, Except.ok.injEq, Prod.mk.injEq, Prod.exists] at h
  obtain ⟨_, c₁, hone, rfl, rfl⟩ := h
  obtain ⟨-, hstatus⟩ := runOnce_rule (P := fun _ => True) (fun _ _ _ => trivial)
    (fun _ _ _ => trivial) trivial hone
  refine ⟨?_, hstatus⟩
  show (c₁.state.activeTasks.erase .processPendingOrders).contains .processPendingOrders = false
  rw [SortedMap.contains, SortedMap.get_erase_self]
  rfl

/-- **A run of the executor sets a timer if it leaves something behind.** -/
lemma driveMatching_spec (hidle : c.state.Idle) (h : c.driveMatching rt = .ok (n, c')) :
    c'.state.Idle ∧ (n = 0 → c'.state.executionStatus = .complete) := by
  obtain ⟨status, hrun, rfl⟩ := driveMatching_eq_ok h
  obtain ⟨hidle', rfl⟩ := processPendingOrders_spec hidle hrun
  refine ⟨hidle', fun hn => c'.state.complete_or_moreWork.resolve_right fun hmore => ?_⟩
  rw [if_pos hmore] at hn
  exact one_ne_zero hn

end Canister

/-- **An upgrade is calm**, and it frees the guard of the executor. -/
lemma Canister.upgrade_calm {rt : Runtime} {arg : Option Canister.OisyTradeArg} {c c' : Canister}
    (hs : c.state.Sound) (h : c.upgrade rt arg = .ok c') :
    c'.state.Idle ∧ c.state.Calm c'.state := by
  obtain ⟨c₁, hc₁, h⟩ := Canister.upgrade_eq_ok hs h
  have hidle : c₁.state.Idle := by
    rw [hc₁]
    rfl
  have hcalm : c.state.Calm c₁.state := by
    rw [hc₁]
    exact ⟨fun _ => rfl, fun _ => le_rfl, rfl⟩
  rcases h with rfl | ⟨arg, hproc⟩
  · exact ⟨hidle, hcalm⟩
  · obtain ⟨s, hok, rfl⟩ := Canister.processEvent_eq_ok hproc
    have hlift : ∀ scope, ¬ (EventType.upgrade arg).Lifts scope := by
      rintro _ ⟨⟩
    obtain ⟨policy, hs'⟩ := State.applyUpgrade_eq_ok hok
    have hsame : s.orderBooks = c₁.state.orderBooks ∧
        s.pendingSettlingEvents = c₁.state.pendingSettlingEvents := by
      rw [hs']
      exact ⟨rfl, rfl⟩
    exact ⟨hidle.of_event hok, hcalm.trans (.of_event hok hlift hsame.1 hsame.2)⟩

/-- **A message that sets no timer is calm.** -/
lemma Message.entry_calm {m : Message} {rt : Runtime} {c c' : Canister} {n : ℕ}
    (hs : c.state.Sound) (hidle : c.state.Idle) (huser : m ≠ .processPendingOrders)
    (h : m.entry rt c = .ok (n, c')) :
    c'.state.Idle ∧ (n = 0 → c.state.Calm c'.state) := by
  have hcalm : c.state.Calm c'.state → c'.state.Idle ∧ (n = 0 → c.state.Calm c'.state) :=
    fun h => ⟨h.idle hidle, fun _ => h⟩
  cases m with
  | addTradingPair request =>
      simp only [entry, Except.bind_eq_ok, Except.ok.injEq, Prod.mk.injEq, Prod.exists] at h
      obtain ⟨result, c₁, hrun, -, rfl⟩ := h
      rcases Canister.addTradingPair_acts hrun with ⟨_, -, rfl⟩ | ⟨event, -, -, hproc⟩
      · exact hcalm (State.Calm.refl _)
      · obtain ⟨s, hok, rfl⟩ := Canister.processEvent_eq_ok hproc
        exact hcalm (State.Calm.listed hok)
  | setHalt pairs halted =>
      cases halted with
      | true =>
          simp only [entry, Except.bind_eq_ok, Except.ok.injEq, Prod.mk.injEq, Prod.exists] at h
          obtain ⟨result, c₁, hrun, -, rfl⟩ := h
          rcases Canister.setHalt_acts hrun with ⟨_, -, rfl⟩ | ⟨⟨ids, halted⟩, -, rfl, hproc⟩
          · exact hcalm (State.Calm.refl _)
          · obtain ⟨s, hok, rfl⟩ := Canister.processEvent_eq_ok hproc
            have hlift : ∀ scope, ¬ (EventType.setHalt ⟨ids, true⟩).Lifts scope := by
              rintro _ ⟨⟩
            refine hcalm (State.Calm.of_event hok hlift ?_ ?_) <;> cases hok <;> rfl
      | false =>
          simp only [entry, Except.bind_eq_ok, Prod.exists] at h
          obtain ⟨result, c₁, hrun, h⟩ := h
          rcases Canister.setHalt_acts hrun with ⟨_, rfl, rfl⟩ | ⟨event, rfl, -, hproc⟩
          · cases h
            exact hcalm (State.Calm.refl _)
          · cases h
            obtain ⟨s, hok, rfl⟩ := Canister.processEvent_eq_ok hproc
            exact ⟨hidle.of_event hok, fun h => absurd h one_ne_zero⟩
  | addLimitOrder request =>
      simp only [entry, Except.bind_eq_ok, Prod.exists] at h
      obtain ⟨result, c₁, hrun, h⟩ := h
      rcases Canister.addLimitOrder_acts hrun with ⟨_, rfl, rfl⟩ | ⟨event, rfl, -, -, hproc⟩
      · cases h
        exact hcalm (State.Calm.refl _)
      · cases h
        obtain ⟨s, hok, rfl⟩ := Canister.processEvent_eq_ok hproc
        exact ⟨hidle.of_event hok, fun h => absurd h one_ne_zero⟩
  | cancelLimitOrder orderId =>
      simp only [entry, Canister.cancelOrder, Except.bind_eq_ok, Except.ok.injEq, Prod.mk.injEq,
        Prod.exists] at h
      obtain ⟨_, c₁, ⟨-, -, owner, -, hrun⟩, -, rfl⟩ := h
      cases orderId with
      | none =>
          cases hrun
          exact hcalm (State.Calm.refl _)
      | some id => exact hcalm (Canister.cancelLimitOrder_calm hs hrun)
  | processPendingOrders => exact absurd rfl huser
  | addTradingAccount trading =>
      simp only [entry, Except.bind_eq_ok, Except.ok.injEq, Prod.mk.injEq, Prod.exists] at h
      obtain ⟨result, c₁, hrun, -, rfl⟩ := h
      rcases Canister.addTradingAccount_acts hrun with ⟨_, -, rfl⟩ | ⟨-, -, hproc⟩
      · exact hcalm (State.Calm.refl _)
      · obtain ⟨s, hok, rfl⟩ := Canister.processEvent_eq_ok hproc
        simp only [State.applyStateTransition, State.recordAddTradingAccount, Except.bind_eq_ok,
          Except.ok.injEq] at hok
        obtain ⟨registry, -, rfl⟩ := hok
        exact hcalm (.of_same rfl rfl rfl rfl)
  | removeTradingAccount trading =>
      simp only [entry, Except.bind_eq_ok, Except.ok.injEq, Prod.mk.injEq, Prod.exists] at h
      obtain ⟨result, c₁, hrun, -, rfl⟩ := h
      rcases Canister.removeTradingAccount_acts hrun with ⟨_, -, rfl⟩ | ⟨-, -, hproc⟩
      · exact hcalm (State.Calm.refl _)
      · obtain ⟨s, hok, rfl⟩ := Canister.processEvent_eq_ok hproc
        simp only [State.applyStateTransition, State.recordRemoveTradingAccount, Except.bind_eq_ok,
          Except.ok.injEq] at hok
        obtain ⟨registry, -, rfl⟩ := hok
        exact hcalm (.of_same rfl rfl rfl rfl)

/-- A continuation is calm. -/
lemma Call.Resumed.calm {call : Call} {rt : Runtime} {c c' : Canister} {reply : LedgerReply}
    {r : CallResult ⊕ Transfer} (h : call.Resumed rt c reply c' r) : c.state.Calm c'.state := by
  cases h with
  | deposited hkind hreply hproc =>
      obtain ⟨s, hs, rfl⟩ := Canister.processEvent_eq_ok hproc
      obtain ⟨uid, registry, balances, -, -, rfl⟩ := State.deposit_eq_ok hs
      exact .of_same rfl rfl rfl rfl
  | depositRefused hkind hreply => exact .of_same rfl rfl rfl rfl
  | @withdrawn _ fee hkind hreply => cases fee <;> exact .of_same rfl rfl rfl rfl
  | @creditedBack _ fee state hkind hreply hok =>
      obtain ⟨uid, registry, balances, -, -, rfl⟩ := State.deposit_eq_ok hok
      cases fee <;> exact .of_same rfl rfl rfl rfl
  | retried => exact .refl _

/-- **The steps of deposits and withdrawals are calm.** -/
lemma World.LedgerStep.calm {w w' : World} (h : w.LedgerStep w') :
    w.canister.state.Calm w'.canister.state := by
  cases h with
  | depositStart hstep hrun =>
      rcases Canister.depositStart_eq_ok hrun with
        ⟨_, -, hc⟩ | ⟨_, _, -, -, -, -, -, -, hc⟩
      · rw [hc]
        exact .refl _
      · rw [hc]
        exact .of_same rfl rfl rfl rfl
  | withdrawStart hstep hrun =>
      rcases Canister.withdrawStart_eq_ok hrun with
        ⟨_, -, hc⟩ | ⟨_, c₁, state, -, -, -, -, -, rfl, hdebit, hc⟩
      · rw [hc]
        exact .refl _
      · obtain ⟨uid, balances, -, -, rfl⟩ := State.withdraw_eq_ok hdebit
        rw [hc]
        exact .of_same rfl rfl rfl rfl
  | executed hstep hsame =>
      rw [hsame]
      exact .refl _
  | @delivered before after call reply rt hstep hdelivered =>
      have hdelivery := w.delivery before call after rt reply
      rw [← hdelivered] at hdelivery
      cases hdelivery with
      | ended hresumed => exact hresumed.calm
      | asked hresumed => exact hresumed.calm
      | trapped htrap => exact .of_same rfl rfl rfl rfl

/-! ## Runs -/

lemma Canister.init_idle {arg : Canister.OisyTradeArg} {rt : Runtime} {c : Canister}
    (h : Canister.init arg rt = .ok c) : c.state.Idle := by
  cases arg with
  | upgrade arg => cases h
  | init arg =>
      rw [init] at h
      cases hs : State.new arg .empty .empty .empty .empty with
      | error e =>
          simp only [hs] at h
          cases h
      | ok s =>
          simp only [hs, Except.ok.injEq] at h
          subst h
          simp only [State.new, Except.bind_eq_ok, Except.ok.injEq] at hs
          obtain ⟨policy, -, rfl⟩ := hs
          rfl

namespace TimedWorld

variable {t t' : TimedWorld}

/-- **Awake**: while no timer was lost, the canister has a timer or nothing to do. -/
structure Awake (t : TimedWorld) : Prop where
  idle : t.world.canister.state.Idle
  armed : t.missed = false → t.timers = 0 → t.world.canister.state.executionStatus = .complete

lemma Awake.step (h : t.Awake) (hs : t.world.canister.state.Sound) (hstep : t.Step t') :
    t'.Awake := by
  cases hstep with
  | message huser hrun =>
      obtain ⟨hidle, hcalm⟩ := Message.entry_calm hs h.idle huser hrun
      refine ⟨hidle, fun hmissed hzero => ?_⟩
      obtain ⟨hzero, hn⟩ := Nat.add_eq_zero_iff.mp hzero
      exact (hcalm hn).complete (h.armed hmissed hzero)
  | fired htimers hrun =>
      obtain ⟨hidle, hdone⟩ := Canister.driveMatching_spec h.idle hrun
      exact ⟨hidle, fun _ hzero => hdone (Nat.add_eq_zero_iff.mp hzero).2⟩
  | periodic hrun =>
      obtain ⟨hidle, hdone⟩ := Canister.driveMatching_spec h.idle hrun
      exact ⟨hidle, fun _ hzero => hdone (Nat.add_eq_zero_iff.mp hzero).2⟩
  | lost htimers => exact ⟨h.idle, fun hmissed => Bool.noConfusion hmissed⟩
  | ledger hstep =>
      have hcalm := hstep.calm
      exact ⟨hcalm.idle h.idle, fun hmissed hzero => hcalm.complete (h.armed hmissed hzero)⟩
  | upgraded hrun =>
      obtain ⟨hidle, hcalm⟩ := Canister.upgrade_calm hs hrun
      refine ⟨hidle, fun hmissed _ => ?_⟩
      -- No timer was lost before, and there was none to clear.
      obtain ⟨hbefore, hnone⟩ := Bool.or_eq_false_iff.mp hmissed
      exact hcalm.complete (h.armed hbefore (Nat.eq_zero_of_not_pos (of_decide_eq_false hnone)))

lemma Reachable.awake (h : t.Reachable) : t.Awake := by
  induction h with
  | init hinit =>
      refine ⟨Canister.init_idle hinit, fun _ _ => ?_⟩
      obtain ⟨-, -, -, hbooks, -, -, -, -, hqueue, -⟩ := Canister.init_eq_ok hinit
      refine State.complete_iff_matchable.mpr ⟨fun id => State.matchable_eq_zero.mpr ?_, hqueue⟩
      intro b hb
      rw [start, World.start, hbooks] at hb
      cases hb
  | step hreach hstep ih => exact ih.step hreach.world.guarded.sound hstep

/-- **No wakeup is lost.**  In every run, with any order of messages, timers, ledger calls and
upgrades: a run of the executor never finds another one at work, and while work is left a timer is
set, unless one was lost since the executor last ran. -/
theorem Reachable.no_lost_wakeup (h : t.Reachable) :
    (∀ rt c, t.world.canister.processPendingOrders rt ≠ .ok (.alreadyRunning, c)) ∧
      (t.missed = false → t.world.canister.state.executionStatus ≠ .complete → 0 < t.timers) := by
  refine ⟨fun rt c hrun => ?_, fun hmissed hwork => Nat.pos_of_ne_zero fun hzero => ?_⟩
  · obtain ⟨-, hstatus⟩ := Canister.processPendingOrders_spec h.awake.idle hrun
    rcases c.state.complete_or_moreWork with hdone | hmore
    · rw [hdone] at hstatus
      cases hstatus
    · rw [hmore] at hstatus
      cases hstatus
  · exact hwork (h.awake.armed hmissed hzero)

end TimedWorld

/-! ## The timers come to an end -/

lemma ExecutionPolicy.chunk_pos (p : ExecutionPolicy) : 0 < p.maxOrdersPerChunk.toNat := by
  refine Nat.pos_of_ne_zero fun h0 => p.chunkNonzero (BitVec.eq_of_toNat_eq ?_)
  rw [h0]
  rfl

namespace Canister

variable {c : Canister} {rt : Runtime}

/-- **A run of the executor that is not cut short** takes orders off the books if there are any to
match, and it sets a timer only if some are left. -/
lemma Ready.driveMatching (h : c.Ready) (hidle : c.state.Idle)
    (hj : ∀ j, rt.instructionCounter j < c.state.executionPolicy.instructionBudget.toNat) :
    ∃ n c', c.driveMatching rt = .ok (n, c') ∧ c'.Ready ∧ c.SameRules c' ∧
      n + c'.state.matchablePending ≤ c.state.matchablePending := by
  obtain ⟨c₁, rounds, status, hrun, hready, hrules, hran, hleft⟩ :=
    (h.withTasks (c.state.activeTasks.insert .processPendingOrders ())).runOnce rt
  obtain ⟨hexact, hqueue⟩ := hran.conserving hj
  have hexact : ordersIn rounds = min c.state.executionPolicy.maxOrdersPerChunk.toNat
      c.state.matchablePending := hexact
  have hleft : c₁.state.matchablePending + ordersIn rounds = c.state.matchablePending := hleft
  have hmax := c.state.executionPolicy.chunk_pos
  have hprocess : c.processPendingOrders rt
      = .ok (status, c₁.withTasks (c₁.state.activeTasks.erase .processPendingOrders)) := by
    rw [State.Idle] at hidle
    rw [processPendingOrders, if_neg (by rw [hidle]; exact Bool.false_ne_true)]
    have hone : Canister.runOnce rt { c with state := { c.state with
        activeTasks := c.state.activeTasks.insert .processPendingOrders () } }
        = .ok (status, c₁) := hrun
    simp only [hone, Except.bind_ok]
    rfl
  have hrules' : c.SameRules (c₁.withTasks (c₁.state.activeTasks.erase .processPendingOrders)) :=
    ⟨hrules.permissions, hrules.policy⟩
  refine ⟨_, _, driveMatching_of_run hprocess, hready.withTasks _, hrules', ?_⟩
  show (if status = .moreWork then 1 else 0) + c₁.state.matchablePending ≤ c.state.matchablePending
  split_ifs with hmore
  · -- Something is left, so the chunk was not empty.
    have hsome : c₁.state.matchablePending ≠ 0 := by
      intro hzero
      have hdone := hran.complete.mpr
        (State.executionStatus_eq_complete.mp (State.executionStatus_of_matchable hzero hqueue))
      rw [hmore] at hdone
      cases hdone
    omega
  · omega

/-- **The timers come to an end**: each run of the executor takes away a timer or an order. -/
theorem Ready.fireTimers {rts : List Runtime} {timers : ℕ} (h : c.Ready) (hidle : c.state.Idle)
    (harmed : timers = 0 → c.state.executionStatus = .complete)
    (hj : ∀ rt ∈ rts, ∀ j,
      rt.instructionCounter j < c.state.executionPolicy.instructionBudget.toNat)
    (hlen : timers + c.state.matchablePending ≤ rts.length) :
    ∃ c', c.fireTimers rts timers = .ok (0, c') ∧ c'.state.executionStatus = .complete := by
  induction rts generalizing c timers with
  | nil =>
      obtain ⟨rfl, -⟩ := Nat.add_eq_zero_iff.mp (Nat.le_zero.mp hlen)
      exact ⟨c, rfl, harmed rfl⟩
  | cons rt rts ih =>
      cases timers with
      | zero => exact ⟨c, rfl, harmed rfl⟩
      | succ timers =>
          obtain ⟨n, c₁, hrun, hready, hrules, hpending⟩ :=
            h.driveMatching hidle (hj rt List.mem_cons_self)
          obtain ⟨hidle₁, hdone⟩ := driveMatching_spec hidle hrun
          have hlen' : timers + n + c₁.state.matchablePending ≤ rts.length := by
            rw [List.length_cons] at hlen
            omega
          obtain ⟨c', hrest, hcomplete⟩ := ih hready hidle₁
            (fun hzero : timers + n = 0 => hdone (Nat.add_eq_zero_iff.mp hzero).2)
            (fun rt' hrt' => by rw [hrules.policy]; exact hj rt' (List.mem_cons_of_mem _ hrt'))
            hlen'
          exact ⟨c', by rw [Canister.fireTimers, hrun]; exact hrest, hcomplete⟩

end Canister

namespace TimedWorld

variable {t t' : TimedWorld}

/-- **The work comes to an end without the periodic timer.**  Whatever happened before, if no timer
was lost since the executor last ran, the timers that are set and those they set in turn run out
after as many runs as there are timers and orders to match, nothing traps, and then nothing is left
to match or to settle. -/
theorem Reachable.timers_run_out (h : t.Reachable) (hroomy : t.world.canister.Roomy)
    (hmissed : t.missed = false) {rts : List Runtime}
    (hj : ∀ rt ∈ rts, ∀ j, rt.instructionCounter j
      < t.world.canister.state.executionPolicy.instructionBudget.toNat)
    (hlen : t.timers + t.world.canister.state.matchablePending ≤ rts.length) :
    ∃ c, t.world.canister.fireTimers rts t.timers = .ok (0, c) ∧ c.state.Finished := by
  have hready := h.world.ready hroomy
  obtain ⟨c, hrun, hdone⟩ := hready.fireTimers h.awake.idle (h.awake.armed hmissed) hj hlen
  obtain ⟨hmatched, hsettled⟩ := State.executionStatus_eq_complete.mp hdone
  exact ⟨c, hrun, hmatched, hsettled⟩

/-! ## Schedules with timers -/

/-- Execute a message of a user. -/
def playMessage (t : TimedWorld) (rt : Runtime) (m : Message) : Option TimedWorld :=
  match m.entry rt t.world.canister with
  | .ok (n, c) =>
      some { t with world := { t.world with canister := c }, timers := t.timers + n }
  | .error _ => none

/-- Run the executor, on a timer if one is set. -/
def playTimer (t : TimedWorld) (rt : Runtime) : Option TimedWorld :=
  match t.world.canister.driveMatching rt with
  | .ok (n, c) =>
      some { world := { t.world with canister := c }, timers := t.timers - 1 + n, missed := false }
  | .error _ => none

/-- Execute an upgrade. -/
def playUpgrade (t : TimedWorld) (rt : Runtime) (arg : Option Canister.OisyTradeArg) :
    Option TimedWorld :=
  match t.world.canister.upgrade rt arg with
  | .ok c =>
      some { world := { t.world with canister := c, calls := [],
                                     abandoned := t.world.calls ++ t.world.abandoned }
             timers := 0, missed := t.missed || decide (0 < t.timers) }
  | .error _ => none

/-- Execute one entry of a schedule. -/
def play (t : TimedWorld) : Entry → Option TimedWorld
  | .message rt .processPendingOrders => t.playTimer rt
  | .message rt m => t.playMessage rt m
  | .upgrade rt arg => t.playUpgrade rt arg
  | entry => (t.world.play entry).map fun world => { t with world }

lemma playMessage_step {rt : Runtime} {m : Message} (huser : m ≠ .processPendingOrders)
    (h : t.playMessage rt m = some t') : t.Step t' := by
  rw [playMessage] at h
  cases hrun : m.entry rt t.world.canister with
  | error e => simp only [hrun] at h; cases h
  | ok r =>
      simp only [hrun] at h
      cases h
      exact .message huser hrun

lemma playTimer_step {rt : Runtime} (h : t.playTimer rt = some t') : t.Step t' := by
  rw [playTimer] at h
  cases hrun : t.world.canister.driveMatching rt with
  | error e => simp only [hrun] at h; cases h
  | ok r =>
      obtain ⟨n, c⟩ := r
      simp only [hrun] at h
      cases htimers : t.timers with
      | zero =>
          have hstep := Step.periodic hrun
          rw [htimers] at h hstep
          cases h
          exact hstep
      | succ timers =>
          have hstep := Step.fired htimers hrun
          rw [htimers] at h
          cases h
          exact hstep

lemma playUpgrade_step {rt : Runtime} {arg : Option Canister.OisyTradeArg}
    (h : t.playUpgrade rt arg = some t') : t.Step t' := by
  rw [playUpgrade] at h
  cases hrun : t.world.canister.upgrade rt arg with
  | error e => simp only [hrun] at h; cases h
  | ok c =>
      simp only [hrun] at h
      cases h
      exact .upgraded hrun

lemma playDeposit_step {w w' : World} {rt : Runtime} {token : TokenId} {n : ℕ}
    (h : w.play (.deposit rt token n) = some w') : w.LedgerStep w' := by
  have hstep := World.play_step h
  rw [World.play] at h
  cases hrun : w.canister.depositStart rt token n with
  | error e => simp only [hrun] at h; cases h
  | ok r =>
      obtain ⟨result, c⟩ := r
      cases result <;> simp only [hrun] at h <;> cases h <;> exact .depositStart hstep hrun

lemma playWithdraw_step {w w' : World} {rt : Runtime} {token : TokenId} {n : ℕ}
    (h : w.play (.withdraw rt token n) = some w') : w.LedgerStep w' := by
  have hstep := World.play_step h
  rw [World.play] at h
  cases hrun : w.canister.withdrawStart rt token n with
  | error e => simp only [hrun] at h; cases h
  | ok r =>
      obtain ⟨result, c⟩ := r
      cases result <;> simp only [hrun] at h <;> cases h <;> exact .withdrawStart hstep hrun

lemma playExecute_step {w w' : World} {i : ℕ} {reply : LedgerReply}
    (h : w.play (.execute i reply) = some w') : w.LedgerStep w' := by
  have hstep := World.play_step h
  rw [World.play] at h
  cases hdrop : w.calls.drop i with
  | nil => simp only [hdrop] at h; cases h
  | cons call after =>
      simp only [hdrop] at h
      split at h
      · obtain ⟨ledger, -, rfl⟩ := Option.map_eq_some_iff.mp h
        exact .executed hstep rfl
      · cases h

lemma playDeliver_step {w w' : World} {i : ℕ} {rt : Runtime}
    (h : w.play (.deliver i rt) = some w') : w.LedgerStep w' := by
  have hstep := World.play_step h
  rw [World.play] at h
  cases hdrop : w.calls.drop i with
  | nil => simp only [hdrop] at h; cases h
  | cons call after =>
      simp only [hdrop] at h
      split at h
      · cases h
        exact .delivered hstep rfl
      · cases h

/-- **An entry that goes through is a step**, with its timers. -/
theorem play_timed {entry : Entry} (h : t.play entry = some t') : t.Step t' := by
  have hledger : (∀ w, t.world.play entry = some w → t.world.LedgerStep w) →
      (t.world.play entry).map (fun world => { t with world }) = some t' → t.Step t' := by
    intro hw h
    obtain ⟨w, hplay, rfl⟩ := Option.map_eq_some_iff.mp h
    exact .ledger (hw w hplay)
  cases entry with
  | message rt m =>
      cases m with
      | processPendingOrders => exact playTimer_step h
      | _ => exact playMessage_step (by rintro ⟨⟩) h
  | upgrade rt arg => exact playUpgrade_step h
  | deposit rt token n => exact hledger (fun _ => playDeposit_step) h
  | withdraw rt token n => exact hledger (fun _ => playWithdraw_step) h
  | execute i reply => exact hledger (fun _ => playExecute_step) h
  | deliver i rt => exact hledger (fun _ => playDeliver_step) h

/-- Install the canister and execute a schedule. -/
def schedule (arg : InitArg) (rt : Runtime) (entries : List Entry) : Option TimedWorld :=
  match Canister.init (.init arg) rt with
  | .ok c => entries.foldlM play (start c)
  | .error _ => none

lemma Reachable.playAll (h : t.Reachable) {entries : List Entry}
    (hplay : entries.foldlM play t = some t') : t'.Reachable := by
  induction entries generalizing t with
  | nil =>
      cases hplay
      exact h
  | cons entry entries ih =>
      rw [List.foldlM_cons, Option.bind_eq_bind, Option.bind_eq_some_iff] at hplay
      obtain ⟨t₁, hone, hrest⟩ := hplay
      exact ih (h.step (play_timed hone)) hrest

lemma reachable_schedule {arg : InitArg} {rt : Runtime} {entries : List Entry}
    (h : schedule arg rt entries = some t) : t.Reachable := by
  rw [schedule] at h
  cases hinit : Canister.init (.init arg) rt with
  | error e => simp only [hinit] at h; cases h
  | ok c =>
      simp only [hinit] at h
      exact Reachable.playAll (.init hinit) h

/-- The sample run with its timers. -/
def sampleTimed : TimedWorld :=
  (schedule World.sampleArg (World.sampleRuntime 1 9) World.sampleEntries).get (by decide +kernel)

lemma reachable_sampleTimed : Reachable sampleTimed := reachable_schedule (Option.some_get _).symm

/-- Two of the four timers have run, and the second run was cut short and set another. -/
theorem no_lost_wakeup_sampleTimed :
    sampleTimed.world.canister.state.executionStatus = .moreWork ∧ 0 < sampleTimed.timers := by
  obtain ⟨-, harmed⟩ := reachable_sampleTimed.no_lost_wakeup
  exact ⟨by decide +kernel, harmed (by decide +kernel) (by decide +kernel)⟩

lemma roomy_sampleTimed : sampleTimed.world.canister.Roomy := by
  refine ⟨fun token => Nat.lt_of_le_of_lt (TokenBalance.total_le_units _ token) (by decide +kernel),
    State.payoutFits_of_units ?_, by decide +kernel⟩
  have hall : (sampleTimed.world.canister.state.orderHistory.primary.entries.all fun e =>
      sampleTimed.world.canister.state.balances.units + e.2.record.filledQuote.toNat
        + e.2.record.price.toNat * e.2.record.quantity.toNat < 2 ^ 256) = true := by decide +kernel
  exact fun e he => of_decide_eq_true (List.all_eq_true.mp hall e he)

/-- Three timers and one order: four runs are enough. -/
theorem timers_run_out_sampleTimed :
    ∃ c, sampleTimed.world.canister.fireTimers (List.replicate 4 Canister.uncutRuntime)
      sampleTimed.timers = .ok (0, c) ∧ c.state.Finished := by
  have hbudget : 0 < sampleTimed.world.canister.state.executionPolicy.instructionBudget.toNat := by
    decide +kernel
  refine reachable_sampleTimed.timers_run_out roomy_sampleTimed (by decide +kernel) ?_
    (by decide +kernel)
  intro rt hrt j
  rw [List.eq_of_mem_replicate hrt]
  exact hbudget

end TimedWorld

end OisyTrade
