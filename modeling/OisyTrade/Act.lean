import OisyTrade.State.Effects
import OisyTrade.World

/-!
# Messages as sequences of acts

Every message changes the canister in a few elementary ways: it processes an event it has checked,
it takes a settling event off the queue and processes it, it debits or credits a balance around a
ledger call, it logs a withdrawal, or it does some bookkeeping.  `Act` lists them, and for each
entry point a lemma says that it performs a sequence of acts.  Invariants are then proved once for
each act.
-/

namespace OisyTrade

/-- What is checked before an event is processed. -/
def State.Admits (s : State) (timestamp : Timestamp) : EventType → Prop
  | .init _ => False
  | .upgrade _ => True
  | .addTradingPair e => e.base ≠ e.quote ∧
      ∃ scale, checkedPow10 e.baseMetadata.decimals = some scale ∧
        scale.toNat ∣ e.tickSize.get.toNat * e.lotSize.get.toNat
  | .deposit e => s.userRegistry.tradingAccounts.get e.user = none
  | .addLimitOrder e => ∃ pair order,
      s.validateLimitOrder e.user pair ⟨e.side, e.price, e.quantity, e.timeInForce⟩
        = .ok (.ok (e.orderId, order)) ∧
      s.permissions.isHalted e.orderId.bookId = false
  | .settling _ => False
  | .matching e => ∃ b n, s.orderBooks.get e.bookId = some b ∧
      e.orders = b.pendingOrderSeqs.take n ∧ e.orders ≠ [] ∧
      s.permissions.isHalted e.bookId = false
  | .withdraw _ => False
  | .cancelLimitOrder e => ∃ owner, s.validateCancelLimitOrder owner e.orderId = .ok ()
  | .setHalt _ => True
  | .addTradingAccount e =>
      s.validateAddTradingAccount e.funding e.trading timestamp = .ok (.ok ())
  | .removeTradingAccount e => s.validateRemoveTradingAccount e.funding e.trading = .ok ()

/-- `s'` is `s` up to the running task and the fee cache. -/
structure State.SameButNotes (s s' : State) : Prop where
  eq : s' = { s with activeTasks := s'.activeTasks, ledgerFeeCache := s'.ledgerFeeCache }

namespace Canister

/-- The canister without one event of its queue. -/
def withQueue (c : Canister) (queue : List SettlingEvent) : Canister :=
  { c with state := { c.state with pendingSettlingEvents := queue } }

/-- **The elementary changes.**  A settling event is taken from the front of the queue, unless it
settles no fill. -/
inductive Act (c : Canister) : Canister → Prop
  | event {payload : EventType} {timestamp : Timestamp} {c' : Canister}
      (hadmits : c.state.Admits timestamp payload)
      (hok : c.processEvent payload timestamp = .ok c') : Act c c'
  | settle {before after : List SettlingEvent} {event : SettlingEvent} {timestamp : Timestamp}
      {c' : Canister} (hqueue : c.state.pendingSettlingEvents = before ++ event :: after)
      (hfront : before = [] ∨ event.fills = [])
      (hok : (c.withQueue (before ++ after)).processEvent (.settling event) timestamp = .ok c') :
      Act c c'
  | debit {user : Principal} {token : TokenId} {amount : Quantity} {state : State}
      (hok : c.state.withdraw user token amount = .ok (.ok state)) : Act c { c with state }
  | credit {user : Principal} {token : TokenId} {amount : Quantity} {state : State}
      (huser : c.state.userRegistry.tradingAccounts.get user = none)
      (hok : c.state.deposit user token amount .write = .ok state) : Act c { c with state }
  | logged (event : WithdrawEvent) (timestamp : Timestamp) :
      Act c (c.recordEvent (.withdraw event) timestamp)
  | note {state : State} (hsame : c.state.SameButNotes state) : Act c { c with state }

/-- A sequence of acts. -/
def Acts (c c' : Canister) : Prop := Relation.ReflTransGen Act c c'

lemma Acts.refl (c : Canister) : c.Acts c := Relation.ReflTransGen.refl

lemma Acts.trans {c c' c'' : Canister} (h : c.Acts c') (h' : c'.Acts c'') : c.Acts c'' :=
  Relation.ReflTransGen.trans h h'

lemma Act.acts {c c' : Canister} (h : c.Act c') : c.Acts c' := Relation.ReflTransGen.single h

/-- **Invariant rule.**  What every act keeps, a sequence of acts keeps. -/
lemma Acts.induction {P : Canister → Prop} {c c' : Canister} (h : c.Acts c') (hc : P c)
    (hstep : ∀ c c', P c → c.Act c' → P c') : P c' := by
  induction h with
  | refl => exact hc
  | tail _ hact ih => exact hstep _ _ ih hact

/-- **Work**: an act that moves no funds into or out of the canister. -/
inductive Work (c : Canister) : Canister → Prop
  | event {payload : EventType} {timestamp : Timestamp} {c' : Canister}
      (hadmits : c.state.Admits timestamp payload) (hinner : ∀ e, payload ≠ .deposit e)
      (hok : c.processEvent payload timestamp = .ok c') : Work c c'
  | settle {before after : List SettlingEvent} {event : SettlingEvent} {timestamp : Timestamp}
      {c' : Canister} (hqueue : c.state.pendingSettlingEvents = before ++ event :: after)
      (hfront : before = [] ∨ event.fills = [])
      (hok : (c.withQueue (before ++ after)).processEvent (.settling event) timestamp = .ok c') :
      Work c c'
  | note {state : State} (hsame : c.state.SameButNotes state) : Work c { c with state }

lemma Work.act {c c' : Canister} (h : c.Work c') : c.Act c' := by
  cases h with
  | event hadmits _ hok => exact .event hadmits hok
  | settle hqueue hfront hok => exact .settle hqueue hfront hok
  | note hsame => exact .note hsame

/-- A sequence of work. -/
def Works (c c' : Canister) : Prop := Relation.ReflTransGen Work c c'

lemma Works.refl (c : Canister) : c.Works c := Relation.ReflTransGen.refl

lemma Works.trans {c c' c'' : Canister} (h : c.Works c') (h' : c'.Works c'') : c.Works c'' :=
  Relation.ReflTransGen.trans h h'

lemma Work.works {c c' : Canister} (h : c.Work c') : c.Works c' := Relation.ReflTransGen.single h

lemma Works.acts {c c' : Canister} (h : c.Works c') : c.Acts c' := by
  induction h with
  | refl => exact Acts.refl c
  | tail _ hlast ih => exact ih.trans hlast.act.acts

variable {c c' : Canister} {rt : Runtime}

lemma processEvent_eq_ok {payload : EventType} {timestamp : Timestamp}
    (h : c.processEvent payload timestamp = .ok c') :
    ∃ s, c.state.applyStateTransition payload timestamp .write = .ok s ∧
      c' = { state := s, events := c.events ++ [{ timestamp, payload }],
             journal := c.journal ++ [(c.state, { timestamp, payload })] } := by
  simp only [processEvent, Except.bind_eq_ok, Except.ok.injEq] at h
  obtain ⟨s, hs, rfl⟩ := h
  exact ⟨s, hs, rfl⟩

lemma processEvent_returns (payload : EventType) (timestamp : Timestamp)
    (h : ∃ s, c.state.applyStateTransition payload timestamp .write = .ok s) :
    ∃ c', c.processEvent payload timestamp = .ok c' := by
  obtain ⟨s, hs⟩ := h
  rw [processEvent, hs]
  exact ⟨_, rfl⟩

/-! ## Pairs, halts and delegation -/

lemma tickLotRemainder_eq_zero {tickSize : TickSize} {lotSize : LotSize} {scale : U64}
    (h : tickLotRemainder tickSize lotSize scale = .ok 0) :
    scale.toNat ∣ tickSize.get.toNat * lotSize.get.toNat := by
  simp only [tickLotRemainder, Except.bind_eq_ok, Except.expect_eq_ok,
    Quantity.checkedMulU64_eq_some, Prod.exists, Except.ok.injEq] at h
  obtain ⟨tickLot, htl, q, r, hdiv, rfl⟩ := h
  have hfrom : (Quantity.fromU128 tickSize.get).toNat = tickSize.get.toNat := by
    simp [Quantity.fromU128, Quantity.toNat]
  have hne : scale.toNat ≠ 0 := by
    intro h0
    have hz : scale = 0 := BitVec.eq_of_toNat_eq (by rw [h0]; rfl)
    rw [Quantity.checkedDivRemU64, if_pos hz] at hdiv
    cases hdiv
  obtain ⟨q', r', hdiv', -, hr⟩ := Quantity.checkedDivRemU64_eq (a := tickLot) hne
  rw [hdiv] at hdiv'
  cases hdiv'
  rw [htl, hfrom] at hr
  exact Nat.dvd_of_mod_eq_zero hr.symm

/-- `add_trading_pair` refuses and does nothing, or processes one event. -/
lemma addTradingPair_acts {request : AddTradingPairRequest}
    {result : Except AddTradingPairError Unit}
    (h : c.addTradingPair rt request = .ok (result, c')) :
    (∃ e, result = .error e ∧ c' = c) ∨ (∃ event : AddTradingPairEvent,
      result = .ok () ∧ c.state.Admits rt.time (.addTradingPair event) ∧
      c.processEvent (.addTradingPair event) rt.time = .ok c') := by
  have hdone : ∀ {e : AddTradingPairError}, (Except.ok (.error e, c) :
      Except Trap (Except AddTradingPairError Unit × Canister)) = .ok (result, c') →
      ∃ e, result = .error e ∧ c' = c := by
    intro e he
    simp only [Except.ok.injEq, Prod.mk.injEq] at he
    exact ⟨e, he.1.symm, he.2.symm⟩
  rw [addTradingPair] at h
  split_ifs at h with hctl
  · exact Or.inl (hdone h)
  cases hcheck : checkTradingPair request with
  | error e =>
      rw [hcheck] at h
      exact Or.inl (hdone h)
  | ok r =>
      obtain ⟨tick, lot, rates, min, max⟩ := r
      rw [hcheck] at h
      simp only [addCheckedPair] at h
      split_ifs at h with hknown
      · exact Or.inl (hdone h)
      have hne : request.base.id ≠ request.quote.id := by
        intro heq
        simp [checkTradingPair, heq] at hcheck
      cases hb : c.state.checkTokenMetadataConsistency request.base.id request.base.metadata with
      | error e =>
          rw [hb] at h
          exact Or.inl (hdone h)
      | ok u =>
          cases hq : c.state.checkTokenMetadataConsistency request.quote.id
              request.quote.metadata with
          | error e =>
              rw [hb, hq] at h
              exact Or.inl (hdone h)
          | ok u' =>
              rw [hb, hq] at h
              simp only at h
              cases hpow : checkedPow10 request.base.metadata.decimals with
              | none =>
                  rw [hpow] at h
                  exact Or.inl (hdone h)
              | some scale =>
                  simp only [hpow, Except.bind_eq_ok] at h
                  obtain ⟨rem, hrem, h⟩ := h
                  split_ifs at h with hz
                  · exact Or.inl (hdone h)
                  · rw [not_not] at hz
                    subst hz
                    simp only [Except.bind_eq_ok, Except.ok.injEq, Prod.mk.injEq] at h
                    obtain ⟨c₁, hproc, rfl, rfl⟩ := h
                    refine Or.inr ⟨_, rfl, ?_, hproc⟩
                    exact ⟨hne, scale, hpow, tickLotRemainder_eq_zero hrem⟩

/-- `set_halt` refuses and does nothing, or processes one event. -/
lemma setHalt_acts {pairs : Option (List TradingPair)} {halted : Bool}
    {result : Except UnauthorizedError Unit} (h : c.setHalt rt pairs halted = .ok (result, c')) :
    (∃ e, result = .error e ∧ c' = c) ∨ (∃ event : SetHaltEvent, result = .ok () ∧
      event.halted = halted ∧ c.processEvent (.setHalt event) rt.time = .ok c') := by
  rw [setHalt] at h
  split_ifs at h with hctl
  · simp only [Except.ok.injEq, Prod.mk.injEq] at h
    exact Or.inl ⟨_, h.1.symm, h.2.symm⟩
  · cases pairs with
    | none =>
        simp only [Except.bind_ok, Except.bind_eq_ok, Except.ok.injEq, Prod.mk.injEq] at h
        obtain ⟨c₁, hproc, rfl, rfl⟩ := h
        exact Or.inr ⟨_, rfl, rfl, hproc⟩
    | some pairs =>
        simp only [Except.bind_eq_ok, Except.ok.injEq, Prod.mk.injEq] at h
        obtain ⟨_, -, _, rfl, c₁, hproc, rfl, rfl⟩ := h
        exact Or.inr ⟨_, rfl, rfl, hproc⟩

/-- `add_trading_account` refuses and does nothing, or processes one event. -/
lemma addTradingAccount_acts {trading : Principal} {result : Except AddTradingAccountError Unit}
    (h : c.addTradingAccount rt trading = .ok (result, c')) :
    (∃ e, result = .error e ∧ c' = c) ∨ (result = .ok () ∧
      c.state.Admits rt.time (.addTradingAccount ⟨⟨rt.msgCaller⟩, ⟨trading⟩⟩) ∧
      c.processEvent (.addTradingAccount ⟨⟨rt.msgCaller⟩, ⟨trading⟩⟩) rt.time = .ok c') := by
  simp only [addTradingAccount, Except.bind_eq_ok] at h
  obtain ⟨-, -, r, hr, h⟩ := h
  cases r with
  | error e =>
      simp only [Except.ok.injEq, Prod.mk.injEq] at h
      exact Or.inl ⟨e, h.1.symm, h.2.symm⟩
  | ok u =>
      simp only [Except.bind_eq_ok, Except.ok.injEq, Prod.mk.injEq] at h
      obtain ⟨c₁, hproc, rfl, rfl⟩ := h
      exact Or.inr ⟨rfl, hr, hproc⟩

/-- `remove_trading_account` refuses and does nothing, or processes one event. -/
lemma removeTradingAccount_acts {trading : Principal} {result : Except RevokeError Unit}
    (h : c.removeTradingAccount rt trading = .ok (result, c')) :
    (∃ e, result = .error e ∧ c' = c) ∨ (result = .ok () ∧
      c.state.Admits rt.time (.removeTradingAccount ⟨⟨rt.msgCaller⟩, ⟨trading⟩⟩) ∧
      c.processEvent (.removeTradingAccount ⟨⟨rt.msgCaller⟩, ⟨trading⟩⟩) rt.time = .ok c') := by
  simp only [removeTradingAccount, Except.bind_eq_ok] at h
  obtain ⟨-, -, h⟩ := h
  cases hr : c.state.validateRemoveTradingAccount ⟨rt.msgCaller⟩ ⟨trading⟩ with
  | error e =>
      simp only [hr, Except.ok.injEq, Prod.mk.injEq] at h
      exact Or.inl ⟨e, h.1.symm, h.2.symm⟩
  | ok u =>
      simp only [hr, Except.bind_eq_ok, Except.ok.injEq, Prod.mk.injEq] at h
      obtain ⟨c₁, hproc, rfl, rfl⟩ := h
      exact Or.inr ⟨rfl, hr, hproc⟩

/-! ## Orders -/

/-- What a validated order passed. -/
lemma validateLimitOrder_eq_ok {s : State} {user : Principal} {pair : TradingPair}
    {pending : PendingOrder} {orderId : OrderId} {order : Order}
    (h : s.validateLimitOrder user pair pending = .ok (.ok (orderId, order))) :
    ∃ bookId b scale amount, s.tradingPairs.getBookId pair = some bookId ∧
      s.orderBooks.get bookId = some b ∧
      b.validateOrder pending.price pending.quantity = .ok () ∧
      s.baseScale pair.base = .ok scale ∧
      pending.price.checkedMulQuantityScaled pending.quantity scale = .ok (some amount) ∧
      b.checkNotional amount = .ok () ∧
      (∃ balance, s.getBalance user (State.requiredFunds pair pending.side amount
          pending.quantity).1 = .ok balance ∧
        (State.requiredFunds pair pending.side amount pending.quantity).2.toNat
          ≤ balance.free.toNat) ∧
      orderId = .new bookId b.nextSeq ∧ order = pending.intoOrder b.nextSeq := by
  rw [State.validateLimitOrder] at h
  cases hid : s.tradingPairs.getBookId pair with
  | none =>
      rw [hid] at h
      cases h
  | some bookId =>
      simp only [hid, Except.bind_eq_ok, Except.expect_eq_ok] at h
      obtain ⟨b, hb, h⟩ := h
      cases hv : b.validateOrder pending.price pending.quantity with
      | error e =>
          rw [hv] at h
          cases h
      | ok u =>
          simp only [hv, Except.bind_eq_ok] at h
          obtain ⟨scale, hscale, o, hmul, h⟩ := h
          cases o with
          | none => cases h
          | some amount =>
              cases hn : b.checkNotional amount with
              | error e =>
                  simp only [hn] at h
                  cases h
              | ok u' =>
                  simp only [hn, Except.bind_eq_ok] at h
                  obtain ⟨balance, hbal, h⟩ := h
                  split_ifs at h with hlt
                  · cases h
                  · simp only [Except.ok.injEq, Prod.mk.injEq] at h
                    rw [Quantity.lt_iff, not_lt] at hlt
                    exact ⟨bookId, b, scale, amount, rfl, hb, hv, hscale, hmul, hn,
                      ⟨balance, hbal, hlt⟩, h.1.symm, h.2.symm⟩

/-- `add_limit_order` refuses and does nothing, or processes one event. -/
lemma addLimitOrder_acts {request : LimitOrderRequest} {result : Except AddLimitOrderError OrderId}
    (h : c.addLimitOrder rt request = .ok (result, c')) :
    (∃ e, result = .error e ∧ c' = c) ∨ (∃ event : AddLimitOrderEvent, result = .ok event.orderId ∧
      c.state.effectiveAccount rt.msgCaller = .ok event.user ∧
      c.state.Admits rt.time (.addLimitOrder event) ∧
      c.processEvent (.addLimitOrder event) rt.time = .ok c') := by
  simp only [addLimitOrder, Except.bind_eq_ok] at h
  obtain ⟨-, -, owner, howner, h⟩ := h
  cases hreq : PendingOrder.tryFrom request with
  | none =>
      simp only [hreq, Except.ok.injEq, Prod.mk.injEq] at h
      exact Or.inl ⟨_, h.1.symm, h.2.symm⟩
  | some pending =>
      simp only [hreq, Except.bind_eq_ok] at h
      obtain ⟨r, hval, h⟩ := h
      cases r with
      | error e =>
          simp only [Except.ok.injEq, Prod.mk.injEq] at h
          exact Or.inl ⟨_, h.1.symm, h.2.symm⟩
      | ok r =>
          obtain ⟨orderId, order⟩ := r
          cases hhalt : c.state.permissions.isHalted orderId.bookId with
          | true =>
              simp only [Permissions.permitTrading, hhalt, if_true, Except.ok.injEq,
                Prod.mk.injEq] at h
              exact Or.inl ⟨_, h.1.symm, h.2.symm⟩
          | false =>
              simp only [Permissions.permitTrading, hhalt, Bool.false_eq_true, if_false,
                Except.bind_eq_ok, Except.ok.injEq, Prod.mk.injEq] at h
              obtain ⟨c₁, hproc, rfl, rfl⟩ := h
              refine Or.inr ⟨_, rfl, howner, ?_, hproc⟩
              obtain ⟨bookId, b, -, -, -, -, -, -, -, -, -, -, rfl⟩ := validateLimitOrder_eq_ok hval
              exact ⟨request.pair, _, hval, hhalt⟩

lemma cancelLimitOrder_event {orderId : OrderId} {canceledBy : Option Principal}
    {timestamp : Timestamp}
    (h : c.processEvent (.cancelLimitOrder { orderId, canceledBy }) timestamp = .ok c') :
    ∃ event : SettlingEvent, event.fills = [] ∧
      c'.state.pendingSettlingEvents = c.state.pendingSettlingEvents ++ [event] := by
  obtain ⟨s, hs, rfl⟩ := processEvent_eq_ok h
  obtain ⟨_, _, _, _, _, _, refund, -, -, -, -, -, rfl⟩ := State.recordCancelLimitOrder_eq_ok hs
  exact ⟨_, rfl, rfl⟩

/-- **Canceling** refuses and does nothing, or processes the cancel and settles what it queued. -/
lemma cancelLimitOrder_acts {owner : Principal} {canceledBy : Option Principal} {orderId : OrderId}
    {timestamp : Timestamp} {result : Except CancelLimitOrderError OrderRecord}
    (h : c.cancelLimitOrder owner canceledBy orderId timestamp = .ok (result, c')) :
    (∃ e, c.state.validateCancelLimitOrder owner orderId = .error e ∧ result = .error e ∧ c' = c) ∨
    (c.state.validateCancelLimitOrder owner orderId = .ok () ∧
      ∃ c₁ event r, c.processEvent (.cancelLimitOrder { orderId, canceledBy }) timestamp = .ok c₁ ∧
        SettlingEvent.fills event = [] ∧
        c₁.state.pendingSettlingEvents = c.state.pendingSettlingEvents ++ [event] ∧
        (c₁.withQueue c.state.pendingSettlingEvents).processEvent (.settling event) timestamp
          = .ok c' ∧
        c'.state.orderHistory.get orderId = some r ∧ r.status = .canceled ∧ result = .ok r) := by
  rw [cancelLimitOrder] at h
  cases hval : c.state.validateCancelLimitOrder owner orderId with
  | error e =>
      simp only [hval, Except.ok.injEq, Prod.mk.injEq] at h
      exact Or.inl ⟨e, rfl, h.1.symm, h.2.symm⟩
  | ok u =>
      simp only [hval, Except.bind_eq_ok, Except.expect_eq_ok, Except.assert_eq_ok,
        decide_eq_true_eq, Except.ok.injEq, Prod.mk.injEq] at h
      obtain ⟨c₁, hproc, c₂, hsettle, r, hget, -, hst, rfl, rfl⟩ := h
      obtain ⟨event, hfills, hqueue⟩ := cancelLimitOrder_event hproc
      rw [hqueue, List.take_left, List.drop_left, processSettling, List.foldlM_cons,
        Except.bind_eq_ok] at hsettle
      obtain ⟨c₃, hone, hnil⟩ := hsettle
      cases hnil
      exact Or.inr ⟨rfl, c₁, event, r, hproc, hfills, hqueue, hone, hget, hst, rfl⟩

/-- The act a cancel ends with. -/
lemma settle_last {before : List SettlingEvent} {event : SettlingEvent} {timestamp : Timestamp}
    (hqueue : c.state.pendingSettlingEvents = before ++ [event]) (hfills : event.fills = [])
    (hok : (c.withQueue before).processEvent (.settling event) timestamp = .ok c') : c.Work c' := by
  have hok' : (c.withQueue (before ++ [])).processEvent (.settling event) timestamp = .ok c' := by
    rwa [List.append_nil]
  exact Work.settle hqueue (Or.inr hfills) hok'

/-! ## The executor -/

lemma settle_front {event : SettlingEvent} {rest : List SettlingEvent} {timestamp : Timestamp}
    (hqueue : c.state.pendingSettlingEvents = event :: rest)
    (hok : (c.withQueue rest).processEvent (.settling event) timestamp = .ok c') : c.Work c' :=
  Work.settle hqueue (Or.inl rfl) hok

lemma drainLoop_works {budget : ℕ} :
    ∀ {fuel : ℕ} {c c' : Canister} {n n' : ℕ}, drainLoop rt budget fuel c n = .ok (c', n') →
      c.Works c'
  | 0, c, c', n, n', h => by
      cases h
      exact Works.refl c
  | fuel + 1, c, c', n, n', h => by
      rw [drainLoop] at h
      split_ifs at h with hbudget
      · cases hq : c.state.pendingSettlingEvents with
        | nil =>
            rw [hq] at h
            cases h
            exact Works.refl c
        | cons event rest =>
            simp only [hq, Except.bind_eq_ok] at h
            obtain ⟨c₁, hproc, hloop⟩ := h
            exact (settle_front hq hproc).works.trans (drainLoop_works hloop)
      · cases h
        exact Works.refl c

lemma drainSettling_works {budget n n' : ℕ} (h : c.drainSettling rt budget n = .ok (c', n')) :
    c.Works c' := drainLoop_works h

lemma runBooks_works {budget : ℕ} :
    ∀ {books : List OrderBookId} {orderBudget : ℕ} {c c' : Canister} {n : ℕ},
      c.runBooks rt budget books orderBudget n = .ok c' → c.Works c'
  | [], orderBudget, c, c', n, h => by
      cases h
      exact Works.refl c
  | bookId :: books, orderBudget, c, c', n, h => by
      rw [runBooks] at h
      split_ifs at h with h0 hb
      · cases h
        exact Works.refl c
      · cases h
        exact Works.refl c
      · cases hhalt : c.state.permissions.isHalted bookId with
        | true =>
            simp only [Permissions.permitMatching, hhalt, if_true] at h
            exact runBooks_works h
        | false =>
            simp only [Permissions.permitMatching, hhalt, Bool.false_eq_true, if_false,
              Except.bind_eq_ok, Except.expect_eq_ok] at h
            obtain ⟨book, hbook, h⟩ := h
            split_ifs at h with hempty
            · exact runBooks_works h
            · simp only [Except.bind_eq_ok, Prod.exists] at h
              obtain ⟨-, -, c₁, hproc, c₂, n₂, hdrain, hrest⟩ := h
              have hact : c.Work c₁ := by
                refine Work.event ?_ ?_ hproc
                · exact ⟨book, orderBudget, hbook, rfl, fun he => hempty (List.isEmpty_iff.mpr he),
                    hhalt⟩
                · exact fun _ => nofun
              exact hact.works.trans ((drainSettling_works hdrain).trans (runBooks_works hrest))

lemma runOnce_works {status : ExecutionStatus} (h : runOnce rt c = .ok (status, c')) :
    c.Works c' := by
  simp only [runOnce, Except.bind_eq_ok, Prod.exists] at h
  obtain ⟨c₁, n, hdrain, h⟩ := h
  have h₁ := drainSettling_works hdrain
  split_ifs at h with hb
  · simp only [Except.ok.injEq, Prod.mk.injEq] at h
    obtain ⟨-, rfl⟩ := h
    exact h₁
  · simp only [Except.bind_eq_ok, Except.ok.injEq, Prod.mk.injEq] at h
    obtain ⟨c₂, hbooks, -, rfl⟩ := h
    exact h₁.trans (runBooks_works hbooks)

lemma processPendingOrders_works {status : ExecutionStatus}
    (h : c.processPendingOrders rt = .ok (status, c')) : c.Works c' := by
  rw [processPendingOrders] at h
  split_ifs at h with hrun
  · cases h
    exact Works.refl c
  · simp only [Except.bind_eq_ok, Except.ok.injEq, Prod.mk.injEq, Prod.exists] at h
    obtain ⟨st, c₁, hrunOnce, -, rfl⟩ := h
    have hin : c.Work { c with state := { c.state with
        activeTasks := c.state.activeTasks.insert .processPendingOrders () } } := Work.note ⟨rfl⟩
    have hout : c₁.Work { c₁ with state := { c₁.state with
        activeTasks := c₁.state.activeTasks.erase .processPendingOrders } } := Work.note ⟨rfl⟩
    exact hin.works.trans ((runOnce_works hrunOnce).trans hout.works)

end Canister

/-- **Every message is a sequence of work.** -/
theorem Message.run_works {m : Message} {rt : Runtime} {c c' : Canister}
    (h : m.run rt c = .ok c') : c.Works c' := by
  cases m with
  | addTradingPair request =>
      simp only [Message.run, Except.bind_eq_ok, Except.ok.injEq, Prod.exists] at h
      obtain ⟨_, _, hrun, rfl⟩ := h
      rcases Canister.addTradingPair_acts hrun with ⟨_, -, rfl⟩ | ⟨event, -, hadm, hproc⟩
      · exact Canister.Works.refl _
      · exact (Canister.Work.event hadm (fun _ => nofun) hproc).works
  | setHalt pairs halted =>
      simp only [Message.run, Except.bind_eq_ok, Except.ok.injEq, Prod.exists] at h
      obtain ⟨_, _, hrun, rfl⟩ := h
      rcases Canister.setHalt_acts hrun with ⟨_, -, rfl⟩ | ⟨event, -, -, hproc⟩
      · exact Canister.Works.refl _
      · have hadmits : c.state.Admits rt.time (.setHalt event) := trivial
        exact (Canister.Work.event hadmits (fun _ => nofun) hproc).works
  | addLimitOrder request =>
      simp only [Message.run, Except.bind_eq_ok, Except.ok.injEq, Prod.exists] at h
      obtain ⟨_, _, hrun, rfl⟩ := h
      rcases Canister.addLimitOrder_acts hrun with ⟨_, -, rfl⟩ | ⟨event, -, -, hadm, hproc⟩
      · exact Canister.Works.refl _
      · exact (Canister.Work.event hadm (fun _ => nofun) hproc).works
  | cancelLimitOrder orderId =>
      simp only [Message.run, Canister.cancelOrder, Except.bind_eq_ok, Except.ok.injEq,
        Prod.exists] at h
      obtain ⟨_, _, ⟨-, -, owner, -, hrun⟩, rfl⟩ := h
      cases orderId with
      | none =>
          cases hrun
          exact Canister.Works.refl _
      | some id =>
          rcases Canister.cancelLimitOrder_acts hrun with ⟨_, -, -, rfl⟩ |
            ⟨hval, c₁, event, r, hproc, hfills, hqueue, hsettle, -⟩
          · exact Canister.Works.refl _
          · have hwork : c.Work c₁ := by
              refine .event ?_ ?_ hproc
              · exact ⟨owner, hval⟩
              · exact fun _ => nofun
            exact hwork.works.trans (Canister.settle_last hqueue hfills hsettle).works
  | processPendingOrders =>
      simp only [Message.run, Except.bind_eq_ok, Except.ok.injEq, Prod.exists] at h
      obtain ⟨_, _, hrun, rfl⟩ := h
      exact Canister.processPendingOrders_works hrun
  | addTradingAccount trading =>
      simp only [Message.run, Except.bind_eq_ok, Except.ok.injEq, Prod.exists] at h
      obtain ⟨_, _, hrun, rfl⟩ := h
      rcases Canister.addTradingAccount_acts hrun with ⟨_, -, rfl⟩ | ⟨-, hadm, hproc⟩
      · exact Canister.Works.refl _
      · exact (Canister.Work.event hadm (fun _ => nofun) hproc).works
  | removeTradingAccount trading =>
      simp only [Message.run, Except.bind_eq_ok, Except.ok.injEq, Prod.exists] at h
      obtain ⟨_, _, hrun, rfl⟩ := h
      rcases Canister.removeTradingAccount_acts hrun with ⟨_, -, rfl⟩ | ⟨-, hadm, hproc⟩
      · exact Canister.Works.refl _
      · exact (Canister.Work.event hadm (fun _ => nofun) hproc).works

theorem Message.run_acts {m : Message} {rt : Runtime} {c c' : Canister}
    (h : m.run rt c = .ok c') : c.Acts c' := (Message.run_works h).acts

end OisyTrade
