import OisyTrade.Guarantees.Cancel
import OisyTrade.Invariant.Moves

/-!
# Accounts are isolated

A call acts for one account, its effective account: the caller, or the funding account of a caller
that is a trading account.  `CallStep` lists the synchronous steps of a call, and `IsolatedFrom` says
what such a step leaves alone: the rows, records, live orders and grants of everybody else, and the
queue.

A trading account is confined further: it moves funds between the free and the reserved balance of
its funding account and does nothing else.
-/

namespace OisyTrade

namespace State

/-- The order is on record for somebody else than `e`. -/
def ofOthers (s : State) (e : Principal) (bookId : OrderBookId) (seq : OrderSeq) : Bool :=
  (s.orderHistory.get (.new bookId seq)).any fun r => decide (r.owner ≠ e)

/-- **`s'` is `s` for everybody but `e`.** -/
structure IsolatedFrom (s : State) (e : Principal) (s' : State) : Prop where
  users : ∀ p, p ≠ e → s'.userRegistry.users.get p = s.userRegistry.users.get p
  rows : ∀ p uid, s.userRegistry.users.get p = some uid → p ≠ e → ∀ t,
    s'.balances.balances.get (.new t uid) = s.balances.balances.get (.new t uid)
  whitelist : ∀ p uid, s.userRegistry.users.get p = some uid → p ≠ e →
    s'.userRegistry.tradingAccountsByFunding.get uid
      = s.userRegistry.tradingAccountsByFunding.get uid
  grants : ∀ q grant, TradingGrant.funding grant ≠ e →
    (s'.userRegistry.tradingAccounts.get q = some grant ↔
      s.userRegistry.tradingAccounts.get q = some grant)
  records : ∀ id r, OrderRecord.owner r ≠ e →
    (s'.orderHistory.get id = some r ↔ s.orderHistory.get id = some r)
  /-- Live orders keep their place in the queue and on the book. -/
  orders : ∀ bookId b, s.orderBooks.get bookId = some b →
    ∃ b', s'.orderBooks.get bookId = some b' ∧
      b'.pendingOrders.filter (fun o => s'.ofOthers e bookId o.id)
        = b.pendingOrders.filter (fun o => s.ofOthers e bookId o.id) ∧
      ∀ side, (b'.resting side).filter (fun x => s'.ofOthers e bookId x.2.id)
        = (b.resting side).filter fun x => s.ofOthers e bookId x.2.id
  queue : s'.pendingSettlingEvents = s.pendingSettlingEvents

variable {s s' : State} {e : Principal}

lemma ofOthers_eq_of_records (h : ∀ id r, OrderRecord.owner r ≠ e →
    (s'.orderHistory.get id = some r ↔ s.orderHistory.get id = some r)) :
    s'.ofOthers e = s.ofOthers e := by
  funext bookId o
  rw [Bool.eq_iff_iff, ofOthers, ofOthers, Option.any_eq_true, Option.any_eq_true]
  refine exists_congr fun r => ?_
  rw [decide_eq_true_eq]
  exact ⟨fun ⟨hr, hne⟩ => ⟨(h _ r hne).mp hr, hne⟩, fun ⟨hr, hne⟩ => ⟨(h _ r hne).mpr hr, hne⟩⟩

/-- A change of the rows of `e` alone. -/
lemma isolatedFrom_of_spares {uid : UserId} {registry : UserRegistry} {balances : TokenBalance}
    (hsound : registry.Sound) (huid : registry.users.get e = some uid)
    (husers : ∀ p, p ≠ e → registry.users.get p = s.userRegistry.users.get p)
    (hgrants : registry.tradingAccounts = s.userRegistry.tradingAccounts)
    (hlists : registry.tradingAccountsByFunding = s.userRegistry.tradingAccountsByFunding)
    (hspares : s.balances.Spares uid balances)
    (hstate : s' = { s with userRegistry := registry, balances := balances,
                            inFlightUserOps := s'.inFlightUserOps,
                            ledgerFeeCache := s'.ledgerFeeCache }) :
    s.IsolatedFrom e s' := by
  rw [hstate]
  refine ⟨husers, fun p uid' hp hne t => ?_, fun p uid' _ _ => ?_, fun q grant _ => ?_,
    fun _ _ _ => Iff.rfl, fun bookId b hb => ⟨b, hb, rfl, fun _ => rfl⟩, rfl⟩
  · refine hspares _ fun he => hne ?_
    rw [BalanceKey.user_new] at he
    rw [← husers p hne, he] at hp
    exact hsound.injective p e uid hp huid
  · exact congrArg (fun m => m.get uid') hlists
  · show registry.tradingAccounts.get q = _ ↔ _
    rw [hgrants]

lemma IsolatedFrom.refl (s : State) (e : Principal) : s.IsolatedFrom e s :=
  ⟨fun _ _ => rfl, fun _ _ _ _ _ => rfl, fun _ _ _ _ => rfl, fun _ _ _ => Iff.rfl,
    fun _ _ _ => Iff.rfl, fun _ b hb => ⟨b, hb, rfl, fun _ => rfl⟩, rfl⟩

/-! ## Orders -/

/-- **Placing an order** for `e`. -/
lemma Placed.isolated {bookId : OrderBookId} {order : Order} {placedBy : Option Principal}
    {timestamp : Timestamp} {b b' : OrderBook} {pair : TradingPair} {scale : BaseScale}
    {uid : UserId} {required : Quantity} (hs : s.Sound)
    (h : s.Placed bookId order e placedBy timestamp b b' pair scale uid required s') :
    s.IsolatedFrom e s' := by
  have hregistry : s'.userRegistry = s.userRegistry := by rw [h.state]
  have hbooks : s'.orderBooks = s.orderBooks.insert bookId b' := by rw [h.state]
  have hqueue : s'.pendingSettlingEvents = s.pendingSettlingEvents := by rw [h.state]
  have hget := History.get_insertOnce h.history
  have hfresh := History.get_eq_none_of_insertOnce h.history
  have hrecords : ∀ id r, OrderRecord.owner r ≠ e →
      (s'.orderHistory.get id = some r ↔ s.orderHistory.get id = some r) := by
    intro id r hne
    rw [hget]
    split_ifs with hid
    · subst hid
      rw [hfresh]
      refine ⟨fun hr => ?_, nofun⟩
      cases hr
      exact absurd rfl hne
    · exact Iff.rfl
  have hothers : s'.ofOthers e bookId order.id = false := by
    rw [ofOthers, hget, if_pos rfl]
    exact decide_eq_false fun hne => hne rfl
  refine ⟨fun p _ => by rw [hregistry], fun p uid' hp hne t => ?_,
    fun _ _ _ _ => by rw [hregistry], fun _ _ _ => by rw [hregistry], hrecords,
    fun bookId' b₁ hb₁ => ?_, hqueue⟩
  · rcases s.balances.reserve_spec uid (pair.token (reserveToken order.side)) required with
      ⟨-, _, he⟩ | ⟨he, -⟩ | ⟨table, row, he, hrow, -⟩
    · rw [h.reserve] at he
      cases he
    · rw [h.reserve] at he
      cases he
    · rw [h.reserve] at he
      cases he
      refine hrow.spares _ fun he => hne ?_
      rw [BalanceKey.user_new] at he
      rw [he] at hp
      exact hs.registry.injective p e uid hp (UserRegistry.fundingId_eq_some.mp h.owner).2
  · rw [hbooks, SortedMap.get_insert]
    by_cases hid : bookId = bookId'
    · subst hid
      obtain rfl : b = b₁ := Option.some.inj (h.book.symm.trans hb₁)
      refine ⟨b', if_pos rfl, ?_, fun side => ?_⟩
      · rw [← ofOthers_eq_of_records hrecords, h.grown.state]
        show (b.pendingOrders ++ [order]).filter _ = _
        rw [List.filter_append, List.filter_singleton, hothers]
        exact List.append_nil _
      · rw [ofOthers_eq_of_records hrecords, h.grown.state]
        rfl
    · rw [if_neg hid, ofOthers_eq_of_records hrecords]
      exact ⟨b₁, hb₁, rfl, fun _ => rfl⟩

lemma validateCancelLimitOrder_eq_ok {owner : Principal} {id : OrderId}
    (h : s.validateCancelLimitOrder owner id = .ok ()) :
    ∃ r, s.orderHistory.get id = some r ∧ r.owner = owner ∧ r.status.isTerminal = false := by
  rw [validateCancelLimitOrder] at h
  cases hr : s.orderHistory.get id with
  | none =>
      rw [hr] at h
      cases h
  | some r =>
      simp only [hr] at h
      split_ifs at h with howner
      refine ⟨r, rfl, not_not.mp howner, ?_⟩
      cases hst : r.status with
      | pending | «open» => rfl
      | filled | canceled | expired =>
          rw [hst] at h
          cases h

/-- **Canceling an order** of `e`. -/
lemma CancelEffect.isolated {id : OrderId} {canceledBy : Option Principal} {r r' : OrderRecord}
    {posting : Posting} {now : Timestamp} (hs : s.Sound) (hr : s.orderHistory.get id = some r)
    (howner : r.owner = e) (hunwound : s.Unwound id canceledBy now posting s')
    (h : s.CancelEffect id canceledBy r r' s') : s.IsolatedFrom e s' := by
  have hregistry : s'.userRegistry = s.userRegistry := by rw [h.state]
  have hqueue : s'.pendingSettlingEvents = s.pendingSettlingEvents := by rw [h.state]
  have howner' : r'.owner = e := by rw [h.update.owner, howner]
  have hrecords : ∀ k x, OrderRecord.owner x ≠ e →
      (s'.orderHistory.get k = some x ↔ s.orderHistory.get k = some x) := by
    intro k x hne
    by_cases hk : k = id
    · subst hk
      rw [h.record, hr]
      constructor <;> intro hx <;> cases hx
      · exact absurd howner' hne
      · exact absurd howner hne
    · rw [h.others k hk]
  have hothers : ∀ seq, s.ofOthers e id.bookId seq = true → seq ≠ id.seq := by
    intro seq ho hid
    obtain ⟨x, hx, hne⟩ := (Option.any_eq_true _ _).mp ho
    rw [hid, OrderId.new_eta, hr] at hx
    cases hx
    exact of_decide_eq_true hne howner
  obtain ⟨b, b', o, pair, scale, uid, hb, -, -, hbooks, hwithout, -, -, huid, -⟩ := h.refund
  obtain ⟨_, _, _, _, _, _, -, -, -, -, rfl, -⟩ := hunwound.removed
  have hparty : s.party id.bookId id.seq = uid := party_eq (by rw [OrderId.new_eta]; exact hr) huid
  refine ⟨fun p _ => by rw [hregistry], fun p uid' hp hne t => ?_,
    fun _ _ _ _ => by rw [hregistry], fun _ _ _ => by rw [hregistry], hrecords,
    fun bookId b₁ hb₁ => ?_, hqueue⟩
  · refine hunwound.posted.spares _ fun he => hne ?_
    rw [BalanceKey.user_new, hparty] at he
    rw [he] at hp
    rw [howner] at huid
    exact hs.registry.injective p e uid hp (UserRegistry.fundingId_eq_some.mp huid).2
  · rw [hbooks, SortedMap.get_insert, ofOthers_eq_of_records hrecords]
    by_cases hid : id.bookId = bookId
    · subst hid
      obtain rfl : b = b₁ := Option.some.inj (hb.symm.trans hb₁)
      refine ⟨b', if_pos rfl, ?_, fun side => ?_⟩
      · rw [hwithout.pending, List.filter_filter]
        refine List.filter_congr fun o _ => ?_
        rw [Bool.and_eq_left_iff_imp]
        exact fun ho => decide_eq_true (hothers o.id ho)
      · rw [hwithout.resting, List.filter_filter]
        refine List.filter_congr fun x _ => ?_
        rw [Bool.and_eq_left_iff_imp]
        exact fun hx => decide_eq_true (hothers x.2.id hx)
    · rw [if_neg hid]
      exact ⟨b₁, hb₁, rfl, fun _ => rfl⟩

/-! ## Delegation -/

lemma isolatedFrom_of_registry {registry : UserRegistry} {uid : UserId} (hs : s.Sound)
    (huid : s.userRegistry.users.get e = some uid)
    (husers : registry.users = s.userRegistry.users)
    (hlists : ∀ uid', uid' ≠ uid → registry.tradingAccountsByFunding.get uid'
      = s.userRegistry.tradingAccountsByFunding.get uid')
    (hgrants : ∀ q grant, TradingGrant.funding grant ≠ e →
      (registry.tradingAccounts.get q = some grant ↔
        s.userRegistry.tradingAccounts.get q = some grant))
    (hstate : s' = { s with userRegistry := registry }) : s.IsolatedFrom e s' := by
  rw [hstate]
  refine ⟨fun p _ => congrArg (fun m => m.get p) husers, fun _ _ _ _ _ => rfl,
    fun p uid' hp hne => hlists uid' ?_, hgrants, fun _ _ _ => Iff.rfl,
    fun bookId b hb => ⟨b, hb, rfl, fun _ => rfl⟩, rfl⟩
  rintro rfl
  exact hne (hs.registry.injective p e uid' hp huid)

/-- **A grant** by `e`. -/
lemma isolatedFrom_recordAddTradingAccount {trading : TradingAccount} {now : Timestamp}
    (hs : s.Sound) (h : s.recordAddTradingAccount ⟨e⟩ trading now .write = .ok s') :
    s.IsolatedFrom e s' := by
  simp only [recordAddTradingAccount, Except.bind_eq_ok, Except.ok.injEq] at h
  obtain ⟨registry, hrecord, hs'⟩ := h
  obtain ⟨uid, huid, hnew, hregistry⟩ := UserRegistry.recordAddTradingAccount_eq_ok hrecord
  refine isolatedFrom_of_registry hs (UserRegistry.fundingId_eq_some.mp huid).2 ?_ ?_ ?_ hs'.symm
  · rw [hregistry]
  · intro uid' hne
    rw [hregistry]
    exact SortedMap.get_insert_of_ne _ _ (Ne.symm hne)
  · intro q grant hne
    rw [hregistry]
    show SortedMap.get (SortedMap.insert _ _ _) q = _ ↔ _
    rw [SortedMap.get_insert]
    split_ifs with hq
    · subst hq
      rw [hnew]
      refine ⟨?_, ?_⟩
      · intro hg
        cases hg
        exact absurd rfl hne
      · intro hg
        cases hg
    · exact Iff.rfl

lemma granter_of_recordAddTradingAccount {trading : TradingAccount} {now : Timestamp}
    (h : s.recordAddTradingAccount ⟨e⟩ trading now .write = .ok s') :
    ∃ id, s.userRegistry.fundingId e = some id := by
  simp only [recordAddTradingAccount, Except.bind_eq_ok] at h
  obtain ⟨_, hrecord, -⟩ := h
  obtain ⟨uid, huid, -⟩ := UserRegistry.recordAddTradingAccount_eq_ok hrecord
  exact ⟨uid, huid⟩

/-- **A revocation** by `e`. -/
lemma isolatedFrom_recordRemoveTradingAccount {trading : TradingAccount} (hs : s.Sound)
    (h : s.recordRemoveTradingAccount ⟨e⟩ trading .write = .ok s') : s.IsolatedFrom e s' := by
  simp only [recordRemoveTradingAccount, Except.bind_eq_ok, Except.ok.injEq] at h
  obtain ⟨registry, hrecord, hs'⟩ := h
  obtain ⟨uid, list, huid, hremoved, -, hregistry⟩ :=
    UserRegistry.recordRemoveTradingAccount_eq_ok hrecord
  refine isolatedFrom_of_registry hs (UserRegistry.fundingId_eq_some.mp huid).2 ?_ ?_ ?_ hs'.symm
  · rw [hregistry]
  · intro uid' hne
    rw [hregistry]
    exact SortedMap.get_insert_of_ne _ _ (Ne.symm hne)
  · intro q grant hne
    rw [hregistry]
    show SortedMap.get (SortedMap.erase _ _) q = _ ↔ _
    rw [SortedMap.get_erase]
    split_ifs with hq
    · subst hq
      rw [hremoved]
      refine ⟨?_, ?_⟩
      · intro hg
        cases hg
      · intro hg
        cases hg
        exact absurd rfl hne
    · exact Iff.rfl

lemma granter_of_recordRemoveTradingAccount {trading : TradingAccount}
    (h : s.recordRemoveTradingAccount ⟨e⟩ trading .write = .ok s') :
    ∃ id, s.userRegistry.fundingId e = some id := by
  simp only [recordRemoveTradingAccount, Except.bind_eq_ok] at h
  obtain ⟨_, hrecord, -⟩ := h
  obtain ⟨uid, _, huid, -⟩ := UserRegistry.recordRemoveTradingAccount_eq_ok hrecord
  exact ⟨uid, huid⟩

/-! ## Deposits and withdrawals -/

lemma isolatedFrom_deposit {token : TokenId} {amount : Quantity} (hs : s.Sound)
    (htrading : s.userRegistry.tradingAccounts.get e = none)
    (h : s.deposit e token amount .write = .ok s') : s.IsolatedFrom e s' := by
  obtain ⟨uid, registry, balances, hreg, hdep, rfl⟩ := deposit_eq_ok h
  obtain ⟨hgrants, hlists, huid, husers, -⟩ := UserRegistry.getOrRegister_eq_ok hreg
  obtain ⟨row, hrow, -⟩ := TokenBalance.deposit_spec hdep
  exact isolatedFrom_of_spares (hs.registry.getOrRegister htrading hreg).1 huid husers hgrants
    hlists hrow.spares rfl

lemma isolatedFrom_withdraw {token : TokenId} {amount : Quantity} (hs : s.Sound)
    (h : s.withdraw e token amount = .ok (.ok s')) : s.IsolatedFrom e s' := by
  obtain ⟨uid, balances, huid, hwith, rfl⟩ := withdraw_eq_ok h
  rcases s.balances.withdraw_spec uid token amount with ⟨-, _, he⟩ | ⟨table, row, he, hrow, -⟩
  · rw [hwith] at he
    cases he
  · rw [hwith] at he
    cases he
    exact isolatedFrom_of_spares hs.registry (UserRegistry.fundingId_eq_some.mp huid).2
      (fun _ _ => rfl) rfl rfl hrow.spares rfl

/-- What the guards and the fee cache change, nobody else sees. -/
lemma IsolatedFrom.notes {s'' : State} (h : s.IsolatedFrom e s')
    (hstate : s'' = { s' with inFlightUserOps := s''.inFlightUserOps,
                              ledgerFeeCache := s''.ledgerFeeCache }) :
    s.IsolatedFrom e s'' := by
  rw [hstate]
  exact ⟨h.users, h.rows, h.whitelist, h.grants, h.records, h.orders, h.queue⟩

lemma IsolatedFrom.before_notes {s₀ : State} (h : s.IsolatedFrom e s')
    (hstate : s = { s₀ with inFlightUserOps := s.inFlightUserOps,
                            ledgerFeeCache := s.ledgerFeeCache }) :
    s₀.IsolatedFrom e s' := by
  rw [hstate] at h
  exact ⟨h.users, h.rows, h.whitelist, h.grants, h.records, h.orders, h.queue⟩

/-! ## Effective accounts -/

/-- A caller that can do more than trade is its own account. -/
lemma IsolatedFrom.effective {caller : Principal} (h : s.IsolatedFrom caller s')
    (hself : s.userRegistry.tradingAccounts.get caller = none → e = caller)
    (hrefused : (s.userRegistry.tradingAccounts.get caller).isSome → s' = s) :
    s.IsolatedFrom e s' := by
  cases htrading : s.userRegistry.tradingAccounts.get caller with
  | none =>
      rw [hself htrading]
      exact h
  | some grant =>
      rw [hrefused (by rw [htrading]; rfl)]
      exact .refl s e

end State

/-! ## Each entry point -/

namespace Canister

variable {c c' : Canister} {rt : Runtime} {e : Principal}

/-- Free and reserved funds of every user add up to the same. -/
def SameSums (c c' : Canister) : Prop :=
  ∀ t u, c'.state.balances.free t u + c'.state.balances.reserved t u
    = c.state.balances.free t u + c.state.balances.reserved t u

lemma addLimitOrder_isolated {request : LimitOrderRequest}
    {result : Except AddLimitOrderError OrderId} (hs : c.state.Sound)
    (he : c.state.effectiveAccount rt.msgCaller = .ok e)
    (h : c.addLimitOrder rt request = .ok (result, c')) :
    c.state.IsolatedFrom e c'.state ∧ c.SameSums c' := by
  rcases addLimitOrder_acts h with ⟨-, -, rfl⟩ | ⟨event, -, huser, hadmits, hproc⟩
  · exact ⟨.refl _ _, fun _ _ => rfl⟩
  obtain ⟨s', hs', rfl⟩ := processEvent_eq_ok hproc
  obtain ⟨order, b, b', pair, scale, uid, required, -, hplaced⟩ := hs.placed hadmits hs'
  rw [huser] at he
  cases he
  refine ⟨hplaced.isolated hs, fun t u => ?_⟩
  have hmoved := Accounted.of_reserve event.orderId hplaced.reserve
  have hfree := hmoved.free t u
  have hreserved := hmoved.reserved t u
  simp only [List.map_singleton, List.sum_singleton, Move.freeOut, Move.freeIn, Move.reservedOut,
    Move.reservedIn] at hfree hreserved
  show s'.balances.free t u + s'.balances.reserved t u = _
  omega

lemma cancelOrder_isolated {orderId : Option OrderId}
    {result : Except CancelLimitOrderError OrderRecord} (hc : c.Steady)
    (he : c.state.effectiveAccount rt.msgCaller = .ok e)
    (h : c.cancelOrder rt orderId = .ok (result, c')) :
    c.state.IsolatedFrom e c'.state ∧ c.SameSums c' := by
  simp only [cancelOrder, he, Except.bind_ok, Except.bind_eq_ok] at h
  obtain ⟨-, -, h⟩ := h
  cases orderId with
  | none =>
      cases h
      exact ⟨.refl _ _, fun _ _ => rfl⟩
  | some id =>
      cases result with
      | error error =>
          rcases cancelLimitOrder_acts h with ⟨_, -, -, rfl⟩ | ⟨-, _, _, _, -, -, -, -, -, -, hr⟩
          · exact ⟨.refl _ _, fun _ _ => rfl⟩
          · cases hr
      | ok r' =>
          obtain ⟨-, hget, -, posting, hunwound⟩ := hc.canceled h
          have hval : c.state.validateCancelLimitOrder e id = .ok () := by
            rcases cancelLimitOrder_acts h with ⟨_, -, hr, -⟩ | ⟨hval, -⟩
            · cases hr
            · exact hval
          obtain ⟨r, hr, howner, hlive⟩ := State.validateCancelLimitOrder_eq_ok hval
          have heffect := hunwound.effect hc.sound hr hlive hget
          refine ⟨heffect.isolated hc.sound hr howner hunwound, fun t u => ?_⟩
          obtain ⟨_, _, _, _, _, _, -, -, -, -, -, -, -, -, hmoved⟩ := heffect.refund
          obtain ⟨hfree, hreserved⟩ := hmoved t u
          omega

/-- A caller that grants is its own account. -/
lemma addTradingAccount_isolated {trading : Principal} {result : Except AddTradingAccountError Unit}
    (hs : c.state.Sound) (h : c.addTradingAccount rt trading = .ok (result, c')) :
    c.state.IsolatedFrom rt.msgCaller c'.state ∧
      ((c.state.userRegistry.tradingAccounts.get rt.msgCaller).isSome →
        (∃ e, result = .error e) ∧ c' = c) := by
  rcases addTradingAccount_acts h with ⟨e, rfl, rfl⟩ | ⟨-, -, hproc⟩
  · exact ⟨.refl _ _, fun _ => ⟨⟨e, rfl⟩, rfl⟩⟩
  obtain ⟨s', hs', rfl⟩ := processEvent_eq_ok hproc
  refine ⟨State.isolatedFrom_recordAddTradingAccount hs hs', fun htrading => ?_⟩
  obtain ⟨id, hid⟩ := State.granter_of_recordAddTradingAccount hs'
  rw [(UserRegistry.fundingId_eq_some.mp hid).1] at htrading
  cases htrading

lemma removeTradingAccount_isolated {trading : Principal} {result : Except RevokeError Unit}
    (hs : c.state.Sound) (h : c.removeTradingAccount rt trading = .ok (result, c')) :
    c.state.IsolatedFrom rt.msgCaller c'.state ∧
      ((c.state.userRegistry.tradingAccounts.get rt.msgCaller).isSome →
        (∃ e, result = .error e) ∧ c' = c) := by
  rcases removeTradingAccount_acts h with ⟨e, rfl, rfl⟩ | ⟨-, -, hproc⟩
  · exact ⟨.refl _ _, fun _ => ⟨⟨e, rfl⟩, rfl⟩⟩
  obtain ⟨s', hs', rfl⟩ := processEvent_eq_ok hproc
  refine ⟨State.isolatedFrom_recordRemoveTradingAccount hs hs', fun htrading => ?_⟩
  obtain ⟨id, hid⟩ := State.granter_of_recordRemoveTradingAccount hs'
  rw [(UserRegistry.fundingId_eq_some.mp hid).1] at htrading
  cases htrading

lemma depositStart_isolated {token : TokenId} {n : ℕ} {result : Except DepositError Quantity}
    (h : c.depositStart rt token n = .ok (result, c')) :
    c.state.IsolatedFrom rt.msgCaller c'.state ∧
      ((c.state.userRegistry.tradingAccounts.get rt.msgCaller).isSome →
        (∃ e, result = .error e) ∧ c' = c) := by
  rcases depositStart_eq_ok h with ⟨e, rfl, rfl⟩ | ⟨_, _, -, -, hnone, -, -, -, rfl⟩
  · exact ⟨.refl _ _, fun _ => ⟨⟨e, rfl⟩, rfl⟩⟩
  · refine ⟨(State.IsolatedFrom.refl _ _).notes rfl, fun htrading => ?_⟩
    rw [hnone] at htrading
    cases htrading

lemma withdrawStart_isolated {token : TokenId} {n : ℕ}
    {result : Except WithdrawError (Quantity × Transfer)} (hs : c.state.Sound)
    (h : c.withdrawStart rt token n = .ok (result, c')) :
    c.state.IsolatedFrom rt.msgCaller c'.state ∧
      ((c.state.userRegistry.tradingAccounts.get rt.msgCaller).isSome →
        (∃ e, result = .error e) ∧ c' = c) := by
  rcases withdrawStart_eq_ok h with ⟨e, rfl, rfl⟩ |
    ⟨_, c₁, state, -, -, -, hnone, -, rfl, hwith, rfl⟩
  · exact ⟨.refl _ _, fun _ => ⟨⟨e, rfl⟩, rfl⟩⟩
  · have hs₁ := ((moved_withGuards c
      (c.state.inFlightUserOps.insert (userOpKey rt.msgCaller token) ())).sound hs).1
    refine ⟨(State.isolatedFrom_withdraw hs₁ hwith).before_notes rfl, fun htrading => ?_⟩
    rw [hnone] at htrading
    cases htrading

end Canister

/-- **The continuation of a call.** -/
lemma Call.Resumed.isolated {call : Call} {rt : Runtime} {c c' : Canister} {reply : LedgerReply}
    {r : CallResult ⊕ Transfer} (hs : c.state.Sound)
    (hcaller : c.state.userRegistry.tradingAccounts.get call.caller = none)
    (h : call.Resumed rt c reply c' r) : c.state.IsolatedFrom call.caller c'.state := by
  cases h with
  | deposited _ _ hproc =>
      obtain ⟨s', hs', rfl⟩ := Canister.processEvent_eq_ok hproc
      exact (State.isolatedFrom_deposit hs hcaller hs').notes rfl
  | depositRefused => exact (State.IsolatedFrom.refl _ _).notes rfl
  | @withdrawn _ fee _ _ =>
      refine (State.IsolatedFrom.refl _ _).notes ?_
      cases fee <;> rfl
  | @creditedBack _ fee state _ _ hok =>
      have hs₁ := ((Canister.moved_withFee c call.token fee).1.sound hs).1
      have hcaller₁ : (c.withFee call.token fee).state.userRegistry.tradingAccounts.get call.caller
          = none := by
        cases fee <;> exact hcaller
      refine ((State.isolatedFrom_deposit hs₁ hcaller₁ hok).before_notes ?_).notes rfl
      cases fee <;> rfl
  | retried => exact .refl _ _

namespace World

/-! ## The steps of a call -/

/-- **The synchronous steps of a call by `caller`.** -/
inductive CallStep (caller : Principal) (w : World) : World → Prop
  | addLimitOrder {rt : Runtime} {request : LimitOrderRequest}
      {result : Except AddLimitOrderError OrderId} {c : Canister} (hcaller : rt.msgCaller = caller)
      (hrun : w.canister.addLimitOrder rt request = .ok (result, c)) :
      CallStep caller w { w with canister := c }
  | cancelLimitOrder {rt : Runtime} {orderId : Option OrderId}
      {result : Except CancelLimitOrderError OrderRecord} {c : Canister}
      (hcaller : rt.msgCaller = caller)
      (hrun : w.canister.cancelOrder rt orderId = .ok (result, c)) :
      CallStep caller w { w with canister := c }
  | addTradingAccount {rt : Runtime} {trading : Principal}
      {result : Except AddTradingAccountError Unit} {c : Canister} (hcaller : rt.msgCaller = caller)
      (hrun : w.canister.addTradingAccount rt trading = .ok (result, c)) :
      CallStep caller w { w with canister := c }
  | removeTradingAccount {rt : Runtime} {trading : Principal} {result : Except RevokeError Unit}
      {c : Canister} (hcaller : rt.msgCaller = caller)
      (hrun : w.canister.removeTradingAccount rt trading = .ok (result, c)) :
      CallStep caller w { w with canister := c }
  | depositStarted {rt : Runtime} {token : TokenId} {n : ℕ} {amount : Quantity} {c : Canister}
      (hcaller : rt.msgCaller = caller)
      (hrun : w.canister.depositStart rt token n = .ok (.ok amount, c)) :
      CallStep caller w { w with canister := c, calls :=
        ⟨.deposit, rt.msgCaller, token, amount, [⟨⟨amount.toNat, 0⟩, none⟩]⟩ :: w.calls }
  | depositRefused {rt : Runtime} {token : TokenId} {n : ℕ} {error : DepositError} {c : Canister}
      (hcaller : rt.msgCaller = caller)
      (hrun : w.canister.depositStart rt token n = .ok (.error error, c)) :
      CallStep caller w { w with canister := c }
  | withdrawStarted {rt : Runtime} {token : TokenId} {n : ℕ} {amount : Quantity}
      {transfer : Transfer} {c : Canister} (hcaller : rt.msgCaller = caller)
      (hrun : w.canister.withdrawStart rt token n = .ok (.ok (amount, transfer), c)) :
      CallStep caller w { w with canister := c, calls :=
        ⟨.withdraw, rt.msgCaller, token, amount, [⟨transfer, none⟩]⟩ :: w.calls }
  | withdrawRefused {rt : Runtime} {token : TokenId} {n : ℕ} {error : WithdrawError} {c : Canister}
      (hcaller : rt.msgCaller = caller)
      (hrun : w.canister.withdrawStart rt token n = .ok (.error error, c)) :
      CallStep caller w { w with canister := c }
  | delivered {before after : List Call} {call : Call} {transfer : Transfer} {reply : LedgerReply}
      {earlier : List LedgerRequest} {rt : Runtime} (hcaller : call.caller = caller)
      (hcalls : w.calls = before ++ call :: after)
      (hanswered : call.requests = ⟨transfer, some reply⟩ :: earlier) :
      CallStep caller w (w.delivered before call after rt reply)

variable {w w' : World} {caller e : Principal}

/-- A step of a call is a step of the world. -/
lemma CallStep.step (h : CallStep caller w w') : Step w w' := by
  cases h with
  | @addLimitOrder rt request _ _ _ hrun =>
      exact .message (m := .addLimitOrder request) (by rw [Message.run, hrun]; rfl)
  | @cancelLimitOrder rt orderId _ _ _ hrun =>
      exact .message (m := .cancelLimitOrder orderId) (by rw [Message.run, hrun]; rfl)
  | @addTradingAccount rt trading _ _ _ hrun =>
      exact .message (m := .addTradingAccount trading) (by rw [Message.run, hrun]; rfl)
  | @removeTradingAccount rt trading _ _ _ hrun =>
      exact .message (m := .removeTradingAccount trading)
        (by rw [Message.run, hrun]; rfl)
  | depositStarted _ hrun => exact .depositStarted hrun
  | depositRefused _ hrun => exact .depositRefused hrun
  | withdrawStarted _ hrun => exact .withdrawStarted hrun
  | withdrawRefused _ hrun => exact .withdrawRefused hrun
  | delivered _ hcalls hanswered => exact .delivered hcalls hanswered

/-- The delivery of a reply. -/
lemma Guarded.delivered_isolated (hw : w.Guarded) {before after : List Call} {call : Call}
    (hcalls : w.calls = before ++ call :: after) (rt : Runtime) (reply : LedgerReply) :
    w.canister.state.IsolatedFrom call.caller
      (w.delivered before call after rt reply).canister.state := by
  have hmem : call ∈ w.calls := by
    rw [hcalls]
    exact List.mem_append_right _ List.mem_cons_self
  rw [World.delivered]
  cases hres : call.resume rt w.canister reply with
  | error trap => exact (State.IsolatedFrom.refl _ _).notes rfl
  | ok r =>
      obtain ⟨c, r⟩ := r
      have hisolated := (Call.resume_eq_ok hres).isolated hw.sound (hw.caller hmem)
      cases r with
      | inl result => exact hisolated
      | inr transfer => exact hisolated

/-- **A step of a call is isolated from everybody but the effective account.** -/
theorem CallStep.isolated (hw : w.Guarded) (hc : w.canister.Steady)
    (he : w.canister.state.effectiveAccount caller = .ok e) (h : CallStep caller w w') :
    w.canister.state.IsolatedFrom e w'.canister.state := by
  obtain ⟨e', he', hself⟩ := hw.sound.effectiveAccount caller
  obtain rfl : e' = e := Except.ok.inj (he'.symm.trans he)
  cases h with
  | addLimitOrder hcaller hrun =>
      subst hcaller
      exact (Canister.addLimitOrder_isolated hw.sound he hrun).1
  | cancelLimitOrder hcaller hrun =>
      subst hcaller
      exact (Canister.cancelOrder_isolated hc he hrun).1
  | addTradingAccount hcaller hrun =>
      subst hcaller
      obtain ⟨hisolated, hrefused⟩ := Canister.addTradingAccount_isolated hw.sound hrun
      exact hisolated.effective hself fun ht => congrArg Canister.state (hrefused ht).2
  | removeTradingAccount hcaller hrun =>
      subst hcaller
      obtain ⟨hisolated, hrefused⟩ := Canister.removeTradingAccount_isolated hw.sound hrun
      exact hisolated.effective hself fun ht => congrArg Canister.state (hrefused ht).2
  | depositStarted hcaller hrun | depositRefused hcaller hrun =>
      subst hcaller
      obtain ⟨hisolated, hrefused⟩ := Canister.depositStart_isolated hrun
      exact hisolated.effective hself fun ht => congrArg Canister.state (hrefused ht).2
  | withdrawStarted hcaller hrun | withdrawRefused hcaller hrun =>
      subst hcaller
      obtain ⟨hisolated, hrefused⟩ := Canister.withdrawStart_isolated hw.sound hrun
      exact hisolated.effective hself fun ht => congrArg Canister.state (hrefused ht).2
  | @delivered before after call _ _ _ rt hcaller hcalls hanswered =>
      subst hcaller
      refine (hw.delivered_isolated hcalls rt _).effective hself fun ht => ?_
      rw [hw.caller (hcalls ▸ List.mem_append_right _ List.mem_cons_self)] at ht
      cases ht

/-! ## Trading accounts -/

/-- **A trading account is confined** to moving funds between free and reserved. -/
structure Confined (w : World) (caller : Principal) : Prop where
  sums : ∀ w', CallStep caller w w' → w.canister.SameSums w'.canister
  grant : ∀ rt trading result c, Runtime.msgCaller rt = caller →
    w.canister.addTradingAccount rt trading = .ok (result, c) →
    (∃ e, result = .error e) ∧ c = w.canister
  revoke : ∀ rt trading result c, Runtime.msgCaller rt = caller →
    w.canister.removeTradingAccount rt trading = .ok (result, c) →
    (∃ e, result = .error e) ∧ c = w.canister
  deposit : ∀ rt token n result c, Runtime.msgCaller rt = caller →
    w.canister.depositStart rt token n = .ok (result, c) →
    (∃ e, result = .error e) ∧ c = w.canister
  withdraw : ∀ rt token n result c, Runtime.msgCaller rt = caller →
    w.canister.withdrawStart rt token n = .ok (result, c) →
    (∃ e, result = .error e) ∧ c = w.canister
  /-- No call of it waits for a ledger. -/
  waiting : ∀ call ∈ w.calls, Call.caller call ≠ caller

lemma Guarded.confined (hw : w.Guarded) (hc : w.canister.Steady)
    (htrading : (w.canister.state.userRegistry.tradingAccounts.get caller).isSome) :
    w.Confined caller := by
  have hgrant : ∀ rt trading result c, Runtime.msgCaller rt = caller →
      w.canister.addTradingAccount rt trading = .ok (result, c) →
      (∃ e, result = .error e) ∧ c = w.canister := by
    rintro rt trading result c rfl hrun
    exact (Canister.addTradingAccount_isolated hw.sound hrun).2 htrading
  have hrevoke : ∀ rt trading result c, Runtime.msgCaller rt = caller →
      w.canister.removeTradingAccount rt trading = .ok (result, c) →
      (∃ e, result = .error e) ∧ c = w.canister := by
    rintro rt trading result c rfl hrun
    exact (Canister.removeTradingAccount_isolated hw.sound hrun).2 htrading
  have hdeposit : ∀ rt token n result c, Runtime.msgCaller rt = caller →
      w.canister.depositStart rt token n = .ok (result, c) →
      (∃ e, result = .error e) ∧ c = w.canister := by
    rintro rt token n result c rfl hrun
    exact (Canister.depositStart_isolated hrun).2 htrading
  have hwithdraw : ∀ rt token n result c, Runtime.msgCaller rt = caller →
      w.canister.withdrawStart rt token n = .ok (result, c) →
      (∃ e, result = .error e) ∧ c = w.canister := by
    rintro rt token n result c rfl hrun
    exact (Canister.withdrawStart_isolated hw.sound hrun).2 htrading
  have hwaiting : ∀ call ∈ w.calls, Call.caller call ≠ caller := by
    rintro call hcall rfl
    rw [hw.caller hcall] at htrading
    cases htrading
  refine ⟨fun w' h => ?_, hgrant, hrevoke, hdeposit, hwithdraw, hwaiting⟩
  obtain ⟨e, he, -⟩ := hw.sound.effectiveAccount caller
  cases h with
  | addLimitOrder hcaller hrun =>
      subst hcaller
      exact (Canister.addLimitOrder_isolated hw.sound he hrun).2
  | cancelLimitOrder hcaller hrun =>
      subst hcaller
      exact (Canister.cancelOrder_isolated hc he hrun).2
  | addTradingAccount hcaller hrun =>
      obtain ⟨-, rfl⟩ := hgrant _ _ _ _ hcaller hrun
      exact fun _ _ => rfl
  | removeTradingAccount hcaller hrun =>
      obtain ⟨-, rfl⟩ := hrevoke _ _ _ _ hcaller hrun
      exact fun _ _ => rfl
  | depositStarted hcaller hrun | depositRefused hcaller hrun =>
      obtain ⟨-, rfl⟩ := hdeposit _ _ _ _ _ hcaller hrun
      exact fun _ _ => rfl
  | withdrawStarted hcaller hrun | withdrawRefused hcaller hrun =>
      obtain ⟨-, rfl⟩ := hwithdraw _ _ _ _ _ hcaller hrun
      exact fun _ _ => rfl
  | delivered hcaller hcalls hanswered =>
      exact absurd hcaller (hwaiting _ (hcalls ▸ List.mem_append_right _ List.mem_cons_self))

/-! ## The guarantee -/

/-- **Account isolation.**  In every reachable world every principal has an effective account; a
step of a call changes nothing of any other account and nothing that is queued, and a trading
account is confined. -/
theorem Reachable.calls_isolated (h : w.Reachable) (caller : Principal) :
    ∃ e, w.canister.state.effectiveAccount caller = .ok e ∧
      (∀ w', CallStep caller w w' → w.canister.state.IsolatedFrom e w'.canister.state) ∧
      ((w.canister.state.userRegistry.tradingAccounts.get caller).isSome → w.Confined caller) := by
  obtain ⟨e, he, -⟩ := h.guarded.sound.effectiveAccount caller
  exact ⟨e, he, fun w' hstep => hstep.isolated h.guarded h.steady he,
    fun htrading => h.guarded.confined h.steady htrading⟩

/-- A trading account that cancels the order it placed. -/
theorem calls_isolated_grantedWorld :
    grantedWorld.canister.state.effectiveAccount ⟨12⟩ = .ok ⟨10⟩ ∧
      (∃ w', CallStep ⟨12⟩ grantedWorld w') ∧
      (∀ w', CallStep ⟨12⟩ grantedWorld w' →
        grantedWorld.canister.state.IsolatedFrom ⟨10⟩ w'.canister.state) ∧
      grantedWorld.Confined ⟨12⟩ := by
  have heff : grantedWorld.canister.state.effectiveAccount ⟨12⟩ = .ok ⟨10⟩ := by decide +kernel
  obtain ⟨e, he, hisolated, hconfined⟩ := reachable_grantedWorld.calls_isolated ⟨12⟩
  rw [heff] at he
  cases he
  refine ⟨heff, ?_, hisolated, hconfined (by decide +kernel)⟩
  have hrun : (grantedWorld.canister.cancelOrder (sampleRuntime 12 9)
      (some (.new Seq.zero Seq.zero))).isOk = true := by decide +kernel
  cases hc : grantedWorld.canister.cancelOrder (sampleRuntime 12 9)
      (some (.new Seq.zero Seq.zero)) with
  | error trap =>
      rw [hc] at hrun
      cases hrun
  | ok r => exact ⟨_, .cancelLimitOrder rfl hc⟩

end World

end OisyTrade
