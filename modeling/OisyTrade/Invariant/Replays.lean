import OisyTrade.Balance.Ahead
import OisyTrade.Invariant.Books
import OisyTrade.Replay

/-!
# The log and the live state

`replay_events` in write mode applies the events of the log to a state with empty stable structures.
The log is no transcript of what the canister did.  A withdrawal debits its amount before the ledger
is asked and is logged after the ledger's answer, and one that fails debits and credits without an
event.  Matching and cancels queue settling events; the live queue is emptied by the settling events
that the log also holds, the queue of the replay is not.

So the replayed state runs *ahead* of the live one: it is the live state with free balances that are
larger by the debits that are not logged (`Replays`).  An event that the live state takes, the
replayed state takes as well (`replayed_event`, `replayed_settling`), as long as everything that was
paid in fits a balance.
-/

namespace OisyTrade

namespace State

variable {s s' : State} {lead : TokenId → UserId → ℕ} {balances : TokenBalance}
  {queue : List SettlingEvent}

/-- The state that replay makes of the log of `s`, with the balances and the queue it has. -/
def replayed (s : State) (balances : TokenBalance) (queue : List SettlingEvent) : State :=
  { s with
    balances
    pendingSettlingEvents := queue
    ledgerFeeCache := SortedMap.empty
    activeTasks := SortedSet.empty
    inFlightUserOps := SortedSet.empty }

/-! ## Events that leave balances alone -/

lemma replayed_upgrade {arg : UpgradeArg} (h : s.applyUpgrade arg = .ok s') :
    (s.replayed balances queue).applyUpgrade arg = .ok (s'.replayed balances queue) := by
  rw [applyUpgrade] at h ⊢
  split_ifs at h ⊢ with hpolicy
  · simp only [replayed] at h ⊢
    split at h
    · rename_i policy hnew
      cases h
      rfl
    · cases h
  · cases h
    rfl

lemma replayed_token {token : TokenId} {metadata : TokenMetadata}
    (h : s.recordToken token metadata = .ok s') :
    (s.replayed balances queue).recordToken token metadata = .ok (s'.replayed balances queue) := by
  rw [recordToken] at h ⊢
  have htokens : (s.replayed balances queue).tokens = s.tokens := rfl
  rw [htokens]
  cases hget : s.tokens.get token with
  | none =>
      rw [hget] at h
      cases h
      rfl
  | some existing =>
      simp only [hget, Except.bind_eq_ok, Except.ok.injEq] at h ⊢
      obtain ⟨u, hu, rfl⟩ := h
      exact ⟨u, hu, rfl⟩

lemma replayed_tradingPair {event : AddTradingPairEvent} (h : s.recordTradingPair event = .ok s') :
    (s.replayed balances queue).recordTradingPair event = .ok (s'.replayed balances queue) := by
  simp only [recordTradingPair, Except.bind_eq_ok, Except.ok.injEq] at h ⊢
  obtain ⟨s₁, h₁, s₂, h₂, u, hid, pairs, hpairs, u', hbook, next, hnext, rfl⟩ := h
  exact ⟨_, replayed_token h₁, _, replayed_token h₂, u, hid, pairs, hpairs, u', hbook, next, hnext,
    rfl⟩

/-- Matching adds to the queue of the replay, too. -/
lemma replayed_matching {event : MatchingEvent} {now : Timestamp}
    (h : s.recordMatchingEvent event now .write = .ok s') :
    s'.balances = s.balances ∧ ∃ queue',
      (s.replayed balances queue).recordMatchingEvent event now .write
        = .ok (s'.replayed balances queue') := by
  simp only [recordMatchingEvent, Except.bind_eq_ok, Except.ok.injEq, Prod.exists] at h
  obtain ⟨scale, hscale, b, hb, output, b', hproc, settlement, hset, history, happ, rfl⟩ := h
  refine ⟨rfl, queue ++ settlement.settlingBatches.map (settlingEventOf event.bookId), ?_⟩
  simp only [recordMatchingEvent, Except.bind_eq_ok, Except.ok.injEq, Prod.exists]
  exact ⟨scale, hscale, b, hb, output, b', hproc, settlement, hset, history, happ, rfl⟩

/-- A cancel adds to the queue of the replay, too. -/
lemma replayed_cancel {orderId : OrderId} {canceledBy : Option Principal} {now : Timestamp}
    (h : s.recordCancelLimitOrder orderId canceledBy now .write = .ok s') :
    s'.balances = s.balances ∧ ∃ queue',
      (s.replayed balances queue).recordCancelLimitOrder orderId canceledBy now .write
        = .ok (s'.replayed balances queue') := by
  simp only [recordCancelLimitOrder, Except.bind_eq_ok, Except.ok.injEq, Prod.exists] at h
  obtain ⟨scale, hscale, b, hb, o, hrem, removed, b', ho, history, happ, refund, href, rfl⟩ := h
  refine ⟨rfl, queue ++ [⟨orderId.bookId, refund.balanceOperations, []⟩], ?_⟩
  simp only [recordCancelLimitOrder, Except.bind_eq_ok, Except.ok.injEq, Prod.exists]
  exact ⟨scale, hscale, b, hb, o, hrem, removed, b', ho, history, happ, refund, href, rfl⟩

/-! ## Events that move balances -/

lemma replayed_deposit {user : Principal} {token : TokenId} {amount : Quantity}
    (hahead : s.balances.Ahead lead balances) (hfits : balances.total token + amount.toNat < 2 ^ 256)
    (h : s.deposit user token amount .write = .ok s') :
    ∃ balances', (s.replayed balances queue).deposit user token amount .write
        = .ok (s'.replayed balances' queue) ∧ s'.balances.Ahead lead balances' := by
  obtain ⟨uid, registry, table, hregister, hdeposit, rfl⟩ := deposit_eq_ok h
  obtain ⟨balances', hdeposit', hahead'⟩ := hahead.deposit hdeposit hfits
  refine ⟨balances', ?_, hahead'⟩
  simp only [deposit, Except.bind_eq_ok, Except.ok.injEq, Prod.exists]
  exact ⟨uid, registry, hregister, balances', hdeposit', rfl⟩

lemma replayed_limitOrder {user : Principal} {bookId : OrderBookId} {order : Order}
    {placedBy : Option Principal} {timestamp : Timestamp} (hahead : s.balances.Ahead lead balances)
    (hfits : ∀ t, balances.total t < 2 ^ 256)
    (h : s.recordLimitOrder user bookId order placedBy timestamp .write = .ok s') :
    ∃ balances', (s.replayed balances queue).recordLimitOrder user bookId order placedBy timestamp
        .write = .ok (s'.replayed balances' queue) ∧ s'.balances.Ahead lead balances' := by
  simp only [recordLimitOrder, Except.bind_eq_ok, Except.ok.injEq, Prod.exists] at h
  obtain ⟨pair, hpair, scale, hscale, b, hb, token, required, hreq, uid', huid', uid, huid, result,
    table, hres, u, hisOk, history, hins, s₁, rfl, b', hadd, rfl⟩ := h
  cases result with
  | error e => cases hisOk
  | ok v =>
      obtain ⟨balances', hreserve, hahead'⟩ := hahead.reserve hres (hfits token)
      refine ⟨balances', ?_, hahead'⟩
      simp only [recordLimitOrder, Except.bind_eq_ok, Except.ok.injEq, Prod.exists]
      exact ⟨pair, hpair, scale, hscale, b, hb, token, required, hreq, uid', huid', uid, huid, _,
        balances', hreserve, u, hisOk, history, hins, _, rfl, b', hadd, rfl⟩

variable (queue) in
/-- **A settling event** that the live state takes, the replayed state takes as well. -/
lemma replayed_settling {event : SettlingEvent} {timestamp : Timestamp}
    (hahead : s.balances.Ahead lead balances) (hfits : ∀ t, balances.total t < 2 ^ 256)
    (hsane : ∀ op ∈ event.balanceOperations, ∀ pair, (s.posting event.bookId pair op).Sane)
    (h : s.recordSettlingEvent event timestamp .write = .ok s') :
    ∃ balances', (s.replayed balances queue).recordSettlingEvent event timestamp .write
        = .ok (s'.replayed balances' queue) ∧ s'.balances.Ahead lead balances' := by
  simp only [recordSettlingEvent, Except.bind_eq_ok, Except.expect_eq_ok, Except.ok.injEq] at h
  obtain ⟨pair, hpair, scale, hscale, resolved, hresolved, trades, htrades, table, htable, rfl⟩ := h
  have hresolves := resolveOpOrders_eq_ok hresolved
  have hposted : Posted s.balances (s.postings event.bookId pair event.balanceOperations) table := by
    simp only [TokenBalance.withWriteBack, applyOperations_eq hresolves, Except.bind_eq_ok,
      Except.ok.injEq] at htable
    obtain ⟨wb, hwb, rfl⟩ := htable
    have hposted := (BalanceWriteBack.coherent_new s.balances).postAll_spec hwb
    rwa [BalanceWriteBack.flush_new] at hposted
  have hsane' : ∀ p ∈ s.postings event.bookId pair event.balanceOperations, p.Sane := by
    intro p hp
    obtain ⟨op, hop, rfl⟩ := List.mem_map.mp hp
    exact hsane op hop pair
  obtain ⟨balances', hbatch, hahead'⟩ := hahead.postAll hposted hsane' hfits
  refine ⟨balances', ?_, hahead'⟩
  simp only [recordSettlingEvent, Except.bind_eq_ok, Except.expect_eq_ok, Except.ok.injEq]
  refine ⟨pair, hpair, scale, hscale, resolved, hresolved, trades, htrades, balances', ?_, rfl⟩
  simp only [applyOperations_eq hresolves]
  exact hbatch

/-- **An event** that the live state takes, the replayed state takes as well.  Settling events and
withdrawals are left out: the first need more, and the second the live state takes otherwise. -/
theorem replayed_event {payload : EventType} {timestamp : Timestamp}
    (hahead : s.balances.Ahead lead balances)
    (hfits : ∀ t, balances.total t + payload.paidIn t < 2 ^ 256)
    (hsettling : ∀ e, payload ≠ .settling e) (hwithdraw : ∀ e, payload ≠ .withdraw e)
    (h : s.applyStateTransition payload timestamp .write = .ok s') :
    ∃ balances' queue', (s.replayed balances queue).applyStateTransition payload timestamp .write
        = .ok (s'.replayed balances' queue') ∧ s'.balances.Ahead lead balances' := by
  have htotal : ∀ t, balances.total t < 2 ^ 256 := fun t =>
    lt_of_le_of_lt (Nat.le_add_right _ _) (hfits t)
  cases payload with
  | init arg => cases h
  | upgrade arg =>
      refine ⟨balances, queue, replayed_upgrade h, ?_⟩
      obtain ⟨policy, rfl⟩ := applyUpgrade_eq_ok h
      exact hahead
  | addTradingPair event =>
      refine ⟨balances, queue, replayed_tradingPair h, ?_⟩
      obtain ⟨next, -, -, -, -, -, -, -, rfl⟩ := recordTradingPair_eq_ok h
      exact hahead
  | deposit event =>
      have hfit := hfits event.token
      rw [EventType.paidIn, if_pos rfl] at hfit
      obtain ⟨balances', hok, hahead'⟩ := replayed_deposit hahead hfit h
      exact ⟨balances', queue, hok, hahead'⟩
  | addLimitOrder event =>
      obtain ⟨balances', hok, hahead'⟩ := replayed_limitOrder hahead htotal h
      exact ⟨balances', queue, hok, hahead'⟩
  | settling event => exact absurd rfl (hsettling event)
  | matching event =>
      obtain ⟨hsame, queue', hok⟩ := @replayed_matching _ _ balances queue _ _ h
      exact ⟨balances, queue', hok, hsame ▸ hahead⟩
  | withdraw event => exact absurd rfl (hwithdraw event)
  | cancelLimitOrder event =>
      obtain ⟨hsame, queue', hok⟩ := @replayed_cancel _ _ balances queue _ _ _ h
      exact ⟨balances, queue', hok, hsame ▸ hahead⟩
  | setHalt event =>
      cases h
      exact ⟨balances, queue, rfl, hahead⟩
  | addTradingAccount event =>
      simp only [applyStateTransition, recordAddTradingAccount, Except.bind_eq_ok,
        Except.ok.injEq] at h
      obtain ⟨registry, hgrant, rfl⟩ := h
      refine ⟨balances, queue, ?_, hahead⟩
      simp only [applyStateTransition, recordAddTradingAccount, Except.bind_eq_ok, Except.ok.injEq]
      exact ⟨registry, hgrant, rfl⟩
  | removeTradingAccount event =>
      simp only [applyStateTransition, recordRemoveTradingAccount, Except.bind_eq_ok,
        Except.ok.injEq] at h
      obtain ⟨registry, hrevoke, rfl⟩ := h
      refine ⟨balances, queue, ?_, hahead⟩
      simp only [applyStateTransition, recordRemoveTradingAccount, Except.bind_eq_ok,
        Except.ok.injEq]
      exact ⟨registry, hrevoke, rfl⟩

/-- **A logged withdrawal** debits the replayed state of what the live state was debited. -/
lemma replayed_withdraw {event : WithdrawEvent} {uid : UserId} {timestamp : Timestamp}
    (hs : s.userRegistry.Sound) (huser : s.userRegistry.fundingId event.user = some uid)
    (hahead : s.balances.Ahead (TokenBalance.debit lead event.token uid event.amount) balances) :
    ∃ balances', (s.replayed balances queue).applyStateTransition (.withdraw event) timestamp .write
        = .ok (s.replayed balances' queue) ∧ s.balances.Ahead lead balances' := by
  obtain ⟨balances', hwithdraw, hahead'⟩ := hahead.withdraw
  refine ⟨balances', ?_, hahead'⟩
  have hregistry : (s.replayed balances queue).userRegistry = s.userRegistry := rfl
  have hbalances : (s.replayed balances queue).balances = balances := rfl
  simp only [applyStateTransition, withdraw, hregistry, hbalances, hs.lookupFundingId, huser,
    Except.bind_ok, hwithdraw]
  rfl

end State

/-! ## The log of a canister -/

namespace Canister

variable {c c' : Canister} {rt : Runtime} {lead : TokenId → UserId → ℕ} {paid : TokenId → ℕ}
  {s s' : State}

/-- `replay_events` in write mode, into empty stable structures. -/
def writeReplay (c : Canister) : Except Trap State :=
  replayEvents c.events History.empty History.empty UserRegistry.empty TokenBalance.empty .write

/-- Applying the log one event after the other gives `s`. -/
def LogGives (c : Canister) (s : State) : Prop :=
  ∃ arg time rest s₀, c.events = ⟨time, .init arg⟩ :: rest ∧
    State.new arg History.empty History.empty UserRegistry.empty TokenBalance.empty = .ok s₀ ∧
    s₀.applyEvents rest .write = .ok s

lemma LogGives.writeReplay_eq (h : c.LogGives s) :
    c.writeReplay = .ok { s with pendingSettlingEvents := [] } := by
  obtain ⟨arg, time, rest, s₀, hlog, hnew, happly⟩ := h
  rw [writeReplay, hlog, replayEvents]
  simp only [hnew, happly, Except.bind_ok]

/-- One more event. -/
lemma LogGives.snoc (h : c.LogGives s) {event : Event} (hevents : c'.events = c.events ++ [event])
    (hok : s.applyStateTransition event.payload event.timestamp .write = .ok s') :
    c'.LogGives s' := by
  obtain ⟨arg, time, rest, s₀, hlog, hnew, happly⟩ := h
  refine ⟨arg, time, rest ++ [event], s₀, ?_, hnew, ?_⟩
  · rw [hevents, hlog, List.cons_append]
  · rw [State.applyEvents, List.foldlM_append, ← State.applyEvents, happly, Except.bind_ok,
      List.foldlM_cons, hok]
    rfl

/-- **The log gives the live state with free balances that are ahead by `lead`.**  Everything in it
was paid in. -/
def Replays (c : Canister) (lead : TokenId → UserId → ℕ) (paid : TokenId → ℕ) : Prop :=
  ∃ balances queue, c.LogGives (c.state.replayed balances queue) ∧
    c.state.balances.Ahead lead balances ∧ ∀ t, balances.total t ≤ paid t

/-- Changes that are neither logged nor replayed. -/
lemma Replays.of_same (h : c.Replays lead paid) (hevents : c'.events = c.events)
    (hreplayed : ∀ balances queue, c'.state.replayed balances queue
      = c.state.replayed balances queue)
    (hbalances : c'.state.balances = c.state.balances) : c'.Replays lead paid := by
  obtain ⟨balances, queue, ⟨arg, time, rest, s₀, hlog, hnew, happly⟩, hahead, htotal⟩ := h
  refine ⟨balances, queue, ⟨arg, time, rest, s₀, hevents.trans hlog, hnew, ?_⟩, ?_, htotal⟩
  · rw [hreplayed]
    exact happly
  · rw [hbalances]
    exact hahead

/-- The rule for events: the replayed state takes the event, and what it pays in was paid in. -/
lemma LogGives.replays (hgives : c.LogGives s) (event : Event) {balances : TokenBalance}
    {queue : List SettlingEvent} (hevents : c'.events = c.events ++ [event])
    (hok : s.applyStateTransition event.payload event.timestamp .write
      = .ok (c'.state.replayed balances queue))
    (hahead : c'.state.balances.Ahead lead balances) (htotal : ∀ t, s.balances.total t ≤ paid t) :
    c'.Replays lead fun t => paid t + event.payload.paidIn t := by
  refine ⟨balances, queue, hgives.snoc hevents hok, hahead, fun t => ?_⟩
  have hmoved : balances.total t + event.payload.paidOut t
      = s.balances.total t + event.payload.paidIn t := State.total_transition hok t
  exact (Nat.le_add_right _ _).trans (hmoved.le.trans (Nat.add_le_add_right (htotal t) _))

/-- **An event.** -/
lemma Replays.processEvent (h : c.Replays lead paid) {payload : EventType} {timestamp : Timestamp}
    (hfits : ∀ t, paid t + payload.paidIn t < 2 ^ 256)
    (hsettling : ∀ e, payload ≠ .settling e) (hwithdraw : ∀ e, payload ≠ .withdraw e)
    (hok : c.processEvent payload timestamp = .ok c') :
    c'.Replays lead fun t => paid t + payload.paidIn t := by
  obtain ⟨balances, queue, hgives, hahead, htotal⟩ := h
  obtain ⟨s, hs, rfl⟩ := processEvent_eq_ok hok
  have hfits' : ∀ t, balances.total t + payload.paidIn t < 2 ^ 256 := fun t =>
    lt_of_le_of_lt (Nat.add_le_add_right (htotal t) _) (hfits t)
  obtain ⟨balances', queue', hok', hahead'⟩ :=
    State.replayed_event hahead hfits' hsettling hwithdraw hs
  exact hgives.replays ⟨timestamp, payload⟩ rfl hok' hahead' htotal

/-- **A settling event** of the queue. -/
lemma Replays.settle (h : c.Replays lead paid) (hs : c.state.Sound)
    (hfits : ∀ t, paid t < 2 ^ 256) {before after : List SettlingEvent} {event : SettlingEvent}
    {timestamp : Timestamp} (hqueue : c.state.pendingSettlingEvents = before ++ event :: after)
    (hok : (c.withQueue (before ++ after)).processEvent (.settling event) timestamp = .ok c') :
    c'.Replays lead paid := by
  obtain ⟨balances, queue, hgives, hahead, htotal⟩ := h
  obtain ⟨s, hsettled, rfl⟩ := processEvent_eq_ok hok
  have hsane : ∀ op ∈ event.balanceOperations, ∀ pair,
      (c.state.posting event.bookId pair op).Sane := by
    intro op hop
    obtain ⟨_, scale, pieces, -, hevent, hpieces⟩ := hs.queue event (by
      rw [hqueue]
      exact List.mem_append_right _ List.mem_cons_self)
    rw [hevent] at hop
    exact (State.opOk_of_pieces hs hpieces op hop).sane
  obtain ⟨balances', hok', hahead'⟩ := State.replayed_settling queue
    (s := (c.withQueue (before ++ after)).state) hahead
    (fun t => lt_of_le_of_lt (htotal t) (hfits t)) hsane hsettled
  exact hgives.replays ⟨timestamp, .settling event⟩ rfl hok' hahead' htotal

/-- **Work** keeps what the log gives. -/
lemma Work.replays (hwork : c.Work c') (hs : c.state.Sound) (hfits : ∀ t, paid t < 2 ^ 256)
    (h : c.Replays lead paid) : c'.Replays lead paid := by
  cases hwork with
  | @event payload timestamp _ hadmits hinner hok =>
      have hnone : ∀ t, payload.paidIn t = 0 := by
        intro t
        cases payload with
        | deposit event => exact absurd rfl (hinner event)
        | _ => rfl
      have hsettling : ∀ e, payload ≠ .settling e := by
        rintro e rfl
        exact hadmits
      have hwithdraw : ∀ e, payload ≠ .withdraw e := by
        rintro e rfl
        exact hadmits
      have hreplays := h.processEvent (fun t => by rw [hnone]; exact hfits t) hsettling hwithdraw hok
      simp only [hnone, Nat.add_zero] at hreplays
      exact hreplays
  | settle hqueue hfront hok => exact h.settle hs hfits hqueue hok
  | note hsame =>
      rw [hsame.eq]
      exact h.of_same rfl (fun _ _ => rfl) rfl

lemma Works.replays (hworks : c.Works c') (hs : c.state.Sound) (hfits : ∀ t, paid t < 2 ^ 256)
    (h : c.Replays lead paid) : c'.Replays lead paid := by
  induction hworks with
  | refl => exact h
  | @tail c₁ c₂ hbefore hwork ih =>
      exact hwork.replays ((Works.acts hbefore).moved.sound hs).1 hfits ih

/-- **A debit** that is not logged. -/
lemma Replays.debited (h : c.Replays lead paid) {user : Principal} {token : TokenId}
    {amount : Quantity} {uid : UserId} {state : State}
    (huser : c.state.userRegistry.fundingId user = some uid)
    (hok : c.state.withdraw user token amount = .ok (.ok state)) :
    Replays { c with state } (TokenBalance.debit lead token uid amount) paid := by
  obtain ⟨balances, queue, hgives, hahead, htotal⟩ := h
  obtain ⟨uid', table, huser', hwithdraw, rfl⟩ := State.withdraw_eq_ok hok
  rw [huser] at huser'
  cases huser'
  exact ⟨balances, queue, hgives, hahead.afterDebit hwithdraw, htotal⟩

/-- **A credit** of what was debited. -/
lemma Replays.creditedBack {user : Principal} {token : TokenId} {amount : Quantity} {uid : UserId}
    (h : c.Replays (TokenBalance.debit lead token uid amount) paid) {state : State}
    (huser : c.state.userRegistry.fundingId user = some uid)
    (hok : c.state.deposit user token amount .write = .ok state) :
    Replays { c with state } lead paid := by
  obtain ⟨balances, queue, hgives, hahead, htotal⟩ := h
  obtain ⟨uid', registry, table, hregister, hdeposit, rfl⟩ := State.deposit_eq_ok hok
  -- The caller is registered, so nobody new is.
  have hsame : c.state.userRegistry.getOrRegister user = .ok (uid, c.state.userRegistry) := by
    rw [UserRegistry.getOrRegister, (UserRegistry.fundingId_eq_some.mp huser).2]
  rw [hsame] at hregister
  cases hregister
  exact ⟨balances, queue, hgives, hahead.creditedBack hdeposit, htotal⟩

/-- **A withdrawal that is logged** debits the replay. -/
lemma Replays.logged {event : WithdrawEvent} (uid : UserId) (timestamp : Timestamp)
    (h : c.Replays (TokenBalance.debit lead event.token uid event.amount) paid)
    (hs : c.state.userRegistry.Sound)
    (huser : c.state.userRegistry.fundingId event.user = some uid) :
    (c.recordEvent (.withdraw event) timestamp).Replays lead paid := by
  obtain ⟨balances, queue, hgives, hahead, htotal⟩ := h
  obtain ⟨balances', hok, hahead'⟩ := State.replayed_withdraw hs huser hahead
  exact hgives.replays ⟨timestamp, .withdraw event⟩ rfl hok hahead' htotal

lemma Replays.withGuards (h : c.Replays lead paid) (ops : SortedSet UserOpKey) :
    (c.withGuards ops).Replays lead paid := h.of_same rfl (fun _ _ => rfl) rfl

lemma Replays.dropUserOp (h : c.Replays lead paid) (caller : Principal) (token : TokenId) :
    (c.dropUserOp caller token).Replays lead paid := h.withGuards _

lemma Replays.withFee (h : c.Replays lead paid) (token : TokenId) (fee : Option ℕ) :
    (c.withFee token fee).Replays lead paid := by
  cases fee with
  | none => exact h
  | some fee => exact h.of_same rfl (fun _ _ => rfl) rfl

/-- **An upgrade** keeps what the log gives. -/
lemma Replays.upgrade (h : c.Replays lead paid) (hs : c.state.Sound)
    (hfits : ∀ t, paid t < 2 ^ 256) {arg : Option OisyTradeArg} (hok : c.upgrade rt arg = .ok c') :
    c'.Replays lead paid := by
  obtain ⟨c₁, rfl, rfl | ⟨arg, hproc⟩⟩ := upgrade_eq_ok hs hok
  · exact h.of_same rfl (fun _ _ => rfl) rfl
  · have hsame : Canister.Replays { c with state := { c.state with
        activeTasks := SortedSet.empty, inFlightUserOps := SortedSet.empty } } lead paid :=
      h.of_same rfl (fun _ _ => rfl) rfl
    exact @Replays.processEvent _ _ _ _ hsame (.upgrade arg) _ hfits
      (fun _ => EventType.noConfusion) (fun _ => EventType.noConfusion) hproc

/-- A newly installed canister. -/
lemma replays_init {arg : OisyTradeArg} (h : init arg rt = .ok c) :
    c.Replays (fun _ _ => 0) fun _ => 0 := by
  cases arg with
  | upgrade arg => cases h
  | init arg =>
      rw [init] at h
      cases hnew : State.new arg History.empty History.empty UserRegistry.empty
          TokenBalance.empty with
      | error e =>
          simp only [hnew] at h
          cases h
      | ok s =>
          simp only [hnew, Except.ok.injEq] at h
          subst h
          have hsame : s = s.replayed TokenBalance.empty [] ∧ s.balances = TokenBalance.empty := by
            simp only [State.new, Except.bind_eq_ok, Except.ok.injEq] at hnew
            obtain ⟨policy, -, rfl⟩ := hnew
            exact ⟨rfl, rfl⟩
          refine ⟨TokenBalance.empty, [], ⟨arg, rt.time, [], s, rfl, hnew, ?_⟩, ?_, fun t =>
            (TokenBalance.total_empty t).le⟩
          · exact congrArg Except.ok hsame.1
          · rw [hsame.2]
            exact TokenBalance.Ahead.refl _

end Canister

end OisyTrade
