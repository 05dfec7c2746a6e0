import OisyTrade.Invariant.Trading

/-!
# Acts keep the invariant

`Change` says once what an act does to a sound state: which order was placed, canceled or matched,
which event was settled, which balance was credited or debited, or that books, records, balances and
queue are as before (`Frame`).  Every invariant about runs is proved by cases on it.

The first such invariant is `Sound` itself: `Change.sound` says that a change of a sound state leads
to a sound state that extends it.
-/

namespace OisyTrade

namespace State

variable {s s' : State}

/-! ## Acts on the frame -/

lemma applyUpgrade_eq_ok {arg : UpgradeArg} (h : s.applyUpgrade arg = .ok s') :
    ∃ executionPolicy, s' = { s with mode := arg.mode.getD s.mode, executionPolicy } := by
  rw [applyUpgrade] at h
  split_ifs at h with hpolicy
  · simp only at h
    split at h
    · cases h
      exact ⟨_, rfl⟩
    · cases h
  · cases h
    exact ⟨_, rfl⟩

lemma Sound.deposit (h : s.Sound) {user : Principal} {token : TokenId} {amount : Quantity}
    (huser : s.userRegistry.tradingAccounts.get user = none)
    (hok : s.deposit user token amount .write = .ok s') : s'.Sound ∧ s.Extends s' := by
  obtain ⟨uid, registry, balances, hreg, -, rfl⟩ := deposit_eq_ok hok
  obtain ⟨hs, hx, -⟩ := h.registry.getOrRegister huser hreg
  exact h.of_frame rfl rfl rfl rfl rfl hs hx (fun _ => id) h.trades

lemma Sound.withdraw (h : s.Sound) {user : Principal} {token : TokenId} {amount : Quantity}
    (hok : s.withdraw user token amount = .ok (.ok s')) : s'.Sound ∧ s.Extends s' := by
  obtain ⟨uid, balances, -, -, rfl⟩ := withdraw_eq_ok hok
  exact h.of_frame rfl rfl rfl rfl rfl h.registry (UserRegistry.Extends.refl _) (fun _ => id)
    h.trades

/-- A grant that passed its checks goes to a principal that is not registered. -/
lemma validateAddTradingAccount_eq_ok {r : UserRegistry} {funding : FundingAccount}
    {trading : TradingAccount} {now : Timestamp}
    (h : r.validateAddTradingAccount funding trading now = .ok (.ok ())) :
    r.tradingAccounts.get trading.principal = none ∧ r.users.get trading.principal = none ∧
      (∃ id, r.fundingId funding.principal = some id ∧
        UserRegistry.checkGrantLimits (r.tradingAccountsByFunding.get id) now = .ok ()) ∧
      trading.principal ≠ .anonymous ∧ trading.principal ≠ .managementCanister ∧
      trading.principal ≠ funding.principal := by
  simp only [UserRegistry.validateAddTradingAccount, Except.bind_eq_ok] at h
  obtain ⟨a, ha, h⟩ := h
  have haccount := UserRegistry.lookup_eq_ok ha
  cases a with
  | none => cases h
  | some a =>
      cases a with
      | trading _ _ => cases h
      | funding id p =>
          by_cases hself : trading.principal = funding.principal
          · simp only [if_pos hself, Except.ok.injEq] at h
            cases h
          by_cases hkind : trading.principal = .anonymous ∨ trading.principal = .managementCanister
          · simp only [if_neg hself, if_pos hkind, Except.ok.injEq] at h
            cases h
          simp only [if_neg hself, if_neg hkind, Except.bind_eq_ok] at h
          obtain ⟨b, hb, h⟩ := h
          have hb' := UserRegistry.lookup_eq_ok hb
          cases b with
          | some b => cases b <;> cases h
          | none =>
              rw [not_or] at hkind
              have hnone : r.tradingAccounts.get trading.principal = none ∧
                  r.users.get trading.principal = none := by
                rw [UserRegistry.account] at hb'
                cases ht : r.tradingAccounts.get trading.principal with
                | some g => rw [ht] at hb'; cases hb'
                | none =>
                    cases hu : r.users.get trading.principal with
                    | none => exact ⟨rfl, rfl⟩
                    | some id => simp only [ht, hu] at hb'; cases hb'
              refine ⟨hnone.1, hnone.2, ⟨id, ?_, Except.ok.inj h⟩, hkind.1, hkind.2, hself⟩
              rw [UserRegistry.fundingId, ← haccount]
              rfl

lemma validate_registry {funding : FundingAccount} {trading : TradingAccount} {now : Timestamp}
    (h : s.validateAddTradingAccount funding trading now = .ok (.ok ())) :
    s.userRegistry.validateAddTradingAccount funding trading now = .ok (.ok ()) ∧
      ∀ key ∈ s.inFlightUserOps.keys, (ofLex key).1 ≠ trading.principal := by
  simp only [validateAddTradingAccount, Except.bind_eq_ok] at h
  obtain ⟨r, hr, h⟩ := h
  cases r with
  | error e => cases h
  | ok u =>
      simp only at h
      split_ifs at h with hany
      · simp only [Except.ok.injEq] at h
        cases h
      · refine ⟨hr, fun key hkey he => hany ?_⟩
        exact List.any_eq_true.mpr ⟨key, hkey, decide_eq_true he⟩

/-! ## Listing a pair -/

lemma checkedPow10_pos {decimals : UInt8} {scale : U64} (h : checkedPow10 decimals = some scale) :
    scale ≠ 0 := by
  rw [checkedPow10] at h
  split_ifs at h with hlt
  cases h
  intro h0
  have := congrArg BitVec.toNat h0
  rw [BitVec.toNat_ofNat, Nat.mod_eq_of_lt hlt] at this
  exact absurd this (Nat.pos_of_ne_zero (by positivity)).ne'

lemma Sound.recordTradingPair (h : s.Sound) {event : AddTradingPairEvent} {timestamp : Timestamp}
    (hadmits : s.Admits timestamp (.addTradingPair event))
    (hok : s.recordTradingPair event = .ok s') : s'.Sound ∧ s.Extends s' := by
  obtain ⟨hne, scale, hpow, hdvd⟩ := hadmits
  obtain ⟨next, hnext, hid, hpair, hbyBook, hbook, hbase, hquote, rfl⟩ := recordTradingPair_eq_ok hok
  have hpos := checkedPow10_pos hpow
  -- Known tokens keep their metadata.
  have htokens : ∀ t m, s.tokens.get t = some m →
      ((s.tokens.insert event.base event.baseMetadata).insert event.quote
        event.quoteMetadata).get t = some m := by
    intro t m ht
    have h1 : (s.tokens.insert event.base event.baseMetadata).get t = some m := by
      rw [SortedMap.get_insert]
      split_ifs with he
      · subst he
        rcases hbase with hb | hb <;> rw [ht] at hb
        · cases hb
        · exact hb.symm
      · exact ht
    rw [SortedMap.get_insert]
    split_ifs with he
    · subst he
      rcases hquote with hb | hb <;> rw [h1] at hb
      · cases hb
      · exact hb.symm
    · exact h1
  have hmarket : ∀ {id pair scale}, s.Market id pair scale →
      Market { s with
        tokens := (s.tokens.insert event.base event.baseMetadata).insert event.quote
          event.quoteMetadata
        tradingPairs :=
          { byPair := s.tradingPairs.byPair.insert ⟨event.base, event.quote⟩ event.bookId
            byBook := s.tradingPairs.byBook.insert event.bookId ⟨event.base, event.quote⟩ }
        orderBooks := s.orderBooks.insert event.bookId (OrderBook.new event.bookId event.tickSize
          event.lotSize event.minNotional event.maxNotional event.feeRates)
        nextBookId := next } id pair scale := by
    intro id pair scale hm
    refine ⟨?_, ?_⟩
    · show (s.tradingPairs.byBook.insert event.bookId _).get id = some pair
      rw [SortedMap.get_insert_of_ne]
      · exact hm.pair
      · rintro rfl
        rw [show s.tradingPairs.byBook.get event.bookId = some pair from hm.pair] at hbyBook
        cases hbyBook
    · have hscale := hm.scale
      simp only [baseScale, Except.bind_eq_ok, Except.expect_eq_ok] at hscale ⊢
      obtain ⟨m, hm, hrest⟩ := hscale
      exact ⟨m, htokens _ _ hm, hrest⟩
  have hx : s.Extends _ := ⟨hmarket, UserRegistry.Extends.refl _,
    fun hr => ⟨_, hr, OrderRecord.Evolves.refl _⟩⟩
  have hsome : ∀ t, (s.tokens.get t).isSome → (((s.tokens.insert event.base
      event.baseMetadata).insert event.quote event.quoteMetadata).get t).isSome := by
    intro t ht
    obtain ⟨m, hm⟩ := Option.isSome_iff_exists.mp ht
    rw [htokens t m hm]
    rfl
  refine ⟨⟨⟨?_, ?_, ?_⟩, h.registry, ?_, ?_, fun ev hev => (h.queue ev hev).mono hx, h.orders,
    h.trades⟩, hx⟩
  · intro pair id
    simp only [SortedMap.get_insert]
    have hinv := h.wired.pairs pair id
    by_cases h1 : (⟨event.base, event.quote⟩ : TradingPair) = pair
    · by_cases h2 : event.bookId = id
      · simp [h1, h2]
      · rw [if_pos h1, if_neg h2, ← hinv, ← h1, hpair]
        simp [h2]
    · by_cases h2 : event.bookId = id
      · rw [if_neg h1, if_pos h2, hinv, ← h2, hbyBook]
        simp [h1]
      · rw [if_neg h1, if_neg h2, hinv]
  · intro id b hb
    simp only [SortedMap.get_insert] at hb
    split_ifs at hb with he
    · cases hb
      refine ⟨he, ?_, OrderBook.wellFormed_new _ _ _ _ _ _, rfl, ⟨event.base, event.quote⟩,
        ⟨scale, hpos⟩, ⟨?_, ?_⟩, hne, hdvd, ?_⟩
      · rw [← he, hid, Seq.lt_def]
        show s.nextBookId.val < next.val
        omega
      · rw [← he]
        exact SortedMap.get_insert_self _ _ _
      · have hget : ((s.tokens.insert event.base event.baseMetadata).insert event.quote
            event.quoteMetadata).get event.base = some event.baseMetadata := by
          rw [SortedMap.get_insert_of_ne _ _ (Ne.symm hne), SortedMap.get_insert_self]
        simp only [baseScale, hget, Except.expect_some, Except.bind_ok, hpow, dif_pos hpos]
      · rw [SortedMap.get_insert_self]
        rfl
    · refine (h.wired.listed id b hb).mono hmarket hsome ?_
      rw [Seq.le_def]
      show s.nextBookId.val ≤ next.val
      omega
  · intro id pair hp
    simp only [SortedMap.get_insert] at hp ⊢
    split_ifs at hp ⊢ with he
    · rfl
    · exact h.wired.traded id pair hp
  · intro id r hr
    obtain ⟨b, hb, hrest⟩ := (h.records id r hr).book
    refine ⟨⟨b, ?_, hrest⟩, (h.records id r hr).owner⟩
    rw [SortedMap.get_insert_of_ne]
    · exact hb
    · intro he
      rw [← he, hbook] at hb
      cases hb
  · intro id b hb o ho
    simp only [SortedMap.get_insert] at hb
    split_ifs at hb with he
    · cases hb
      cases ho
    · exact h.live id b hb o ho

/-! ## Settling -/

/-- **An event of the queue was settled.** -/
structure Settled (s : State) (queue : List SettlingEvent) (bookId : OrderBookId) (now : Timestamp)
    (pair : TradingPair) (scale : BaseScale) (pieces : List Piece) (s' : State) : Prop where
  market : s.Market bookId pair scale
  agrees : ∀ p ∈ pieces, s.PieceOk bookId scale p
  trades : s.tradeHistory.insertLegs (pieces.flatMap (s.pieceLegs bookId now))
    = .ok s'.tradeHistory
  posted : Posted s.balances (s.postings bookId pair (pieces.flatMap Piece.ops)) s'.balances
  state : s' = { s with pendingSettlingEvents := queue, tradeHistory := s'.tradeHistory,
                        balances := s'.balances }

lemma Sound.settled (h : s.Sound) {before after : List SettlingEvent} {event : SettlingEvent}
    {now : Timestamp} (hqueue : s.pendingSettlingEvents = before ++ event :: after)
    (hok : recordSettlingEvent { s with pendingSettlingEvents := before ++ after } event now .write
      = .ok s') :
    ∃ pair scale pieces, event = eventOf event.bookId pieces ∧
      s.Settled (before ++ after) event.bookId now pair scale pieces s' := by
  have hev : s.EventOk event := h.queue event (by simp [hqueue])
  have hx : s.Extends { s with pendingSettlingEvents := before ++ after } :=
    Extends.of_eq rfl rfl rfl rfl
  have hx' : Extends { s with pendingSettlingEvents := before ++ after } s :=
    Extends.of_eq rfl rfl rfl rfl
  obtain ⟨pair, scale, pieces, trades, balances, hm, he, hpieces, htrades, hposted, rfl⟩ :=
    (hev.mono hx).of_recordSettlingEvent hok
  have hops : event.balanceOperations = pieces.flatMap Piece.ops :=
    congrArg SettlingEvent.balanceOperations he
  rw [hops] at hposted
  exact ⟨pair, scale, pieces, he, hx'.market hm, fun p hp => (hpieces p hp).mono hx', htrades,
    hposted, rfl⟩

lemma Settled.sound {queue : List SettlingEvent} {bookId : OrderBookId} {now : Timestamp}
    {pair : TradingPair} {scale : BaseScale} {pieces : List Piece}
    (h : s.Settled queue bookId now pair scale pieces s')
    (hqueue : ∀ event ∈ queue, event ∈ s.pendingSettlingEvents) (hs : s.Sound) :
    s'.Sound ∧ s.Extends s' := by
  have htrades := TradeHistory.indexed_insertLegs hs.trades h.trades
  refine hs.of_frame (by rw [h.state]) (by rw [h.state]) (by rw [h.state]) (by rw [h.state])
    (by rw [h.state]) (by rw [h.state]; exact hs.registry)
    (by rw [h.state]; exact UserRegistry.Extends.refl _) ?_ htrades
  rw [h.state]
  exact hqueue

/-! ## The frame -/

/-- **Books, records, balances and queue are as before.** -/
structure Frame (s s' : State) : Prop where
  tokens : s'.tokens = s.tokens
  tradingPairs : s'.tradingPairs = s.tradingPairs
  orderBooks : s'.orderBooks = s.orderBooks
  nextBookId : s'.nextBookId = s.nextBookId
  balances : s'.balances = s.balances
  orderHistory : s'.orderHistory = s.orderHistory
  tradeHistory : s'.tradeHistory = s.tradeHistory
  queue : s'.pendingSettlingEvents = s.pendingSettlingEvents
  registry : s.userRegistry.Sound → s'.userRegistry.Sound ∧
    s.userRegistry.Extends s'.userRegistry ∧ s'.userRegistry.users = s.userRegistry.users
  grants : ∀ p grant, s'.userRegistry.tradingAccounts.get p = some grant →
    s.userRegistry.tradingAccounts.get p = some grant ∨
      (p ≠ .anonymous ∧ p ≠ .managementCanister)

lemma Frame.of_registry_eq {t : State} (ht : t = { s with
      mode := t.mode, executionPolicy := t.executionPolicy, permissions := t.permissions,
      activeTasks := t.activeTasks, inFlightUserOps := t.inFlightUserOps,
      ledgerFeeCache := t.ledgerFeeCache }) : s.Frame t := by
  rw [ht]
  exact ⟨rfl, rfl, rfl, rfl, rfl, rfl, rfl, rfl,
    fun hs => ⟨hs, UserRegistry.Extends.refl _, rfl⟩, fun _ _ hg => Or.inl hg⟩

lemma Frame.sound (h : s.Frame s') (hs : s.Sound) : s'.Sound ∧ s.Extends s' := by
  obtain ⟨hreg, hx, -⟩ := h.registry hs.registry
  refine hs.of_frame h.tradingPairs h.tokens h.nextBookId h.orderBooks h.orderHistory hreg hx ?_ ?_
  · rw [h.queue]
    exact fun _ => id
  · rw [h.tradeHistory]
    exact hs.trades

end State

/-! ## Changes -/

/-- Events that leave books, records and balances alone. -/
def EventType.quiet : EventType → Bool
  | .upgrade _ | .withdraw _ | .setHalt _ | .addTradingAccount _ | .removeTradingAccount _ => true
  | _ => false

namespace Canister

/-- `c'` has the log of `c`. -/
def SameLog (c c' : Canister) : Prop := c'.events = c.events ∧ c'.journal = c.journal

/-- `c'` logged one more event than `c`. -/
def Logged (c : Canister) (payload : EventType) (timestamp : Timestamp) (c' : Canister) : Prop :=
  c'.events = c.events ++ [⟨timestamp, payload⟩] ∧
    c'.journal = c.journal ++ [(c.state, ⟨timestamp, payload⟩)]

/-- `c'` logged only quiet events more than `c`. -/
def QuietLog (c c' : Canister) : Prop :=
  (∃ l : List Event, (∀ e ∈ l, e.payload.quiet = true) ∧ c'.events = c.events ++ l) ∧
    ∃ l : List (State × Event), (∀ e ∈ l, e.2.payload.quiet = true) ∧ c'.journal = c.journal ++ l

/-- **What an act does to a sound state.** -/
inductive Change (c c' : Canister) : Prop
  | listed (event : AddTradingPairEvent) (timestamp : Timestamp)
      (hadmits : c.state.Admits timestamp (.addTradingPair event))
      (hok : c.state.recordTradingPair event = .ok c'.state)
      (hlog : c.Logged (.addTradingPair event) timestamp c')
  | placed (event : AddLimitOrderEvent) (timestamp : Timestamp) (order : Order) (b b' : OrderBook)
      (pair : TradingPair) (scale : BaseScale) (uid : UserId) (required : Quantity)
      (horder : order = PendingOrder.intoOrder
        ⟨event.side, event.price, event.quantity, event.timeInForce⟩ event.orderId.seq)
      (hadmits : c.state.Admits timestamp (.addLimitOrder event))
      (h : c.state.Placed event.orderId.bookId order event.user event.placedBy timestamp b b' pair
        scale uid required c'.state)
      (hlog : c.Logged (.addLimitOrder event) timestamp c')
  | canceled (event : CancelLimitOrderEvent) (timestamp : Timestamp) (o : Order)
      (r r' : OrderRecord) (b b' : OrderBook) (pair : TradingPair) (scale : BaseScale)
      (refund : RemovedOrderSettlement)
      (hadmits : c.state.Admits timestamp (.cancelLimitOrder event))
      (h : c.state.Canceled event.orderId event.canceledBy timestamp o r r' b b' pair scale refund
        c'.state)
      (hlog : c.Logged (.cancelLimitOrder event) timestamp c')
  | matched (event : MatchingEvent) (timestamp : Timestamp) (b b' : OrderBook)
      (orders : List Order) (out : OrderBook.StepOut) (pair : TradingPair) (scale : BaseScale)
      (fills : List FillSettlement) (refunds : List RemovedOrderSettlement)
      (groups : List (List Piece))
      (hadmits : c.state.Admits timestamp (.matching event))
      (horders : event.orders = orders.map Order.id) (hne : orders ≠ [])
      (h : c.state.Matched event.bookId timestamp b b' orders out pair scale fills refunds groups
        c'.state)
      (hlog : c.Logged (.matching event) timestamp c')
  | settled (before after : List SettlingEvent) (event : SettlingEvent) (timestamp : Timestamp)
      (pair : TradingPair) (scale : BaseScale) (pieces : List Piece)
      (hqueue : c.state.pendingSettlingEvents = before ++ event :: after)
      (hfront : before = [] ∨ event.fills = []) (hevent : event = eventOf event.bookId pieces)
      (h : c.state.Settled (before ++ after) event.bookId timestamp pair scale pieces c'.state)
      (hlog : (c.withQueue (before ++ after)).Logged (.settling event) timestamp c')
  | credited (user : Principal) (token : TokenId) (amount : Quantity)
      (huser : c.state.userRegistry.tradingAccounts.get user = none)
      (hok : c.state.deposit user token amount .write = .ok c'.state)
      (hlog : c.SameLog c' ∨ ∃ timestamp, c.Logged (.deposit ⟨user, token, amount⟩) timestamp c')
  | debited (user : Principal) (token : TokenId) (amount : Quantity)
      (hok : c.state.withdraw user token amount = .ok (.ok c'.state)) (hlog : c.SameLog c')
  | frame (h : c.state.Frame c'.state)
      (hlog : c.QuietLog c')

variable {c c' : Canister}

lemma Change.of_event (hs : c.state.Sound) {payload : EventType} {timestamp : Timestamp}
    (hadmits : c.state.Admits timestamp payload)
    (hproc : c.processEvent payload timestamp = .ok c') : c.Change c' := by
  obtain ⟨s, hok, rfl⟩ := processEvent_eq_ok hproc
  have hquiet : ∀ {payload : EventType}, payload.quiet = true → c.state.Frame s →
      c.Change { state := s, events := c.events ++ [⟨timestamp, payload⟩],
                 journal := c.journal ++ [(c.state, ⟨timestamp, payload⟩)] } :=
    fun {payload} hq hf => .frame hf ⟨⟨[⟨timestamp, payload⟩], by simpa using hq, rfl⟩,
      ⟨[(c.state, ⟨timestamp, payload⟩)], by simpa using hq, rfl⟩⟩
  cases payload with
  | init arg => exact hadmits.elim
  | upgrade arg =>
      obtain ⟨policy, hs'⟩ := State.applyUpgrade_eq_ok hok
      refine hquiet rfl (State.Frame.of_registry_eq ?_)
      rw [hs']
  | addTradingPair event => exact .listed event timestamp hadmits hok ⟨rfl, rfl⟩
  | deposit event =>
      exact .credited event.user event.token event.amount hadmits hok
        (Or.inr ⟨timestamp, rfl, rfl⟩)
  | addLimitOrder event =>
      obtain ⟨order, b, b', pair, scale, uid, required, horder, hplaced⟩ := hs.placed hadmits hok
      exact .placed event timestamp order b b' pair scale uid required horder hadmits hplaced
        ⟨rfl, rfl⟩
  | settling event => exact hadmits.elim
  | matching event =>
      obtain ⟨b, b', orders, out, pair, scale, fills, refunds, groups, ho, hne, hmatched⟩ :=
        hs.matched hadmits hok
      exact .matched event timestamp b b' orders out pair scale fills refunds groups hadmits ho hne
        hmatched ⟨rfl, rfl⟩
  | withdraw event => exact hadmits.elim
  | cancelLimitOrder event =>
      obtain ⟨o, r, r', b, b', pair, scale, refund, hcanceled⟩ := hs.canceled hok
      exact .canceled event timestamp o r r' b b' pair scale refund hadmits hcanceled ⟨rfl, rfl⟩
  | setHalt event =>
      cases hok
      exact hquiet rfl (State.Frame.of_registry_eq rfl)
  | addTradingAccount event =>
      simp only [State.applyStateTransition, State.recordAddTradingAccount, Except.bind_eq_ok,
        Except.ok.injEq] at hok
      obtain ⟨registry, hreg, rfl⟩ := hok
      obtain ⟨-, hnew, -, hanon, hmgmt, -⟩ :=
        State.validateAddTradingAccount_eq_ok (State.validate_registry hadmits).1
      refine hquiet rfl ⟨rfl, rfl, rfl, rfl, rfl, rfl, rfl, rfl,
        fun hr => hr.recordAddTradingAccount hnew hreg, fun p grant hg => ?_⟩
      rw [UserRegistry.grants_recordAddTradingAccount hreg, SortedMap.get_insert] at hg
      split_ifs at hg with he
      · rw [← he]
        exact Or.inr ⟨hanon, hmgmt⟩
      · exact Or.inl hg
  | removeTradingAccount event =>
      simp only [State.applyStateTransition, State.recordRemoveTradingAccount, Except.bind_eq_ok,
        Except.ok.injEq] at hok
      obtain ⟨registry, hreg, rfl⟩ := hok
      refine hquiet rfl ⟨rfl, rfl, rfl, rfl, rfl, rfl, rfl, rfl, fun hr => ?_, fun p grant hg => ?_⟩
      · obtain ⟨h1, h2, h3, -⟩ := hr.recordRemoveTradingAccount hreg
        exact ⟨h1, h2, h3⟩
      · rw [UserRegistry.grants_recordRemoveTradingAccount hreg, SortedMap.get_erase] at hg
        split_ifs at hg
        exact Or.inl hg

/-- **Every act on a sound state is a change.** -/
theorem Act.change (hs : c.state.Sound) (h : c.Act c') : c.Change c' := by
  cases h with
  | event hadmits hok => exact Change.of_event hs hadmits hok
  | settle hqueue hfront hok =>
      obtain ⟨s, hset, rfl⟩ := processEvent_eq_ok hok
      obtain ⟨pair, scale, pieces, hev, hsettled⟩ := hs.settled hqueue hset
      exact .settled _ _ _ _ pair scale pieces hqueue hfront hev hsettled ⟨rfl, rfl⟩
  | debit hok => exact .debited _ _ _ hok ⟨rfl, rfl⟩
  | credit huser hok => exact .credited _ _ _ huser hok (Or.inl ⟨rfl, rfl⟩)
  | logged event timestamp =>
      refine .frame (State.Frame.of_registry_eq rfl) ⟨⟨[⟨timestamp, .withdraw event⟩], ?_, rfl⟩,
        ⟨[], fun _ hx => absurd hx List.not_mem_nil, (List.append_nil _).symm⟩⟩
      intro e he
      rw [List.mem_singleton.mp he]
      rfl
  | note hsame =>
      refine .frame (State.Frame.of_registry_eq ?_)
        ⟨⟨[], fun _ hx => absurd hx List.not_mem_nil, (List.append_nil _).symm⟩,
          ⟨[], fun _ hx => absurd hx List.not_mem_nil, (List.append_nil _).symm⟩⟩
      rw [hsame.eq]

/-- **A change of a sound state leads to a sound state that extends it.** -/
theorem Change.sound (hs : c.state.Sound) (h : c.Change c') :
    c'.state.Sound ∧ c.state.Extends c'.state := by
  cases h with
  | listed event timestamp hadmits hok => exact hs.recordTradingPair hadmits hok
  | placed _ _ _ _ _ _ _ _ _ _ _ h => exact h.sound hs
  | canceled _ _ _ _ _ _ _ _ _ _ _ h => exact h.sound hs
  | matched _ _ _ _ _ _ _ _ _ _ _ _ _ _ h => exact h.sound hs
  | settled before after event _ _ _ _ hqueue _ _ h =>
      refine h.sound (fun e he => ?_) hs
      rw [hqueue]
      rcases List.mem_append.mp he with he | he
      · exact List.mem_append_left _ he
      · exact List.mem_append_right _ (List.mem_cons_of_mem _ he)
  | credited _ _ _ huser hok => exact hs.deposit huser hok
  | debited _ _ _ hok => exact hs.withdraw hok
  | frame h => exact h.sound hs

theorem Act.sound (hs : c.state.Sound) (h : c.Act c') :
    c'.state.Sound ∧ c.state.Extends c'.state := (h.change hs).sound hs

/-- **Invariant rule.**  Along a sequence of acts from a sound state every change meets the
invariant. -/
lemma Acts.invariant {P : Canister → Prop} (h : c.Acts c') (hs : c.state.Sound) (hc : P c)
    (hstep : ∀ c c', c.state.Sound → P c → c.Change c' → P c') : c'.state.Sound ∧ P c' := by
  refine h.induction (P := fun c => c.state.Sound ∧ P c) ⟨hs, hc⟩ fun c c' ⟨hs, hc⟩ hact => ?_
  exact ⟨(hact.sound hs).1, hstep c c' hs hc (hact.change hs)⟩

lemma Acts.sound (h : c.Acts c') (hs : c.state.Sound) :
    c'.state.Sound ∧ c.state.Extends c'.state := by
  refine h.induction (P := fun c' => c'.state.Sound ∧ c.state.Extends c'.state)
    ⟨hs, State.Extends.refl _⟩ fun c₁ c₂ ⟨hs₁, hx⟩ hact => ?_
  obtain ⟨hs₂, hx'⟩ := hact.sound hs₁
  exact ⟨hs₂, hx.trans hx'⟩

end Canister

end OisyTrade
