import OisyTrade.Guarantees.Executor
import OisyTrade.Guarantees.Isolation
import OisyTrade.Guarantees.Solvency
import OisyTrade.Guarantees.Whitelist
import OisyTrade.Invariant.Payouts
import OisyTrade.Invariant.View
import OisyTrade.MarketData

/-!
# No internal check fails

The source is full of checks that are there to find its own errors.  In every run in which the
ledgers hold little for the canister (`World.Modest`) and no counter runs out (`CountersLeft`) none of
them fails (`ReachableWhile.no_internal_trap`): a message returns or refuses its caller or argument,
a waiting call always goes on, and an upgrade stops only at an argument it does not accept.

For each entry point, what its validation has passed, its event applies: the lemmas come in the order
of the source, validation first and then the `record_*` function.
-/

namespace OisyTrade

/-- The trap refuses a caller or an argument. -/
def Trap.Refusal (e : Trap) : Prop := ∃ r, e = .rejected r

/-- **No counter runs out** with the next message: there is a next book, every book has a next order
sequence, and users, orders and trades fit into their stable maps. -/
structure Canister.CountersLeft (c : Canister) : Prop where
  books : c.state.nextBookId.val + 1 < 2 ^ 64
  seqs : ∀ id b, c.state.orderBooks.get id = some b → b.nextSeq.val + 1 < 2 ^ 64
  users : c.state.userRegistry.users.size < 2 ^ 64
  orders : c.state.orderHistory.primary.size < 2 ^ 64
  trades : c.state.tradeHistory.primary.size
    + 2 * (Canister.fillCount c.state.pendingSettlingEvents + c.state.liveCount) ≤ 2 ^ 64

namespace State

variable {s : State}

lemma assertCallerIsAllowed_outcome (s : State) (rt : Runtime) :
    (s.assertCallerIsAllowed rt).Outcome Trap.Refusal fun _ => True := by
  rw [assertCallerIsAllowed]
  cases s.mode with
  | generalAvailability => trivial
  | restrictedTo allowed =>
      dsimp only
      split_ifs
      · trivial
      · exact ⟨_, rfl⟩

/-! ## Trading pairs -/

lemma recordToken_returns {token : TokenId} {metadata : TokenMetadata}
    (h : ∀ existing, s.tokens.get token = some existing → existing = metadata) :
    ∃ s', s.recordToken token metadata = .ok s' ∧ s'.tokens.get token = some metadata ∧
      (∀ t, t ≠ token → s'.tokens.get t = s.tokens.get t) ∧
      s' = { s with tokens := s'.tokens } := by
  rw [recordToken]
  cases hget : s.tokens.get token with
  | none =>
      exact ⟨_, rfl, SortedMap.get_insert_self _ _ _,
        fun t ht => SortedMap.get_insert_of_ne _ _ (Ne.symm ht), rfl⟩
  | some existing =>
      obtain rfl := h existing hget
      exact ⟨s, by simp, hget, fun _ _ => rfl, rfl⟩

lemma of_checkTokenMetadataConsistency {token : TokenId} {submitted : TokenMetadata}
    (h : s.checkTokenMetadataConsistency token submitted = .ok ()) :
    ∀ existing, s.tokens.get token = some existing → existing = submitted := by
  intro existing hget
  simp only [checkTokenMetadataConsistency, hget] at h
  split_ifs at h with hne
  exact not_not.mp hne

/-- The next book id is unused. -/
lemma Sound.nextBookId_fresh (hs : s.Sound) :
    s.orderBooks.get s.nextBookId = none ∧ s.tradingPairs.byBook.get s.nextBookId = none := by
  have hbook : s.orderBooks.get s.nextBookId = none := by
    cases hget : s.orderBooks.get s.nextBookId with
    | none => rfl
    | some b => exact absurd (hs.wired.listed _ b hget).below (lt_irrefl _)
  refine ⟨hbook, ?_⟩
  cases hget : s.tradingPairs.byBook.get s.nextBookId with
  | none => rfl
  | some pair =>
      have hsome := hs.wired.traded _ pair hget
      rw [hbook] at hsome
      cases hsome

/-- **A pair that passed the checks is recorded.** -/
theorem Sound.recordTradingPair_returns (hs : s.Sound) (event : AddTradingPairEvent)
    (hid : event.bookId = s.nextBookId) (hne : event.base ≠ event.quote)
    (hnew : s.tradingPairs.byPair.get ⟨event.base, event.quote⟩ = none)
    (hbase : s.checkTokenMetadataConsistency event.base event.baseMetadata = .ok ())
    (hquote : s.checkTokenMetadataConsistency event.quote event.quoteMetadata = .ok ())
    (hcount : s.nextBookId.val + 1 < 2 ^ 64) : ∃ s', s.recordTradingPair event = .ok s' := by
  obtain ⟨s₁, hs₁, -, hother, heq₁⟩ := recordToken_returns (of_checkTokenMetadataConsistency hbase)
  have hquote' : ∀ existing, s₁.tokens.get event.quote = some existing →
      existing = event.quoteMetadata := by
    rw [hother _ (Ne.symm hne)]
    exact of_checkTokenMetadataConsistency hquote
  obtain ⟨s₂, hs₂, -, -, heq₂⟩ := recordToken_returns hquote'
  obtain ⟨hbook, hpair⟩ := hs.nextBookId_fresh
  have hsame : s₂.tradingPairs = s.tradingPairs ∧ s₂.orderBooks = s.orderBooks ∧
      s₂.nextBookId = s.nextBookId := by
    rw [heq₂, heq₁]
    exact ⟨rfl, rfl, rfl⟩
  obtain ⟨hpairs, hbooks, hnext⟩ := hsame
  have hincrement := Seq.increment_of_lt (c := .orderBookId) hcount
  simp only [State.recordTradingPair, hs₁, hs₂, hnext, hpairs, hbooks, hid, TradingPairMap.insert,
    SortedMap.contains, hnew, hpair, hbook, hincrement, decide_true, Option.isSome_none,
    Bool.not_false, Bool.and_self, Except.assert_true, Except.bind_ok]
  exact ⟨_, rfl⟩

/-! ## Orders -/

lemma Sound.pair_of_book (hs : s.Sound) {pair : TradingPair} {bookId : OrderBookId}
    (h : s.tradingPairs.getBookId pair = some bookId) :
    s.tradingPairs.getPair bookId = some pair ∧ ∃ b scale, s.orderBooks.get bookId = some b ∧
      s.Market bookId pair scale := by
  have hpair : s.tradingPairs.getPair bookId = some pair := (hs.wired.pairs pair bookId).mp h
  obtain ⟨b, hb⟩ := Option.isSome_iff_exists.mp (hs.wired.traded bookId pair hpair)
  obtain ⟨pair', scale, hm, -⟩ := (hs.wired.listed bookId b hb).market
  obtain rfl : pair = pair' := Option.some.inj (hpair.symm.trans hm.pair)
  exact ⟨hpair, b, scale, hb, hm⟩

lemma Sound.getBalance_eq (hs : s.Sound) (user : Principal) (token : TokenId) :
    s.getBalance user token = .ok (((s.userRegistry.fundingId user).bind fun u =>
      s.balances.getBalance u token).getD Balance.zero) := by
  rw [State.getBalance, hs.registry.lookupFundingId]
  rfl

/-- **Validating an order returns.** -/
lemma Sound.validateLimitOrder_returns (hs : s.Sound) (user : Principal) (pair : TradingPair)
    (pending : PendingOrder) : ∃ r, s.validateLimitOrder user pair pending = .ok r := by
  rw [State.validateLimitOrder]
  cases hid : s.tradingPairs.getBookId pair with
  | none => exact ⟨_, rfl⟩
  | some bookId =>
      obtain ⟨hpair, b, scale, hb, hm⟩ := hs.pair_of_book hid
      simp only [hb, expectBug, Except.expect_some, Except.bind_ok]
      cases hv : b.validateOrder pending.price pending.quantity with
      | error e => exact ⟨_, rfl⟩
      | ok u =>
          obtain ⟨-, htick, -, hlot⟩ : b.ValidOrder (pending.intoOrder b.nextSeq) :=
            OrderBook.validateOrder_eq_ok.mp hv
          have hdvd := (hs.wired.listed bookId b hb).dvd hm
          have hmul : ∃ o, pending.price.checkedMulQuantityScaled pending.quantity scale = .ok o := by
            by_cases hlt : pending.price.toNat * pending.quantity.toNat < 2 ^ 256
            · obtain ⟨r, hr, -⟩ := Price.checkedMulQuantityScaled_of_dvd hlt
                (hdvd.2.trans (Nat.mul_dvd_mul htick hlot))
              exact ⟨_, hr⟩
            · exact ⟨_, Price.checkedMulQuantityScaled_of_overflow (Nat.le_of_not_lt hlt)⟩
          obtain ⟨o, ho⟩ := hmul
          simp only [hm.scale, ho, Except.bind_ok]
          cases o with
          | none => exact ⟨_, rfl⟩
          | some amount =>
              dsimp only
              cases b.checkNotional amount with
              | error e => exact ⟨_, rfl⟩
              | ok u' =>
                  simp only [hs.getBalance_eq, Except.bind_ok]
                  split_ifs <;> exact ⟨_, rfl⟩

/-- An order that was validated reserves the funds that were compared with the balance. -/
lemma fundsToReserve_intoOrder (pair : TradingPair) {scale : BaseScale} {pending : PendingOrder}
    {amount : Quantity}
    (h : pending.price.checkedMulQuantityScaled pending.quantity scale = .ok (some amount))
    (seq : OrderSeq) : fundsToReserve pair scale (pending.intoOrder seq)
      = .ok (requiredFunds pair pending.side amount pending.quantity) := by
  obtain ⟨side, price, quantity, timeInForce⟩ := pending
  cases side with
  | buy =>
      have h' : price.checkedMulQuantityScaled quantity scale = .ok (some amount) := h
      simp only [fundsToReserve, PendingOrder.intoOrder, h', expectBug, Except.bind_ok,
        Except.expect_some, requiredFunds]
  | sell => rfl

/-- **An order that was validated is recorded.** -/
theorem Sound.recordLimitOrder_returns (hs : s.Sound) {user : Principal} {pair : TradingPair}
    {pending : PendingOrder} {orderId : OrderId} {order : Order}
    (hvalid : s.validateLimitOrder user pair pending = .ok (.ok (orderId, order)))
    (htotal : ∀ t, s.balances.total t < 2 ^ 256)
    (hseq : ∀ id b, s.orderBooks.get id = some b → b.nextSeq.val + 1 < 2 ^ 64)
    (hsize : s.orderHistory.primary.size < 2 ^ 64) (placedBy : Option Principal)
    (timestamp : Timestamp) :
    ∃ s', s.recordLimitOrder user orderId.bookId (pending.intoOrder orderId.seq) placedBy timestamp
      .write = .ok s' := by
  obtain ⟨bookId, b, scale, amount, hid, hb, hv, hscale, hmul, -, ⟨balance, hbal, hle⟩, rfl, -⟩ :=
    Canister.validateLimitOrder_eq_ok hvalid
  obtain ⟨hpair, b', scale', hb', hm⟩ := hs.pair_of_book hid
  have hl := hs.wired.listed bookId b hb
  have hvalid' : b.ValidOrder (pending.intoOrder b.nextSeq) := OrderBook.validateOrder_eq_ok.mp hv
  rw [hs.getBalance_eq, Except.ok.injEq] at hbal
  -- The required amount is positive, so the user has a balance and is registered.
  have hpos : 0 < (requiredFunds pair pending.side amount pending.quantity).2.toNat := by
    obtain ⟨hprice, -, hquantity, -⟩ := hvalid'
    cases pending.side with
    | sell => exact hquantity
    | buy =>
        have hproduct := (Price.of_checkedMulQuantityScaled hmul).1
        refine Nat.pos_of_ne_zero fun h0 => ?_
        have h0' : amount.toNat = 0 := h0
        rw [h0', Nat.zero_mul] at hproduct
        exact absurd hproduct.symm (Nat.mul_pos hprice hquantity).ne'
  have hreserves := fundsToReserve_intoOrder pair hmul b.nextSeq
  generalize requiredFunds pair pending.side amount pending.quantity = funds
    at hreserves hbal hle hpos
  obtain ⟨token, required⟩ := funds
  obtain ⟨uid, huid, hfree⟩ : ∃ uid, s.userRegistry.fundingId user = some uid ∧
      required.toNat ≤ s.balances.free token uid := by
    cases huser : s.userRegistry.fundingId user with
    | none =>
        rw [huser] at hbal
        rw [← hbal] at hle
        have hzero : Balance.zero.free.toNat = 0 := Quantity.toNat_zero
        exact absurd (hzero ▸ hle) (Nat.not_le.mpr hpos)
    | some uid =>
        rw [huser] at hbal
        rw [← hbal] at hle
        exact ⟨uid, rfl, hle⟩
  obtain ⟨balances, hreserve⟩ : ∃ balances,
      s.balances.reserve uid token required = .ok (.ok (), balances) := by
    rcases s.balances.reserve_spec uid token required with ⟨hlt, -⟩ | ⟨-, hbig⟩ |
      ⟨balances, _, hreserve, -⟩
    · exact absurd hfree (Nat.not_le.mpr hlt)
    · exact absurd (htotal token) (Nat.not_lt.mpr hbig)
    · exact ⟨balances, hreserve⟩
  have hfresh : s.orderHistory.primary.get (.new bookId b.nextSeq) = none := by
    cases hget : s.orderHistory.get (.new bookId b.nextSeq) with
    | none => exact Option.map_eq_none_iff.mp hget
    | some r =>
        have hbelow := (hs.book_of_record hget (by rw [OrderId.bookId_new]; exact hb)).1
        rw [OrderId.seq_new] at hbelow
        exact absurd hbelow (lt_irrefl _)
  obtain ⟨history, hinsert⟩ : ∃ history, s.orderHistory.insertOnce uid (.new bookId b.nextSeq)
      (newRecord user (pending.intoOrder b.nextSeq) placedBy timestamp) = .ok history := by
    obtain ⟨history, hinsert, -⟩ := Except.Outcome.returns
      ((History.insertOnce_outcome hs.orders hfresh).mono
        (fun e he => absurd hsize (Nat.not_lt.mpr he.2)) fun _ h => h)
    exact ⟨history, hinsert⟩
  obtain ⟨hadd, -⟩ := OrderBook.addPendingOrder_spec hl.wf hvalid' rfl (hseq bookId b hb)
  have hid' : (pending.intoOrder b.nextSeq).id = b.nextSeq := rfl
  simp only [State.recordLimitOrder, OrderId.bookId_new, OrderId.seq_new, hpair, hscale, hb,
    hreserves, hs.registry.lookupFundingId, huid, hreserve, hid', hinsert, hadd, expectBug, assertBug,
    Except.expect_some, Except.bind_ok]
  exact ⟨_, rfl⟩

/-- A debit never traps. -/
lemma Sound.withdraw_returns (hs : s.Sound) (user : Principal) (token : TokenId)
    (amount : Quantity) : ∃ r, s.withdraw user token amount = .ok r := by
  rw [State.withdraw, hs.registry.lookupFundingId, Except.bind_ok]
  cases s.userRegistry.fundingId user with
  | none => exact ⟨_, rfl⟩
  | some uid =>
      dsimp only
      rcases s.balances.withdraw_spec uid token amount with ⟨-, e, he⟩ | ⟨table, b, hok, -⟩
      · rw [he]
        exact ⟨_, rfl⟩
      · rw [hok]
        exact ⟨_, rfl⟩

/-! ## Delegation -/

/-- **Validating a grant returns.** -/
lemma Sound.validateAddTradingAccount_returns (hs : s.Sound) (funding : FundingAccount)
    (trading : TradingAccount) (now : Timestamp) :
    ∃ r, s.validateAddTradingAccount funding trading now = .ok r := by
  have hregistry : ∃ r, s.userRegistry.validateAddTradingAccount funding trading now = .ok r := by
    rw [UserRegistry.validateAddTradingAccount, hs.registry.lookup, Except.bind_ok]
    cases s.userRegistry.account funding.principal with
    | none => exact ⟨_, rfl⟩
    | some account =>
        cases account with
        | trading _ _ => exact ⟨_, rfl⟩
        | funding id _ =>
            dsimp only
            split_ifs
            · exact ⟨_, rfl⟩
            · exact ⟨_, rfl⟩
            · rw [hs.registry.lookup, Except.bind_ok]
              cases s.userRegistry.account trading.principal with
              | none => exact ⟨_, rfl⟩
              | some account => cases account <;> exact ⟨_, rfl⟩
  obtain ⟨r, hr⟩ := hregistry
  rw [State.validateAddTradingAccount, hr, Except.bind_ok]
  cases r with
  | error e => exact ⟨_, rfl⟩
  | ok u =>
      dsimp only
      split_ifs <;> exact ⟨_, rfl⟩

/-- **A grant that was validated is recorded.** -/
lemma Sound.recordAddTradingAccount_returns (hs : s.Sound) {funding : FundingAccount}
    {trading : TradingAccount} {now : Timestamp}
    (h : s.validateAddTradingAccount funding trading now = .ok (.ok ())) :
    ∃ s', s.recordAddTradingAccount funding trading now .write = .ok s' := by
  obtain ⟨hnew, -, ⟨id, hid, -⟩, -⟩ := validateAddTradingAccount_eq_ok (validate_registry h).1
  simp only [State.recordAddTradingAccount, UserRegistry.recordAddTradingAccount,
    hs.registry.lookupFundingId, hid, SortedMap.contains, hnew, expectBug, assertBug,
    Option.isSome_none, Bool.not_false, Except.expect_some, Except.assert_true, Except.bind_ok]
  exact ⟨_, rfl⟩

/-- **A revocation that was validated is recorded.** -/
lemma Sound.recordRemoveTradingAccount_returns (hs : s.Sound) {funding : FundingAccount}
    {trading : TradingAccount} (h : s.validateRemoveTradingAccount funding trading = .ok ()) :
    ∃ s', s.recordRemoveTradingAccount funding trading .write = .ok s' := by
  rw [validateRemoveTradingAccount, UserRegistry.validateRemoveTradingAccount] at h
  cases hget : s.userRegistry.tradingAccounts.get trading.principal with
  | none =>
      rw [hget] at h
      cases h
  | some grant =>
      simp only [hget] at h
      split_ifs at h with hgrant
      obtain ⟨granter⟩ := grant
      subst hgrant
      obtain ⟨registry, hregistry⟩ := hs.registry.recordRemove_returns hget
      rw [State.recordRemoveTradingAccount]
      exact ⟨_, by rw [hregistry]; rfl⟩

end State

lemma tickLotRemainder_returns (tickSize : TickSize) (lotSize : LotSize) {scale : U64}
    (hscale : scale ≠ 0) : ∃ r, tickLotRemainder tickSize lotSize scale = .ok r := by
  have hfits : tickSize.get.toNat * lotSize.get.toNat < 2 ^ 256 := by
    have h1 : tickSize.get.toNat < 2 ^ 128 := tickSize.get.isLt
    have h2 : lotSize.get.toNat < 2 ^ 64 := lotSize.get.isLt
    calc tickSize.get.toNat * lotSize.get.toNat ≤ 2 ^ 128 * 2 ^ 64 := Nat.mul_le_mul h1.le h2.le
      _ < 2 ^ 256 := by norm_num
  have hfrom : (Quantity.fromU128 tickSize.get).toNat = tickSize.get.toNat := by
    simp [Quantity.fromU128, Quantity.toNat]
  have hmul : (Quantity.fromU128 tickSize.get).checkedMulU64 lotSize.get
      = some (Quantity.ofNat (tickSize.get.toNat * lotSize.get.toNat)) := by
    rw [Quantity.checkedMulU64_eq_some, Quantity.toNat_ofNat hfits, hfrom]
  obtain ⟨q, r, hdiv, -, -⟩ := Quantity.checkedDivRemU64_eq
    (a := Quantity.ofNat (tickSize.get.toNat * lotSize.get.toNat))
    fun h0 => hscale (BitVec.eq_of_toNat_eq h0)
  simp only [tickLotRemainder, hmul, hdiv, expectBug, Except.expect_some, Except.bind_ok]
  exact ⟨r, rfl⟩

namespace Canister

variable {c : Canister} {rt : Runtime}

lemma addTradingPair_returns (hs : c.state.Sound) (hleft : c.CountersLeft) (rt : Runtime)
    (request : AddTradingPairRequest) : ∃ r, c.addTradingPair rt request = .ok r := by
  rw [addTradingPair]
  split_ifs with hctl
  · exact ⟨_, rfl⟩
  cases hcheck : checkTradingPair request with
  | error e => exact ⟨_, rfl⟩
  | ok r =>
      obtain ⟨tick, lot, rates, min, max⟩ := r
      simp only [addCheckedPair]
      split_ifs with hknown
      · exact ⟨_, rfl⟩
      have hne : request.base.id ≠ request.quote.id := by
        intro heq
        simp [checkTradingPair, heq] at hcheck
      have hnew : c.state.tradingPairs.byPair.get ⟨request.base.id, request.quote.id⟩ = none := by
        rwa [TradingPairMap.contains, SortedMap.contains, Option.not_isSome_iff_eq_none] at hknown
      cases hb : c.state.checkTokenMetadataConsistency request.base.id request.base.metadata with
      | error e => exact ⟨_, rfl⟩
      | ok u =>
          cases hq : c.state.checkTokenMetadataConsistency request.quote.id
              request.quote.metadata with
          | error e => exact ⟨_, rfl⟩
          | ok u' =>
              cases hpow : checkedPow10 request.base.metadata.decimals with
              | none => exact ⟨_, rfl⟩
              | some scale =>
                  obtain ⟨rem, hrem⟩ := tickLotRemainder_returns tick lot
                    (State.checkedPow10_pos hpow)
                  simp only [hrem, Except.bind_ok]
                  split_ifs
                  · exact ⟨_, rfl⟩
                  · obtain ⟨c', hproc⟩ := c.processEvent_returns (.addTradingPair _) rt.time
                      (hs.recordTradingPair_returns ⟨c.state.nextBookId, request.base.id,
                        request.quote.id, tick, lot, request.base.metadata, request.quote.metadata,
                        rates, min, max⟩ rfl hne hnew hb hq hleft.books)
                    rw [hproc]
                    exact ⟨_, rfl⟩

/-! ## Messages -/

lemma setHalt_outcome (c : Canister) (rt : Runtime) (pairs : Option (List TradingPair))
    (halted : Bool) : (c.setHalt rt pairs halted).Outcome Trap.Refusal fun _ => True := by
  rw [setHalt]
  split_ifs with hctl
  · trivial
  · have hset : ∀ ids, (do
        let c ← c.processEvent (.setHalt ⟨ids, halted⟩) rt.time
        .ok (.ok (), c) : Except Trap (Except UnauthorizedError Unit × Canister)).Outcome
          Trap.Refusal fun _ => True := fun _ => trivial
    cases pairs with
    | none => exact hset none
    | some pairs =>
        refine Except.Outcome.bind (P := fun _ => True) ?_ fun ids _ => hset (some ids)
        refine Except.Outcome.bind (P := fun _ => True) ?_ fun _ _ => ?_
        · by_cases hlen : pairs.length ≤ maxHaltBooks
          · rw [decide_eq_true hlen]
            trivial
          · rw [decide_eq_false hlen]
            exact ⟨_, rfl⟩
        · induction pairs with
          | nil => trivial
          | cons pair pairs ih =>
              rw [List.mapM_cons]
              refine Except.Outcome.bind (P := fun _ => True) ?_ fun id _ =>
                .bind ih fun _ _ => trivial
              cases c.state.tradingPairs.getBookId pair with
              | none => exact ⟨_, rfl⟩
              | some id => trivial

lemma addLimitOrder_outcome (hs : c.state.Sound) (hleft : c.CountersLeft)
    (htotal : ∀ t, c.state.balances.total t < 2 ^ 256) (rt : Runtime) (request : LimitOrderRequest) :
    (c.addLimitOrder rt request).Outcome Trap.Refusal fun _ => True := by
  rw [addLimitOrder]
  refine .bind (c.state.assertCallerIsAllowed_outcome rt) fun _ _ => ?_
  obtain ⟨owner, howner, -⟩ := hs.effectiveAccount rt.msgCaller
  rw [howner, Except.bind_ok]
  dsimp only
  cases PendingOrder.tryFrom request with
  | none => trivial
  | some pending =>
      dsimp only
      obtain ⟨r, hvalid⟩ := hs.validateLimitOrder_returns owner request.pair pending
      rw [hvalid, Except.bind_ok]
      cases r with
      | error e => trivial
      | ok r =>
          obtain ⟨orderId, order⟩ := r
          dsimp only
          cases c.state.permissions.permitTrading orderId.bookId with
          | error e => trivial
          | ok u =>
              obtain ⟨_, b, _, _, -, -, -, -, -, -, -, -, rfl⟩ := validateLimitOrder_eq_ok hvalid
              obtain ⟨c', hproc⟩ := c.processEvent_returns (.addLimitOrder ⟨owner, orderId,
                  pending.side, pending.price, pending.quantity, pending.timeInForce,
                  if rt.msgCaller ≠ owner then some rt.msgCaller else none⟩) rt.time
                (hs.recordLimitOrder_returns hvalid htotal hleft.seqs hleft.orders _ _)
              refine .bind (P := fun _ => True) ?_ fun _ _ => trivial
              show (c.processEvent (.addLimitOrder ⟨owner, orderId, pending.side, pending.price,
                pending.quantity, pending.timeInForce, _⟩) rt.time).Outcome _ _
              rw [hproc]
              trivial

lemma cancelOrder_outcome (hc : c.Steady) (htotal : ∀ t, c.state.balances.total t < 2 ^ 256)
    (rt : Runtime) (orderId : Option OrderId) :
    (c.cancelOrder rt orderId).Outcome Trap.Refusal fun _ => True := by
  rw [cancelOrder]
  refine .bind (c.state.assertCallerIsAllowed_outcome rt) fun _ _ => ?_
  obtain ⟨owner, howner, -⟩ := hc.sound.effectiveAccount rt.msgCaller
  rw [howner, Except.bind_ok]
  cases orderId with
  | none => trivial
  | some id =>
      show (c.cancelLimitOrder owner _ id rt.time).Outcome _ _
      cases hvalid : c.state.validateCancelLimitOrder owner id with
      | error e =>
          rw [cancelLimitOrder, hvalid]
          trivial
      | ok u =>
          obtain ⟨r, hr, hown, hlive⟩ := State.validateCancelLimitOrder_eq_ok hvalid
          obtain ⟨r', c', hcancel⟩ := hc.cancel_returns hr hown hlive
            (hc.backed.released_fits hr htotal)
            (if rt.msgCaller ≠ owner then some rt.msgCaller else none) rt.time
          rw [hcancel]
          trivial

/-- The canister with another set of running tasks. -/
def withTasks (c : Canister) (tasks : SortedSet Task) : Canister :=
  { c with state := { c.state with activeTasks := tasks } }

lemma Ready.withTasks (h : c.Ready) (tasks : SortedSet Task) : (c.withTasks tasks).Ready := by
  have hacts : c.Acts (c.withTasks tasks) := (Act.note ⟨rfl⟩).acts
  exact ⟨hacts.steady h.steady, h.charged_of_acts hacts,
    ⟨h.roomy.balances, h.roomy.payout.of_same rfl rfl rfl fun _ => rfl, h.roomy.trades⟩⟩

lemma processPendingOrders_outcome (h : c.Ready) (rt : Runtime) :
    (c.processPendingOrders rt).Outcome Trap.Refusal fun _ => True := by
  rw [processPendingOrders]
  split_ifs
  · trivial
  · have hready := h.withTasks (c.state.activeTasks.insert .processPendingOrders ())
    obtain ⟨c', _, status, hrun, -⟩ := hready.runOnce rt
    have hout : (runOnce rt (c.withTasks (c.state.activeTasks.insert .processPendingOrders ()))).Outcome
        Trap.Refusal fun _ => True := by
      rw [hrun]
      trivial
    exact hout.bind fun _ _ => trivial

lemma addTradingAccount_outcome (hs : c.state.Sound) (rt : Runtime) (trading : Principal) :
    (c.addTradingAccount rt trading).Outcome Trap.Refusal fun _ => True := by
  rw [addTradingAccount]
  refine .bind (c.state.assertCallerIsAllowed_outcome rt) fun _ _ => ?_
  obtain ⟨r, hvalid⟩ := hs.validateAddTradingAccount_returns ⟨rt.msgCaller⟩ ⟨trading⟩ rt.time
  rw [hvalid, Except.bind_ok]
  cases r with
  | error e => trivial
  | ok u =>
      obtain ⟨c', hproc⟩ :=
        c.processEvent_returns (.addTradingAccount ⟨⟨rt.msgCaller⟩, ⟨trading⟩⟩) rt.time
        (hs.recordAddTradingAccount_returns hvalid)
      dsimp only
      rw [hproc]
      trivial

lemma removeTradingAccount_outcome (hs : c.state.Sound) (rt : Runtime) (trading : Principal) :
    (c.removeTradingAccount rt trading).Outcome Trap.Refusal fun _ => True := by
  rw [removeTradingAccount]
  refine .bind (c.state.assertCallerIsAllowed_outcome rt) fun _ _ => ?_
  cases hvalid : c.state.validateRemoveTradingAccount ⟨rt.msgCaller⟩ ⟨trading⟩ with
  | error e => trivial
  | ok u =>
      obtain ⟨c', hproc⟩ :=
        c.processEvent_returns (.removeTradingAccount ⟨⟨rt.msgCaller⟩, ⟨trading⟩⟩) rt.time
        (hs.recordRemoveTradingAccount_returns hvalid)
      dsimp only
      rw [hproc]
      trivial

/-- **A message returns or is refused.** -/
theorem run_outcome (h : c.Ready) (hleft : c.CountersLeft) (m : Message) (rt : Runtime) :
    (m.run rt c).Outcome Trap.Refusal fun _ => True := by
  have hs := h.steady.sound
  have hend : ∀ {α : Type} {x : Except Trap (α × Canister)}, x.Outcome Trap.Refusal (fun _ => True) →
      (do let (_, c) ← x; .ok c : Except Trap Canister).Outcome Trap.Refusal fun _ => True :=
    fun hx => hx.bind fun _ _ => trivial
  cases m with
  | addTradingPair request =>
      obtain ⟨r, hr⟩ := addTradingPair_returns hs hleft rt request
      refine hend ?_
      rw [hr]
      trivial
  | setHalt pairs halted => exact hend (c.setHalt_outcome rt pairs halted)
  | addLimitOrder request =>
      exact hend (addLimitOrder_outcome hs hleft h.roomy.balances rt request)
  | cancelLimitOrder orderId => exact hend (cancelOrder_outcome h.steady h.roomy.balances rt orderId)
  | processPendingOrders => exact hend (processPendingOrders_outcome h rt)
  | addTradingAccount trading => exact hend (addTradingAccount_outcome hs rt trading)
  | removeTradingAccount trading => exact hend (removeTradingAccount_outcome hs rt trading)

/-! ## Calls of the ledgers -/

lemma isTradingAccount_returns (hs : c.state.Sound) (caller : Principal) :
    ∃ b, c.isTradingAccount caller = .ok b := by
  rw [isTradingAccount, hs.registry.lookup, Except.bind_ok]
  cases c.state.userRegistry.account caller with
  | none => exact ⟨_, rfl⟩
  | some account => cases account <;> exact ⟨_, rfl⟩

/-- **A deposit starts or is refused.** -/
theorem depositStart_outcome (hs : c.state.Sound) (rt : Runtime) (token : TokenId) (n : ℕ) :
    (c.depositStart rt token n).Outcome Trap.Refusal fun _ => True := by
  rw [depositStart]
  refine .bind (c.state.assertCallerIsAllowed_outcome rt) fun _ _ => ?_
  cases Quantity.tryFrom n with
  | none => trivial
  | some amount =>
      dsimp only
      split_ifs with hknown
      · trivial
      · obtain ⟨b, hb⟩ := isTradingAccount_returns hs rt.msgCaller
        rw [hb, Except.bind_ok]
        cases Permissions.permitDeposit b with
        | error e => cases e; trivial
        | ok u =>
            dsimp only
            cases hg : c.guardUserOp rt.msgCaller token with
            | none => trivial
            | some guarded =>
                obtain ⟨-, rfl⟩ := guardUserOp_eq_some hg
                have hs' := fun ops => ((moved_withGuards c ops).sound hs).1
                dsimp only
                rw [(hs' _).getBalance_eq, Except.bind_ok]
                split_ifs <;> trivial

/-- **A withdrawal starts or is refused.** -/
theorem withdrawStart_outcome (hs : c.state.Sound) (rt : Runtime) (token : TokenId) (n : ℕ) :
    (c.withdrawStart rt token n).Outcome Trap.Refusal fun _ => True := by
  rw [withdrawStart]
  refine .bind (c.state.assertCallerIsAllowed_outcome rt) fun _ _ => ?_
  cases Quantity.tryFrom n with
  | none => trivial
  | some amount =>
      dsimp only
      split_ifs with hknown hzero
      · trivial
      · trivial
      · obtain ⟨b, hb⟩ := isTradingAccount_returns hs rt.msgCaller
        rw [hb, Except.bind_ok]
        cases Permissions.permitWithdraw b with
        | error e => cases e; trivial
        | ok u =>
            dsimp only
            cases hg : c.guardUserOp rt.msgCaller token with
            | none => trivial
            | some guarded =>
                obtain ⟨-, rfl⟩ := guardUserOp_eq_some hg
                have hs' := fun ops => ((moved_withGuards c ops).sound hs).1
                obtain ⟨r, hr⟩ := (hs' (c.state.inFlightUserOps.insert
                  (userOpKey rt.msgCaller token) ())).withdraw_returns rt.msgCaller token amount
                dsimp only
                rw [hr, Except.bind_ok]
                cases r <;> trivial

/-! ## Upgrades -/

/-- The policy after an upgrade. -/
def policyAfter (c : Canister) (arg : UpgradeArg) : Except String ExecutionPolicy :=
  let current := c.state.executionPolicy
  ExecutionPolicy.tryNew (arg.maxOrdersPerChunk.getD current.maxOrdersPerChunk)
    (arg.instructionBudget.getD current.instructionBudget)
    (arg.maxSettlementUnitsPerEvent.getD current.maxSettlementUnitsPerEvent)

/-- An argument that leaves the policy alone keeps a valid one. -/
lemma policyAfter_of_none {arg : UpgradeArg} (horders : arg.maxOrdersPerChunk = none)
    (hbudget : arg.instructionBudget = none) (hunits : arg.maxSettlementUnitsPerEvent = none) :
    c.policyAfter arg = .ok c.state.executionPolicy := by
  rw [policyAfter, horders, hbudget, hunits]
  exact ExecutionPolicy.tryNew_self _

lemma upgrade_event_traps_iff (c : Canister) (timestamp : Timestamp) (arg : UpgradeArg) :
    (∃ e, c.processEvent (.upgrade arg) timestamp = .error e) ↔
      ∃ reason, c.policyAfter arg = .error reason := by
  have hproc : c.processEvent (.upgrade arg) timestamp = c.state.applyUpgrade arg >>= fun state =>
      .ok { state, events := c.events ++ [⟨timestamp, .upgrade arg⟩],
            journal := c.journal ++ [(c.state, ⟨timestamp, .upgrade arg⟩)] } := rfl
  rw [hproc, State.applyUpgrade]
  dsimp only
  split_ifs with hsome
  · rw [show ExecutionPolicy.tryNew _ _ _ = c.policyAfter arg from rfl]
    cases c.policyAfter arg with
    | ok policy => exact iff_of_false (by rintro ⟨_, ⟨⟩⟩) (by rintro ⟨_, ⟨⟩⟩)
    | error reason => exact iff_of_true ⟨_, rfl⟩ ⟨_, rfl⟩
  · simp only [Bool.or_eq_true, not_or, Option.not_isSome_iff_eq_none] at hsome
    rw [policyAfter_of_none hsome.1.1 hsome.1.2 hsome.2]
    exact iff_of_false (by rintro ⟨_, ⟨⟩⟩) (by rintro ⟨_, ⟨⟩⟩)

/-- **An upgrade returns unless its argument is for an installation or has an invalid policy.** -/
theorem upgrade_traps_iff (hs : c.state.Sound) (rt : Runtime) (arg : Option OisyTradeArg) :
    (∃ e, c.upgrade rt arg = .error e) ↔ (∃ a, arg = some (.init a)) ∨
      ∃ a reason, arg = some (.upgrade (some a)) ∧ c.policyAfter a = .error reason := by
  have hrestore := StateSnapshot.intoState_ofState (s := c.state)
    (fun id b hb => ⟨(hs.wired.listed id b hb).id, (hs.wired.listed id b hb).wf.sound⟩)
    hs.wired.pairs
  simp only [upgrade, hrestore, Except.bind_ok]
  cases arg with
  | none => exact iff_of_false (by rintro ⟨_, ⟨⟩⟩) (by rintro (⟨_, ⟨⟩⟩ | ⟨_, _, ⟨⟩, -⟩))
  | some arg =>
      cases arg with
      | init a => exact iff_of_true ⟨_, rfl⟩ (Or.inl ⟨a, rfl⟩)
      | upgrade arg =>
          cases arg with
          | none => exact iff_of_false (by rintro ⟨_, ⟨⟩⟩) (by rintro (⟨_, ⟨⟩⟩ | ⟨_, _, ⟨⟩, -⟩))
          | some a =>
              -- The restored state has the policy of the state before.
              refine (upgrade_event_traps_iff _ rt.time a).trans ?_
              constructor
              · rintro ⟨reason, hreason⟩
                exact Or.inr ⟨a, reason, rfl, hreason⟩
              · rintro (⟨_, ⟨⟩⟩ | ⟨_, reason, ⟨⟩, hreason⟩)
                exact ⟨reason, hreason⟩

end Canister

/-! ## Queries -/

namespace State

variable {s : State}

/-- The tokens of a listed book are known. -/
lemma Listed.knows {bookId : OrderBookId} {b : OrderBook} (h : s.Listed bookId b) {pair : TradingPair}
    (hpair : s.tradingPairs.getPair bookId = some pair) (side : PairToken) :
    (s.tokens.get (pair.token side)).isSome := by
  obtain ⟨pair', scale, hm, -, -, hquote⟩ := h.market
  obtain rfl : pair = pair' := Option.some.inj (hpair.symm.trans hm.pair)
  cases side with
  | base =>
      have hscale := hm.scale
      simp only [State.baseScale, Except.bind_eq_ok, Except.expect_eq_ok] at hscale
      obtain ⟨metadata, hget, -⟩ := hscale
      rw [show pair.token .base = pair.base from rfl, hget]
      rfl
  | quote => exact hquote

/-- **Fees are only collected in known tokens**: they come from trades. -/
lemma Accounted.knows (ha : s.Accounted) (hs : s.Sound) {t : TokenId} (h : s.balances.pool t ≠ 0) :
    (s.tokens.get t).isSome := by
  rw [ha.pool t] at h
  by_contra hunknown
  refine h (SortedMap.sum_eq_zero fun tid e _ => if_neg fun htoken => hunknown ?_)
  obtain ⟨pair, hpair, rfl⟩ := Option.map_eq_some_iff.mp htoken
  obtain ⟨b, hb⟩ := Option.isSome_iff_exists.mp (hs.wired.traded _ pair hpair)
  exact (hs.wired.listed _ b hb).knows hpair _

end State

namespace Canister

variable {c : Canister}

lemma getBalances_returns (hs : c.state.Sound) (caller : Principal)
    (filter : Option (List FilterToken)) : ∃ r, c.getBalances caller filter = .ok r := by
  rw [getBalances]
  cases validateFilterLen filter with
  | error e => exact ⟨_, rfl⟩
  | ok u =>
      obtain ⟨owner, howner, -⟩ := hs.effectiveAccount caller
      simp only [howner, Except.bind_ok, State.getBalances, hs.registry.lookupFundingId]
      cases filter with
      | some entries => exact ⟨_, rfl⟩
      | none => cases c.state.userRegistry.fundingId owner <;> exact ⟨_, rfl⟩

lemma getFeeBalances_returns (hs : c.state.Sound) (ha : c.state.Accounted)
    (filter : Option (List FilterToken)) : ∃ r, c.getFeeBalances filter = .ok r := by
  rw [getFeeBalances]
  cases validateFilterLen filter with
  | error e => exact ⟨_, rfl⟩
  | ok u =>
      cases filter with
      | some entries => exact ⟨_, rfl⟩
      | none =>
          obtain ⟨rows, hrows⟩ := Except.mapM_returns (f := c.state.collectedFee)
            (l := c.state.balances.feePool.perToken.entries.filter fun e => !e.2.isZero) (by
              rintro ⟨t, q⟩ he
              obtain ⟨hmem, hzero⟩ := List.mem_filter.mp he
              have hget := (SortedMap.mem_entries_iff _).mp hmem
              have hpool : c.state.balances.pool t ≠ 0 := by
                rw [TokenBalance.pool, hget, Option.getD_some]
                intro h0
                rw [Quantity.isZero_iff.mpr h0] at hzero
                cases hzero
              obtain ⟨metadata, hmeta⟩ := Option.isSome_iff_exists.mp (ha.knows hs hpool)
              rw [State.collectedFee, hmeta]
              exact ⟨_, rfl⟩)
          show ∃ r, (_ >>= _) = Except.ok r
          rw [hrows]
          exact ⟨_, rfl⟩

lemma getTradingPairs_returns (hs : c.state.Sound) : ∃ rows, c.getTradingPairs = .ok rows := by
  refine Except.mapM_returns ?_
  rintro ⟨pair, bookId⟩ he
  obtain ⟨hpair, b, _, hb, -⟩ := hs.pair_of_book ((SortedMap.mem_entries_iff _).mp he)
  have hknows := (hs.wired.listed bookId b hb).knows hpair
  obtain ⟨base, hbase⟩ := Option.isSome_iff_exists.mp (hknows .base)
  obtain ⟨quote, hquote⟩ := Option.isSome_iff_exists.mp (hknows .quote)
  have hbase' : c.state.tokens.get pair.base = some base := hbase
  have hquote' : c.state.tokens.get pair.quote = some quote := hquote
  simp only [State.tradingPairInfo, hb, hbase', hquote', expectBug, Except.expect_some,
    Except.bind_ok]
  exact ⟨_, rfl⟩

end Canister

namespace World

variable {w : World}

/-- What a call still credits is on the ledger beside what the canister accounts for, so it fits. -/
lemma Reachable.creditFits (h : Reachable w) (hmodest : w.Modest)
    (husers : w.canister.state.userRegistry.users.size < 2 ^ 64) {call : Call}
    (hcall : call ∈ w.calls) {transfer : Transfer} {reply : LedgerReply}
    {earlier : List LedgerRequest} (hanswered : call.requests = ⟨transfer, some reply⟩ :: earlier)
    (hcredits : call.CreditsAfter reply) :
    w.canister.state.CreditFits call.caller call.token call.amount := by
  have hopen : call ∈ w.openCalls := List.mem_append_left _ hcall
  have howed : call.amount.toNat ≤ w.overOpen (·.owed call.token) := by
    have hmine : call.owed call.token = call.amount.toNat := by
      rw [(h.books.orderly call hopen).owed_trapped hanswered hcredits]
      cases hkind : call.kind <;> simp [Call.amountOf, hkind]
    rw [← hmine]
    exact List.single_le_sum (fun _ _ => Nat.zero_le _) _ (List.mem_map_of_mem hopen)
  have hledger := h.total_le_ledger call.token
  have hlt := hmodest call.token
  rw [State.CreditFits]
  cases w.canister.state.userRegistry.fundingId call.caller with
  | none => exact husers
  | some uid =>
      have hrow := w.canister.state.balances.row_le_userTotal call.token uid
      have htotal : w.canister.state.balances.userTotal call.token ≤ w.canister.total call.token :=
        Nat.le_add_right _ _
      dsimp only
      omega

/-- **No internal check fails** while the ledgers hold little and no counter runs out. -/
theorem ReachableWhile.no_internal_trap (h : ReachableWhile Modest w) (hmodest : w.Modest)
    (hleft : w.canister.CountersLeft) :
    (∀ (m : Message) rt e, m.run rt w.canister = .error e → e.Refusal) ∧
    (∀ rt token n e, w.canister.depositStart rt token n = .error e → e.Refusal) ∧
    (∀ rt token n e, w.canister.withdrawStart rt token n = .error e → e.Refusal) ∧
    (∀ before call after transfer reply earlier rt, w.calls = before ++ call :: after →
      call.requests = ⟨transfer, some reply⟩ :: earlier →
      ∃ r, call.resume rt w.canister reply = .ok r) ∧
    ∀ rt arg, (∃ e, w.canister.upgrade rt arg = .error e) ↔ (∃ a, arg = some (.init a)) ∨
      ∃ a reason, arg = some (.upgrade (some a)) ∧ w.canister.policyAfter a = .error reason := by
  have hw := h.reachable
  have hs := hw.guarded.sound
  have hready := hw.ready (h.roomy hmodest hleft.trades)
  refine ⟨fun m rt e he => (Canister.run_outcome hready hleft m rt).of_error he,
    fun rt token n e he => (Canister.depositStart_outcome hs rt token n).of_error he,
    fun rt token n e he => (Canister.withdrawStart_outcome hs rt token n).of_error he, ?_,
    fun rt arg => Canister.upgrade_traps_iff hs rt arg⟩
  intro before call after transfer reply earlier rt hcalls hanswered
  cases hresume : call.resume rt w.canister reply with
  | ok r => exact ⟨r, rfl⟩
  | error trap =>
      obtain ⟨hcredits, hnot⟩ := (hw.guarded.delivery_traps hw.owned hw.books rt hcalls
        hanswered).mp ⟨trap, hresume⟩
      have hmem : call ∈ w.calls := by
        rw [hcalls]
        exact List.mem_append_right _ List.mem_cons_self
      exact absurd (hw.creditFits hmodest hleft.users hmem hanswered hcredits) hnot

lemma reachableWhile_modest_sampleWorld : ReachableWhile Modest sampleWorld :=
  scheduleWhile_reachable (fun w => decide (w.worth < 2 ^ 128))
    (fun _ hw hworth t => lt_of_le_of_lt (hw.ledger_le_worth t) (of_decide_eq_true hworth))
    (by decide +kernel) (Option.some_get _).symm

lemma countersLeft_sampleWorld : sampleWorld.canister.CountersLeft := by
  refine ⟨by decide +kernel, ?_, by decide +kernel, by decide +kernel, by decide +kernel⟩
  have hall : (sampleWorld.canister.state.orderBooks.entries.all fun e =>
      e.2.nextSeq.val + 1 < 2 ^ 64) = true := by decide +kernel
  exact fun id b hb => of_decide_eq_true
    (List.all_eq_true.mp hall (id, b) ((SortedMap.mem_entries_iff _).mpr hb))

/-- At the end of the sample run, which has a pending order and a queued event, an upgrade stops at an
init argument and at no other thing. -/
theorem no_internal_trap_sampleWorld :
    (∃ e, sampleWorld.canister.upgrade (sampleRuntime 11 9) (some (.init sampleArg)) = .error e) ∧
    ∃ c, sampleWorld.canister.upgrade (sampleRuntime 11 9) none = .ok c := by
  have hmodest : sampleWorld.Modest := fun t =>
    lt_of_le_of_lt (reachable_sampleWorld.ledger_le_worth t) (by decide +kernel)
  have hupgrade := (ReachableWhile.no_internal_trap reachableWhile_modest_sampleWorld hmodest
    countersLeft_sampleWorld).2.2.2.2 (sampleRuntime 11 9)
  refine ⟨(hupgrade _).mpr (Or.inl ⟨sampleArg, rfl⟩), ?_⟩
  cases hnone : sampleWorld.canister.upgrade (sampleRuntime 11 9) none with
  | ok c => exact ⟨c, rfl⟩
  | error e =>
      rcases (hupgrade none).mp ⟨e, hnone⟩ with ⟨_, harg⟩ | ⟨_, _, harg, -⟩
      · cases harg
      · cases harg

/-- **No query traps**, in any reachable world. -/
theorem Reachable.queries_return (h : Reachable w) :
    (∀ caller args, ∃ r, w.canister.getMyOrders caller args = .ok r) ∧
    (∀ caller args, ∃ r, w.canister.getMyTrades caller args = .ok r) ∧
    (∀ caller, ∃ r, w.canister.getMyTradingAccounts caller = .ok r) ∧
    (∀ caller filter, ∃ r, w.canister.getBalances caller filter = .ok r) ∧
    (∀ filter, ∃ r, w.canister.getFeeBalances filter = .ok r) ∧
    ∃ rows, w.canister.getTradingPairs = .ok rows := by
  have hs := h.guarded.sound
  refine ⟨fun caller args => ?_, fun caller args => ?_, fun caller => ?_,
    fun caller filter => Canister.getBalances_returns hs caller filter,
    fun filter => Canister.getFeeBalances_returns hs h.accounted filter,
    Canister.getTradingPairs_returns hs⟩
  · obtain ⟨owner, howner, -⟩ := hs.effectiveAccount caller
    exact ⟨_, Canister.getMyOrders_eq hs h.fed howner args⟩
  · obtain ⟨owner, howner, -⟩ := hs.effectiveAccount caller
    exact ⟨_, Canister.getMyTrades_eq hs h.fed howner args⟩
  · rw [Canister.getMyTradingAccounts, UserRegistry.tradingAccountsOf, hs.registry.lookupFundingId]
    exact ⟨_, rfl⟩

/-- At the end of the sample run the pairs and the fees are answered. -/
theorem queries_return_sampleWorld :
    (∃ rows, sampleWorld.canister.getTradingPairs = .ok rows) ∧
      ∃ r, sampleWorld.canister.getFeeBalances none = .ok r :=
  ⟨reachable_sampleWorld.queries_return.2.2.2.2.2,
    reachable_sampleWorld.queries_return.2.2.2.2.1 none⟩

end World

end OisyTrade
