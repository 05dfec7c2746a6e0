import OisyTrade.State.Record
import OisyTrade.Settlement.Spec
import OisyTrade.Balance.Postings

/-!
# What recording an event did

For each `record_*` function, what is known once it has returned: the parts it computed and the
state it built from them.  Later modules only use these statements.

Settling an event is the one that needs work.  `posting` names the users behind an operation's
orders, and `recordSettlingEvent_eq_ok` says that the balances move by the postings of the event and
that the trade history gains the legs of its fills.
-/

namespace OisyTrade

namespace State

/-! ## Markets -/

/-- The pair of a book and the scale of its base token. -/
structure Market (s : State) (bookId : OrderBookId) (p : TradingPair) (b : BaseScale) : Prop where
  pair : s.tradingPairs.getPair bookId = some p
  scale : s.baseScale p.base = .ok b

variable {s s' : State} {bookId : OrderBookId} {pair : TradingPair} {scale : BaseScale}

lemma Market.unique {pair' : TradingPair} {scale' : BaseScale} (h : s.Market bookId pair scale)
    (h' : s.Market bookId pair' scale') : pair' = pair ∧ scale' = scale := by
  have hp := Option.some.inj (h'.pair.symm.trans h.pair)
  subst hp
  exact ⟨rfl, Except.ok.inj (h'.scale.symm.trans h.scale)⟩

lemma baseScaleForBook_eq_ok :
    s.baseScaleForBook bookId = .ok scale ↔ ∃ pair, s.Market bookId pair scale := by
  simp only [baseScaleForBook, Except.bind_eq_ok, Except.expect_eq_ok]
  exact ⟨fun ⟨pair, hp, hs⟩ => ⟨pair, hp, hs⟩, fun ⟨pair, h⟩ => ⟨pair, h.pair, h.scale⟩⟩

/-! ## Pairs -/

/-- What `record_token` did: the token is known with this metadata, and no other changed. -/
lemma recordToken_eq_ok {token : TokenId} {metadata : TokenMetadata}
    (h : s.recordToken token metadata = .ok s') :
    s' = { s with tokens := s.tokens.insert token metadata } ∧
      (s.tokens.get token = none ∨ s.tokens.get token = some metadata) := by
  rw [recordToken] at h
  cases hg : s.tokens.get token with
  | none =>
      rw [hg] at h
      exact ⟨(Except.ok.inj h).symm, Or.inl rfl⟩
  | some existing =>
      simp only [hg, Except.bind_eq_ok, Except.assert_eq_ok, decide_eq_true_eq,
        Except.ok.injEq] at h
      obtain ⟨-, rfl, rfl⟩ := h
      exact ⟨by rw [SortedMap.insert_get_self _ hg], Or.inr rfl⟩

lemma recordTradingPair_eq_ok {event : AddTradingPairEvent}
    (h : s.recordTradingPair event = .ok s') :
    ∃ nextBookId : OrderBookId, nextBookId.val = s.nextBookId.val + 1 ∧
      event.bookId = s.nextBookId ∧
      s.tradingPairs.byPair.get ⟨event.base, event.quote⟩ = none ∧
      s.tradingPairs.byBook.get event.bookId = none ∧
      s.orderBooks.get event.bookId = none ∧
      (s.tokens.get event.base = none ∨ s.tokens.get event.base = some event.baseMetadata) ∧
      ((s.tokens.insert event.base event.baseMetadata).get event.quote = none ∨
        (s.tokens.insert event.base event.baseMetadata).get event.quote
          = some event.quoteMetadata) ∧
      s' = { s with
        tokens := (s.tokens.insert event.base event.baseMetadata).insert event.quote
          event.quoteMetadata
        tradingPairs :=
          { byPair := s.tradingPairs.byPair.insert ⟨event.base, event.quote⟩ event.bookId
            byBook := s.tradingPairs.byBook.insert event.bookId ⟨event.base, event.quote⟩ }
        orderBooks := s.orderBooks.insert event.bookId (OrderBook.new event.bookId event.tickSize
          event.lotSize event.minNotional event.maxNotional event.feeRates)
        nextBookId } := by
  simp only [recordTradingPair, Except.bind_eq_ok, Except.assert_eq_ok, TradingPairMap.insert,
    Except.ok.injEq, decide_eq_true_eq, Bool.and_eq_true, Bool.not_eq_true',
    SortedMap.contains, Option.isSome_eq_false_iff, Option.isNone_iff_eq_none,
    Seq.increment_eq_ok] at h
  obtain ⟨s₁, h₁, s₂, h₂, -, hid, maps, ⟨-, ⟨hp, hb⟩, rfl⟩, -, ho, next, hn, rfl⟩ := h
  obtain ⟨rfl, hbase⟩ := recordToken_eq_ok h₁
  obtain ⟨rfl, hquote⟩ := recordToken_eq_ok h₂
  exact ⟨next, hn, hid, hp, hb, ho, hbase, hquote, rfl⟩

/-! ## Orders -/

/-- **An order reserves its reservation**, in its reserve token. -/
lemma fundsToReserve_eq_ok {order : Order} {token : TokenId} {required : Quantity}
    (h : fundsToReserve pair scale order = .ok (token, required)) :
    token = pair.token (reserveToken order.side) ∧ required.toNat
      = reservation order.side order.price scale order.remainingQuantity.toNat := by
  rw [fundsToReserve] at h
  cases hside : order.side with
  | sell =>
      rw [hside] at h
      cases h
      exact ⟨rfl, rfl⟩
  | buy =>
      rw [hside] at h
      simp only [Except.bind_eq_ok, Except.expect_eq_ok, Except.ok.injEq, Prod.mk.injEq] at h
      obtain ⟨o, ho, amount, rfl, rfl, rfl⟩ := h
      refine ⟨rfl, ?_⟩
      rw [reservation, ← (Price.of_checkedMulQuantityScaled ho).1, Nat.mul_div_cancel _ scale.pos]

lemma recordLimitOrder_eq_ok {user : Principal} {order : Order} {placedBy : Option Principal}
    {timestamp : Timestamp}
    (h : s.recordLimitOrder user bookId order placedBy timestamp .write = .ok s') :
    ∃ pair scale b uid required balances orderHistory b',
      s.Market bookId pair scale ∧ s.orderBooks.get bookId = some b ∧
      s.userRegistry.fundingId user = some uid ∧
      Quantity.toNat required
        = reservation order.side order.price scale order.remainingQuantity.toNat ∧
      s.balances.reserve uid (pair.token (reserveToken order.side)) required
        = .ok (.ok (), balances) ∧
      s.orderHistory.insertOnce uid (.new bookId order.id) (newRecord user order placedBy timestamp)
        = .ok orderHistory ∧
      b.addPendingOrder order = .ok b' ∧
      s' = { s with balances, orderHistory, orderBooks := s.orderBooks.insert bookId b' } := by
  simp only [recordLimitOrder, Except.bind_eq_ok, Except.expect_eq_ok, Except.assert_eq_ok,
    Except.ok.injEq, Prod.exists] at h
  obtain ⟨pair, hpair, scale, hscale, b, hb, token, required, hreq, uid', huid', uid, huid, result,
    balances, hres, -, hisOk, orderHistory, hins, -, rfl, b', hadd, rfl⟩ := h
  rw [UserRegistry.lookupFundingId_eq_ok huid'] at huid
  obtain ⟨rfl, hrequired⟩ := fundsToReserve_eq_ok hreq
  have hresult : result = .ok () := by
    cases result with
    | ok u => rfl
    | error e => cases hisOk
  subst hresult
  exact ⟨pair, scale, b, uid, required, balances, orderHistory, b', ⟨hpair, hscale⟩, hb, huid,
    hrequired, hres, hins, hadd, rfl⟩

lemma recordCancelLimitOrder_eq_ok {orderId : OrderId} {canceledBy : Option Principal}
    {now : Timestamp} (h : s.recordCancelLimitOrder orderId canceledBy now .write = .ok s') :
    ∃ pair scale b removed b' orderHistory refund,
      s.Market orderId.bookId pair scale ∧ s.orderBooks.get orderId.bookId = some b ∧
      b.removeOrder orderId.seq = .ok (some (removed, b')) ∧
      s.orderHistory.applyUpdate orderId (.cancel canceledBy) now = .ok orderHistory ∧
      RemovedOrderSettlement.new orderId.seq removed scale = .ok refund ∧
      s' = { s with
        orderBooks := s.orderBooks.insert orderId.bookId b'
        orderHistory
        pendingSettlingEvents := s.pendingSettlingEvents
          ++ [⟨orderId.bookId, refund.balanceOperations, []⟩] } := by
  simp only [recordCancelLimitOrder, Except.bind_eq_ok, Except.expect_eq_ok, Except.ok.injEq,
    Prod.exists] at h
  obtain ⟨scale, hscale, b, hb, o, hrem, removed, b', rfl, history, happ, refund, href, rfl⟩ := h
  obtain ⟨pair, hm⟩ := baseScaleForBook_eq_ok.mp hscale
  exact ⟨pair, scale, b, removed, b', history, refund, hm, hb, hrem, happ, href, rfl⟩

lemma recordMatchingEvent_eq_ok {event : MatchingEvent} {now : Timestamp}
    (h : s.recordMatchingEvent event now .write = .ok s') :
    ∃ pair scale b output b' settlement orderHistory,
      s.Market event.bookId pair scale ∧ s.orderBooks.get event.bookId = some b ∧
      b.processPendingOrders event.orders = .ok (output, b') ∧
      MatchSettlement.fromMatching output b.feeRates scale
        s.executionPolicy.maxSettlementUnitsPerEvent.toNat = .ok settlement ∧
      applyUpdates s.orderHistory event.bookId settlement.orderUpdates now = .ok orderHistory ∧
      s' = { s with
        orderBooks := s.orderBooks.insert event.bookId b'
        orderHistory
        pendingSettlingEvents := s.pendingSettlingEvents
          ++ settlement.settlingBatches.map (settlingEventOf event.bookId) } := by
  simp only [recordMatchingEvent, Except.bind_eq_ok, Except.expect_eq_ok, Except.ok.injEq,
    Prod.exists] at h
  obtain ⟨scale, hscale, b, hb, output, b', hproc, settlement, hset, history, happ, rfl⟩ := h
  obtain ⟨pair, hm⟩ := baseScaleForBook_eq_ok.mp hscale
  exact ⟨pair, scale, b, output, b', settlement, history, hm, hb, hproc, hset, happ, rfl⟩

/-- **The update loop** applies to every order of the book its update, which may be the empty one,
and touches nothing else. -/
lemma applyUpdates_eq_ok {history history' : OrderHistory} {now : Timestamp}
    {updates : SortedMap OrderSeq OrderUpdate}
    (h : applyUpdates history bookId updates now = .ok history') :
    (∀ id, (history'.get id).isSome ↔ (history.get id).isSome) ∧
    (∀ id, id.bookId ≠ bookId → history'.get id = history.get id) ∧
    (∀ seq r, history.get (.new bookId seq) = some r →
      ∃ r', history'.get (.new bookId seq) = some r' ∧
        ((updates.get seq = none ∧ r' = r) ∨
          ((updates.get seq).isSome ∧ (updateOf updates seq).Applied r r'))) ∧
    (∀ seq u, updates.get seq = some u → (history.get (.new bookId seq)).isSome) ∧
    (history.Indexed → history'.Indexed) ∧ (∀ user, history'.userKeys user = history.userKeys user) ∧
    history'.primary.size = history.primary.size := by
  have key : ∀ (entries : List (OrderSeq × OrderUpdate)) (history : OrderHistory),
      (entries.map Prod.fst).Nodup →
      entries.foldlM (fun (h : OrderHistory) entry =>
        h.applyUpdate (.new bookId entry.1) entry.2 now) history = .ok history' →
      (∀ id, (history'.get id).isSome ↔ (history.get id).isSome) ∧
      (∀ id, id.bookId ≠ bookId → history'.get id = history.get id) ∧
      (∀ seq r, history.get (.new bookId seq) = some r →
        ∃ r', history'.get (.new bookId seq) = some r' ∧
          ((seq ∉ entries.map Prod.fst ∧ r' = r) ∨
            ∃ u, (seq, u) ∈ entries ∧ u.Applied r r')) ∧
      (∀ seq u, (seq, u) ∈ entries → (history.get (.new bookId seq)).isSome) ∧
      (history.Indexed → history'.Indexed) ∧
      (∀ user, history'.userKeys user = history.userKeys user) ∧
      history'.primary.size = history.primary.size := by
    intro entries
    induction entries with
    | nil =>
        intro history _ hok
        cases hok
        exact ⟨fun _ => Iff.rfl, fun _ _ => rfl, fun seq r hr => ⟨r, hr, Or.inl ⟨by simp, rfl⟩⟩,
          fun _ _ hx => absurd hx List.not_mem_nil, id, fun _ => rfl, rfl⟩
    | cons e entries ih =>
        intro history hnd hok
        rw [List.map_cons, List.nodup_cons] at hnd
        rw [List.foldlM_cons, Except.bind_eq_ok] at hok
        obtain ⟨mid, hmid, hok⟩ := hok
        obtain ⟨r₀, r₁, hr₀, happ, hget, hidx, hkeys, hsize⟩ := OrderUpdate.of_applyUpdate hmid
        obtain ⟨i1, i2, i3, i4, i5, i6, i7⟩ := ih mid hnd.2 hok
        have hsome : ∀ id, (mid.get id).isSome ↔ (history.get id).isSome := by
          intro id
          rw [hget]
          split_ifs with he
          · rw [← he, hr₀]
            simp
          · exact Iff.rfl
        have hother : ∀ seq, seq ≠ e.1 → mid.get (.new bookId seq) = history.get (.new bookId seq) := by
          intro seq hne
          rw [hget, if_neg]
          exact fun he => hne (OrderId.new_inj.mp he).2.symm
        refine ⟨fun id => (i1 id).trans (hsome id), fun id hne => ?_, fun seq r hr => ?_,
          fun seq u hmem => ?_, fun hi => i5 (hidx hi), fun u => (i6 u).trans (hkeys u),
          i7.trans hsize⟩
        · rw [i2 id hne, hget, if_neg]
          rintro rfl
          exact hne rfl
        · by_cases hseq : seq = e.1
          · subst hseq
            rw [hr₀] at hr
            cases hr
            have hmid₁ : mid.get (.new bookId e.1) = some r₁ := by rw [hget, if_pos rfl]
            obtain ⟨r', hr', hcase⟩ := i3 e.1 r₁ hmid₁
            refine ⟨r', hr', Or.inr ⟨e.2, List.mem_cons_self, ?_⟩⟩
            rcases hcase with ⟨-, rfl⟩ | ⟨u, hu, -⟩
            · exact happ
            · exact absurd (List.mem_map_of_mem hu) hnd.1
          · rw [← hother seq hseq] at hr
            obtain ⟨r', hr', hcase⟩ := i3 seq r hr
            refine ⟨r', hr', hcase.imp (fun ⟨hn, he⟩ => ⟨?_, he⟩)
              fun ⟨u, hu, ha⟩ => ⟨u, List.mem_cons_of_mem _ hu, ha⟩⟩
            rw [List.map_cons, List.mem_cons, not_or]
            exact ⟨hseq, hn⟩
        · rcases List.mem_cons.mp hmem with he | hmem
          · rw [← he] at hr₀
            rw [hr₀]
            rfl
          · exact (hsome _).mp (i4 seq u hmem)
  obtain ⟨h1, h2, h3, h4, h5, h6, h7⟩ := key updates.entries history updates.keys_nodup h
  refine ⟨h1, h2, fun seq r hr => ?_, fun seq u hu => h4 seq u (updates.mem_entries_iff.mpr hu),
    h5, h6, h7⟩
  obtain ⟨r', hr', hcase⟩ := h3 seq r hr
  refine ⟨r', hr', hcase.imp (fun ⟨hn, he⟩ => ⟨?_, he⟩) fun ⟨u, hu, ha⟩ => ?_⟩
  · cases hg : updates.get seq with
    | none => rfl
    | some u => exact absurd (updates.mem_keys_iff.mpr (by rw [hg]; rfl)) hn
  · have hg := updates.mem_entries_iff.mp hu
    rw [updateOf, hg]
    exact ⟨rfl, ha⟩

/-! ## Funds and delegation -/

/-- **The updates of a batch can be applied** when the sums of every record stay in range. -/
lemma applyUpdates_returns {history : OrderHistory} {updates : SortedMap OrderSeq OrderUpdate}
    (now : Timestamp) (h : ∀ seq u, updates.get seq = some u →
      ∃ r, history.get (.new bookId seq) = some r ∧
        r.filledQuantity.toNat + u.filledDelta.toNat ≤ r.quantity.toNat ∧
        r.filledQuote.toNat + u.quoteDelta.toNat < 2 ^ 256 ∧
        r.filledFee.toNat + u.feeDelta.toNat < 2 ^ 256) :
    ∃ history', applyUpdates history bookId updates now = .ok history' := by
  have key : ∀ (entries : List (OrderSeq × OrderUpdate)) (history : OrderHistory),
      (entries.map Prod.fst).Nodup →
      (∀ e ∈ entries, ∃ r, history.get (.new bookId e.1) = some r ∧
        r.filledQuantity.toNat + e.2.filledDelta.toNat ≤ r.quantity.toNat ∧
        r.filledQuote.toNat + e.2.quoteDelta.toNat < 2 ^ 256 ∧
        r.filledFee.toNat + e.2.feeDelta.toNat < 2 ^ 256) →
      ∃ history', entries.foldlM (fun (h : OrderHistory) entry =>
        h.applyUpdate (.new bookId entry.1) entry.2 now) history = .ok history' := by
    intro entries
    induction entries with
    | nil => exact fun history _ _ => ⟨history, rfl⟩
    | cons e entries ih =>
        intro history hnd hall
        rw [List.map_cons, List.nodup_cons] at hnd
        obtain ⟨r, hr, hquantity, hquote, hfee⟩ := hall e List.mem_cons_self
        obtain ⟨mid, hmid⟩ := OrderUpdate.applyUpdate_returns hr hquantity hquote hfee now
        obtain ⟨_, _, -, -, hget, -⟩ := OrderUpdate.of_applyUpdate hmid
        rw [List.foldlM_cons, hmid]
        refine ih mid hnd.2 fun e' he' => ?_
        obtain ⟨r', hr', hbounds⟩ := hall e' (List.mem_cons_of_mem _ he')
        refine ⟨r', ?_, hbounds⟩
        rw [hget, if_neg]
        · exact hr'
        · intro hid
          exact hnd.1 (List.mem_map.mpr ⟨e', he', (OrderId.new_inj.mp hid).2.symm⟩)
  exact key _ _ updates.keys_nodup fun e he => h e.1 e.2 (updates.mem_entries_iff.mp he)

lemma deposit_eq_ok {user : Principal} {token : TokenId} {amount : Quantity}
    (h : s.deposit user token amount .write = .ok s') :
    ∃ uid userRegistry balances, s.userRegistry.getOrRegister user = .ok (uid, userRegistry) ∧
      s.balances.deposit uid token amount = .ok balances ∧
      s' = { s with userRegistry, balances } := by
  simp only [deposit, Except.bind_eq_ok, Except.ok.injEq, Prod.exists] at h
  obtain ⟨uid, registry, hreg, balances, hbal, rfl⟩ := h
  exact ⟨uid, registry, balances, hreg, hbal, rfl⟩

lemma withdraw_eq_ok {user : Principal} {token : TokenId} {amount : Quantity}
    (h : s.withdraw user token amount = .ok (.ok s')) :
    ∃ uid balances, s.userRegistry.fundingId user = some uid ∧
      s.balances.withdraw uid token amount = .ok (.ok (), balances) ∧
      s' = { s with balances } := by
  simp only [withdraw, Except.bind_eq_ok] at h
  obtain ⟨o, ho, h⟩ := h
  have hid := UserRegistry.lookupFundingId_eq_ok ho
  cases o with
  | none =>
      simp only [Except.ok.injEq] at h
      cases h
  | some uid =>
      simp only [Except.bind_eq_ok, Prod.exists] at h
      obtain ⟨result, balances, hres, h⟩ := h
      cases result with
      | error e =>
          simp only [Except.ok.injEq] at h
          cases h
      | ok u =>
          simp only [Except.ok.injEq] at h
          exact ⟨uid, balances, hid.symm, hres, h.symm⟩

end State

end OisyTrade
