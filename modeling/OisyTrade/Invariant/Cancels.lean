import OisyTrade.Invariant.Drain

/-!
# Canceling a live order

A cancel of a live order goes through: the order is in its book, its refund can be computed, and the
refund can be settled although earlier operations on the same balance are still queued.  `Unwound` is
its effect.  It reads the books, the records and the registry, which draining leaves alone, so that
canceling and draining commute (`Unwound.drained`).
-/

namespace OisyTrade

namespace State

variable {s s' t t' : State} {id : OrderId} {canceledBy : Option Principal} {now : Timestamp}

/-- A record that is not over stands for an order in the book. -/
lemma Sound.live_of_record (hs : s.Sound) {r : OrderRecord}
    (hr : s.orderHistory.get id = some r) (hlive : r.status.isTerminal = false) :
    ∃ b o, s.orderBooks.get id.bookId = some b ∧ Terms b r ∧ b.find id.seq = some o ∧
      o ∈ b.live ∧ o.id = id.seq ∧ o.side = r.side ∧ o.price = r.price ∧
      o.remainingQuantity.toNat + r.filledQuantity.toNat = r.quantity.toNat := by
  obtain ⟨b, hb, -, hterms, hstand⟩ := (hs.records id r hr).book
  have hfind : ∃ o, b.find id.seq = some o := by
    cases hstand with
    | pending o hfind => exact ⟨o, hfind⟩
    | resting o hfind => exact ⟨o, hfind⟩
    | filled _ hstatus | canceled _ hstatus | expired _ hstatus =>
        rw [hstatus] at hlive
        cases hlive
  obtain ⟨o, ho⟩ := hfind
  obtain ⟨hmem, hid⟩ := (hs.wired.listed _ b hb).wf.find_eq_some.mp ho
  obtain ⟨hside, hprice, -, hq, -⟩ := hstand.of_live ho
  exact ⟨b, o, hb, hterms, ho, hmem, hid, hside, hprice, hq⟩

/-- **What a cancel validated is applied.** -/
theorem Sound.cancel_returns (hs : s.Sound) {r : OrderRecord}
    (hr : s.orderHistory.get id = some r) (hlive : r.status.isTerminal = false)
    (canceledBy : Option Principal) (now : Timestamp) :
    ∃ s', s.recordCancelLimitOrder id canceledBy now .write = .ok s' := by
  obtain ⟨b, o, hb, hterms, -, ho, hid, -, hprice, hq⟩ := hs.live_of_record hr hlive
  have hlisted := hs.wired.listed _ b hb
  obtain ⟨pair, scale, hm, -, hd, -⟩ := hlisted.market
  obtain ⟨b', hrem, -⟩ := OrderBook.removeOrder_live hlisted.wf ho
  rw [hid] at hrem
  have hzero : ∀ n : ℕ, n + Quantity.zero.toNat = n := fun n => by
    rw [Quantity.toNat_zero, Nat.add_zero]
  obtain ⟨history, happ⟩ := OrderUpdate.applyUpdate_returns (u := .cancel canceledBy) hr
    ((hzero _).trans_le (by omega)) ((hzero _).trans_lt r.filledQuote.toNat_lt)
    ((hzero _).trans_lt r.filledFee.toNat_lt) now
  have hrefund : ∃ refund, RemovedOrderSettlement.new id.seq
      ⟨o.side, o.price, o.remainingQuantity⟩ scale = .ok refund := by
    refine RemovedOrderSettlement.new_returns fun _ => ?_
    show o.price.toNat * o.remainingQuantity.toNat < 2 ^ 256 ∧
      scale.get.toNat ∣ o.price.toNat * o.remainingQuantity.toNat
    rw [hprice]
    refine ⟨lt_of_le_of_lt (Nat.mul_le_mul_left _ (by omega)) hterms.fits, ?_⟩
    exact hterms.dvd hd (hlisted.wf.valid o ho).2.2.2
  obtain ⟨refund, hrefund⟩ := hrefund
  have hscale : s.baseScaleForBook id.bookId = .ok scale :=
    baseScaleForBook_eq_ok.mpr ⟨pair, hm⟩
  exact ⟨_, by simp only [recordCancelLimitOrder, hscale, hb, hrem, happ, hrefund, expectBug,
    Except.expect_some, Except.bind_ok]; rfl⟩

/-- **A live order was canceled and its refund settled.** -/
structure Unwound (s : State) (id : OrderId) (canceledBy : Option Principal) (now : Timestamp)
    (posting : Posting) (s' : State) : Prop where
  removed : ∃ pair scale b removed b' refund, s.Market id.bookId pair scale ∧
    s.orderBooks.get id.bookId = some b ∧ b.removeOrder id.seq = .ok (some (removed, b')) ∧
    RemovedOrderSettlement.new id.seq removed scale = .ok refund ∧
    posting = .unreserve (s.party id.bookId id.seq) (pair.token refund.token) refund.amount ∧
    s'.orderBooks = s.orderBooks.insert id.bookId b'
  history : s.orderHistory.applyUpdate id (.cancel canceledBy) now = .ok s'.orderHistory
  posted : Posted s.balances [posting] s'.balances
  state : s' = { s with orderBooks := s'.orderBooks, orderHistory := s'.orderHistory,
                        balances := s'.balances }

/-- **What canceling an order releases**: the owner's row in the reserve token is credited with what the
book holds for the order. -/
def released (s : State) (id : OrderId) (r : OrderRecord) (t : TokenId) (u : UserId) : ℕ :=
  if s.Reserves t u id r then s.liveReservation id else 0

/-- What an order releases is reserved, so it fits where the total of the token does. -/
lemma Backed.released_fits (hb : s.Backed) {r : OrderRecord} (hr : s.orderHistory.get id = some r)
    (htotal : ∀ t, s.balances.total t < 2 ^ 256) (t : TokenId) (u : UserId) :
    s.balances.free t u + s.released id r t u < 2 ^ 256 := by
  obtain ⟨e, he, rfl⟩ := Option.map_eq_some_iff.mp hr
  have hle : s.released id e.record t u ≤ s.balances.reserved t u := by
    rw [hb t u]
    refine le_trans ?_
      (SortedMap.le_sum (fun id (e : SeqRecord OrderRecord) => s.backing t u id e.record) he)
    rw [released, backing]
    split_ifs
    · exact Nat.le_add_right _ _
    · exact Nat.zero_le _
  have hrow := s.balances.row_le_userTotal t u
  have hall := htotal t
  rw [TokenBalance.total] at hall
  omega

/-- The refund of a live order is what the order reserves. -/
lemma Sound.credits_refund (hs : s.Sound) {r : OrderRecord} {b : OrderBook} {o : Order}
    {pair : TradingPair} {scale : BaseScale} {refund : RemovedOrderSettlement}
    (hr : s.orderHistory.get id = some r) (hm : s.Market id.bookId pair scale)
    (hb : s.orderBooks.get id.bookId = some b) (hfind : b.find id.seq = some o)
    (href : RemovedOrderSettlement.new id.seq ⟨o.side, o.price, o.remainingQuantity⟩ scale
      = .ok refund) (t : TokenId) (u : UserId) :
    credits [.unreserve (s.party id.bookId id.seq) (pair.token refund.token) refund.amount] t u
      = s.released id r t u := by
  obtain ⟨-, htoken, hamount, -⟩ := RemovedOrderSettlement.of_new href
  obtain ⟨uid, hu⟩ := (hs.records id r hr).owner
  have hr' : s.orderHistory.get (.new id.bookId id.seq) = some r := by
    rw [OrderId.new_eta]
    exact hr
  have hside : o.side = r.side := ((hs.book_of_record hr' hb).2.2.of_live hfind).1
  have hreserved : s.liveReservation id = refund.amount.toNat := by
    rw [liveReservation_eq hb hm, OrderBook.reservedFor, hfind, Option.elim_some, hamount]
  have hreserves : pair.token refund.token = t ∧ s.party id.bookId id.seq = u ↔
      s.Reserves t u id r := by
    rw [party_eq hr' hu, htoken, hside, Reserves, reserveTokenOf, hm.pair, hu, Option.some.injEq,
      Option.map_some, Option.some.injEq, and_comm]
  rw [credits, List.map_singleton, List.sum_singleton, Posting.credit, released, hreserved]
  exact if_congr hreserves rfl rfl

/-- Canceling and then settling the refund unwinds the order. -/
lemma Sound.unwound (hs : s.Sound) {s₁ : State} {event : SettlingEvent}
    (hcancel : s.recordCancelLimitOrder id canceledBy now .write = .ok s₁)
    (hqueue : s₁.pendingSettlingEvents = s.pendingSettlingEvents ++ [event])
    (hsettle : recordSettlingEvent { s₁ with pendingSettlingEvents := s.pendingSettlingEvents }
      event now .write = .ok s') : ∃ posting, s.Unwound id canceledBy now posting s' := by
  obtain ⟨o, r, r', b₀, b₁, pair, scale, refund, hc⟩ := hs.canceled hcancel
  obtain ⟨hs₁, hx⟩ := hc.sound hs
  obtain ⟨pair', scale', b, removed, b', history, refund', hm, hb, hrem, happ, href, hs₁eq⟩ :=
    recordCancelLimitOrder_eq_ok hcancel
  have hevent : event = ⟨id.bookId, refund'.balanceOperations, []⟩ := by
    rw [hs₁eq] at hqueue
    exact (List.singleton_inj.mp (List.append_cancel_left hqueue)).symm
  have hparty : s₁.party id.bookId id.seq = s.party id.bookId id.seq := by
    refine (hs.known (r := r) ?_).party_eq hx
    rw [OrderId.new_eta]
    exact hc.record
  obtain ⟨pair'', scale'', resolved, trades, balances, hm'', hres, htrades, hposted, hs'⟩ :=
    recordSettlingEvent_eq_ok hsettle
  have hbook : event.bookId = id.bookId := by rw [hevent]
  have hpair : pair'' = pair' := by
    have hx' : s₁.tradingPairs.getPair id.bookId = some pair'' := by rw [← hbook]; exact hm''.pair
    rw [hs₁eq] at hx'
    exact Option.some.inj (hx'.symm.trans hm.pair)
  have htrades' : trades = s₁.tradeHistory := by
    rw [hevent] at htrades
    cases htrades
    rfl
  have hseq := (RemovedOrderSettlement.of_new href).1
  have hposting : postings { s₁ with pendingSettlingEvents := s.pendingSettlingEvents }
      event.bookId pair'' event.balanceOperations
      = [.unreserve (s.party id.bookId id.seq) (pair'.token refund'.token) refund'.amount] := by
    rw [hevent, hpair, ← hparty, ← hseq]
    rfl
  rw [hposting] at hposted
  have hbalances : s₁.balances = s.balances := by rw [hs₁eq]
  refine ⟨_, ⟨pair', scale', b, removed, b', refund', hm, hb, hrem, href, rfl, ?_⟩, ?_, ?_, ?_⟩
  · rw [hs', hs₁eq]
  · rw [happ, hs', hs₁eq]
  · rw [hs', ← hbalances]
    exact hposted
  · rw [hs', htrades', hs₁eq]

lemma Unwound.credits (hs : s.Sound) {posting : Posting} {r : OrderRecord}
    (h : s.Unwound id canceledBy now posting s') (hr : s.orderHistory.get id = some r)
    (hlive : r.status.isTerminal = false) (t : TokenId) (u : UserId) :
    credits [posting] t u = s.released id r t u := by
  obtain ⟨pair, scale, b, removed, b', refund, hm, hb, hrem, href, rfl, -⟩ := h.removed
  obtain ⟨b₀, o, hb₀, -, hfind, ho, hid, -⟩ := hs.live_of_record hr hlive
  obtain rfl : b₀ = b := Option.some.inj (hb₀.symm.trans hb)
  obtain ⟨b₁, hrem', -⟩ := OrderBook.removeOrder_live (hs.wired.listed _ b₀ hb).wf ho
  rw [hid] at hrem'
  rw [hrem] at hrem'
  cases hrem'
  exact hs.credits_refund hr hm hb hfind href t u

/-- **What a cancel does is determined** by the books, the records and the registry. -/
lemma Unwound.unique {p q : Posting} (h : s.Unwound id canceledBy now p s')
    (h' : t.Unwound id canceledBy now q t')
    (hsame : ∃ queue trades balances, t = { s with
      pendingSettlingEvents := queue, tradeHistory := trades, balances := balances }) :
    q = p ∧ t'.orderBooks = s'.orderBooks ∧ t'.orderHistory = s'.orderHistory := by
  obtain ⟨queue, trades, balances, rfl⟩ := hsame
  obtain ⟨pair, scale, b, removed, b', refund, hm, hb, hrem, href, rfl, hbooks⟩ := h.removed
  obtain ⟨pair₂, scale₂, b₂, removed₂, b₂', refund₂, hm₂, hb₂, hrem₂, href₂, rfl, hbooks₂⟩ :=
    h'.removed
  obtain ⟨rfl, rfl⟩ := hm.unique ⟨hm₂.pair, hm₂.scale⟩
  obtain rfl : b₂ = b := Option.some.inj (hb₂.symm.trans hb)
  rw [hrem] at hrem₂
  cases hrem₂
  rw [href] at href₂
  cases href₂
  refine ⟨rfl, hbooks₂.trans hbooks.symm, ?_⟩
  exact Except.ok.inj (h'.history.symm.trans h.history)

/-- **Canceling and draining commute.** -/
theorem Unwound.drained {p q : Posting} {events queue : List SettlingEvent} {u u' : State}
    (hcancel : s.Unwound id canceledBy now p t) (hdrain : t.Drained events queue now u)
    (hdrain' : s.Drained events queue now t') (hcancel' : t'.Unwound id canceledBy now q u')
    (hlegs : ∀ e ∈ events, t.eventLegs now e = s.eventLegs now e ∧
      t.eventPostings e = s.eventPostings e) : u' = u := by
  obtain ⟨rfl, hbooks, hhistory⟩ := hcancel.unique hcancel' ⟨_, _, _, hdrain'.state⟩
  have htrades : u'.tradeHistory = u.tradeHistory := by
    have h1 := hdrain.trades
    rw [List.flatMap_congr fun e he => (hlegs e he).1] at h1
    have htrades₁ : t.tradeHistory = s.tradeHistory := by rw [hcancel.state]
    have htrades₂ : u'.tradeHistory = t'.tradeHistory := by rw [hcancel'.state]
    rw [htrades₁, hdrain'.trades] at h1
    rw [htrades₂]
    exact Except.ok.inj h1
  have hbalances : u'.balances = u.balances := by
    have h1 := hcancel.posted.trans hdrain.posted
    have h2 := hdrain'.posted.trans hcancel'.posted
    rw [List.flatMap_congr fun e he => (hlegs e he).2] at h1
    refine h1.unique h2 (fun _ _ => ?_) (fun _ _ => ?_) fun _ => ?_
    · rw [debits_append, debits_append, Nat.add_comm]
    · rw [credits_append, credits_append, Nat.add_comm]
    · rw [withheldOf_append, withheldOf_append, Nat.add_comm]
  have hbooks' : u'.orderBooks = u.orderBooks := by
    rw [hbooks, hdrain.state]
  have hhistory' : u'.orderHistory = u.orderHistory := by
    rw [hhistory, hdrain.state]
  calc u' = { s with
        pendingSettlingEvents := queue, orderBooks := u'.orderBooks,
        orderHistory := u'.orderHistory, tradeHistory := u'.tradeHistory,
        balances := u'.balances } := by rw [hcancel'.state, hdrain'.state]
    _ = { s with
        pendingSettlingEvents := queue, orderBooks := u.orderBooks,
        orderHistory := u.orderHistory, tradeHistory := u.tradeHistory,
        balances := u.balances } := by rw [hbooks', hhistory', htrades, hbalances]
    _ = u := by rw [hdrain.state, hcancel.state]

end State

namespace Canister

variable {c c' : Canister} {id : OrderId} {owner : Principal} {canceledBy : Option Principal}
  {now : Timestamp}

/-- A cancel that returned unwound the order, or refused and did nothing. -/
lemma Steady.canceled (hc : c.Steady) {r : OrderRecord}
    (h : c.cancelLimitOrder owner canceledBy id now = .ok (.ok r, c')) :
    c.Works c' ∧ c'.state.orderHistory.get id = some r ∧ r.status = .canceled ∧
      ∃ posting, c.state.Unwound id canceledBy now posting c'.state := by
  rcases cancelLimitOrder_acts h with ⟨e, -, he, -⟩ |
    ⟨hval, c₁, event, r₁, hproc, hfills, hqueue, hsettle, hget, hstatus, hr₁⟩
  · cases he
  · cases hr₁
    obtain ⟨s₁, hcancel, rfl⟩ := processEvent_eq_ok hproc
    have hadmits : c.state.Admits now (.cancelLimitOrder ⟨id, canceledBy⟩) := ⟨owner, hval⟩
    have hwork : c.Work _ := .event hadmits (fun _ h => by cases h) hproc
    refine ⟨hwork.works.trans (settle_last hqueue hfills hsettle).works, hget, hstatus, ?_⟩
    obtain ⟨s₂, hrec, rfl⟩ := processEvent_eq_ok hsettle
    exact hc.sound.unwound hcancel hqueue hrec

/-- **A cancel by the owner of a live order goes through** if the owner's row has room for what it
releases. -/
theorem Steady.cancel_returns (hc : c.Steady) {r : OrderRecord}
    (hr : c.state.orderHistory.get id = some r) (howner : r.owner = owner)
    (hlive : r.status.isTerminal = false)
    (hroom : ∀ t u, c.state.balances.free t u + c.state.released id r t u < 2 ^ 256)
    (canceledBy : Option Principal) (now : Timestamp) :
    ∃ r' c', c.cancelLimitOrder owner canceledBy id now = .ok (.ok r', c') := by
  have hval : c.state.validateCancelLimitOrder owner id = .ok () := by
    rw [State.validateCancelLimitOrder, hr]
    simp only [howner, ne_eq, not_true_eq_false, if_false]
    cases hst : r.status with
    | pending => rfl
    | «open» => rfl
    | filled | canceled | expired =>
        rw [hst] at hlive
        cases hlive
  obtain ⟨s₁, hcancel⟩ := hc.sound.cancel_returns hr hlive canceledBy now
  have hproc : ∃ c₁, c.processEvent (.cancelLimitOrder { orderId := id, canceledBy }) now = .ok c₁ ∧
      c₁.state = s₁ := by
    have happ : c.state.applyStateTransition (.cancelLimitOrder { orderId := id, canceledBy }) now
        .write = .ok s₁ := hcancel
    rw [processEvent, happ]
    exact ⟨_, rfl, rfl⟩
  obtain ⟨c₁, hproc, hs₁⟩ := hproc
  obtain ⟨event, hfills, hqueue⟩ := cancelLimitOrder_event hproc
  have hadmits : c.state.Admits now (.cancelLimitOrder ⟨id, canceledBy⟩) := ⟨owner, hval⟩
  have hc₁ : c₁.Steady := (Work.event hadmits (fun _ h => by cases h) hproc).act.acts.steady hc
  obtain ⟨o, r₀, r', b, b', pair, scale, refund, hcanceled⟩ := hc.sound.canceled hcancel
  obtain rfl : r = r₀ := Option.some.inj (hr.symm.trans hcanceled.record)
  have hevent : event = ⟨id.bookId, refund.balanceOperations, []⟩ := by
    have hqueue' := hqueue
    rw [hs₁, hcanceled.state, State.eventOf_refund] at hqueue'
    exact (List.singleton_inj.mp (List.append_cancel_left hqueue')).symm
  have hpostings : c₁.state.eventPostings event
      = [.unreserve (c.state.party id.bookId id.seq) (pair.token refund.token) refund.amount] := by
    obtain ⟨-, hx⟩ := hcanceled.sound hc.sound
    have hm₁ : c₁.state.Market event.bookId pair scale := by
      rw [hs₁, hevent]
      exact hx.market hcanceled.market
    have hparty : c₁.state.party id.bookId id.seq = c.state.party id.bookId id.seq := by
      rw [hs₁]
      refine (hc.sound.known (r := r) ?_).party_eq hx
      rw [OrderId.new_eta]
      exact hr
    rw [State.eventPostings_eq hm₁, hevent, ← hparty,
      ← (RemovedOrderSettlement.of_new hcanceled.refunded).1]
    rfl
  have hbalances : c₁.state.balances = c.state.balances := by rw [hs₁, hcanceled.state]
  -- The refund is alone in its event, so only the owner's row needs room.
  have hfits : c₁.state.balances.RoomFor (c₁.state.eventPostings event) := by
    rw [hbalances, hpostings]
    refine ⟨fun t u => ?_, fun t => (Posted.refl c.state.balances).roomFor.pool t⟩
    rw [hc.sound.credits_refund hr hcanceled.market hcanceled.book hcanceled.live
      hcanceled.refunded]
    exact hroom t u
  have hout := hc₁.sound.settle_outcome hc₁.backed hc₁.numbered hqueue now
  rw [List.append_nil] at hout
  obtain ⟨s₂, hs₂, -⟩ := Except.Outcome.returns (hout.mono (by
    rintro e (⟨-, hnot, -⟩ | ⟨-, hne, -⟩)
    · exact hnot hfits
    · exact hne hfills) fun _ hx => hx)
  have hsettle : ∃ c₂, (c₁.withQueue c.state.pendingSettlingEvents).processEvent (.settling event)
      now = .ok c₂ ∧ c₂.state = s₂ := by
    have happ : (c₁.withQueue c.state.pendingSettlingEvents).state.applyStateTransition
        (.settling event) now .write = .ok s₂ := hs₂
    rw [processEvent, happ]
    exact ⟨_, rfl, rfl⟩
  obtain ⟨c₂, hsettle, hc₂⟩ := hsettle
  obtain ⟨posting, hunwound⟩ := hc.sound.unwound hcancel (by rw [← hs₁]; exact hqueue)
    (by rw [← hs₁]; exact hs₂)
  have hhistory : c₂.state.orderHistory = s₁.orderHistory := by
    rw [hc₂]
    exact Except.ok.inj (hunwound.history.symm.trans hcanceled.applied)
  have hget : c₂.state.orderHistory.get id = some r' := by
    rw [hhistory, hcanceled.history, if_pos rfl]
  refine ⟨r', c₂, ?_⟩
  rw [cancelLimitOrder, hval]
  simp only [hproc, Except.bind_ok, hqueue, List.take_left, List.drop_left, processSettling,
    List.foldlM_cons, List.foldlM_nil]
  have hsettle' : processEvent { c₁ with state := { c₁.state with
      pendingSettlingEvents := c.state.pendingSettlingEvents } } (.settling event) now
      = .ok c₂ := hsettle
  simp only [hsettle', Except.bind_ok, pure_bind, hget, expectBug, Except.expect_some,
    assertBug, hcanceled.status.1, decide_true, Except.assert_true]

end Canister

end OisyTrade
