import OisyTrade.Invariant.Trades

/-!
# The feeds of a user

The histories list the keys of a user in the order of insertion.  `Fed` says what these lists hold:
the orders of the user, and the trades of the orders of the user.  The trades of one book stand there
in the order of their fill numbers, because settling takes fills from the head of the queue.
-/

namespace OisyTrade

namespace TradeHistory

/-- The feeds after some legs have been inserted. -/
lemma userKeys_insertLegs {legs : List (UserId × TradeLeg)} {h h' : TradeHistory}
    (hi : h.Indexed) (hok : h.insertLegs legs = .ok h') (u : UserId) :
    h'.userKeys u = h.userKeys u ++ (legs.filter fun leg => leg.1 = u).map fun leg => leg.2.1 := by
  induction legs generalizing h with
  | nil =>
      cases hok
      simp
  | cons leg legs ih =>
      rw [TradeHistory.insertLegs, List.foldlM_cons, Except.bind_eq_ok] at hok
      obtain ⟨h₁, h1, h2⟩ := hok
      rw [ih (hi.insertOnce h1) h2, History.userKeys_insertOnce hi h1, List.append_assoc,
        List.filter_cons]
      by_cases hu : leg.1 = u
      · simp [hu]
      · simp [hu]

/-- **New trades of an order come after the old ones**, and no trade changes. -/
structure Appends (order : OrderId) (h h' : TradeHistory) : Prop where
  kept : ∀ id trade, h.get id = some trade → h'.get id = some trade
  newer : ∀ seq seq', (h.get (.new order seq)).isSome → h.get (.new order seq') = none →
    (h'.get (.new order seq')).isSome → seq < seq'

variable {order : OrderId} {h h' h'' : TradeHistory}

lemma Appends.of_eq (heq : h' = h) : h.Appends order h' := by
  subst heq
  refine ⟨fun _ _ hget => hget, ?_⟩
  intro seq seq' _ hnone hsome
  rw [hnone] at hsome
  cases hsome

lemma Appends.trans (h₁ : h.Appends order h') (h₂ : h'.Appends order h'') :
    h.Appends order h'' := by
  refine ⟨fun id trade hget => h₂.kept id trade (h₁.kept id trade hget), ?_⟩
  intro seq seq' hseq hnone hsome
  cases hmid : h'.get (.new order seq') with
  | some trade => exact h₁.newer seq seq' hseq hnone (by rw [hmid]; rfl)
  | none =>
      obtain ⟨trade, htrade⟩ := Option.isSome_iff_exists.mp hseq
      exact h₂.newer seq seq' (by rw [h₁.kept _ _ htrade]; rfl) hmid hsome

/-- The trades of the order are extended at the end. -/
lemma Appends.extended (h₁ : h.Appends order h') : h.tradesOf order <+: h'.tradesOf order := by
  refine ⟨(h'.tradesOf order).filter fun e => (h.get (.new order e.1)).isNone, ?_⟩
  have hnodup : ∀ g : TradeHistory, (g.tradesOf order).Nodup := fun g =>
    (tradesOf_pairwise g order).imp fun hlt heq => absurd (congrArg Prod.fst heq) hlt.ne
  have hpairs : (h.tradesOf order ++ (h'.tradesOf order).filter fun e =>
      (h.get (.new order e.1)).isNone).Pairwise fun a b => a.1 < b.1 := by
    refine List.pairwise_append.mpr ⟨tradesOf_pairwise h order,
      (tradesOf_pairwise h' order).filter _, ?_⟩
    intro a ha b hb
    obtain ⟨hb, hnone⟩ := List.mem_filter.mp hb
    exact h₁.newer a.1 b.1 (by rw [mem_tradesOf.mp ha]; rfl) (Option.isNone_iff_eq_none.mp hnone)
      (by rw [mem_tradesOf.mp hb]; rfl)
  refine List.Perm.eq_of_pairwise ?_ hpairs (tradesOf_pairwise h' order) ?_
  · intro a b _ _ hab hba
    exact absurd (hab.trans hba) (lt_irrefl _)
  · refine (List.perm_ext_iff_of_nodup ?_ (hnodup h')).mpr ?_
    · exact hpairs.imp fun hlt heq => absurd (congrArg Prod.fst heq) hlt.ne
    · intro e
      rw [List.mem_append, List.mem_filter]
      constructor
      · rintro (hold | ⟨hnew, -⟩)
        · exact mem_tradesOf.mpr (h₁.kept _ _ (mem_tradesOf.mp hold))
        · exact hnew
      · intro hmem
        cases hold : h.get (.new order e.1) with
        | none => exact Or.inr ⟨hmem, rfl⟩
        | some trade =>
            left
            have hkept := h₁.kept _ _ hold
            rw [mem_tradesOf.mp hmem] at hkept
            cases hkept
            exact mem_tradesOf.mpr hold

end TradeHistory

namespace State

variable {s s' : State} {bookId : OrderBookId}

/-- **The feeds of a user** list the orders of the user and the trades of these orders, the trades of
a book by fill number. -/
structure Fed (s : State) : Prop where
  orders : ∀ u id, id ∈ s.orderHistory.userKeys u ↔
    ∃ r, s.orderHistory.get id = some r ∧ s.userRegistry.fundingId r.owner = some u
  trades : ∀ u tid, tid ∈ s.tradeHistory.userKeys u ↔ (s.tradeHistory.get tid).isSome ∧
    ∃ r, s.orderHistory.get tid.orderId = some r ∧ s.userRegistry.fundingId r.owner = some u
  ordered : ∀ u, (s.tradeHistory.userKeys u).Pairwise fun a b =>
    a.orderId.bookId = b.orderId.bookId → a.seq ≤ b.seq

/-- Whose order it is does not change. -/
lemma Sound.owner_iff (hs : s.Sound) (hx : s.Extends s') {id : OrderId} {r : OrderRecord}
    (hr : s.orderHistory.get id = some r) (u : UserId) :
    (∃ r', s'.orderHistory.get id = some r' ∧ s'.userRegistry.fundingId r'.owner = some u) ↔
      s.userRegistry.fundingId r.owner = some u := by
  obtain ⟨r', hr', he⟩ := hx.record hr
  obtain ⟨uid, huid⟩ := (hs.records id r hr).owner
  constructor
  · rintro ⟨r₁, hr₁, hu⟩
    rw [hr'] at hr₁
    cases hr₁
    rw [he.owner, hx.registry _ _ huid] at hu
    rw [huid, hu]
  · intro hu
    exact ⟨r', hr', by rw [he.owner]; exact hx.registry _ _ hu⟩

/-- The rule for the list of orders: nothing is inserted. -/
lemma Fed.orders_mono (h : s.Fed) (hs : s.Sound) (hx : s.Extends s')
    (hkeys : ∀ u, s'.orderHistory.userKeys u = s.orderHistory.userKeys u)
    (hpresent : ∀ id, (s'.orderHistory.get id).isSome → (s.orderHistory.get id).isSome)
    (u : UserId) (id : OrderId) : id ∈ s'.orderHistory.userKeys u ↔
      ∃ r, s'.orderHistory.get id = some r ∧ s'.userRegistry.fundingId r.owner = some u := by
  rw [hkeys, h.orders]
  constructor
  · rintro ⟨r, hr, hu⟩
    exact (hs.owner_iff hx hr u).mpr hu
  · rintro ⟨r', hr', hu⟩
    obtain ⟨r, hr⟩ := Option.isSome_iff_exists.mp (hpresent id (by rw [hr']; rfl))
    exact ⟨r, hr, (hs.owner_iff hx hr u).mp ⟨r', hr', hu⟩⟩

/-- The rule for the list of trades: nothing is settled. -/
lemma Fed.trades_mono (h : s.Fed) (hs : s.Sound) (hn : s.Numbered) (hx : s.Extends s')
    (htrades : s'.tradeHistory = s.tradeHistory) (u : UserId) (tid : TradeId) :
    tid ∈ s'.tradeHistory.userKeys u ↔ (s'.tradeHistory.get tid).isSome ∧
      ∃ r, s'.orderHistory.get tid.orderId = some r ∧
        s'.userRegistry.fundingId r.owner = some u := by
  rw [htrades, h.trades]
  refine and_congr_right fun hsome => ?_
  obtain ⟨r, hr⟩ := Option.isSome_iff_exists.mp (hn.order_of_trade hsome).1
  rw [hs.owner_iff hx hr u]
  constructor
  · rintro ⟨r₁, hr₁, hu⟩
    rw [hr] at hr₁
    cases hr₁
    exact hu
  · intro hu
    exact ⟨r, hr, hu⟩

lemma Fed.of_orders (h : s.Fed) (hs : s.Sound) (hn : s.Numbered) (hx : s.Extends s')
    (hkeys : ∀ u, s'.orderHistory.userKeys u = s.orderHistory.userKeys u)
    (hpresent : ∀ id, (s'.orderHistory.get id).isSome → (s.orderHistory.get id).isSome)
    (htrades : s'.tradeHistory = s.tradeHistory) : s'.Fed := by
  refine ⟨h.orders_mono hs hx hkeys hpresent, h.trades_mono hs hn hx htrades, ?_⟩
  rw [htrades]
  exact h.ordered

lemma Fed.of_same (h : s.Fed) (hs : s.Sound) (hn : s.Numbered) (hx : s.Extends s')
    (horders : s'.orderHistory = s.orderHistory) (htrades : s'.tradeHistory = s.tradeHistory) :
    s'.Fed := by
  refine h.of_orders hs hn hx ?_ ?_ htrades
  · intro u
    rw [horders]
  · intro id hsome
    rwa [horders] at hsome

/-! ## Settling -/

section Settling

variable {after : List SettlingEvent} {event : SettlingEvent} {now : Timestamp}
  {pair : TradingPair} {scale : BaseScale} {pieces : List Piece}

/-- The fills at the head of the queue are numbered from where settling has come. -/
lemma Numbering.fills_above {b : OrderBook} {k : ℕ} (hk : s.Numbering event.bookId b k)
    (hqueue : s.pendingSettlingEvents = event :: after)
    (hevent : event = eventOf event.bookId pieces) {st : FillSettlement}
    (hst : Piece.fill st ∈ pieces) : k ≤ st.fill.fillSeq.val := by
  obtain ⟨-, hfills, -⟩ := hk.head hqueue
  have hmem : st.fillEvent ∈ event.fills := by
    rw [hevent]
    exact fillEvent_mem event.bookId hst
  have hval : st.fill.fillSeq.val ∈ event.fills.map (fun f => f.fillSeq.val) :=
    List.mem_map.mpr ⟨_, hmem, rfl⟩
  rw [hfills, List.mem_range'_1] at hval
  exact hval.1

lemma mem_pieceLegs {p : Piece} {leg : UserId × TradeLeg}
    (h : leg ∈ s.pieceLegs bookId now p) : ∃ st, p = .fill st ∧ leg.2.1.seq = st.fill.fillSeq ∧
      leg.2.1.orderId.bookId = bookId := by
  cases p with
  | refund rs => cases h
  | fill st =>
      simp only [pieceLegs, fillLegs, List.mem_cons, List.not_mem_nil, or_false] at h
      rcases h with rfl | rfl
      · exact ⟨st, rfl, rfl, rfl⟩
      · exact ⟨st, rfl, rfl, rfl⟩

/-- The legs of an event stand in the order of their fills. -/
lemma Numbering.legs_pairwise {b : OrderBook} {k : ℕ} (hk : s.Numbering event.bookId b k)
    (hqueue : s.pendingSettlingEvents = event :: after)
    (hevent : event = eventOf event.bookId pieces) :
    (pieces.flatMap (s.pieceLegs event.bookId now)).Pairwise
      fun a b => a.2.1.seq ≤ b.2.1.seq := by
  obtain ⟨-, hfills, -⟩ := hk.head hqueue
  have hsorted : event.fills.Pairwise fun f g => f.fillSeq.val < g.fillSeq.val := by
    rw [← List.pairwise_map (f := fun f : FillEvent => f.fillSeq.val), hfills]
    exact List.pairwise_lt_range' ..
  rw [hevent, eventOf_fills, List.pairwise_flatMap] at hsorted
  rw [List.pairwise_flatMap]
  refine ⟨?_, hsorted.2.imp ?_⟩
  · intro p _
    cases p with
    | refund rs => exact List.Pairwise.nil
    | fill st => exact List.pairwise_pair.mpr le_rfl
  · intro p q hpq a ha b hb
    obtain ⟨st, rfl, hsa, -⟩ := mem_pieceLegs ha
    obtain ⟨st', rfl, hsb, -⟩ := mem_pieceLegs hb
    have hlt := hpq st.fillEvent (List.mem_singleton_self _) st'.fillEvent
      (List.mem_singleton_self _)
    rw [hsa, hsb]
    exact hlt.le

/-- **Settling the head of the queue** appends to the trades of every order. -/
lemma Settled.appends (h : s.Settled after event.bookId now pair scale pieces s')
    (hs : s.Sound) (hn : s.Numbered) (hqueue : s.pendingSettlingEvents = event :: after)
    (hevent : event = eventOf event.bookId pieces) (order : OrderId) :
    s.tradeHistory.Appends order s'.tradeHistory := by
  have hget : ∀ {tid leg}, s'.tradeHistory.get tid = some leg ↔ _ := Settled.get_trade h
  refine ⟨fun id trade hid => hget.mpr (Or.inl hid), ?_⟩
  intro seq seq' hold hnone hnew
  obtain ⟨b, hb⟩ := Option.isSome_iff_exists.mp (hs.wired.traded _ pair h.market.pair)
  obtain ⟨k, hk⟩ := hn.books _ b hb
  obtain ⟨leg, hleg⟩ := Option.isSome_iff_exists.mp hnew
  have hfill : ∃ st, Piece.fill st ∈ pieces ∧ seq' = st.fill.fillSeq ∧
      order.bookId = event.bookId := by
    rcases hget.mp hleg with hstored | ⟨st, hst, he | he⟩
    · rw [hnone] at hstored
      cases hstored
    · exact ⟨st, hst, congrArg (fun l : TradeLeg => l.1.seq) he,
        congrArg (fun l : TradeLeg => l.1.orderId.bookId) he⟩
    · exact ⟨st, hst, congrArg (fun l : TradeLeg => l.1.seq) he,
        congrArg (fun l : TradeLeg => l.1.orderId.bookId) he⟩
  obtain ⟨st, hst, rfl, hbook⟩ := hfill
  have hlt : seq.val < k := hk.below (.new order seq) hold hbook
  exact Seq.lt_def.mpr (lt_of_lt_of_le hlt (hk.fills_above hqueue hevent hst))

/-- The user a leg is inserted under owns its order. -/
lemma Settled.mem_new_legs (h : s.Settled after event.bookId now pair scale pieces s')
    (hs : s.Sound) (u : UserId) (tid : TradeId) :
    tid ∈ ((pieces.flatMap (s.pieceLegs event.bookId now)).filter fun leg => leg.1 = u).map
        (fun leg => leg.2.1) ↔
      (∃ st, Piece.fill st ∈ pieces ∧ (tid = (st.takerLeg event.bookId now).1 ∨
        tid = (st.makerLeg event.bookId now).1)) ∧
      ∃ r, s.orderHistory.get tid.orderId = some r ∧
        s.userRegistry.fundingId r.owner = some u := by
  have hparty : ∀ {seq : OrderSeq} {r : OrderRecord},
      s.orderHistory.get (.new event.bookId seq) = some r → (s.party event.bookId seq = u ↔
        ∃ r', s.orderHistory.get (.new event.bookId seq) = some r' ∧
          s.userRegistry.fundingId r'.owner = some u) := by
    intro seq r hr
    obtain ⟨uid, huid⟩ := (hs.records _ r hr).owner
    rw [party_eq hr huid]
    constructor
    · rintro rfl
      exact ⟨r, hr, huid⟩
    · rintro ⟨r', hr', hu⟩
      rw [hr] at hr'
      cases hr'
      exact Option.some.inj (huid.symm.trans hu)
  constructor
  · intro hmem
    obtain ⟨leg, hleg, rfl⟩ := List.mem_map.mp hmem
    obtain ⟨hleg, hu⟩ := List.mem_filter.mp hleg
    obtain ⟨p, hp, hleg⟩ := List.mem_flatMap.mp hleg
    obtain ⟨st, rfl, -, -⟩ := mem_pieceLegs hleg
    obtain ⟨t, m, hpiece⟩ := h.agrees _ hp
    have hu := of_decide_eq_true hu
    simp only [pieceLegs, fillLegs, List.mem_cons, List.not_mem_nil, or_false] at hleg
    rcases hleg with rfl | rfl
    · exact ⟨⟨st, hp, Or.inl rfl⟩, (hparty hpiece.taker).mp hu⟩
    · exact ⟨⟨st, hp, Or.inr rfl⟩, (hparty hpiece.maker).mp hu⟩
  · rintro ⟨⟨st, hst, hid⟩, hown⟩
    obtain ⟨t, m, hpiece⟩ := h.agrees _ hst
    have hleg : ∀ leg ∈ s.fillLegs event.bookId now st, leg.1 = u → leg.2.1 = tid → tid ∈
        ((pieces.flatMap (s.pieceLegs event.bookId now)).filter fun leg => leg.1 = u).map
          (fun leg => leg.2.1) := by
      intro leg hleg hu hid
      refine List.mem_map.mpr ⟨leg, List.mem_filter.mpr ⟨?_, decide_eq_true hu⟩, hid⟩
      exact List.mem_flatMap.mpr ⟨_, hst, hleg⟩
    rcases hid with rfl | rfl
    · exact hleg _ List.mem_cons_self ((hparty hpiece.taker).mpr hown) rfl
    · exact hleg _ (List.mem_cons_of_mem _ List.mem_cons_self) ((hparty hpiece.maker).mpr hown) rfl

/-- **Settling the head of the queue** keeps the feeds. -/
lemma Settled.fed (h : s.Settled after event.bookId now pair scale pieces s') (hs : s.Sound)
    (hx : s.Extends s') (hn : s.Numbered) (hf : s.Fed)
    (hqueue : s.pendingSettlingEvents = event :: after)
    (hevent : event = eventOf event.bookId pieces) : s'.Fed := by
  have horders : s'.orderHistory = s.orderHistory := by rw [h.state]
  have hregistry : s'.userRegistry = s.userRegistry := by rw [h.state]
  have hkeys := TradeHistory.userKeys_insertLegs hs.trades h.trades
  have hget : ∀ {tid leg}, s'.tradeHistory.get tid = some leg ↔ _ := Settled.get_trade h
  refine ⟨hf.orders_mono hs hx (fun u => by rw [horders]) (fun id hsome => by rwa [horders] at hsome),
    ?_, ?_⟩
  · intro u tid
    rw [hkeys, List.mem_append, hf.trades, h.mem_new_legs hs, horders, hregistry, ← or_and_right]
    refine and_congr_left fun _ => ?_
    rw [Option.isSome_iff_exists, Option.isSome_iff_exists]
    constructor
    · rintro (⟨leg, hleg⟩ | ⟨st, hst, rfl | rfl⟩)
      · exact ⟨leg, hget.mpr (Or.inl hleg)⟩
      · exact ⟨_, hget.mpr (Or.inr ⟨st, hst, Or.inl rfl⟩)⟩
      · exact ⟨_, hget.mpr (Or.inr ⟨st, hst, Or.inr rfl⟩)⟩
    · rintro ⟨leg, hleg⟩
      rcases hget.mp hleg with hold | ⟨st, hst, he | he⟩
      · exact Or.inl ⟨leg, hold⟩
      · exact Or.inr ⟨st, hst, Or.inl (congrArg Prod.fst he)⟩
      · exact Or.inr ⟨st, hst, Or.inr (congrArg Prod.fst he)⟩
  · intro u
    obtain ⟨b, hb⟩ := Option.isSome_iff_exists.mp (hs.wired.traded _ pair h.market.pair)
    obtain ⟨k, hk⟩ := hn.books _ b hb
    rw [hkeys]
    refine List.pairwise_append.mpr ⟨hf.ordered u, ?_, ?_⟩
    · refine List.pairwise_map.mpr (((hk.legs_pairwise hqueue hevent).filter _).imp ?_)
      exact fun hle _ => hle
    · intro a ha b hb hbook
      -- what is stored comes before where settling has come, what is new comes from there on
      obtain ⟨⟨st, hst, hid⟩, -⟩ := (h.mem_new_legs hs u b).mp hb
      have hseq : b.seq = st.fill.fillSeq ∧ b.orderId.bookId = event.bookId := by
        rcases hid with rfl | rfl
        · exact ⟨rfl, rfl⟩
        · exact ⟨rfl, rfl⟩
      have hlt := hk.below a ((hf.trades u a).mp ha).1 (hbook.trans hseq.2)
      rw [hseq.1]
      exact (lt_of_lt_of_le hlt (hk.fills_above hqueue hevent hst)).le

end Settling

end State

namespace Canister

variable {c c' : Canister}

/-- **Trades change only when the head of the queue is settled.** -/
lemma Change.trades_cases (h : c.Change c') :
    c'.state.tradeHistory = c.state.tradeHistory ∨
      ∃ after event timestamp pair scale pieces,
        c.state.pendingSettlingEvents = event :: after ∧
        event = eventOf event.bookId pieces ∧
        c.state.Settled after event.bookId timestamp pair scale pieces c'.state := by
  cases h with
  | listed event timestamp hadmits hok hlog =>
      obtain ⟨_, -, -, -, -, -, -, -, hstate⟩ := State.recordTradingPair_eq_ok hok
      exact Or.inl (by rw [hstate])
  | placed _ _ _ _ _ _ _ _ _ _ _ h => exact Or.inl (by rw [h.state])
  | canceled _ _ _ _ _ _ _ _ _ _ _ h => exact Or.inl (by rw [h.state])
  | matched _ _ _ _ _ _ _ _ _ _ _ _ _ _ h => exact Or.inl (by rw [h.state])
  | settled before after event timestamp pair scale pieces hqueue hfront hevent h =>
      rcases hfront with rfl | hfills
      · exact Or.inr ⟨after, event, timestamp, pair, scale, pieces, hqueue, hevent, h⟩
      · left
        have hnil : pieces.flatMap (c.state.pieceLegs event.bookId timestamp) = [] := by
          refine List.flatMap_eq_nil_iff.mpr ?_
          intro p hp
          cases p with
          | refund rs => rfl
          | fill st =>
              have hmem := State.fillEvent_mem event.bookId hp
              rw [← hevent, hfills] at hmem
              cases hmem
        have htrades := h.trades
        rw [hnil] at htrades
        exact (Except.ok.inj htrades).symm
  | credited _ _ _ _ hok =>
      obtain ⟨_, _, _, -, -, hstate⟩ := State.deposit_eq_ok hok
      exact Or.inl (by rw [hstate])
  | debited _ _ _ hok =>
      obtain ⟨_, _, -, -, hstate⟩ := State.withdraw_eq_ok hok
      exact Or.inl (by rw [hstate])
  | frame h => exact Or.inl h.tradeHistory

lemma Change.appends (hs : c.state.Sound) (hn : c.state.Numbered) (h : c.Change c')
    (order : OrderId) : c.state.tradeHistory.Appends order c'.state.tradeHistory := by
  rcases h.trades_cases with heq | ⟨_, _, _, _, _, _, hqueue, hevent, hset⟩
  · exact .of_eq heq
  · exact hset.appends hs hn hqueue hevent order

/-- **Every change keeps the feeds.** -/
theorem Change.fed (hs : c.state.Sound) (hn : c.state.Numbered) (hf : c.state.Fed)
    (h : c.Change c') : c'.state.Fed := by
  obtain ⟨hs', hx⟩ := h.sound hs
  rcases h.trades_cases with htrades | ⟨_, _, _, _, _, _, hqueue, hevent, hset⟩
  swap
  · exact hset.fed hs hx hn hf hqueue hevent
  cases h with
  | listed event timestamp hadmits hok hlog =>
      obtain ⟨_, -, -, -, -, -, -, -, hstate⟩ := State.recordTradingPair_eq_ok hok
      exact hf.of_same hs hn hx (by rw [hstate]) htrades
  | placed event now order _ _ _ _ uid _ _ _ h =>
      have hnone := History.get_eq_none_of_insertOnce h.history
      have hregistry : c'.state.userRegistry = c.state.userRegistry := by rw [h.state]
      refine ⟨?_, hf.trades_mono hs hn hx htrades, by rw [htrades]; exact hf.ordered⟩
      intro u id
      rw [History.userKeys_insertOnce hs.orders h.history, List.mem_append, hf.orders, hregistry,
        History.get_insertOnce h.history]
      by_cases hid : OrderId.new event.orderId.bookId order.id = id
      · subst hid
        rw [hnone, if_pos rfl]
        have howner : (State.newRecord event.user order event.placedBy now).owner = event.user :=
          rfl
        constructor
        · rintro (⟨r, hr, -⟩ | hmem)
          · cases hr
          · by_cases hu : uid = u
            · exact ⟨_, rfl, by rw [howner, h.owner, hu]⟩
            · rw [if_neg hu] at hmem
              cases hmem
        · rintro ⟨r, hr, hu⟩
          cases hr
          rw [howner, h.owner] at hu
          right
          rw [if_pos (Option.some.inj hu)]
          exact List.mem_singleton_self _
      · rw [if_neg hid]
        refine or_iff_left ?_
        intro hmem
        split_ifs at hmem
        · exact hid (List.mem_singleton.mp hmem).symm
        · cases hmem
  | canceled event _ _ r _ _ _ _ _ _ _ h =>
      obtain ⟨_, _, -, -, -, hbyUser, -⟩ := History.modify_eq_ok h.applied
      refine hf.of_orders hs hn hx (History.userKeys_of_byUser hbyUser) ?_ htrades
      intro id hsome
      rw [h.history] at hsome
      split_ifs at hsome with hid
      · rw [← hid, h.record]
        rfl
      · exact hsome
  | matched _ _ _ _ _ _ _ _ _ _ _ _ _ _ h =>
      exact hf.of_orders hs hn hx h.userKeys (fun id => (h.present id).mp) htrades
  | settled before after event timestamp pair scale pieces hqueue hfront hevent h =>
      exact hf.of_same hs hn hx (by rw [h.state]) htrades
  | credited _ _ _ _ hok =>
      obtain ⟨_, _, _, -, -, hstate⟩ := State.deposit_eq_ok hok
      exact hf.of_same hs hn hx (by rw [hstate]) htrades
  | debited _ _ _ hok =>
      obtain ⟨_, _, -, -, hstate⟩ := State.withdraw_eq_ok hok
      exact hf.of_same hs hn hx (by rw [hstate]) htrades
  | frame h => exact hf.of_same hs hn hx h.orderHistory htrades

end Canister

namespace World

variable {w w' : World}

theorem Reachable.fed (h : w.Reachable) : w.canister.state.Fed := by
  have hinv : w.canister.state.Numbered ∧ w.canister.state.Fed := by
    refine h.invariant (P := fun c => c.state.Numbered ∧ c.state.Fed) ?_ ?_
    · intro arg rt c hinit
      obtain ⟨-, -, -, hbooks, -, horders, htrades, -⟩ := Canister.init_eq_ok hinit
      have hreach : Reachable (start c) := ReachableWhile.init hinit
      refine ⟨hreach.numbered, ?_, ?_, ?_⟩
      · intro u id
        rw [horders]
        exact ⟨fun hmem => absurd hmem List.not_mem_nil, fun ⟨r, hr, _⟩ => by cases hr⟩
      · intro u tid
        rw [htrades]
        exact ⟨fun hmem => absurd hmem List.not_mem_nil, fun hsome => by cases hsome.1⟩
      · intro u
        rw [htrades]
        exact List.Pairwise.nil
    · intro c c' hs hc hchange
      exact ⟨hchange.numbered hs hc.1, hchange.fed hs hc.1 hc.2⟩
  exact hinv.2

/-- **Along every run the trades of an order are only appended to.** -/
theorem Run.appends (h : Run w w') (hw : w.Reachable) (order : OrderId) :
    w.canister.state.tradeHistory.Appends order w'.canister.state.tradeHistory := by
  induction h with
  | refl => exact .of_eq rfl
  | @tail w₁ w₂ hrun hstep ih =>
      have hreach := hw.run hrun
      have hg := hreach.guarded
      refine ih.trans ?_
      refine ((hstep.guarded hg).1.invariant (P := fun c => c.state.Numbered ∧
        w₁.canister.state.tradeHistory.Appends order c.state.tradeHistory) hg.sound
        ⟨hreach.numbered, .of_eq rfl⟩ ?_).2.2
      intro c c' hs hc hchange
      exact ⟨hchange.numbered hs hc.1, hc.2.trans (hchange.appends hs hc.1 order)⟩

end World

end OisyTrade
