import OisyTrade.Invariant.Feeds
import OisyTrade.Queries

/-!
# What an account can see

`View` is what `get_my_orders` and `get_my_trades` are about: the orders of an account and the trades
of these orders, and `myOrders` and `myTrades` answer from that alone.  The canister answers from
histories that hold the data of every user, and it resolves ids and cursors there before it knows
whose they are.  `getMyOrders_eq` and `getMyTrades_eq` say that the answers are those of the view of
the effective account, and that no query traps.

The trades of one order are read by fill number and the trades of an account by time of settling.
The two orders agree on the trades of one order (`Fed.tradesOf_eq`).
-/

namespace OisyTrade

/-! ## Answers from a view -/

/-- The orders and the trades of an account, oldest first. -/
@[ext] structure View where
  orders : List (OrderId × TradingPair × OrderRecord)
  trades : List (TradeId × TradeRecord)

namespace View

/-- The order with an id. -/
def order (v : View) (id : OrderId) : Option (OrderId × TradingPair × OrderRecord) :=
  v.orders.find? fun e => e.1 = id

/-- The trades of an order. -/
def tradesOf (v : View) (id : OrderId) : List (TradeId × TradeRecord) :=
  v.trades.filter fun e => e.1.orderId = id

/-- The answer of `get_my_orders`. -/
def myOrders (v : View) (args : Option GetMyOrdersArgs) :
    Except GetMyOrdersError (List UserOrder) :=
  match (args.getD .default).filter with
  | .byId id =>
      match FixedWidthId.parse OrderId id with
      | .error e => .error (.invalidOrderId e)
      | .ok id => do
          let order ← Except.expect (v.order id) .orderNotFound
          .ok [UserOrder.ofOrder order]
  | .byPage page =>
      match parseCursor OrderId page.after with
      | .error e => .error (.invalidOrderId e)
      | .ok after => do
          let orders ← Except.expect
            (Paging.page Prod.fst v.orders after (min page.length maxOrdersPerResponse))
            .orderNotFound
          .ok (orders.map UserOrder.ofOrder)

/-- The page of a list of trades; there is nothing after an unknown cursor. -/
def tradesPage (trades : List (TradeId × TradeRecord)) (after : Option TradeId) (length : ℕ) :
    List Trade :=
  ((Paging.page Prod.fst trades after (min length maxTradesPerResponse)).getD []).map fun e =>
    e.2.intoPublic e.1

/-- The answer of `get_my_trades`. -/
def myTrades (v : View) (args : GetMyTradesArgs) : Except GetMyTradesError (List Trade) :=
  match args.filter with
  | .byOrder filter =>
      match FixedWidthId.parse OrderId filter.orderId with
      | .error e => .error (.invalidOrderId e)
      | .ok orderId =>
          match parseCursor TradeId filter.after with
          | .error e => .error (.invalidTradeId e)
          | .ok after => do
              let _ ← Except.expect (v.order orderId) .orderNotFound
              .ok (tradesPage (v.tradesOf orderId) after filter.length)
  | .byAccount filter =>
      match parseCursor TradeId filter.after with
      | .error e => .error (.invalidTradeId e)
      | .ok after => .ok (tradesPage v.trades after filter.length)

end View

namespace State

variable {s : State}

/-! ## The view of an account -/

/-- An order with its pair and its record. -/
def orderOf (s : State) (id : OrderId) : Option (OrderId × TradingPair × OrderRecord) := do
  let record ← s.orderHistory.get id
  let pair ← s.tradingPairs.getPair id.bookId
  some (id, pair, record)

/-- The view of an account. -/
def viewOf (s : State) (owner : Principal) : View :=
  match s.userRegistry.fundingId owner with
  | none => ⟨[], []⟩
  | some u => ⟨(s.orderHistory.userKeys u).filterMap s.orderOf, s.tradeHistory.feed u⟩

/-- Whether an order is of an account. -/
def Owns (s : State) (owner : Principal) (id : OrderId) : Prop :=
  ∃ r, s.orderHistory.get id = some r ∧ r.owner = owner

lemma orderOf_eq_some {id : OrderId} {e : OrderId × TradingPair × OrderRecord} :
    s.orderOf id = some e ↔ e.1 = id ∧ s.tradingPairs.getPair id.bookId = some e.2.1 ∧
      s.orderHistory.get id = some e.2.2 := by
  obtain ⟨id', pair, r⟩ := e
  simp only [orderOf, Option.bind_eq_bind, Option.bind_eq_some_iff, Option.some.injEq,
    Prod.mk.injEq]
  constructor
  · rintro ⟨r', hr, pair', hpair, rfl, rfl, rfl⟩
    exact ⟨rfl, hpair, hr⟩
  · rintro ⟨rfl, hpair, hr⟩
    exact ⟨r, hr, pair, hpair, rfl, rfl, rfl⟩

/-- The book of a recorded order is traded. -/
lemma Sound.orderOf_of_record (hs : s.Sound) {id : OrderId} {r : OrderRecord}
    (hr : s.orderHistory.get id = some r) : ∃ pair, s.tradingPairs.getPair id.bookId = some pair ∧
      s.orderOf id = some (id, pair, r) := by
  obtain ⟨b, hb, -⟩ := (hs.records id r hr).book
  obtain ⟨pair, scale, hm, -⟩ := (hs.wired.listed _ b hb).market
  exact ⟨pair, hm.pair, orderOf_eq_some.mpr ⟨rfl, hm.pair, hr⟩⟩

variable {owner : Principal} {u : UserId}

/-- **The index lists the orders of the account.** -/
lemma Fed.mem_orders (hf : s.Fed) (hs : s.Sound) (hu : s.userRegistry.fundingId owner = some u)
    {id : OrderId} : id ∈ s.orderHistory.userKeys u ↔ s.Owns owner id := by
  rw [hf.orders]
  constructor
  · rintro ⟨r, hr, hru⟩
    exact ⟨r, hr, hs.registry.fundingId_inj hru hu⟩
  · rintro ⟨r, hr, rfl⟩
    exact ⟨r, hr, hu⟩

/-- **The index lists the trades of the orders of the account.** -/
lemma Fed.mem_trades (hf : s.Fed) (hs : s.Sound) (hu : s.userRegistry.fundingId owner = some u)
    {tid : TradeId} {trade : TradeRecord} : (tid, trade) ∈ s.tradeHistory.feed u ↔
      s.tradeHistory.get tid = some trade ∧ s.Owns owner tid.orderId := by
  rw [History.mem_feed, hf.trades]
  constructor
  · rintro ⟨⟨-, r, hr, hru⟩, htrade⟩
    exact ⟨htrade, r, hr, hs.registry.fundingId_inj hru hu⟩
  · rintro ⟨htrade, r, hr, rfl⟩
    exact ⟨⟨by rw [htrade]; rfl, r, hr, hu⟩, htrade⟩

lemma viewOf_of_fundingId (hu : s.userRegistry.fundingId owner = some u) : s.viewOf owner
    = ⟨(s.orderHistory.userKeys u).filterMap s.orderOf, s.tradeHistory.feed u⟩ := by
  rw [viewOf, hu]

/-- An owner of an order is registered. -/
lemma Sound.fundingId_of_owns (hs : s.Sound) {id : OrderId} (h : s.Owns owner id) :
    ∃ u, s.userRegistry.fundingId owner = some u := by
  obtain ⟨r, hr, rfl⟩ := h
  exact (hs.records id r hr).owner

/-- The orders of a view are the orders of the account. -/
lemma Fed.mem_viewOf_orders (hf : s.Fed) (hs : s.Sound)
    {e : OrderId × TradingPair × OrderRecord} :
    e ∈ (s.viewOf owner).orders ↔ s.Owns owner e.1 ∧ s.orderOf e.1 = some e := by
  cases hu : s.userRegistry.fundingId owner with
  | none =>
      rw [viewOf, hu]
      constructor
      · intro h
        cases h
      · rintro ⟨howns, -⟩
        obtain ⟨u, hu'⟩ := hs.fundingId_of_owns howns
        rw [hu] at hu'
        cases hu'
  | some u =>
      rw [viewOf_of_fundingId hu, List.mem_filterMap]
      constructor
      · rintro ⟨id, hid, he⟩
        obtain rfl := (orderOf_eq_some.mp he).1
        exact ⟨(hf.mem_orders hs hu).mp hid, he⟩
      · rintro ⟨howns, he⟩
        exact ⟨e.1, (hf.mem_orders hs hu).mpr howns, he⟩

/-- The trades of a view are the trades of the orders of the account. -/
lemma Fed.mem_viewOf_trades (hf : s.Fed) (hs : s.Sound) {tid : TradeId} {trade : TradeRecord} :
    (tid, trade) ∈ (s.viewOf owner).trades ↔
      s.tradeHistory.get tid = some trade ∧ s.Owns owner tid.orderId := by
  cases hu : s.userRegistry.fundingId owner with
  | none =>
      rw [viewOf, hu]
      constructor
      · intro h
        cases h
      · rintro ⟨-, howns⟩
        obtain ⟨u, hu'⟩ := hs.fundingId_of_owns howns
        rw [hu] at hu'
        cases hu'
  | some u =>
      rw [viewOf_of_fundingId hu]
      exact hf.mem_trades hs hu

/-- The order of a view: an order of the account, whatever else the history holds. -/
lemma Fed.viewOf_order (hf : s.Fed) (hs : s.Sound) (owner : Principal) (id : OrderId) :
    (s.Owns owner id ∧ (s.viewOf owner).order id = s.orderOf id) ∨
      (¬ s.Owns owner id ∧ (s.viewOf owner).order id = none) := by
  by_cases howns : s.Owns owner id
  · left
    refine ⟨howns, ?_⟩
    obtain ⟨r, hr, howner⟩ := howns
    obtain ⟨pair, -, he⟩ := hs.orderOf_of_record hr
    have hmem : (id, pair, r) ∈ (s.viewOf owner).orders :=
      (hf.mem_viewOf_orders hs).mpr ⟨⟨r, hr, howner⟩, he⟩
    cases hfind : (s.viewOf owner).order id with
    | none => exact absurd (List.find?_eq_none.mp hfind _ hmem) (by simp)
    | some e =>
        have heq : e.1 = id := of_decide_eq_true
          (List.find?_some (p := fun e : OrderId × TradingPair × OrderRecord => e.1 = id) hfind)
        have hfound := ((hf.mem_viewOf_orders hs).mp (List.mem_of_find?_eq_some hfind)).2
        rw [← heq, hfound]
  · right
    refine ⟨howns, List.find?_eq_none.mpr ?_⟩
    intro e he heq
    obtain rfl := of_decide_eq_true heq
    exact howns ((hf.mem_viewOf_orders hs).mp he).1

/-! ## The trades of one order -/

/-- **The two feeds agree.**  The trades of an order, listed by fill number, are the trades of the
account that belong to the order, in the order in which they were settled. -/
lemma Fed.tradesOf_eq (hf : s.Fed) (hs : s.Sound) {order : OrderId} (howns : s.Owns owner order) :
    (s.tradeHistory.tradesOf order).map (fun e => (TradeId.new order e.1, e.2))
      = (s.viewOf owner).tradesOf order := by
  obtain ⟨u, hu⟩ := hs.fundingId_of_owns howns
  refine Paging.eq_of_mem_iff (fun e : TradeId × TradeRecord => e.1.seq) ?_ ?_ ?_
  · exact List.pairwise_map.mpr (s.tradeHistory.tradesOf_pairwise order)
  · -- one account: settling keeps the order of the fills, and no trade is listed twice
    rw [View.tradesOf, viewOf_of_fundingId hu]
    have hnodup : (s.tradeHistory.feed u).Pairwise fun a b => a.1 ≠ b.1 := by
      have hkeys := hs.trades.userKeys_nodup u
      rw [← hs.trades.feed_keys u] at hkeys
      exact List.pairwise_map.mp hkeys
    have hordered : (s.tradeHistory.feed u).Pairwise fun a b =>
        a.1.orderId.bookId = b.1.orderId.bookId → a.1.seq ≤ b.1.seq := by
      have hkeys := hf.ordered u
      rw [← hs.trades.feed_keys u] at hkeys
      exact List.pairwise_map.mp hkeys
    refine ((hnodup.and hordered).filter _).imp_of_mem ?_
    intro a b ha hb hab
    have hoa := of_decide_eq_true (List.mem_filter.mp ha).2
    have hob := of_decide_eq_true (List.mem_filter.mp hb).2
    refine lt_of_le_of_ne (hab.2 (by rw [hoa, hob])) ?_
    intro hseq
    refine hab.1 ?_
    rw [← TradeId.new_eta a.1, ← TradeId.new_eta b.1, hoa, hob, hseq]
  · rintro ⟨tid, trade⟩
    rw [View.tradesOf, List.mem_filter, decide_eq_true_eq, hf.mem_viewOf_trades hs, List.mem_map]
    constructor
    · rintro ⟨⟨seq, trade'⟩, hmem, heq⟩
      cases heq
      exact ⟨⟨TradeHistory.mem_tradesOf.mp hmem, howns⟩, rfl⟩
    · rintro ⟨⟨htrade, -⟩, rfl⟩
      exact ⟨(tid.seq, trade), TradeHistory.mem_tradesOf.mpr htrade, rfl⟩

/-- A page of an order's trades, from the view. -/
lemma Fed.page_tradesOf (hf : s.Fed) (hs : s.Sound) {order : OrderId}
    (howns : s.Owns owner order) (after : Option TradeId) (n : ℕ) :
    (Paging.page (fun e => TradeId.new order e.1) (s.tradeHistory.tradesOf order) after n).map
      (List.map fun e => (TradeId.new order e.1, e.2))
      = Paging.page Prod.fst ((s.viewOf owner).tradesOf order) after n := by
  rw [← hf.tradesOf_eq hs howns, Paging.page_map]
  rfl

/-! ## The readers of the state -/

lemma Sound.viewOf_orders_keys (hs : s.Sound) (u : UserId) :
    ((s.orderHistory.userKeys u).filterMap s.orderOf).map Prod.fst
      = s.orderHistory.userKeys u := by
  refine Paging.map_filterMap ?_
  intro id hid
  obtain ⟨r, hr⟩ := hs.orders.get_of_mem hid
  obtain ⟨pair, -, he⟩ := hs.orderOf_of_record hr
  rw [he]
  rfl

lemma indexedOrder_of_orderOf {id : OrderId} {e : OrderId × TradingPair × OrderRecord}
    (h : s.orderOf id = some e) : s.indexedOrder id = .ok e := by
  obtain ⟨rfl, hpair, hr⟩ := orderOf_eq_some.mp h
  simp only [indexedOrder, hr, hpair, expectBug, Except.expect_some, Except.bind_ok]

/-- **`get_user_orders` pages through the orders of the view.** -/
lemma Sound.getUserOrders_eq (hs : s.Sound) (owner : Principal)
    (after : Option OrderId) (n : ℕ) : s.getUserOrders owner after n
      = .ok (Except.expect (Paging.page Prod.fst (s.viewOf owner).orders after n) .mk) := by
  simp only [getUserOrders, hs.registry.lookupFundingId, Except.bind_ok]
  cases hu : s.userRegistry.fundingId owner with
  | none =>
      rw [viewOf, hu]
      cases after with
      | none => simp only [Paging.page, List.reverse_nil, List.take_nil, Except.expect_some]
      | some c => rfl
  | some u =>
      simp only [hs.orders.pageByUser_eq (hs.viewOf_orders_keys u), viewOf_of_fundingId hu]
      cases hpage : Paging.page Prod.fst ((s.orderHistory.userKeys u).filterMap s.orderOf) after n
        with
      | none => rfl
      | some orders =>
          have hmap : (orders.map Prod.fst).mapM s.indexedOrder = .ok orders := by
            refine Except.mapM_map_eq_ok ?_
            intro e he
            obtain ⟨id, -, hid⟩ := List.mem_filterMap.mp (Paging.mem_of_page hpage he)
            rw [(orderOf_eq_some.mp hid).1]
            exact indexedOrder_of_orderOf hid
          simp only [Option.map_some, Except.expect_some, hmap, Except.bind_ok]

/-- **`get_user_order` finds the orders of the view.** -/
lemma Fed.getUserOrder_eq (hf : s.Fed) (hs : s.Sound) (owner : Principal) (id : OrderId) :
    s.getUserOrder owner id = .ok ((s.viewOf owner).order id) := by
  rw [getUserOrder]
  rcases hf.viewOf_order hs owner id with ⟨⟨r, hr, rfl⟩, hview⟩ | ⟨howns, hview⟩
  · obtain ⟨pair, hpair, he⟩ := hs.orderOf_of_record hr
    rw [hview, he, hr]
    simp only [ne_eq, not_true_eq_false, if_false, hpair, expectBug, Except.expect_some,
      Except.bind_ok]
  · rw [hview]
    cases hr : s.orderHistory.get id with
    | none => rfl
    | some r =>
        have hne : r.owner ≠ owner := fun heq => howns ⟨r, hr, heq⟩
        simp only [if_pos hne]

/-- **`get_user_order_trades` pages through the trades of the order.** -/
lemma getUserOrderTrades_of_owns {order : OrderId} (howns : s.Owns owner order)
    (after : Option TradeId) (n : ℕ) : s.getUserOrderTrades owner order after n
      = Except.expect (Paging.page (fun e => TradeId.new order e.1)
        (s.tradeHistory.tradesOf order) after n) .cursorNotFound := by
  obtain ⟨r, hr, howner⟩ := howns
  have hany : (s.orderHistory.get order).any (fun record => record.owner = owner) = true := by
    rw [hr, Option.any_some, decide_eq_true howner]
  rw [getUserOrderTrades, if_pos hany, TradeHistory.tradesForOrder_eq]
  cases Paging.page (fun e => TradeId.new order e.1) (s.tradeHistory.tradesOf order) after n with
  | none => rfl
  | some trades => rfl

lemma getUserOrderTrades_of_not_owns {order : OrderId} (howns : ¬ s.Owns owner order)
    (after : Option TradeId) (n : ℕ) :
    s.getUserOrderTrades owner order after n = .error .orderNotFound := by
  have hany : ¬ (s.orderHistory.get order).any (fun record => record.owner = owner) = true := by
    intro h
    obtain ⟨r, hr, howner⟩ := (Option.any_eq_true _ _).mp h
    exact howns ⟨r, hr, of_decide_eq_true howner⟩
  rw [getUserOrderTrades, if_neg hany]

/-- **`get_user_trades` pages through the trades of the account.** -/
lemma Sound.getUserTrades_eq (hs : s.Sound) (hu : s.userRegistry.fundingId owner = some u)
    (after : Option TradeId) (n : ℕ) : s.getUserTrades owner after n
      = .ok (Except.expect (Paging.page Prod.fst (s.viewOf owner).trades after n) .mk) := by
  rw [getUserTrades, hs.registry.lookupFundingId, Except.bind_ok, hu, viewOf_of_fundingId hu]
  exact TradeHistory.tradesAfter_eq hs.trades u after n

end State

/-! ## The queries -/

namespace Canister

variable {c : Canister} {caller owner : Principal}

/-- **`get_my_orders` answers from the view** of the effective account. -/
theorem getMyOrders_eq (hs : c.state.Sound) (hf : c.state.Fed)
    (he : c.state.effectiveAccount caller = .ok owner) (args : Option GetMyOrdersArgs) :
    c.getMyOrders caller args = .ok ((c.state.viewOf owner).myOrders args) := by
  rw [getMyOrders, View.myOrders]
  cases (args.getD .default).filter with
  | byId text =>
      simp only
      cases FixedWidthId.parse OrderId text with
      | error e => rfl
      | ok id =>
          simp only [he, Except.bind_ok, hf.getUserOrder_eq hs]
          cases (c.state.viewOf owner).order id with
          | none => rfl
          | some order => rfl
  | byPage page =>
      simp only
      cases parseCursor OrderId page.after with
      | error e => rfl
      | ok after =>
          simp only [he, Except.bind_ok, hs.getUserOrders_eq]
          cases Paging.page Prod.fst (c.state.viewOf owner).orders after
              (min page.length maxOrdersPerResponse) with
          | none => rfl
          | some orders => rfl

/-- **`get_my_trades` answers from the view** of the effective account. -/
theorem getMyTrades_eq (hs : c.state.Sound) (hf : c.state.Fed)
    (he : c.state.effectiveAccount caller = .ok owner) (args : GetMyTradesArgs) :
    c.getMyTrades caller args = .ok ((c.state.viewOf owner).myTrades args) := by
  rw [getMyTrades, View.myTrades]
  cases args.filter with
  | byOrder filter =>
      simp only
      cases FixedWidthId.parse OrderId filter.orderId with
      | error e => rfl
      | ok order =>
          simp only
          cases parseCursor TradeId filter.after with
          | error e => rfl
          | ok after =>
              simp only [he, Except.bind_ok]
              rcases hf.viewOf_order hs owner order with ⟨howns, hview⟩ | ⟨howns, hview⟩
              · obtain ⟨r, hr, -⟩ := id howns
                obtain ⟨pair, -, horder⟩ := hs.orderOf_of_record hr
                simp only [State.getUserOrderTrades_of_owns howns, hview, horder,
                  Except.expect_some, Except.bind_ok, View.tradesPage,
                  ← hf.page_tradesOf hs howns]
                cases Paging.page (fun e => TradeId.new order e.1)
                    (c.state.tradeHistory.tradesOf order) after
                    (min filter.length maxTradesPerResponse) with
                | none => rfl
                | some trades =>
                    simp only [Except.expect_some, Option.map_some, Option.getD_some, List.map_map]
                    rfl
              · rw [State.getUserOrderTrades_of_not_owns howns, hview]
                rfl
  | byAccount filter =>
      simp only
      cases parseCursor TradeId filter.after with
      | error e => rfl
      | ok after =>
          simp only [he, Except.bind_ok, View.tradesPage]
          cases hu : c.state.userRegistry.fundingId owner with
          | none =>
              rw [State.getUserTrades, hs.registry.lookupFundingId, hu, State.viewOf, hu]
              cases after with
              | none =>
                  simp only [Except.bind_ok, Paging.page, List.reverse_nil, List.take_nil,
                    List.map_nil, Option.getD_some]
              | some cursor => rfl
          | some u =>
              rw [hs.getUserTrades_eq hu, Except.bind_ok]
              cases Paging.page Prod.fst (c.state.viewOf owner).trades after
                  (min filter.length maxTradesPerResponse) with
              | none => rfl
              | some trades => rfl

end Canister

end OisyTrade
