import OisyTrade.Invariant.View
import OisyTrade.Script

/-!
# The two trade feeds

`trades_after` lists the trades of a user by the time of settling, through an index by user;
`trades_for_order` lists the trades of an order by fill number, through a range of the primary map.
The fill numbers are given at matching time.  Settling takes the fills of a book in the order of
their numbers, whatever interrupts it, so the two feeds agree on every order.
-/

namespace OisyTrade

namespace State

variable {s : State} {owner : Principal} {u : UserId}

/-- The trades of an account have different ids. -/
lemma Sound.viewOf_trades_nodup (hs : s.Sound) (owner : Principal) :
    ((s.viewOf owner).trades.map Prod.fst).Nodup := by
  rw [viewOf]
  cases s.userRegistry.fundingId owner with
  | none => exact List.nodup_nil
  | some u =>
      show ((s.tradeHistory.feed u).map Prod.fst).Nodup
      rw [hs.trades.feed_keys]
      exact hs.trades.userKeys_nodup u

/-- The first page of the account is its feed, newest first. -/
lemma Sound.tradesAfter_all (hs : s.Sound) (hu : s.userRegistry.fundingId owner = some u) {n : ℕ}
    (hn : (s.viewOf owner).trades.reverse.length ≤ n) :
    s.tradeHistory.tradesAfter u none n = .ok (.ok (s.viewOf owner).trades.reverse) := by
  rw [viewOf_of_fundingId hu] at hn ⊢
  rw [TradeHistory.tradesAfter_eq hs.trades, Paging.page, List.take_of_length_le hn]
  rfl

/-- The first page of an order is its list of trades, newest first. -/
lemma tradesForOrder_all (order : OrderId) {n : ℕ}
    (hn : (s.tradeHistory.tradesOf order).reverse.length ≤ n) :
    s.tradeHistory.tradesForOrder order none n
      = .ok (s.tradeHistory.tradesOf order).reverse := by
  rw [TradeHistory.tradesForOrder_eq, Paging.page, List.take_of_length_le hn]
  rfl

/-- **A trade of the account is a cursor of the account** and resumes at the next older trade. -/
lemma Sound.getUserTrades_resume (hs : s.Sound) (hu : s.userRegistry.fundingId owner = some u)
    {newer older : List (TradeId × TradeRecord)} {e : TradeId × TradeRecord}
    (hfeed : (s.viewOf owner).trades.reverse = newer ++ e :: older) (n : ℕ) :
    s.getUserTrades owner (some e.1) n = .ok (.ok (older.take n)) := by
  have hcut : (s.viewOf owner).trades = older.reverse ++ e :: newer.reverse := by
    rw [← List.reverse_reverse (s.viewOf owner).trades, hfeed]
    simp
  rw [hs.getUserTrades_eq hu, Paging.page_of_cut (hs.viewOf_trades_nodup owner) hcut,
    List.reverse_reverse]
  rfl

/-- **A trade of the account is a cursor of its order** and resumes at the next older trade of the
order. -/
lemma Fed.getUserOrderTrades_resume (hf : s.Fed) (hs : s.Sound)
    {newer older : List (TradeId × TradeRecord)} {e : TradeId × TradeRecord}
    (hfeed : (s.viewOf owner).trades.reverse = newer ++ e :: older) (n : ℕ) :
    ∃ trades, s.getUserOrderTrades owner e.1.orderId (some e.1) n = .ok trades ∧
      trades.map (fun t => (TradeId.new e.1.orderId t.1, t.2))
        = (older.filter fun t => t.1.orderId = e.1.orderId).take n := by
  have hcut : (s.viewOf owner).trades = older.reverse ++ e :: newer.reverse := by
    rw [← List.reverse_reverse (s.viewOf owner).trades, hfeed]
    simp
  have hmem : (e.1, e.2) ∈ (s.viewOf owner).trades := by
    rw [hcut]
    exact List.mem_append_right _ List.mem_cons_self
  have howns := ((hf.mem_viewOf_trades hs).mp hmem).2
  have hcut' : (s.viewOf owner).tradesOf e.1.orderId
      = (older.reverse.filter fun t => t.1.orderId = e.1.orderId) ++
        e :: newer.reverse.filter fun t => t.1.orderId = e.1.orderId := by
    rw [View.tradesOf, hcut, List.filter_append, List.filter_cons_of_pos (by simp)]
  have hnodup : (((s.viewOf owner).tradesOf e.1.orderId).map Prod.fst).Nodup :=
    (hs.viewOf_trades_nodup owner).sublist (List.filter_sublist.map _)
  have hpage := hf.page_tradesOf hs howns (some e.1) n
  rw [Paging.page_of_cut hnodup hcut', Option.map_eq_some_iff] at hpage
  obtain ⟨trades, htrades, hmap⟩ := hpage
  refine ⟨trades, ?_, ?_⟩
  · rw [getUserOrderTrades_of_owns howns, htrades]
    rfl
  · rw [hmap, List.filter_reverse, List.reverse_reverse]

end State

namespace World

variable {w : World}

/-- **The account-wide and the per-order trade feeds agree.**  For every registered user, the trades
of an own order that the account feed lists are the feed of the order, with the same records in the
same order; a stored trade is in the account feed exactly if its order is the user's; and the id of
every trade in it, printed and parsed back, is a cursor for both queries, which go on with the next
older trade. -/
theorem Reachable.feeds_agree (h : Reachable w) {owner : Principal} {u : UserId}
    (hu : w.canister.state.userRegistry.fundingId owner = some u) :
    ∃ feed : List (TradeId × TradeRecord),
      (∀ n, feed.length ≤ n →
        w.canister.state.tradeHistory.tradesAfter u none n = .ok (.ok feed)) ∧
      (∀ order, w.canister.state.Owns owner order → ∃ trades : List (FillSeq × TradeRecord),
        (∀ n, trades.length ≤ n →
          w.canister.state.tradeHistory.tradesForOrder order none n = .ok trades) ∧
        (feed.filter fun e => e.1.orderId = order)
          = trades.map fun e => (TradeId.new order e.1, e.2)) ∧
      (∀ tid trade, w.canister.state.tradeHistory.get tid = some trade →
        ((tid, trade) ∈ feed ↔ w.canister.state.Owns owner tid.orderId)) ∧
      (∀ newer e older, feed = newer ++ e :: older → ∃ id,
        FixedWidthId.parse TradeId (FixedWidthId.toText e.1) = .ok id ∧
        ∀ n, w.canister.state.getUserTrades owner (some id) n = .ok (.ok (older.take n)) ∧
          ∃ trades, w.canister.state.getUserOrderTrades owner e.1.orderId (some id) n
              = .ok trades ∧
            trades.map (fun t => (TradeId.new e.1.orderId t.1, t.2))
              = (older.filter fun t => t.1.orderId = e.1.orderId).take n) := by
  have hs := h.guarded.sound
  have hf := h.fed
  refine ⟨(w.canister.state.viewOf owner).trades.reverse, ?_, ?_, ?_, ?_⟩
  · intro n hn
    exact hs.tradesAfter_all hu hn
  · intro order howns
    refine ⟨(w.canister.state.tradeHistory.tradesOf order).reverse, ?_, ?_⟩
    · intro n hn
      exact State.tradesForOrder_all order hn
    · rw [List.filter_reverse, List.map_reverse, hf.tradesOf_eq hs howns]
      rfl
  · intro tid trade htrade
    rw [List.mem_reverse, hf.mem_viewOf_trades hs]
    exact and_iff_right htrade
  · intro newer e older hfeed
    refine ⟨e.1, FixedWidthId.parse_toText e.1, ?_⟩
    intro n
    exact ⟨hs.getUserTrades_resume hu hfeed n, hf.getUserOrderTrades_resume hs hfeed n⟩

/-- In the sample run the buyer has two trades, both of its order. -/
theorem feeds_agree_sampleWorld :
    ∃ feed : List (TradeId × TradeRecord), feed ≠ [] ∧
      (∀ n, feed.length ≤ n →
        sampleWorld.canister.state.tradeHistory.tradesAfter Seq.zero none n = .ok (.ok feed)) ∧
      ∃ trades : List (FillSeq × TradeRecord),
        (∀ n, trades.length ≤ n → sampleWorld.canister.state.tradeHistory.tradesForOrder
          (OrderId.new Seq.zero Seq.zero) none n = .ok trades) ∧
        (feed.filter fun e => e.1.orderId = OrderId.new Seq.zero Seq.zero)
          = trades.map fun e => (TradeId.new (OrderId.new Seq.zero Seq.zero) e.1, e.2) := by
  have hu : sampleWorld.canister.state.userRegistry.fundingId ⟨10⟩ = some Seq.zero := by
    decide +kernel
  obtain ⟨feed, hall, horders, hmem, -⟩ := reachable_sampleWorld.feeds_agree hu
  obtain ⟨r, hr, howner⟩ := (Option.any_eq_true _ _).mp (show
    (sampleWorld.canister.state.orderHistory.get (OrderId.new Seq.zero Seq.zero)).any
      (fun r => decide (r.owner = ⟨10⟩)) = true by decide +kernel)
  have howns : sampleWorld.canister.state.Owns ⟨10⟩ (OrderId.new Seq.zero Seq.zero) :=
    ⟨r, hr, of_decide_eq_true howner⟩
  obtain ⟨trade, htrade⟩ := Option.isSome_iff_exists.mp (show
    (sampleWorld.canister.state.tradeHistory.get
      (TradeId.new (OrderId.new Seq.zero Seq.zero) Seq.zero)).isSome = true by decide +kernel)
  refine ⟨feed, ?_, hall, horders _ howns⟩
  exact List.ne_nil_of_mem ((hmem _ trade htrade).mpr howns)

end World

end OisyTrade
