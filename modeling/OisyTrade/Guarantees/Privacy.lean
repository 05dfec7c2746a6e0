import OisyTrade.Invariant.View
import OisyTrade.Script

/-!
# Queries do not reveal other users' orders

`get_my_orders` and `get_my_trades` answer from the view of the effective account of their caller
(`Canister.getMyOrders_eq`, `Canister.getMyTrades_eq`).  What they return is therefore of that
account, an id or a cursor of somebody else is answered like one that does not exist, and two states
with the same view give the same answers.
-/

namespace OisyTrade

/-! ## Arguments that differ in what they name -/

/-- A text that names nothing of the account is replaced by one that names nothing at all. -/
inductive Hides {α : Type} [FixedWidthId α] (own known : α → Prop) : String → String → Prop
  | same (text : String) : Hides own known text text
  | replaced (id id' : α) (hid : ¬ own id) (hid' : ¬ known id') :
      Hides own known (FixedWidthId.toText id) (FixedWidthId.toText id')

section Hides

variable {α : Type} [FixedWidthId α] [LawfulFixedWidthId α] {own known : α → Prop}

/-- A replacement changes what a text means from one foreign id to another. -/
lemma Hides.parsed {text text' : String} (h : Hides own known text text')
    (hknown : ∀ id, own id → known id) : text = text' ∨
      ∃ id id', FixedWidthId.parse α text = .ok id ∧ FixedWidthId.parse α text' = .ok id' ∧
        ¬ own id ∧ ¬ own id' := by
  cases h with
  | same text => exact Or.inl rfl
  | replaced id id' hid hid' =>
      exact Or.inr ⟨id, id', FixedWidthId.parse_toText id, FixedWidthId.parse_toText id', hid,
        fun hown => hid' (hknown id' hown)⟩

/-- The same for cursors. -/
lemma Hides.cursor {after after' : Option String} (h : Option.Rel (Hides own known) after after')
    (hknown : ∀ id, own id → known id) : after = after' ∨
      ∃ id id', parseCursor α after = .ok (some id) ∧ parseCursor α after' = .ok (some id') ∧
        ¬ own id ∧ ¬ own id' := by
  cases h with
  | none => exact Or.inl rfl
  | some h =>
      rcases h.parsed hknown with rfl | ⟨id, id', hid, hid', hown, hown'⟩
      · exact Or.inl rfl
      · refine Or.inr ⟨id, id', ?_, ?_, hown, hown'⟩
        · rw [parseCursor, hid, Except.bind_ok]
        · rw [parseCursor, hid', Except.bind_ok]

end Hides

namespace State

variable {s s' : State} {owner : Principal}

/-- Whether a trade is of an order of an account. -/
def OwnsTrade (s : State) (owner : Principal) (tid : TradeId) : Prop :=
  (s.tradeHistory.get tid).isSome ∧ s.Owns owner tid.orderId

/-- A text that names an order of somebody else is replaced by one that names no order. -/
def HidesOrder (s : State) (owner : Principal) : String → String → Prop :=
  Hides (s.Owns owner) fun id => (s.orderHistory.get id).isSome

/-- A text that names a trade of somebody else is replaced by one that names no trade. -/
def HidesTrade (s : State) (owner : Principal) : String → String → Prop :=
  Hides (s.OwnsTrade owner) fun id => (s.tradeHistory.get id).isSome

/-- Arguments of `get_my_orders` up to such replacements. -/
inductive HidesOrders (s : State) (owner : Principal) :
    Option GetMyOrdersArgs → Option GetMyOrdersArgs → Prop
  | default : HidesOrders s owner none none
  | byId (id id' : String) (hid : s.HidesOrder owner id id') :
      HidesOrders s owner (some ⟨.byId id⟩) (some ⟨.byId id'⟩)
  | byPage (after after' : Option String) (length : ℕ)
      (hafter : Option.Rel (s.HidesOrder owner) after after') :
      HidesOrders s owner (some ⟨.byPage ⟨after, length⟩⟩) (some ⟨.byPage ⟨after', length⟩⟩)

/-- Arguments of `get_my_trades` up to such replacements. -/
inductive HidesTrades (s : State) (owner : Principal) : GetMyTradesArgs → GetMyTradesArgs → Prop
  | byOrder (id id' : String) (after after' : Option String) (length : ℕ)
      (hid : s.HidesOrder owner id id')
      (hafter : Option.Rel (s.HidesTrade owner) after after') :
      HidesTrades s owner ⟨.byOrder ⟨id, after, length⟩⟩ ⟨.byOrder ⟨id', after', length⟩⟩
  | byAccount (after after' : Option String) (length : ℕ)
      (hafter : Option.Rel (s.HidesTrade owner) after after') :
      HidesTrades s owner ⟨.byAccount ⟨after, length⟩⟩ ⟨.byAccount ⟨after', length⟩⟩

/-! ## States that agree on an account -/

/-- The orders of an account with their records, oldest first. -/
def orderFeed (s : State) (owner : Principal) : List (OrderId × OrderRecord) :=
  match s.userRegistry.fundingId owner with
  | none => []
  | some u => s.orderHistory.feed u

/-- The trades of an account, oldest first. -/
def tradeFeed (s : State) (owner : Principal) : List (TradeId × TradeRecord) :=
  match s.userRegistry.fundingId owner with
  | none => []
  | some u => s.tradeHistory.feed u

/-- **Two states agree on an account**: they have the same pairs, the same registry entries for the
caller and for the account, and the same orders and trades of the account. -/
structure AgreeOn (caller owner : Principal) (s s' : State) : Prop where
  pairs : s'.tradingPairs = s.tradingPairs
  caller : s'.userRegistry.account caller = s.userRegistry.account caller
  account : s'.userRegistry.account owner = s.userRegistry.account owner
  orders : s'.orderFeed owner = s.orderFeed owner
  trades : s'.tradeFeed owner = s.tradeFeed owner

/-- The orders of a view, from the orders of the account and the pairs. -/
lemma viewOf_orders (s : State) (owner : Principal) : (s.viewOf owner).orders
    = (s.orderFeed owner).filterMap fun e =>
      (s.tradingPairs.getPair e.1.bookId).map fun pair => (e.1, pair, e.2) := by
  rw [viewOf, orderFeed]
  cases s.userRegistry.fundingId owner with
  | none => rfl
  | some u =>
      simp only [History.feed, List.filterMap_filterMap]
      refine List.filterMap_congr ?_
      intro id _
      rw [orderOf]
      cases s.orderHistory.get id with
      | none => rfl
      | some r =>
          cases hpair : s.tradingPairs.getPair id.bookId with
          | none => simp [hpair]
          | some pair => simp [hpair]

lemma viewOf_trades (s : State) (owner : Principal) :
    (s.viewOf owner).trades = s.tradeFeed owner := by
  rw [viewOf, tradeFeed]
  cases s.userRegistry.fundingId owner with
  | none => rfl
  | some u => rfl

/-- States that agree on an account show it the same view. -/
lemma AgreeOn.viewOf_eq {caller : Principal} (h : AgreeOn caller owner s s') :
    s'.viewOf owner = s.viewOf owner := by
  refine View.ext ?_ ?_
  · rw [viewOf_orders, viewOf_orders, h.orders, h.pairs]
  · rw [viewOf_trades, viewOf_trades, h.trades]

lemma AgreeOn.effectiveAccount_eq {caller : Principal} (h : AgreeOn caller owner s s')
    (hs : s.Sound) (hs' : s'.Sound) :
    s'.effectiveAccount caller = s.effectiveAccount caller := by
  rw [effectiveAccount, effectiveAccount, hs.registry.lookup, hs'.registry.lookup, h.caller]

end State

/-! ## The answers of a view -/

namespace View

variable {v : View}

/-- Every order in an answer is an order of the view. -/
lemma mem_of_myOrders {args : Option GetMyOrdersArgs} {orders : List UserOrder}
    (h : v.myOrders args = .ok orders) {o : UserOrder} (ho : o ∈ orders) :
    ∃ e ∈ v.orders, o = UserOrder.ofOrder e := by
  rw [myOrders] at h
  cases hfilter : (args.getD .default).filter with
  | byId text =>
      rw [hfilter] at h
      simp only at h
      cases hparse : FixedWidthId.parse OrderId text with
      | error e =>
          rw [hparse] at h
          cases h
      | ok id =>
          simp only [hparse, Except.bind_eq_ok, Except.expect_eq_ok, Except.ok.injEq] at h
          obtain ⟨e, he, rfl⟩ := h
          exact ⟨e, List.mem_of_find?_eq_some he, List.mem_singleton.mp ho⟩
  | byPage page =>
      rw [hfilter] at h
      simp only at h
      cases hparse : parseCursor OrderId page.after with
      | error e =>
          rw [hparse] at h
          cases h
      | ok after =>
          simp only [hparse, Except.bind_eq_ok, Except.expect_eq_ok, Except.ok.injEq] at h
          obtain ⟨entries, hpage, rfl⟩ := h
          obtain ⟨e, he, rfl⟩ := List.mem_map.mp ho
          exact ⟨e, Paging.mem_of_page hpage he, rfl⟩

/-- A page holds trades of its list. -/
lemma mem_of_tradesPage {trades : List (TradeId × TradeRecord)} {after : Option TradeId} {n : ℕ}
    {t : Trade} (h : t ∈ tradesPage trades after n) : ∃ e ∈ trades, t = e.2.intoPublic e.1 := by
  rw [tradesPage] at h
  obtain ⟨e, he, rfl⟩ := List.mem_map.mp h
  refine ⟨e, ?_, rfl⟩
  cases hpage : Paging.page Prod.fst trades after (min n maxTradesPerResponse) with
  | none =>
      rw [hpage] at he
      cases he
  | some entries =>
      rw [hpage] at he
      exact Paging.mem_of_page hpage he

/-- Every trade in an answer is a trade of the view. -/
lemma mem_of_myTrades {args : GetMyTradesArgs} {trades : List Trade}
    (h : v.myTrades args = .ok trades) {t : Trade} (ht : t ∈ trades) :
    ∃ e ∈ v.trades, t = e.2.intoPublic e.1 := by
  rw [myTrades] at h
  cases hfilter : args.filter with
  | byOrder filter =>
      rw [hfilter] at h
      simp only at h
      cases hparse : FixedWidthId.parse OrderId filter.orderId with
      | error e =>
          rw [hparse] at h
          cases h
      | ok id =>
          simp only [hparse] at h
          cases hcursor : parseCursor TradeId filter.after with
          | error e =>
              rw [hcursor] at h
              cases h
          | ok after =>
              simp only [hcursor, Except.bind_eq_ok, Except.ok.injEq] at h
              obtain ⟨-, -, rfl⟩ := h
              obtain ⟨e, he, rfl⟩ := mem_of_tradesPage ht
              exact ⟨e, (List.mem_filter.mp he).1, rfl⟩
  | byAccount filter =>
      rw [hfilter] at h
      simp only at h
      cases hcursor : parseCursor TradeId filter.after with
      | error e =>
          rw [hcursor] at h
          cases h
      | ok after =>
          simp only [hcursor, Except.ok.injEq] at h
          subst h
          exact mem_of_tradesPage ht

end View

namespace State

variable {s : State} {owner : Principal}

/-! ## Ids of somebody else -/

lemma Owns.isSome {id : OrderId} (h : s.Owns owner id) :
    (s.orderHistory.get id).isSome := by
  obtain ⟨r, hr, -⟩ := h
  rw [hr]
  rfl

lemma Fed.order_of_not_owns (hf : s.Fed) (hs : s.Sound) {id : OrderId} (h : ¬ s.Owns owner id) :
    (s.viewOf owner).order id = none := by
  rcases hf.viewOf_order hs owner id with ⟨howns, -⟩ | ⟨-, hnone⟩
  · exact absurd howns h
  · exact hnone

lemma Fed.page_of_not_owns (hf : s.Fed) (hs : s.Sound) {id : OrderId} (h : ¬ s.Owns owner id)
    (n : ℕ) : Paging.page Prod.fst (s.viewOf owner).orders (some id) n = none := by
  rw [Paging.page, if_neg]
  intro hmem
  obtain ⟨e, he, rfl⟩ := List.mem_map.mp hmem
  exact h ((hf.mem_viewOf_orders hs).mp he).1

lemma Fed.tradesPage_of_not_owns (hf : s.Fed) (hs : s.Sound) {tid : TradeId}
    (h : ¬ s.OwnsTrade owner tid) {trades : List (TradeId × TradeRecord)}
    (htrades : ∀ e ∈ trades, e ∈ (s.viewOf owner).trades) (n : ℕ) :
    View.tradesPage trades (some tid) n = [] := by
  rw [View.tradesPage, Paging.page, if_neg]
  · rfl
  · intro hmem
    obtain ⟨⟨tid', trade⟩, he, rfl⟩ := List.mem_map.mp hmem
    obtain ⟨htrade, howns⟩ := (hf.mem_viewOf_trades hs).mp (htrades _ he)
    exact h ⟨by rw [htrade]; rfl, howns⟩

/-- **An order id or cursor of somebody else** is answered like one that does not exist. -/
lemma Fed.myOrders_hides (hf : s.Fed) (hs : s.Sound) {args args' : Option GetMyOrdersArgs}
    (h : s.HidesOrders owner args args') :
    (s.viewOf owner).myOrders args = (s.viewOf owner).myOrders args' := by
  cases h with
  | default => rfl
  | byId id id' hid =>
      rcases hid.parsed fun _ => Owns.isSome with rfl | ⟨oid, oid', hp, hp', howns, howns'⟩
      · rfl
      · simp only [View.myOrders, Option.getD_some, hp, hp', hf.order_of_not_owns hs howns,
          hf.order_of_not_owns hs howns']
  | byPage after after' length hafter =>
      rcases Hides.cursor hafter fun _ => Owns.isSome with rfl | ⟨oid, oid', hp, hp', howns, howns'⟩
      · rfl
      · simp only [View.myOrders, Option.getD_some, hp, hp', hf.page_of_not_owns hs howns,
          hf.page_of_not_owns hs howns']

/-- **A trade cursor of somebody else** is answered like one that does not exist. -/
lemma Fed.tradesPage_hides (hf : s.Fed) (hs : s.Sound) {tid tid' : TradeId}
    (h : ¬ s.OwnsTrade owner tid) (h' : ¬ s.OwnsTrade owner tid')
    {trades : List (TradeId × TradeRecord)}
    (htrades : ∀ e ∈ trades, e ∈ (s.viewOf owner).trades) (n : ℕ) :
    View.tradesPage trades (some tid) n = View.tradesPage trades (some tid') n := by
  rw [hf.tradesPage_of_not_owns hs h htrades, hf.tradesPage_of_not_owns hs h' htrades]

lemma Fed.myTrades_hides (hf : s.Fed) (hs : s.Sound) {args args' : GetMyTradesArgs}
    (h : s.HidesTrades owner args args') :
    (s.viewOf owner).myTrades args = (s.viewOf owner).myTrades args' := by
  cases h with
  | byOrder id id' after after' length hid hafter =>
      -- first the cursor is replaced, then the order
      have hcursor : (s.viewOf owner).myTrades ⟨.byOrder ⟨id, after, length⟩⟩
          = (s.viewOf owner).myTrades ⟨.byOrder ⟨id, after', length⟩⟩ := by
        rcases Hides.cursor hafter fun _ => And.left with rfl | ⟨tid, tid', hp, hp', howns, howns'⟩
        · rfl
        · simp only [View.myTrades, hp, hp']
          cases FixedWidthId.parse OrderId id with
          | error e => rfl
          | ok oid =>
              have hpage : View.tradesPage ((s.viewOf owner).tradesOf oid) (some tid) length
                  = View.tradesPage ((s.viewOf owner).tradesOf oid) (some tid') length :=
                hf.tradesPage_hides hs howns howns' (fun e he => (List.mem_filter.mp he).1) length
              simp only [hpage]
      rw [hcursor]
      rcases hid.parsed fun _ => Owns.isSome with rfl | ⟨oid, oid', hp, hp', howns, howns'⟩
      · rfl
      · simp only [View.myTrades, hp, hp', hf.order_of_not_owns hs howns,
          hf.order_of_not_owns hs howns', Except.expect_none, Except.bind_error]
  | byAccount after after' length hafter =>
      rcases Hides.cursor hafter fun _ => And.left with rfl | ⟨tid, tid', hp, hp', howns, howns'⟩
      · rfl
      · simp only [View.myTrades, hp, hp', hf.tradesPage_hides hs howns howns' fun e he => he]

end State

namespace World

variable {w w' : World}

/-- **Queries do not reveal other users' orders.**  The effective account of a caller decides what
the caller sees: every order and trade returned is of an order of the account; an id or cursor that
names nothing of the account is answered like one that names nothing at all; and in two states that
agree on the account every argument gets the same answer. -/
theorem Reachable.queries_private (h : Reachable w) (caller : Principal) :
    ∃ owner, w.canister.state.effectiveAccount caller = .ok owner ∧
      (∀ args orders, w.canister.getMyOrders caller args = .ok (.ok orders) →
        ∀ o ∈ orders, ∃ id r, w.canister.state.orderHistory.get id = some r ∧ r.owner = owner ∧
          o.id = FixedWidthId.toText id ∧ o.order = r) ∧
      (∀ args trades, w.canister.getMyTrades caller args = .ok (.ok trades) →
        ∀ t ∈ trades, ∃ tid trade, w.canister.state.tradeHistory.get tid = some trade ∧
          w.canister.state.Owns owner tid.orderId ∧ t = trade.intoPublic tid) ∧
      (∀ args args', w.canister.state.HidesOrders owner args args' →
        w.canister.getMyOrders caller args = w.canister.getMyOrders caller args') ∧
      (∀ args args', w.canister.state.HidesTrades owner args args' →
        w.canister.getMyTrades caller args = w.canister.getMyTrades caller args') ∧
      (∀ w', Reachable w' → State.AgreeOn caller owner w.canister.state w'.canister.state →
        (∀ args, w'.canister.getMyOrders caller args = w.canister.getMyOrders caller args) ∧
        ∀ args, w'.canister.getMyTrades caller args = w.canister.getMyTrades caller args) := by
  have hs := h.guarded.sound
  have hf := h.fed
  obtain ⟨owner, he, -⟩ := hs.effectiveAccount caller
  refine ⟨owner, he, ?_, ?_, ?_, ?_, ?_⟩
  · intro args orders hanswer o ho
    rw [Canister.getMyOrders_eq hs hf he] at hanswer
    obtain ⟨e, hmem, rfl⟩ := View.mem_of_myOrders (Except.ok.inj hanswer) ho
    obtain ⟨⟨r, hr, howner⟩, horder⟩ := (hf.mem_viewOf_orders hs).mp hmem
    have hrecord := (State.orderOf_eq_some.mp horder).2.2
    exact ⟨e.1, e.2.2, hrecord, by rw [← howner, Option.some.inj (hrecord.symm.trans hr)], rfl, rfl⟩
  · intro args trades hanswer t ht
    rw [Canister.getMyTrades_eq hs hf he] at hanswer
    obtain ⟨⟨tid, trade⟩, hmem, rfl⟩ := View.mem_of_myTrades (Except.ok.inj hanswer) ht
    obtain ⟨htrade, howns⟩ := (hf.mem_viewOf_trades hs).mp hmem
    exact ⟨tid, trade, htrade, howns, rfl⟩
  · intro args args' hhides
    rw [Canister.getMyOrders_eq hs hf he, Canister.getMyOrders_eq hs hf he,
      hf.myOrders_hides hs hhides]
  · intro args args' hhides
    rw [Canister.getMyTrades_eq hs hf he, Canister.getMyTrades_eq hs hf he,
      hf.myTrades_hides hs hhides]
  · intro w' h' hagree
    have hs' := h'.guarded.sound
    have he' := (hagree.effectiveAccount_eq hs hs').trans he
    refine ⟨?_, ?_⟩
    · intro args
      rw [Canister.getMyOrders_eq hs hf he, Canister.getMyOrders_eq hs' h'.fed he',
        hagree.viewOf_eq]
    · intro args
      rw [Canister.getMyTrades_eq hs hf he, Canister.getMyTrades_eq hs' h'.fed he',
        hagree.viewOf_eq]

/-- In the sample run the buyer asks for the order of the seller and for one that does not exist. -/
theorem queries_private_sampleWorld :
    sampleWorld.canister.getMyOrders ⟨10⟩
        (some ⟨.byId (FixedWidthId.toText (OrderId.new Seq.zero (Seq.wrap 1)))⟩)
      = sampleWorld.canister.getMyOrders ⟨10⟩
        (some ⟨.byId (FixedWidthId.toText (OrderId.new (Seq.wrap 7) (Seq.wrap 7)))⟩) := by
  obtain ⟨owner, he, -, -, hhides, -⟩ := reachable_sampleWorld.queries_private ⟨10⟩
  have hself : sampleWorld.canister.state.effectiveAccount ⟨10⟩ = .ok ⟨10⟩ := by decide +kernel
  obtain rfl : owner = ⟨10⟩ := Except.ok.inj (he.symm.trans hself)
  refine hhides _ _ (.byId _ _ (.replaced _ _ ?_ ?_))
  · rintro ⟨r, hr, howner⟩
    have hother : (sampleWorld.canister.state.orderHistory.get
        (OrderId.new Seq.zero (Seq.wrap 1))).any (fun r => decide (r.owner = ⟨11⟩)) = true := by
      decide +kernel
    rw [hr, Option.any_some, howner] at hother
    exact absurd (of_decide_eq_true hother) (by decide)
  · rw [Bool.not_eq_true]
    decide +kernel

end World

end OisyTrade
