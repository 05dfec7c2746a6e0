import OisyTrade.Invariant.Sound
import OisyTrade.Order.Round

/-!
# Placing, canceling and matching

What the three acts on a book do to a sound state, stated so that every later argument can start
from it.  `Placed` adds one pending order with its record and reserves its reservation, `Canceled`
takes one live order out of its book and queues its refund, and `Matched` runs a batch of pending
orders, accrues their fills in the records and queues the pieces of the batch.

`Matched.recordEffect` is the step lemma of the life of an order: it puts the effect of the batch on
the book (`SeqEffect`) and the update of the record side by side.
-/

namespace OisyTrade

/-! ## What fills add to a record -/

/-- The fills of a settlement are those of the batch. -/
lemma shares_eq_zero {rates : FeeRates} {scale : BaseScale} {seq : OrderSeq} (c : Column) :
    ∀ {fills : List Fill} {settlements : List FillSettlement},
      List.Forall₂ (fun f s => FillSettlement.new f rates scale = .ok s) fills settlements →
      fillsOn fills seq = [] → shares settlements seq c = 0 := by
  intro fills settlements hall
  induction hall with
  | nil =>
      intro _
      rfl
  | @cons f s _ _ hs _ ih =>
      intro hnone
      rw [fillsOn, List.filter_eq_nil_iff] at hnone
      have hf := hnone f List.mem_cons_self
      rw [Fill.involves, Bool.or_eq_true, not_or, decide_eq_true_eq, decide_eq_true_eq] at hf
      have hrest' := ih (List.filter_eq_nil_iff.mpr fun g hg =>
        hnone g (List.mem_cons_of_mem _ hg))
      rw [shares, List.map_cons, List.sum_cons]
      rw [shares] at hrest'
      rw [hrest', FillSettlement.share, (FillSettlement.of_new hs).fill, if_neg hf.2, if_neg hf.1]

/-- **The quantities of the fills of an order add up in its record**, since nobody trades with
themselves. -/
lemma shares_quantity {rates : FeeRates} {scale : BaseScale} (seq : OrderSeq) :
    ∀ {fills : List Fill} {settlements : List FillSettlement},
      List.Forall₂ (fun f s => FillSettlement.new f rates scale = .ok s) fills settlements →
      (∀ f ∈ fills, f.makerOrderSeq ≠ f.takerOrderSeq) →
      shares settlements seq .quantity = fillTotal (fillsOn fills seq) := by
  intro fills settlements hall
  induction hall with
  | nil =>
      intro _
      rfl
  | @cons f s _ _ hs _ ih =>
      intro hne
      have ih := ih fun g hg => hne g (List.mem_cons_of_mem _ hg)
      have hf := hne f List.mem_cons_self
      have hq : s.share seq .quantity
          = (if f.makerOrderSeq = seq then f.quantity.toNat else 0)
            + (if f.takerOrderSeq = seq then f.quantity.toNat else 0) := by
        rw [FillSettlement.share, FillSettlement.makerAmount, FillSettlement.takerAmount,
          (FillSettlement.of_new hs).fill]
      rw [shares, List.map_cons, List.sum_cons]
      rw [shares] at ih
      rw [ih, hq, fillsOn, fillsOn]
      by_cases hm : f.makerOrderSeq = seq
      · have ht : ¬ f.takerOrderSeq = seq := fun ht => hf (hm.trans ht.symm)
        rw [if_pos hm, if_neg ht, List.filter_cons_of_pos (by simp [Fill.involves, hm]),
          fillTotal, fillTotal, List.map_cons, List.sum_cons, Nat.add_zero]
      · by_cases ht : f.takerOrderSeq = seq
        · rw [if_neg hm, if_pos ht, List.filter_cons_of_pos (by simp [Fill.involves, ht]),
            fillTotal, fillTotal, List.map_cons, List.sum_cons, Nat.zero_add]
        · rw [if_neg hm, if_neg ht, List.filter_cons_of_neg (by simp [Fill.involves, ht, hm]),
            Nat.add_zero, Nat.zero_add]

lemma forall₂_mem_right {α β : Type} {R : α → β → Prop} :
    ∀ {l : List α} {l' : List β}, List.Forall₂ R l l' → ∀ {b : β}, b ∈ l' → ∃ a ∈ l, R a b
  | _, _, .cons hab hrest, c, hc => by
      rcases List.mem_cons.mp hc with rfl | hc
      · exact ⟨_, List.mem_cons_self, hab⟩
      · obtain ⟨a, ha, hr⟩ := forall₂_mem_right hrest hc
        exact ⟨a, List.mem_cons_of_mem _ ha, hr⟩

lemma forall₂_mem_left {α β : Type} {R : α → β → Prop} {l : List α} {l' : List β}
    (h : List.Forall₂ R l l') {a : α} (ha : a ∈ l) : ∃ b ∈ l', R a b :=
  forall₂_mem_right h.flip ha

/-- Groups of mapped elements are mapped groups. -/
lemma exists_groups_of_map_flatten {α β : Type} {f : α → β} :
    ∀ {groups : List (List β)} {l : List α}, groups.flatten = l.map f →
      ∃ groups' : List (List α), groups'.flatten = l ∧ groups = groups'.map (List.map f)
  | [], l, h => by
      rw [List.flatten_nil, eq_comm, List.map_eq_nil_iff] at h
      exact ⟨[], h.symm, rfl⟩
  | g :: groups, l, h => by
      rw [List.flatten_cons, eq_comm, List.map_eq_append_iff] at h
      obtain ⟨l₁, l₂, rfl, rfl, h₂⟩ := h
      obtain ⟨groups', hflat, rfl⟩ := exists_groups_of_map_flatten h₂.symm
      exact ⟨l₁ :: groups', by rw [List.flatten_cons, hflat], rfl⟩

/-- The status that a batch gives an order. -/
lemma OrderBook.StepOut.statusOf_eq (out : OrderBook.StepOut) (seq : OrderSeq) :
    out.output.statusOf seq
      = if seq ∈ out.expired.map Prod.fst then some .expired
        else if seq ∈ out.filled then some .filled
        else if seq ∈ out.resting then some .open else none := by
  have hexp : out.output.expiredOrders.contains seq = true ↔ _ :=
    OrderBook.StepOut.contains_expired
  have hfil : out.output.filledOrders.contains seq = true ↔ _ :=
    OrderBook.StepOut.contains_filled
  have hres : out.output.restingOrders.contains seq = true ↔ _ :=
    OrderBook.StepOut.contains_resting
  rw [MatchingOutput.statusOf]
  by_cases h1 : seq ∈ out.expired.map Prod.fst
  · rw [if_pos (hexp.mpr h1), if_pos h1]
  · rw [if_neg (fun hx => h1 (hexp.mp hx)), if_neg h1]
    by_cases h2 : seq ∈ out.filled
    · rw [if_pos (hfil.mpr h2), if_pos h2]
    · rw [if_neg (fun hx => h2 (hfil.mp hx)), if_neg h2]
      by_cases h3 : seq ∈ out.resting
      · rw [if_pos (hres.mpr ⟨h3, h2⟩), if_pos h3]
      · rw [if_neg (fun hx => h3 (hres.mp hx).1), if_neg h3]

/-! ## Books with one order more or less -/

namespace OrderBook

variable {b b' : OrderBook} {seq : OrderSeq}

/-- `b'` is `b` with one order more behind the pending queue. -/
structure With (b : OrderBook) (order : Order) (b' : OrderBook) : Prop where
  valid : b.ValidOrder order
  fresh : order.id = b.nextSeq
  wf : b'.WellFormed
  below : ∀ seq, seq < b.nextSeq ∨ seq = order.id → seq < b'.nextSeq
  state : b' = { b with pendingOrders := b.pendingOrders ++ [order], nextSeq := b'.nextSeq }

lemma WellFormed.addPendingOrder (hb : b.WellFormed) {order : Order}
    (h : b.addPendingOrder order = .ok b') : b.With order b' := by
  obtain ⟨hvalid, hid, hseq, rfl⟩ := addPendingOrder_eq_ok h
  refine ⟨hvalid, hid, (addPendingOrder_spec hb hvalid hid hseq).2, fun seq hs => ?_, rfl⟩
  rw [hid] at hs
  rcases hs with hs | rfl
  · exact lt_trans hs (Nat.lt_succ_self _)
  · exact Nat.lt_succ_self _

lemma With.mem_live {order o : Order} (h : b.With order b') :
    o ∈ b'.live ↔ o ∈ b.live ∨ o = order := by
  rw [h.state]
  simp only [live, List.mem_append, List.mem_singleton]
  show (o ∈ b.pendingOrders ∨ o = order) ∨ o ∈ b.restingList ↔ _
  tauto

lemma With.find (hb : b.WellFormed) {order : Order} (h : b.With order b') (seq : OrderSeq) :
    b'.find seq = if order.id = seq then some order else b.find seq := by
  split_ifs with he
  · exact h.wf.find_eq_some.mpr ⟨h.mem_live.mpr (Or.inr rfl), he⟩
  · cases hf : b.find seq with
    | none =>
        refine find_eq_none.mpr fun o ho => ?_
        rcases h.mem_live.mp ho with ho | rfl
        · exact find_eq_none.mp hf o ho
        · exact he
    | some o =>
        obtain ⟨ho, hid⟩ := hb.find_eq_some.mp hf
        exact h.wf.find_eq_some.mpr ⟨h.mem_live.mpr (Or.inl ho), hid⟩

lemma Without.mem_live (h : b.Without seq b') {o : Order} :
    o ∈ b'.live ↔ o ∈ b.live ∧ o.id ≠ seq := by
  simp only [live, h.pending, restingList_filter h.resting, List.mem_append, List.mem_filter,
    decide_eq_true_eq]
  tauto

lemma Without.find (hb : b.WellFormed) (h : b.Without seq b') (seq' : OrderSeq) :
    b'.find seq' = if seq = seq' then none else b.find seq' := by
  split_ifs with he
  · refine find_eq_none.mpr fun o ho hid => ?_
    exact (h.mem_live.mp ho).2 (hid.trans he.symm)
  · cases hf : b.find seq' with
    | none =>
        exact find_eq_none.mpr fun o ho => find_eq_none.mp hf o (h.mem_live.mp ho).1
    | some o =>
        obtain ⟨ho, hid⟩ := hb.find_eq_some.mp hf
        exact h.wf.find_eq_some.mpr ⟨h.mem_live.mpr ⟨ho, fun hx => he (hx.symm.trans hid)⟩, hid⟩

/-- The order that an entry of the expired orders belongs to. -/
lemma Chunk.expired_order {orders : List Order} {out : StepOut} (h : Chunk b orders out b')
    (hb : b.WellFormed) {removed : RemovedOrder}
    (he : (seq, removed) ∈ out.output.expiredOrders.entries) :
    ∃ o ∈ b.pendingOrders, o.id = seq ∧ removed = ⟨o.side, o.price, o.remainingQuantity⟩ ∧
      b.find seq = some o ∧ b'.find seq = none ∧ o.timeInForce = .fillOrKill ∧
      fillsOn out.fills seq = [] ∧ seq ∈ out.expired.map Prod.fst := by
  have hget := (SortedMap.mem_entries_iff _).mp he
  have hmem : (seq, removed) ∈ out.expired := by
    rcases SortedMap.mem_of_get_insertAll hget with hx | hx
    · exact hx
    · cases hx
  cases h.effect hb seq with
  | absent _ _ _ _ _ hne => exact absurd (List.mem_map_of_mem hmem) hne
  | live _ _ _ _ _ _ _ _ _ _ hne => exact absurd (List.mem_map_of_mem hmem) hne
  | filled _ _ _ _ _ hne => exact absurd (List.mem_map_of_mem hmem) hne
  | expired o hfind hfok hpend hfind' hfills hnf hnr hin honce =>
      exact ⟨o, hpend, (hb.find_eq_some.mp hfind).2, honce removed hmem, hfind, hfind', hfok, hfills,
        List.mem_map_of_mem hin⟩

end OrderBook

namespace State

variable {s s' : State}

/-! ## Placing -/

/-- **An order was placed.** -/
structure Placed (s : State) (bookId : OrderBookId) (order : Order) (user : Principal)
    (placedBy : Option Principal) (timestamp : Timestamp) (b b' : OrderBook) (pair : TradingPair)
    (scale : BaseScale) (uid : UserId) (required : Quantity) (s' : State) : Prop where
  market : s.Market bookId pair scale
  book : s.orderBooks.get bookId = some b
  grown : b.With order b'
  fits : order.price.toNat * order.remainingQuantity.toNat < 2 ^ 256
  owner : s.userRegistry.fundingId user = some uid
  amount : required.toNat = reservation order.side order.price scale order.remainingQuantity.toNat
  reserve : s.balances.reserve uid (pair.token (reserveToken order.side)) required
    = .ok (.ok (), s'.balances)
  history : s.orderHistory.insertOnce uid (.new bookId order.id)
    (newRecord user order placedBy timestamp) = .ok s'.orderHistory
  state : s' = { s with balances := s'.balances, orderHistory := s'.orderHistory,
                        orderBooks := s.orderBooks.insert bookId b' }

lemma Sound.placed (h : s.Sound) {event : AddLimitOrderEvent} {timestamp : Timestamp}
    (hadmits : s.Admits timestamp (.addLimitOrder event))
    (hok : s.applyStateTransition (.addLimitOrder event) timestamp .write = .ok s') :
    ∃ order b b' pair scale uid required,
      order = PendingOrder.intoOrder ⟨event.side, event.price, event.quantity, event.timeInForce⟩
        event.orderId.seq ∧
      s.Placed event.orderId.bookId order event.user event.placedBy timestamp b b' pair scale uid
        required s' := by
  obtain ⟨pair, scale, b, uid, required, balances, history, b', hm, hb, hu, hreq, hres, hins, hadd,
    rfl⟩ := recordLimitOrder_eq_ok hok
  refine ⟨_, b, b', pair, scale, uid, required, rfl, hm, hb, ?_, ?_, hu, hreq, hres, hins, rfl⟩
  · exact (h.wired.listed _ b hb).wf.addPendingOrder hadd
  · obtain ⟨_, _, hval, -⟩ := hadmits
    obtain ⟨_, _, _, amount, -, -, -, -, hmul, -⟩ := Canister.validateLimitOrder_eq_ok hval
    exact (Price.of_checkedMulQuantityScaled hmul).2

namespace Placed

variable {bookId : OrderBookId} {order : Order} {user : Principal} {placedBy : Option Principal}
  {timestamp : Timestamp} {b b' : OrderBook} {pair : TradingPair} {scale : BaseScale} {uid : UserId}
  {required : Quantity}

/-- The record of a new order. -/
lemma standing (h : s.Placed bookId order user placedBy timestamp b b' pair scale uid required s')
    (hb : b.WellFormed) :
    Terms b' (newRecord user order placedBy timestamp) ∧
      Standing b' order.id (newRecord user order placedBy timestamp) := by
  obtain ⟨hprice, htick, hquantity, hlot⟩ := h.grown.valid
  refine ⟨⟨hprice, ?_, hquantity, ?_, h.fits⟩, ?_⟩
  · rw [h.grown.state]
    exact htick
  · rw [h.grown.state]
    exact hlot
  · refine .pending order (by rw [h.grown.find hb, if_pos rfl]) ?_ rfl rfl rfl rfl rfl ?_
    · rw [h.grown.state]
      exact List.mem_append_right _ List.mem_cons_self
    · intro c
      cases c <;> exact Quantity.toNat_zero

theorem sound (h : s.Placed bookId order user placedBy timestamp b b' pair scale uid required s')
    (hs : s.Sound) : s'.Sound ∧ s.Extends s' := by
  have hwf := (hs.wired.listed _ b h.book).wf
  have hget := History.get_insertOnce h.history
  have hnew := History.get_eq_none_of_insertOnce h.history
  have hold : ∀ seq r, s.orderHistory.get (.new bookId seq) = some r → order.id ≠ seq := by
    rintro seq r hr rfl
    rw [hnew] at hr
    cases hr
  obtain ⟨hterms, hstand⟩ := h.standing hwf
  refine hs.of_book h.book (by rw [h.state]) (by rw [h.state]) (by rw [h.state]) (by rw [h.state])
    (by rw [h.state]) (by rw [h.grown.state]) (by rw [h.grown.state]) (by rw [h.grown.state])
    h.grown.wf ?_ ?_ ?_ ?_ ?_ ?_ (hs.orders.insertOnce h.history) (by rw [h.state])
  · rw [h.grown.state]
    exact (hs.wired.listed _ b h.book).drained
  · intro oid hne
    rw [hget, if_neg]
    rintro rfl
    exact hne rfl
  · intro seq r hr
    refine ⟨r, ?_, OrderRecord.Evolves.refl r⟩
    rw [hget, if_neg]
    · exact hr
    · exact fun he => hold seq r hr (OrderId.new_inj.mp he).2
  · intro seq r hr
    rw [hget] at hr
    split_ifs at hr with he
    · cases hr
      rw [← (OrderId.new_inj.mp he).2]
      exact ⟨h.grown.below _ (Or.inr rfl), hterms, hstand, uid, h.owner⟩
    · obtain ⟨b₀, hb₀, hlt, ht, hst⟩ := (hs.records _ r hr).book
      obtain rfl : b = b₀ := Option.some.inj (h.book.symm.trans hb₀)
      refine ⟨h.grown.below _ (Or.inl hlt), ?_, ?_, (hs.records _ r hr).owner⟩
      · rw [h.grown.state]
        exact ⟨ht.price, ht.tick, ht.quantity, ht.lot, ht.fits⟩
      · refine hst.congr ?_ ?_ ?_
        · rw [h.grown.find hwf, if_neg]
          exact hold seq r hr
        · intro o _ ho
          rw [h.grown.state]
          exact List.mem_append_left _ ho
        · intro o _ ho
          rw [h.grown.state]
          exact ho
  · intro o ho
    rw [hget]
    split_ifs with he
    · rfl
    · rcases h.grown.mem_live.mp ho with ho | rfl
      · exact hs.live _ b h.book o ho
      · exact absurd rfl he
  · intro event hev
    rw [h.state] at hev
    exact Or.inl hev

end Placed

/-! ## Canceling -/

/-- **An order was canceled.** -/
structure Canceled (s : State) (id : OrderId) (canceledBy : Option Principal) (now : Timestamp)
    (o : Order) (r r' : OrderRecord) (b b' : OrderBook) (pair : TradingPair) (scale : BaseScale)
    (refund : RemovedOrderSettlement) (s' : State) : Prop where
  market : s.Market id.bookId pair scale
  book : s.orderBooks.get id.bookId = some b
  live : b.find id.seq = some o
  removed : b.Without id.seq b'
  record : s.orderHistory.get id = some r
  update : (OrderUpdate.cancel canceledBy).Applied r r'
  refunded : RemovedOrderSettlement.new id.seq ⟨o.side, o.price, o.remainingQuantity⟩ scale
    = .ok refund
  applied : s.orderHistory.applyUpdate id (.cancel canceledBy) now = .ok s'.orderHistory
  history : ∀ k, s'.orderHistory.get k = if id = k then some r' else s.orderHistory.get k
  state : s' = { s with
    orderBooks := s.orderBooks.insert id.bookId b'
    orderHistory := s'.orderHistory
    pendingSettlingEvents := s.pendingSettlingEvents ++ [eventOf id.bookId [.refund refund]] }

lemma eventOf_refund (bookId : OrderBookId) (refund : RemovedOrderSettlement) :
    eventOf bookId [.refund refund] = ⟨bookId, refund.balanceOperations, []⟩ := by
  rw [eventOf, List.flatMap_singleton, List.flatMap_singleton]
  rfl

lemma Sound.canceled (h : s.Sound) {id : OrderId} {canceledBy : Option Principal} {now : Timestamp}
    (hok : s.recordCancelLimitOrder id canceledBy now .write = .ok s') :
    ∃ o r r' b b' pair scale refund,
      s.Canceled id canceledBy now o r r' b b' pair scale refund s' := by
  obtain ⟨pair, scale, b, removed, b', history, refund, hm, hb, hrem, happ, href, rfl⟩ :=
    recordCancelLimitOrder_eq_ok hok
  have hwf := (h.wired.listed _ b hb).wf
  obtain ⟨r, r', hr, hupd, hget, -⟩ := OrderUpdate.of_applyUpdate happ
  cases hfind : b.find id.seq with
  | none =>
      rw [OrderBook.removeOrder_dead hwf.sound (OrderBook.find_eq_none.mp hfind)] at hrem
      cases hrem
  | some o =>
      obtain ⟨ho, hid⟩ := hwf.find_eq_some.mp hfind
      obtain ⟨b'', hrem', hwithout⟩ := OrderBook.removeOrder_live hwf ho
      rw [hid] at hrem' hwithout
      rw [hrem'] at hrem
      cases hrem
      refine ⟨o, r, r', b, b', pair, scale, refund, hm, hb, hfind, hwithout, hr, hupd, href, happ,
        hget, ?_⟩
      rw [eventOf_refund]

namespace Canceled

variable {id : OrderId} {canceledBy : Option Principal} {now : Timestamp} {o : Order}
  {r r' : OrderRecord} {b b' : OrderBook} {pair : TradingPair} {scale : BaseScale}
  {refund : RemovedOrderSettlement}

/-- A canceled order was live, and what it had left is not zero. -/
lemma standing (h : s.Canceled id canceledBy now o r r' b b' pair scale refund s') (hs : s.Sound) :
    Terms b r ∧ Standing b id.seq r ∧ o ∈ b.live ∧ o.id = id.seq ∧
      0 < o.remainingQuantity.toNat ∧ r.status.isTerminal = false ∧
      o.remainingQuantity.toNat + r.filledQuantity.toNat = r.quantity.toNat := by
  have hwf := (hs.wired.listed _ b h.book).wf
  obtain ⟨ho, hid⟩ := hwf.find_eq_some.mp h.live
  obtain ⟨b₀, hb₀, -, hterms, hstand⟩ := (hs.records _ r h.record).book
  obtain rfl : b = b₀ := Option.some.inj (h.book.symm.trans hb₀)
  obtain ⟨-, -, -, hq, hterm, -⟩ := hstand.of_live h.live
  exact ⟨hterms, hstand, ho, hid, (hwf.valid o ho).2.2.1, hterm, hq⟩

lemma status (h : s.Canceled id canceledBy now o r r' b b' pair scale refund s') :
    r'.status = .canceled ∧ ∀ c, r'.filled c = r.filled c := by
  refine ⟨h.update.status, fun c => ?_⟩
  have hzero : (OrderUpdate.cancel canceledBy).delta c = 0 := by
    cases c <;> exact Quantity.toNat_zero
  rw [h.update.filled c, hzero, Nat.add_zero]

lemma evolves (h : s.Canceled id canceledBy now o r r' b b' pair scale refund s') (hs : s.Sound) :
    r.Evolves r' := by
  obtain ⟨-, hstand, -, -, -, hterm, -⟩ := h.standing hs
  refine OrderRecord.Evolves.of_applied h.update hterm ?_
  rw [h.status.1]
  obtain ⟨-, -, -, -, -, hcase⟩ := hstand.of_live h.live
  rcases hcase with ⟨-, hst, -⟩ | ⟨-, hst⟩
  · rw [hst]
    exact .ofPending _
  · rw [hst]
    exact .cancel

/-- The refund of a cancel agrees with the record of its order. -/
lemma refundPiece (h : s.Canceled id canceledBy now o r r' b b' pair scale refund s')
    (hs : s.Sound) : s'.RefundPiece id.bookId scale refund r' := by
  obtain ⟨-, hstand, -, -, hpos, -, hq⟩ := h.standing hs
  obtain ⟨hside, hprice, -⟩ := hstand.of_live h.live
  have hseq := (RemovedOrderSettlement.of_new h.refunded).1
  have hfilled : r'.filledQuantity.toNat = r.filledQuantity.toNat := h.status.2 .quantity
  refine ⟨?_, Or.inl h.status.1, o.remainingQuantity, ?_, hpos, ?_⟩
  · rw [hseq, OrderId.new_eta, h.history, if_pos rfl]
  · rw [hfilled, h.update.quantity, hq]
  · rw [hseq, h.update.side, h.update.price, ← hside, ← hprice]
    exact h.refunded

lemma market' (h : s.Canceled id canceledBy now o r r' b b' pair scale refund s') :
    s'.Market id.bookId pair scale := by
  rw [h.state]
  exact ⟨h.market.pair, h.market.scale⟩

theorem sound (h : s.Canceled id canceledBy now o r r' b b' pair scale refund s')
    (hs : s.Sound) : s'.Sound ∧ s.Extends s' := by
  have hwf := (hs.wired.listed _ b h.book).wf
  obtain ⟨hterms, hstand, ho, hid, hpos, hterm, hq⟩ := h.standing hs
  obtain ⟨_, _, -, -, -, hidx, -⟩ := OrderUpdate.of_applyUpdate h.applied
  have heta : OrderId.new id.bookId id.seq = id := OrderId.new_eta id
  have hlast : ∀ seq, id = .new id.bookId seq ↔ id.seq = seq := by
    intro seq
    rw [← OrderId.new_eta id, OrderId.new_inj]
    exact ⟨fun hx => hx.2, fun hx => ⟨rfl, hx⟩⟩
  have hbelow : ∀ seq, seq < b.nextSeq → seq < b'.nextSeq := by
    intro seq hlt
    rw [h.removed.config.nextSeq]
    exact hlt
  have hterms' : ∀ r, Terms b r → Terms b' r := fun r ht =>
    ⟨ht.price, by rw [h.removed.config.tickSize]; exact ht.tick, ht.quantity,
      by rw [h.removed.config.lotSize]; exact ht.lot, ht.fits⟩
  refine hs.of_book h.book (by rw [h.state]) (by rw [h.state]) (by rw [h.state]) (by rw [h.state])
    (by rw [h.state]) h.removed.config.id h.removed.config.tickSize h.removed.config.lotSize
    h.removed.wf ?_ ?_ ?_ ?_ ?_ ?_ (hidx hs.orders) (by rw [h.state])
  · rw [h.removed.filledOrders]
    exact (hs.wired.listed _ b h.book).drained
  · intro oid hne
    rw [h.history, if_neg]
    rintro rfl
    exact hne rfl
  · intro seq r₀ hr₀
    rw [h.history]
    split_ifs with he
    · rw [← he, h.record] at hr₀
      cases hr₀
      exact ⟨r', rfl, h.evolves hs⟩
    · exact ⟨r₀, hr₀, OrderRecord.Evolves.refl r₀⟩
  · intro seq r₀ hr₀
    rw [h.history] at hr₀
    split_ifs at hr₀ with he
    · cases hr₀
      rw [hlast] at he
      subst he
      obtain ⟨uid, hu⟩ := (hs.records _ r h.record).owner
      obtain ⟨_, hb₀, hlt, -⟩ := (hs.records _ r h.record).book
      obtain rfl : b = _ := Option.some.inj (h.book.symm.trans hb₀)
      refine ⟨hbelow _ hlt, hterms' _ ?_, ?_, uid, by rw [h.update.owner]; exact hu⟩
      · refine ⟨?_, ?_, ?_, ?_, ?_⟩ <;> simp only [h.update.price, h.update.quantity]
        · exact hterms.price
        · exact hterms.tick
        · exact hterms.quantity
        · exact hterms.lot
        · exact hterms.fits
      · have hfilled : r'.filledQuantity.toNat = r.filledQuantity.toNat := h.status.2 .quantity
        refine .canceled (by rw [h.removed.find hwf, if_pos rfl]) h.status.1 ?_
        rw [hfilled, h.update.quantity]
        omega
    · obtain ⟨b₀, hb₀, hlt, ht, hst⟩ := (hs.records _ r₀ hr₀).book
      obtain rfl : b = b₀ := Option.some.inj (h.book.symm.trans hb₀)
      have hne : id.seq ≠ seq := fun hx => he ((hlast seq).mpr hx)
      refine ⟨hbelow _ hlt, hterms' _ ht, ?_, (hs.records _ r₀ hr₀).owner⟩
      refine hst.congr ((h.removed.find hwf seq).trans (if_neg hne)) ?_ ?_
      · intro o' ho' hmem
        rw [h.removed.pending, List.mem_filter]
        refine ⟨hmem, decide_eq_true ?_⟩
        rw [(hwf.find_eq_some.mp ho').2]
        exact Ne.symm hne
      · intro o' ho' hmem
        rw [OrderBook.restingList_filter h.removed.resting, List.mem_filter]
        refine ⟨hmem, decide_eq_true ?_⟩
        rw [(hwf.find_eq_some.mp ho').2]
        exact Ne.symm hne
  · intro o' ho'
    rw [h.history]
    split_ifs with he
    · rfl
    · exact hs.live _ b h.book o' (h.removed.mem_live.mp ho').1
  · intro event hev
    rw [h.state, List.mem_append, List.mem_singleton] at hev
    refine hev.imp_right fun he => ?_
    subst he
    refine ⟨pair, scale, [.refund refund], h.market', rfl, fun p hp => ?_⟩
    rw [List.mem_singleton.mp hp]
    exact ⟨r', h.refundPiece hs⟩

end Canceled

/-! ## Matching -/

/-- **A batch was matched.**  `groups` are the pieces of the batch as they are cut into events. -/
structure Matched (s : State) (bookId : OrderBookId) (now : Timestamp) (b b' : OrderBook)
    (orders : List Order) (out : OrderBook.StepOut) (pair : TradingPair) (scale : BaseScale)
    (fills : List FillSettlement) (refunds : List RemovedOrderSettlement)
    (groups : List (List Piece)) (s' : State) : Prop where
  market : s.Market bookId pair scale
  book : s.orderBooks.get bookId = some b
  chunk : OrderBook.Chunk b orders out b'
  settled : List.Forall₂ (fun f st => FillSettlement.new f b.feeRates scale = .ok st) out.fills fills
  refunded : List.Forall₂ (fun e rs => RemovedOrderSettlement.new e.1 e.2 scale = .ok rs)
    out.output.expiredOrders.entries refunds
  pieces : groups.flatten = fills.map Piece.fill ++ refunds.map Piece.refund
  records : ∀ seq r, s.orderHistory.get (.new bookId seq) = some r →
    ∃ (r' : OrderRecord) (u : OrderUpdate),
      s'.orderHistory.get (.new bookId seq) = some r' ∧ u.Applied r r' ∧
      u.status = out.output.statusOf seq ∧ (∀ c, u.delta c = shares fills seq c) ∧
      (fillsOn out.fills seq = [] → out.output.statusOf seq = none → r' = r)
  others : ∀ id, id.bookId ≠ bookId → s'.orderHistory.get id = s.orderHistory.get id
  present : ∀ id, (s'.orderHistory.get id).isSome ↔ (s.orderHistory.get id).isSome
  indexed : s.orderHistory.Indexed → s'.orderHistory.Indexed
  userKeys : ∀ user, s'.orderHistory.userKeys user = s.orderHistory.userKeys user
  size : s'.orderHistory.primary.size = s.orderHistory.primary.size
  state : s' = { s with
    orderBooks := s.orderBooks.insert bookId b'
    orderHistory := s'.orderHistory
    pendingSettlingEvents := s.pendingSettlingEvents ++ groups.map (eventOf bookId) }

lemma Sound.matched (h : s.Sound) {event : MatchingEvent} {now : Timestamp}
    (hadmits : s.Admits now (.matching event))
    (hok : s.recordMatchingEvent event now .write = .ok s') :
    ∃ b b' orders out pair scale fills refunds groups,
      event.orders = orders.map Order.id ∧ orders ≠ [] ∧
      s.Matched event.bookId now b b' orders out pair scale fills refunds groups s' := by
  obtain ⟨b₀, n, hb₀, horders, hne, -⟩ := hadmits
  obtain ⟨pair, scale, b, output, b', settlement, history, hm, hb, hproc, hset, happ, rfl⟩ :=
    recordMatchingEvent_eq_ok hok
  obtain rfl : b = b₀ := Option.some.inj (hb.symm.trans hb₀)
  have hl := h.wired.listed _ b hb
  have htake : event.orders = (b.pendingOrders.take n).map Order.id := by
    rw [horders, OrderBook.pendingOrderSeqs, List.map_take]
  obtain ⟨out, b'', hchunk, hproc'⟩ := OrderBook.processPendingOrders_spec hl.wf hl.drained
    (List.take_append_drop n b.pendingOrders).symm
  rw [htake, hproc'] at hproc
  cases hproc
  obtain ⟨fills, refunds, hspec⟩ := MatchSettlement.of_fromMatching hset
  obtain ⟨hpresent, hothers, hrecords, -, hidx, hkeys, hsize⟩ := applyUpdates_eq_ok happ
  obtain ⟨unitGroups, hflat, hbatches⟩ := hspec.batches
  have hunits : unitGroups.flatten
      = (fills.map Piece.fill ++ refunds.map Piece.refund).map Piece.unit := by
    rw [hflat, List.map_append, List.map_map, List.map_map]
    rfl
  obtain ⟨groups, hgroups, rfl⟩ := exists_groups_of_map_flatten hunits
  have hevents : settlement.settlingBatches.map (settlingEventOf event.bookId)
      = groups.map (eventOf event.bookId) := by
    rw [hbatches, List.map_map, List.map_map]
    exact List.map_congr_left fun g _ => settlingEventOf_units event.bookId g
  refine ⟨b, b', _, out, pair, scale, fills, refunds, groups, htake, ?_, hm, hb, hchunk,
    hspec.settled, hspec.refunded, hgroups, ?_, hothers, hpresent, hidx, hkeys, hsize, ?_⟩
  · intro hnil
    rw [htake, hnil] at hne
    exact hne rfl
  · intro seq r hr
    obtain ⟨r', hr', hcase⟩ := hrecords seq r hr
    have hsame : fillsOn out.fills seq = [] → out.output.statusOf seq = none → r' = r := by
      intro hnone hstatus
      rcases hcase with ⟨-, rfl⟩ | ⟨hsome, -⟩
      · rfl
      · rcases hspec.updated seq hsome with ⟨f, hf, hinv⟩ | hstatus'
        · exact absurd hinv (List.filter_eq_nil_iff.mp hnone f hf)
        · rw [hstatus] at hstatus'
          cases hstatus'
    refine ⟨r', updateOf settlement.orderUpdates seq, hr', ?_, hspec.status seq, hspec.delta seq,
      hsame⟩
    rcases hcase with ⟨hnone, rfl⟩ | ⟨-, ha⟩
    · rw [updateOf, hnone]
      exact OrderUpdate.Applied.refl r'
    · exact ha
  · rw [hevents]

namespace Matched

variable {bookId : OrderBookId} {now : Timestamp} {b b' : OrderBook} {orders : List Order}
  {out : OrderBook.StepOut} {pair : TradingPair} {scale : BaseScale} {fills : List FillSettlement}
  {refunds : List RemovedOrderSettlement} {groups : List (List Piece)}

/-- **One record and one batch**: the record moves with the order. -/
lemma recordEffect (h : s.Matched bookId now b b' orders out pair scale fills refunds groups s')
    (hs : s.Sound) {seq : OrderSeq} {r : OrderRecord}
    (hr : s.orderHistory.get (.new bookId seq) = some r) :
    ∃ r', s'.orderHistory.get (.new bookId seq) = some r' ∧ r.Evolves r' ∧ Standing b' seq r' ∧
      ∀ c, r'.filled c = r.filled c + shares fills seq c := by
  have hl := hs.wired.listed _ b h.book
  have hwf' := h.chunk.wf hl.wf
  have hstand : Standing b seq r := (hs.book_of_record hr h.book).2.2
  obtain ⟨r', u, hr', happ, hstatus, hdelta, hsame⟩ := h.records seq r hr
  have hfilled : ∀ c, r'.filled c = r.filled c + shares fills seq c := fun c => by
    rw [happ.filled c, hdelta c]
  have hquantity : r'.filledQuantity.toNat
      = r.filledQuantity.toNat + fillTotal (fillsOn out.fills seq) := by
    rw [← shares_quantity seq h.settled fun f hf => ?_]
    · exact hfilled .quantity
    · obtain ⟨t, m, hok⟩ := h.chunk.fillOk hl.wf hf
      rw [hok.makerSeq, hok.takerSeq]
      exact ne_of_lt hok.earlier
  rw [OrderBook.StepOut.statusOf_eq] at hstatus hsame
  have hstatus' : r'.status = u.status.getD r.status := happ.status
  refine ⟨r', hr', ?_⟩
  cases h.chunk.effect hl.wf seq with
  | absent hfind hfind' hfills hnf hnr hne =>
      rw [if_neg hne, if_neg hnf, if_neg hnr] at hsame
      obtain rfl := hsame hfills rfl
      refine ⟨OrderRecord.Evolves.refl _, hstand.congr (hfind'.trans hfind.symm) ?_ ?_, hfilled⟩
      · intro o ho
        rw [hfind] at ho
        cases ho
      · intro o ho
        rw [hfind] at ho
        cases ho
  | live o o' hfind hfind' hterms hq hpending hresting hrests hnf hne =>
      obtain ⟨hside, hprice, htif, hrem, hterm, hcase⟩ := hstand.of_live hfind
      rw [if_neg hne, if_neg hnf] at hstatus hsame
      rcases OrderBook.mem_live.mp (hwf'.find_eq_some.mp hfind').1 with hp | hrest
      · -- Still pending: the batch did not reach it.
        obtain ⟨rfl, hop, hfills⟩ := hpending hp
        have hnr : seq ∉ out.resting := fun hx =>
          hwf'.not_resting_of_pending hp (hresting.mpr (Or.inr hx))
        rw [if_neg hnr] at hsame
        obtain rfl := hsame hfills rfl
        refine ⟨OrderRecord.Evolves.refl _, hstand.congr (hfind'.trans hfind.symm) ?_ ?_, hfilled⟩
        · intro o₁ ho₁ _
          rw [hfind] at ho₁
          cases ho₁
          exact hp
        · intro o₁ ho₁ hr₁
          rw [hfind] at ho₁
          cases ho₁
          exact absurd hr₁ (hl.wf.not_resting_of_pending hop)
      · have hopen : r'.status = .open := by
          rw [hstatus', hstatus]
          split_ifs with hin
          · rfl
          · have hold : o ∈ b.restingList := (hresting.mp hrest).resolve_right hin
            rcases hcase with ⟨hpend, -⟩ | ⟨-, hst⟩
            · exact absurd hold (hl.wf.not_resting_of_pending hpend)
            · exact hst
        refine ⟨OrderRecord.Evolves.of_applied happ hterm ?_, ?_, hfilled⟩
        · rw [hopen]
          rcases hcase with ⟨-, hst, -⟩ | ⟨-, hst⟩
          · rw [hst]
            exact .ofPending _
          · rw [hst]
            exact .same _
        · refine .resting o' hfind' hrest ?_ ?_ ?_ ?_ hopen
          · rw [hterms.side, happ.side, hside]
          · rw [hterms.price, happ.price, hprice]
          · rw [hterms.timeInForce, happ.timeInForce, htif]
          · rw [hquantity, happ.quantity]
            omega
  | filled o hfind hfind' hq hin hne =>
      obtain ⟨hside, hprice, htif, hrem, hterm, hcase⟩ := hstand.of_live hfind
      rw [if_neg hne, if_pos hin] at hstatus
      have hst' : r'.status = .filled := by
        rw [hstatus', hstatus]
        rfl
      refine ⟨OrderRecord.Evolves.of_applied happ hterm ?_, .filled hfind' hst' ?_, hfilled⟩
      · rw [hst']
        rcases hcase with ⟨-, hst, -⟩ | ⟨-, hst⟩
        · rw [hst]
          exact .ofPending _
        · rw [hst]
          exact .fill
      · rw [hquantity, happ.quantity]
        omega
  | expired o hfind hfok hpend hfind' hfills hnf hnr hin honce =>
      obtain ⟨hside, hprice, htif, hrem, hterm, hcase⟩ := hstand.of_live hfind
      rw [if_pos (List.mem_map_of_mem hin)] at hstatus
      have hst' : r'.status = .expired := by
        rw [hstatus', hstatus]
        rfl
      rcases hcase with ⟨-, hst, hzero⟩ | ⟨hrest, -⟩
      · refine ⟨OrderRecord.Evolves.of_applied happ hterm ?_, .expired hfind' hst' ?_ ?_, hfilled⟩
        · rw [hst', hst]
          exact .ofPending _
        · rw [happ.timeInForce, ← htif, hfok]
        · intro c
          rw [hfilled c, hzero c, shares_eq_zero c h.settled hfills]
      · exact absurd hrest (hl.wf.not_resting_of_pending hpend)

lemma market' (h : s.Matched bookId now b b' orders out pair scale fills refunds groups s') :
    s'.Market bookId pair scale := by
  rw [h.state]
  exact ⟨h.market.pair, h.market.scale⟩

/-- The record of a live order before and after the batch. -/
lemma record_of_live (h : s.Matched bookId now b b' orders out pair scale fills refunds groups s')
    (hs : s.Sound) {o : Order} (ho : o ∈ b.live) :
    ∃ r r', s.orderHistory.get (.new bookId o.id) = some r ∧
      s'.orderHistory.get (.new bookId o.id) = some r' ∧ r.Evolves r' ∧
      o.side = r.side ∧ o.price = r.price := by
  obtain ⟨r, hr, -, -, hstand, hfind⟩ := hs.record_of_live h.book ho
  obtain ⟨r', hr', hev, -⟩ := h.recordEffect hs hr
  obtain ⟨hside, hprice, -⟩ := hstand.of_live hfind
  exact ⟨r, r', hr, hr', hev, hside, hprice⟩

/-- **The fills of a batch agree with the records.** -/
lemma fillPiece (h : s.Matched bookId now b b' orders out pair scale fills refunds groups s')
    (hs : s.Sound) {st : FillSettlement} (hst : st ∈ fills) :
    ∃ t m, s'.FillPiece bookId scale st t m := by
  have hl := hs.wired.listed _ b h.book
  obtain ⟨f, hf, hnew⟩ := forall₂_mem_right h.settled hst
  have hspec := FillSettlement.of_new hnew
  obtain ⟨t, m, hok⟩ := h.chunk.fillOk hl.wf hf
  have ht : t ∈ b.live :=
    OrderBook.mem_live.mpr (Or.inl (h.chunk.processed_pending hl.wf hok.taker).1)
  obtain ⟨rt, rt', -, hrt', het, htside, htprice⟩ := h.record_of_live hs ht
  obtain ⟨rm, rm', -, hrm', hem, hmside, hmprice⟩ := h.record_of_live hs hok.maker
  refine ⟨rt', rm', ?_, ?_, ?_, ?_, ?_, ?_, ?_, ?_, ?_, ?_⟩
  · rw [hspec.fill, hspec.feeRates]
    exact hnew
  · rw [hspec.fill, hok.takerSeq]
    exact hrt'
  · rw [hspec.fill, hok.makerSeq]
    exact hrm'
  · rw [hspec.fill, hok.takerSide, htside, het.side]
  · rw [hspec.fill, hok.takerPrice, htprice, het.price]
  · rw [hem.side, het.side, ← hmside, ← htside, hok.makerSide]
  · rw [hspec.fill, hok.makerPrice, hmprice, hem.price]
  · rw [het.side, het.price, hem.price, ← htside, ← htprice, ← hmprice]
    exact hok.crosses
  · rw [hspec.fill, hok.makerSeq, hok.takerSeq]
    exact hok.earlier
  · rw [hspec.fill]
    exact hok.positive

/-- The order that a refund of the batch belongs to. -/
lemma refund_order (h : s.Matched bookId now b b' orders out pair scale fills refunds groups s')
    (hs : s.Sound) {rs : RemovedOrderSettlement} (hrs : rs ∈ refunds) :
    ∃ o ∈ b.pendingOrders, rs.orderSeq = o.id ∧ b.find o.id = some o ∧ b'.find o.id = none ∧
      o.timeInForce = .fillOrKill ∧ fillsOn out.fills o.id = [] ∧
      o.id ∈ out.expired.map Prod.fst ∧
      RemovedOrderSettlement.new o.id ⟨o.side, o.price, o.remainingQuantity⟩ scale = .ok rs := by
  obtain ⟨⟨seq, removed⟩, he, hnew⟩ := forall₂_mem_right h.refunded hrs
  have hseq := (RemovedOrderSettlement.of_new hnew).1
  obtain ⟨o, hpend, rfl, rfl, hfind, hfind', hfok, hfills, hin⟩ :=
    h.chunk.expired_order (hs.wired.listed _ b h.book).wf he
  exact ⟨o, hpend, hseq, hfind, hfind', hfok, hfills, hin, hnew⟩

/-- **The refunds of a batch agree with the records.** -/
lemma refundPiece (h : s.Matched bookId now b b' orders out pair scale fills refunds groups s')
    (hs : s.Sound) {rs : RemovedOrderSettlement} (hrs : rs ∈ refunds) :
    ∃ r, s'.RefundPiece bookId scale rs r := by
  have hl := hs.wired.listed _ b h.book
  obtain ⟨o, hpend, hseq, hfind, hfind', -, hfills, hexp, hnew⟩ := h.refund_order hs hrs
  have ho : o ∈ b.live := OrderBook.mem_live.mpr (Or.inl hpend)
  obtain ⟨r, hr, -, -, hstand, -⟩ := hs.record_of_live h.book ho
  obtain ⟨r', hr', hev, hstand', hfilled⟩ := h.recordEffect hs hr
  obtain ⟨hside, hprice, -, hq, -, -⟩ := hstand.of_live hfind
  obtain ⟨r'', u, hr'', happ, hstatus, -⟩ := h.records o.id r hr
  obtain rfl : r' = r'' := Option.some.inj (hr'.symm.trans hr'')
  have hst : r'.status = .expired := by
    rw [happ.status, hstatus, OrderBook.StepOut.statusOf_eq, if_pos hexp]
    rfl
  refine ⟨r', by rw [hseq]; exact hr', Or.inr hst, o.remainingQuantity, ?_,
    (hl.wf.valid o ho).2.2.1, ?_⟩
  · have hzero : r'.filledQuantity.toNat = r.filledQuantity.toNat := by
      have hx := hfilled .quantity
      rw [shares_eq_zero _ h.settled hfills, Nat.add_zero] at hx
      exact hx
    rw [hzero, hev.quantity, hq]
  · rw [hseq, hev.side, hev.price, ← hside, ← hprice]
    exact hnew

/-- A fill names two orders that have traded. -/
lemma not_names_fill
    (h : s.Matched bookId now b b' orders out pair scale fills refunds groups s') (hs : s.Sound)
    {seq : OrderSeq} {r' : OrderRecord} (hr' : s'.orderHistory.get (.new bookId seq) = some r')
    (hzero : r'.filled .quantity = 0) {st : FillSettlement} (hst : st ∈ fills) :
    ∀ op ∈ st.balanceOperations, seq ∉ op.seqs := by
  intro op hop hseq
  obtain ⟨r, hr⟩ := Option.isSome_iff_exists.mp ((h.present _).mp (by rw [hr']; rfl))
  obtain ⟨r'', hr'', -, -, hfilled⟩ := h.recordEffect hs hr
  obtain rfl : r'' = r' := Option.some.inj (hr''.symm.trans hr')
  have hshares : shares fills seq .quantity = 0 := by
    have hx := hfilled .quantity
    omega
  have hshare : st.share seq .quantity = 0 := by
    have hle : st.share seq .quantity ≤ shares fills seq .quantity :=
      List.le_sum_of_mem (List.mem_map.mpr ⟨st, hst, rfl⟩)
    omega
  obtain ⟨_, _, hpiece⟩ := h.fillPiece hs hst
  have hpos := hpiece.positive
  rw [FillSettlement.share] at hshare
  rcases (mem_seqs_balanceOperations st seq).mp (List.mem_flatMap.mpr ⟨op, hop, hseq⟩) with he | he
  · rw [← he, if_pos rfl] at hshare
    have hq : st.takerAmount .quantity = st.fill.quantity.toNat := rfl
    omega
  · rw [← he, if_pos rfl] at hshare
    have hq : st.makerAmount .quantity = st.fill.quantity.toNat := rfl
    omega

/-- Refunds of one batch are for different orders. -/
lemma nodup_refunds
    (h : s.Matched bookId now b b' orders out pair scale fills refunds groups s') :
    (refunds.map fun rs => rs.orderSeq).Nodup := by
  have hkeys : ∀ {es : List (OrderSeq × RemovedOrder)} {rss : List RemovedOrderSettlement},
      List.Forall₂ (fun e rs => RemovedOrderSettlement.new e.1 e.2 scale = .ok rs) es rss →
      rss.map (fun rs => rs.orderSeq) = es.map Prod.fst := by
    intro es rss hall
    induction hall with
    | nil => rfl
    | cons hnew _ ih =>
        rw [List.map_cons, List.map_cons, ih, (RemovedOrderSettlement.of_new hnew).1]
  rw [hkeys h.refunded]
  exact SortedMap.keys_nodup _

lemma pieceOk (h : s.Matched bookId now b b' orders out pair scale fills refunds groups s')
    (hs : s.Sound) {p : Piece} (hp : p ∈ groups.flatten) : s'.PieceOk bookId scale p := by
  rw [h.pieces, List.mem_append, List.mem_map, List.mem_map] at hp
  rcases hp with ⟨st, hst, rfl⟩ | ⟨rs, hrs, rfl⟩
  · exact h.fillPiece hs hst
  · exact h.refundPiece hs hrs

theorem sound (h : s.Matched bookId now b b' orders out pair scale fills refunds groups s')
    (hs : s.Sound) : s'.Sound ∧ s.Extends s' := by
  have hl := hs.wired.listed _ b h.book
  have hcfg := h.chunk.config
  refine hs.of_book h.book (by rw [h.state]) (by rw [h.state]) (by rw [h.state]) (by rw [h.state])
    (by rw [h.state]) hcfg.id hcfg.tickSize hcfg.lotSize (h.chunk.wf hl.wf) ?_ h.others ?_ ?_ ?_ ?_
    (h.indexed hs.orders) (by rw [h.state])
  · rw [h.chunk.filledOrders]
    exact hl.drained
  · intro seq r hr
    obtain ⟨r', hr', hev, -⟩ := h.recordEffect hs hr
    exact ⟨r', hr', hev⟩
  · intro seq r' hr'
    obtain ⟨r, hr⟩ := Option.isSome_iff_exists.mp ((h.present _).mp (by rw [hr']; rfl))
    obtain ⟨r'', hr'', hev, hstand, -⟩ := h.recordEffect hs hr
    obtain rfl : r'' = r' := Option.some.inj (hr''.symm.trans hr')
    obtain ⟨hlt, hterms, -⟩ := hs.book_of_record hr h.book
    obtain ⟨uid, hu⟩ := (hs.records _ r hr).owner
    refine ⟨by rw [hcfg.nextSeq]; exact hlt, ⟨?_, ?_, ?_, ?_, ?_⟩, hstand, uid,
      by rw [hev.owner]; exact hu⟩
    · rw [hev.price]
      exact hterms.price
    · rw [hev.price, hcfg.tickSize]
      exact hterms.tick
    · rw [hev.quantity]
      exact hterms.quantity
    · rw [hev.quantity, hcfg.lotSize]
      exact hterms.lot
    · rw [hev.price, hev.quantity]
      exact hterms.fits
  · intro o ho
    have hfind := (h.chunk.wf hl.wf).find_eq_some.mpr ⟨ho, rfl⟩
    rw [h.present]
    cases h.chunk.effect hl.wf o.id with
    | absent _ hnone => rw [hfind] at hnone; cases hnone
    | live o₀ _ hfind₀ =>
        obtain ⟨ho₀, hid⟩ := hl.wf.find_eq_some.mp hfind₀
        rw [← hid]
        exact hs.live _ b h.book o₀ ho₀
    | filled _ _ hnone => rw [hfind] at hnone; cases hnone
    | expired _ _ _ _ hnone => rw [hfind] at hnone; cases hnone
  · intro event hev
    rw [h.state, List.mem_append, List.mem_map] at hev
    refine hev.imp_right fun ⟨g, hg, he⟩ => ?_
    subst he
    exact ⟨pair, scale, g, h.market', rfl,
      fun p hp => h.pieceOk hs (List.mem_flatten.mpr ⟨g, hg, hp⟩)⟩

end Matched

end State

end OisyTrade
