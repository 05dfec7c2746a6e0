import OisyTrade.MarketData
import OisyTrade.Order.PriceTime
import OisyTrade.Guarantees.Records

/-!
# The market shown is the market there is

The depth of a pair is built from the levels of its book.  It shows, best price first, what the
owners' records say is open: at every price the sum of the unfilled quantities of the open orders of
that side.
-/

namespace OisyTrade

/-! ## One level -/

lemma Quantity.toNat_max : Quantity.max.toNat = 2 ^ 256 - 1 := by
  rw [Quantity.toNat, Quantity.max, BitVec.toNat_allOnes]
  norm_num

lemma foldl_saturatingAdd (queue : List RestingOrder) (acc : Quantity) :
    (queue.foldl (fun acc order => (acc.checkedAdd order.remainingQuantity).getD Quantity.max)
        acc).toNat
      = min (2 ^ 256 - 1) (acc.toNat + (queue.map fun r => r.remainingQuantity.toNat).sum) := by
  induction queue generalizing acc with
  | nil =>
      rw [List.foldl_nil, List.map_nil, List.sum_nil, Nat.add_zero]
      have hacc := acc.toNat_lt
      omega
  | cons order queue ih =>
      rw [List.foldl_cons, ih, List.map_cons, List.sum_cons]
      cases hadd : acc.checkedAdd order.remainingQuantity with
      | some total =>
          rw [Option.getD_some, Quantity.checkedAdd_eq_some.mp hadd, Nat.add_assoc]
      | none =>
          have hover := Quantity.checkedAdd_eq_none.mp hadd
          rw [Option.getD_none, Quantity.toNat_max]
          omega

/-- **A level shows the sum of its orders**, or the largest quantity if the sum does not fit. -/
lemma toNat_sumRemaining (queue : List RestingOrder) : (sumRemaining queue).toNat
    = min (2 ^ 256 - 1) (queue.map fun r => r.remainingQuantity.toNat).sum := by
  rw [sumRemaining, foldl_saturatingAdd, Quantity.toNat_zero, Nat.zero_add]

namespace OrderBook

/-- The levels of one side with their queues, best price first. -/
def sideLevels (b : OrderBook) : Side → List (Price × List RestingOrder)
  | .buy => b.bids.levels.entries.map fun level => (OrderDual.ofDual level.1, level.2)
  | .sell => b.asks.levels.entries

/-- `bid_levels` and `ask_levels`. -/
def shownLevels (b : OrderBook) (side : Side) (limit : ℕ) : List (Price × Quantity) :=
  ((b.sideLevels side).take limit).map fun level => (level.1, sumRemaining level.2)

lemma bidLevels_eq (b : OrderBook) (limit : ℕ) : b.bidLevels limit = b.shownLevels .buy limit := by
  rw [bidLevels, shownLevels, sideLevels, ← List.map_take, List.map_map]
  rfl

lemma askLevels_eq (b : OrderBook) (limit : ℕ) : b.askLevels limit = b.shownLevels .sell limit := rfl

lemma mem_sideLevels {b : OrderBook} {side : Side} {price : Price} {queue : List RestingOrder} :
    (price, queue) ∈ b.sideLevels side ↔ b.levelAt side price = some queue := by
  cases side with
  | buy =>
      rw [levelAt, ← SortedMap.mem_entries_iff, sideLevels, List.mem_map]
      constructor
      · rintro ⟨⟨key, q⟩, hmem, heq⟩
        cases heq
        exact hmem
      · intro hmem
        exact ⟨_, hmem, rfl⟩
  | sell => exact SortedMap.mem_entries_iff _

lemma sideLevels_sorted (b : OrderBook) (side : Side) :
    (b.sideLevels side).Pairwise fun x y => side.Better x.1 y.1 := by
  cases side with
  | buy =>
      refine List.pairwise_map.mpr ?_
      exact b.bids.levels.sorted.imp fun h => h
  | sell => exact b.asks.levels.sorted

lemma sumRemaining_pos {b : OrderBook} (hb : b.WellFormed) {side : Side} {price : Price}
    {queue : List RestingOrder} (h : b.levelAt side price = some queue) :
    0 < (queue.map fun r => r.remainingQuantity.toNat).sum := by
  have hne : queue ≠ [] := by
    cases side with
    | buy => exact hb.sound.nonEmpty .buy _ ((SortedMap.mem_entries_iff _).mpr h)
    | sell => exact hb.sound.nonEmpty .sell _ ((SortedMap.mem_entries_iff _).mpr h)
  obtain ⟨r, rest, rfl⟩ := List.exists_cons_of_ne_nil hne
  have hmem : (price, r) ∈ b.resting side := mem_resting_iff.mpr ⟨_, h, List.mem_cons_self⟩
  have hlive := mem_live.mpr (Or.inr (mem_restingList_of_mem hmem))
  have hpos : 0 < r.remainingQuantity.toNat := (hb.valid _ hlive).2.2.1
  rw [List.map_cons, List.sum_cons]
  omega

end OrderBook

/-! ## What the records say is open -/

namespace State

variable {s : State}

/-- The order of this record is open on this side of the book at this price. -/
def OpenAt (bookId : OrderBookId) (side : Side) (price : Price) (id : OrderId) (r : OrderRecord) :
    Prop := id.bookId = bookId ∧ r.status = .open ∧ r.side = side ∧ r.price = price

instance (bookId : OrderBookId) (side : Side) (price : Price) (id : OrderId) (r : OrderRecord) :
    Decidable (OpenAt bookId side price id r) := inferInstanceAs (Decidable (_ ∧ _))

/-- The unfilled quantity of the open orders at a price. -/
def openQuantity (s : State) (bookId : OrderBookId) (side : Side) (price : Price) : ℕ :=
  s.orderHistory.primary.sum fun id e =>
    if OpenAt bookId side price id e.record then
      e.record.quantity.toNat - e.record.filledQuantity.toNat else 0

lemma sum_map_ite {α : Type*} (l : List α) (p : α → Prop) [DecidablePred p] (f : α → ℕ) :
    (l.map fun a => if p a then f a else 0).sum = ((l.filter p).map f).sum := by
  induction l with
  | nil => rfl
  | cons a l ih =>
      rw [List.map_cons, List.sum_cons, ih]
      by_cases h : p a
      · rw [if_pos h, List.filter_cons, if_pos (decide_eq_true h), List.map_cons, List.sum_cons]
      · rw [if_neg h, List.filter_cons, if_neg (by simpa using h), Nat.zero_add]

/-- The records of a book agree with it. -/
lemma Sound.agrees_of_record (hs : s.Sound) {bookId : OrderBookId} {b : OrderBook}
    (hb : s.orderBooks.get bookId = some b) {id : OrderId} {r : OrderRecord}
    (hr : s.orderHistory.get id = some r) (hbook : id.bookId = bookId) :
    RecordAgrees b id.seq r := by
  have hb' : s.orderBooks.get id.bookId = some b := by rw [hbook, hb]
  obtain ⟨-, hterms, hstand⟩ := hs.book_of_record hr hb'
  exact hstand.agrees (hs.wired.listed _ b hb).wf hterms.quantity

/-- The records of a book have different sequence numbers. -/
lemma nodup_seqs {bookId : OrderBookId} {p : OrderId × SeqRecord OrderRecord → Bool}
    (h : ∀ e, p e = true → e.1.bookId = bookId) :
    ((s.orderHistory.primary.entries.filter p).map fun e => e.1.seq).Nodup := by
  refine List.Nodup.map_on ?_ ((List.Nodup.of_map _ s.orderHistory.primary.keys_nodup).filter _)
  rintro ⟨id, e⟩ hx ⟨id', e'⟩ hy hseq
  obtain ⟨hx, hxp⟩ := List.mem_filter.mp hx
  obtain ⟨hy, hyp⟩ := List.mem_filter.mp hy
  have hid : id = id' := by
    rw [← OrderId.new_eta id, ← OrderId.new_eta id', h _ hxp, h _ hyp, hseq]
  subst hid
  rw [SortedMap.mem_entries_iff] at hx hy
  exact congrArg _ (Option.some.inj (hx.symm.trans hy))

/-- **The records that are open at a price are the orders of its level**, with the same unfilled
quantities. -/
lemma Sound.open_perm (hs : s.Sound) {bookId : OrderBookId} {b : OrderBook}
    (hb : s.orderBooks.get bookId = some b) (side : Side) (price : Price) :
    ((s.orderHistory.primary.entries.filter fun e => OpenAt bookId side price e.1 e.2.record).map
        fun e => (e.1.seq, e.2.record.quantity.toNat - e.2.record.filledQuantity.toNat)).Perm
      ((b.queueAt side price).map fun r => (r.id, r.remainingQuantity.toNat)) := by
  have hlisted := hs.wired.listed _ b hb
  have hqueue : ∀ r, r ∈ b.queueAt side price ↔ (price, r) ∈ b.resting side := by
    intro r
    rw [OrderBook.mem_resting_iff, OrderBook.queueAt]
    cases b.levelAt side price with
    | none => simp
    | some queue => simp
  -- No sequence is in either list twice, so they are compared element by element.
  refine (List.perm_ext_iff_of_nodup ?_ ?_).mpr fun ⟨seq, n⟩ => ⟨fun h => ?_, fun h => ?_⟩
  · refine List.Nodup.of_map Prod.fst ?_
    rw [List.map_map]
    exact nodup_seqs fun e he => (of_decide_eq_true he).1
  · refine List.Nodup.of_map Prod.fst ?_
    rw [List.map_map]
    cases hlevel : b.levelAt side price with
    | none =>
        rw [OrderBook.queueAt, hlevel]
        exact List.nodup_nil
    | some queue =>
        rw [OrderBook.queueAt, hlevel]
        exact ((hlisted.wf.representation hlisted.drained).fifo side price queue hlevel).imp
          fun hlt => hlt.ne
  · obtain ⟨⟨id, e⟩, he, heq⟩ := List.mem_map.mp h
    obtain ⟨hmem, hopen⟩ := List.mem_filter.mp he
    obtain ⟨hbook, hstatus, rfl, rfl⟩ := of_decide_eq_true hopen
    cases heq
    have hr : s.orderHistory.get id = some e.record := by
      rw [History.get, (SortedMap.mem_entries_iff _).mp hmem]
      rfl
    have hag := hs.agrees_of_record hb hr hbook
    obtain ⟨o, ho, hid⟩ := hag.resting.mp hstatus
    obtain ⟨hside, hprice, -, hquantity⟩ := hag.live o (OrderBook.mem_live.mpr (Or.inr ho)) hid
    obtain ⟨side', ⟨p, r⟩, hmem', rfl⟩ := OrderBook.mem_restingList.mp ho
    obtain rfl : side' = e.record.side := hside
    obtain rfl : p = e.record.price := hprice
    exact List.mem_map.mpr ⟨r, (hqueue r).mpr hmem', Prod.ext hid hquantity⟩
  · obtain ⟨r, hmem, heq⟩ := List.mem_map.mp h
    cases heq
    have hrest := OrderBook.mem_restingList_of_mem ((hqueue r).mp hmem)
    have hlive := OrderBook.mem_live.mpr (Or.inr hrest)
    obtain ⟨record, hr, -⟩ := hs.record_of_live hb hlive
    have hag := hs.agrees_of_record hb hr rfl
    obtain ⟨hside, hprice, -, hquantity⟩ := hag.live _ hlive rfl
    obtain ⟨e, he, rfl⟩ := Option.map_eq_some_iff.mp hr
    refine List.mem_map.mpr ⟨(_, e), List.mem_filter.mpr
      ⟨(SortedMap.mem_entries_iff _).mpr he, decide_eq_true ⟨rfl, ?_, ?_, ?_⟩⟩, ?_⟩
    · exact hag.resting.mpr ⟨_, hrest, rfl⟩
    · exact hside.symm
    · exact hprice.symm
    · exact Prod.ext rfl hquantity.symm

lemma Sound.openQuantity_eq (hs : s.Sound) {bookId : OrderBookId} {b : OrderBook}
    (hb : s.orderBooks.get bookId = some b) (side : Side) (price : Price) :
    s.openQuantity bookId side price
      = ((b.queueAt side price).map fun r => r.remainingQuantity.toNat).sum := by
  have hperm := ((hs.open_perm hb side price).map Prod.snd).sum_eq
  rw [List.map_map, List.map_map] at hperm
  rw [openQuantity, SortedMap.sum, sum_map_ite]
  exact hperm

/-- **The levels show what is open**: best price first, at each price the open quantity, and nothing
is left out unless the limit is reached and only worse prices follow. -/
structure ShowsOpen (s : State) (bookId : OrderBookId) (side : Side) (limit : ℕ)
    (levels : List (Price × Quantity)) : Prop where
  sorted : levels.Pairwise fun x y => side.Better x.1 y.1
  quantity : ∀ l ∈ levels, 0 < s.openQuantity bookId side l.1 ∧
    l.2.toNat = min (2 ^ 256 - 1) (s.openQuantity bookId side l.1)
  length : levels.length ≤ limit
  complete : ∀ price, 0 < s.openQuantity bookId side price → (∃ l ∈ levels, l.1 = price) ∨
    (levels.length = limit ∧ ∀ l ∈ levels, side.Better l.1 price)

lemma Sound.showsOpen (hs : s.Sound) {bookId : OrderBookId} {b : OrderBook}
    (hb : s.orderBooks.get bookId = some b) (side : Side) (limit : ℕ) :
    s.ShowsOpen bookId side limit (b.shownLevels side limit) := by
  have hwf := (hs.wired.listed _ b hb).wf
  have hopen : ∀ price queue, (price, queue) ∈ b.sideLevels side →
      s.openQuantity bookId side price = (queue.map fun r => r.remainingQuantity.toNat).sum := by
    intro price queue hmem
    rw [hs.openQuantity_eq hb, OrderBook.queueAt, OrderBook.mem_sideLevels.mp hmem, Option.getD_some]
  refine ⟨?_, ?_, ?_, ?_⟩
  · exact List.pairwise_map.mpr ((b.sideLevels_sorted side).take)
  · intro l hl
    obtain ⟨⟨price, queue⟩, hmem, rfl⟩ := List.mem_map.mp hl
    have hmem' := List.mem_of_mem_take hmem
    rw [hopen price queue hmem', toNat_sumRemaining]
    exact ⟨OrderBook.sumRemaining_pos hwf (OrderBook.mem_sideLevels.mp hmem'), rfl⟩
  · rw [OrderBook.shownLevels, List.length_map, List.length_take]
    exact min_le_left _ _
  · intro price hpos
    -- The price has a level, in the part that is shown or in the rest.
    have hlevel : ∃ queue, (price, queue) ∈ b.sideLevels side := by
      rw [hs.openQuantity_eq hb, OrderBook.queueAt] at hpos
      cases hq : b.levelAt side price with
      | some queue => exact ⟨queue, OrderBook.mem_sideLevels.mpr hq⟩
      | none =>
          rw [hq] at hpos
          exact absurd hpos (lt_irrefl 0)
    obtain ⟨queue, hmem⟩ := hlevel
    have hsorted := b.sideLevels_sorted side
    rw [← List.take_append_drop limit (b.sideLevels side)] at hmem hsorted
    rcases List.mem_append.mp hmem with hmem | hmem
    · exact Or.inl ⟨_, List.mem_map.mpr ⟨_, hmem, rfl⟩, rfl⟩
    · right
      constructor
      · have hlt := List.length_pos_of_mem hmem
        rw [List.length_drop] at hlt
        rw [OrderBook.shownLevels, List.length_map, List.length_take]
        omega
      · intro l hl
        obtain ⟨level, hshown, rfl⟩ := List.mem_map.mp hl
        exact (List.pairwise_append.mp hsorted).2.2 _ hshown _ hmem

end State

/-! ## Main results -/

lemma OrderBook.head?_shownLevels (b : OrderBook) (side : Side) {limit : ℕ}
    (h : limit ≠ 0) : (b.shownLevels side 1).head? = (b.shownLevels side limit).head? := by
  obtain ⟨n, rfl⟩ := Nat.exists_eq_succ_of_ne_zero h
  rw [OrderBook.shownLevels, OrderBook.shownLevels]
  cases b.sideLevels side with
  | nil => rfl
  | cons level levels => rfl

/-- No bid is shown at or above an ask. -/
lemma State.Listed.shown_uncrossed {s : State} {bookId : OrderBookId} {b : OrderBook}
    (h : s.Listed bookId b) (limit : ℕ) :
    ∀ bid ∈ b.shownLevels .buy limit, ∀ ask ∈ b.shownLevels .sell limit, bid.1 < ask.1 := by
  intro bid hbid ask hask
  obtain ⟨⟨p, bids⟩, hp, rfl⟩ := List.mem_map.mp hbid
  obtain ⟨⟨q, asks⟩, hq, rfl⟩ := List.mem_map.mp hask
  have hp' := OrderBook.mem_sideLevels.mp (List.mem_of_mem_take hp)
  have hq' := OrderBook.mem_sideLevels.mp (List.mem_of_mem_take hq)
  exact (h.wf.representation h.drained).uncrossed p q (by rw [hp']; rfl) (by rw [hq']; rfl)

/-- A pair has a book exactly if it is listed. -/
lemma State.Sound.getOrderBook {s : State} (hs : s.Sound) (pair : TradingPair) :
    (s.getOrderBook pair = none ∧ s.tradingPairs.getBookId pair = none) ∨
    ∃ bookId b, s.tradingPairs.getBookId pair = some bookId ∧
      s.orderBooks.get bookId = some b ∧ s.getOrderBook pair = some b := by
  rw [State.getOrderBook]
  cases hid : s.tradingPairs.getBookId pair with
  | none => exact Or.inl ⟨rfl, rfl⟩
  | some bookId =>
      obtain ⟨b, hb⟩ := Option.isSome_iff_exists.mp
        (hs.wired.traded bookId pair ((hs.wired.pairs pair bookId).mp hid))
      exact Or.inr ⟨bookId, b, rfl, hb, hb⟩

lemma Canister.getOrderBookDepth_eq (c : Canister) (request : GetOrderBookDepthRequest) :
    c.getOrderBookDepth request =
      if request.limit.getD defaultDepthLimit ≤ maxDepthLimit then
        match c.state.getOrderBook request.tradingPair with
        | none => .error .unknownTradingPair
        | some book =>
            .ok { bids := book.shownLevels .buy (request.limit.getD defaultDepthLimit).toNat,
                  asks := book.shownLevels .sell (request.limit.getD defaultDepthLimit).toNat }
      else .error (.limitTooLarge (request.limit.getD defaultDepthLimit) maxDepthLimit) := by
  obtain ⟨pair, limit⟩ := request
  simp only [getOrderBookDepth, OrderBook.bidLevels_eq, OrderBook.askLevels_eq]
  cases limit with
  | none => exact (if_pos (by decide : defaultDepthLimit ≤ maxDepthLimit)).symm
  | some n =>
      by_cases hn : n ≤ maxDepthLimit
      · simp only [Option.getD_some, if_pos hn]
        rfl
      · simp only [Option.getD_some, if_neg hn]
        rfl

namespace World

variable {w : World}

/-- **The depth of a pair is what the order records say is open.**  In every reachable world the
query refuses exactly a limit above the maximum and an unknown pair.  Otherwise it shows both sides
best price first, no bid at or above an ask, and the ticker is the first level of each side. -/
theorem Reachable.depth_shows_open (h : Reachable w) (request : GetOrderBookDepthRequest) :
    (∀ requested max, w.canister.getOrderBookDepth request
        = .error (.limitTooLarge requested max) ↔
      request.limit = some requested ∧ max = maxDepthLimit ∧ maxDepthLimit < requested) ∧
    (w.canister.getOrderBookDepth request = .error .unknownTradingPair ↔
      request.limit.getD defaultDepthLimit ≤ maxDepthLimit ∧
        w.canister.state.tradingPairs.getBookId request.tradingPair = none) ∧
    ∀ depth, w.canister.getOrderBookDepth request = .ok depth → ∃ bookId,
      w.canister.state.tradingPairs.getBookId request.tradingPair = some bookId ∧
      w.canister.state.ShowsOpen bookId .buy (request.limit.getD defaultDepthLimit).toNat
        depth.bids ∧
      w.canister.state.ShowsOpen bookId .sell (request.limit.getD defaultDepthLimit).toNat
        depth.asks ∧
      (∀ bid ∈ depth.bids, ∀ ask ∈ depth.asks, bid.1 < ask.1) ∧
      ∃ ticker, w.canister.getOrderBookTicker request.tradingPair = .ok ticker ∧
        (request.limit ≠ some 0 → ticker = ⟨depth.bids.head?, depth.asks.head?⟩) := by
  have hs := h.guarded.sound
  rw [Canister.getOrderBookDepth_eq]
  by_cases hlimit : request.limit.getD defaultDepthLimit ≤ maxDepthLimit
  · have hno : ∀ requested, request.limit = some requested → ¬ maxDepthLimit < requested := by
      intro requested hsome
      rw [hsome, Option.getD_some] at hlimit
      exact BitVec.not_lt.mpr hlimit
    rw [if_pos hlimit]
    rcases hs.getOrderBook request.tradingPair with ⟨hnone, hid⟩ | ⟨bookId, b, hid, hb, hsome⟩
    · rw [hnone]
      refine ⟨fun requested max => ⟨?_, ?_⟩, ?_, ?_⟩
      · rintro ⟨⟩
      · rintro ⟨hx, -, hlt⟩
        exact absurd hlt (hno _ hx)
      · exact ⟨fun _ => ⟨hlimit, hid⟩, fun _ => rfl⟩
      · rintro depth ⟨⟩
    · have hlisted := hs.wired.listed _ b hb
      rw [hsome, hid]
      refine ⟨fun requested max => ⟨?_, ?_⟩, ⟨?_, ?_⟩, ?_⟩
      · rintro ⟨⟩
      · rintro ⟨hx, -, hlt⟩
        exact absurd hlt (hno _ hx)
      · rintro ⟨⟩
      · rintro ⟨-, ⟨⟩⟩
      · rintro depth ⟨⟩
        refine ⟨bookId, rfl, hs.showsOpen hb .buy _, hs.showsOpen hb .sell _, ?_, ?_⟩
        · exact hlisted.shown_uncrossed _
        · refine ⟨_, by rw [Canister.getOrderBookTicker, hsome], fun hzero => ?_⟩
          have hne : (request.limit.getD defaultDepthLimit).toNat ≠ 0 := by
            cases hl : request.limit with
            | none => decide
            | some n =>
                rw [Option.getD_some]
                intro hn
                exact hzero (by rw [hl, BitVec.eq_of_toNat_eq (x := n) (y := 0) hn])
          rw [OrderBook.bidLevels_eq, OrderBook.askLevels_eq, b.head?_shownLevels .buy hne,
            b.head?_shownLevels .sell hne]
  · rw [if_neg hlimit]
    cases hl : request.limit with
    | none =>
        rw [hl] at hlimit
        exact absurd (by decide : defaultDepthLimit ≤ maxDepthLimit) hlimit
    | some n =>
        rw [hl, Option.getD_some] at hlimit
        refine ⟨fun requested max => ⟨?_, ?_⟩, ⟨?_, ?_⟩, ?_⟩
        · rintro ⟨⟩
          exact ⟨rfl, rfl, BitVec.not_le.mp hlimit⟩
        · rintro ⟨⟨⟩, rfl, -⟩
          rfl
        · rintro ⟨⟩
        · rintro ⟨hx, -⟩
          exact absurd hx hlimit
        · rintro depth ⟨⟩

/-- In the sample run eight units of one bid are left, and the ask is still pending. -/
theorem depth_shows_open_sampleWorld :
    sampleWorld.canister.getOrderBookDepth ⟨samplePair, none⟩ = .ok ⟨[(⟨5⟩, ⟨0, 8⟩)], []⟩ ∧
      ∃ bookId, sampleWorld.canister.state.ShowsOpen bookId .buy 100 [(⟨5⟩, ⟨0, 8⟩)] ∧
        sampleWorld.canister.getOrderBookTicker samplePair = .ok ⟨some (⟨5⟩, ⟨0, 8⟩), none⟩ := by
  have hdepth : sampleWorld.canister.getOrderBookDepth ⟨samplePair, none⟩
      = .ok ⟨[(⟨5⟩, ⟨0, 8⟩)], []⟩ := by decide +kernel
  obtain ⟨bookId, -, hbids, -, -, ticker, hticker, heq⟩ :=
    (reachable_sampleWorld.depth_shows_open ⟨samplePair, none⟩).2.2 _ hdepth
  refine ⟨hdepth, bookId, hbids, ?_⟩
  rw [hticker, heq nofun]
  rfl

end World

end OisyTrade
