import OisyTrade.Order.BookOps

/-!
# Reachable books

The books that any sequence of the public mutators can produce, and what holds of all of them.
`Reachable.wellFormed` carries the invariant along; `Representation` restates it in terms of the
fields of the source, level by level.
-/

namespace OisyTrade

namespace OrderBook

/-- Books reachable through the mutators, batches being prefixes of the pending queue. -/
inductive Reachable : OrderBook → Prop
  | new (id : OrderBookId) (tick : TickSize) (lot : LotSize) (min : Quantity)
      (max : Option Quantity) (fees : FeeRates) : Reachable (OrderBook.new id tick lot min max fees)
  | add {b b' : OrderBook} {order : Order} :
      Reachable b → b.addPendingOrder order = .ok b' → Reachable b'
  | process {b b' : OrderBook} {n : ℕ} {out : MatchingOutput} :
      Reachable b → b.processPendingOrders (b.pendingOrderSeqs.take n) = .ok (out, b') →
      Reachable b'
  | remove {b b' : OrderBook} {seq : OrderSeq} {removed : RemovedOrder} :
      Reachable b → b.removeOrder seq = .ok (some (removed, b')) → Reachable b'
  | restore {b b' : OrderBook} :
      Reachable b → (OrderBookSnapshot.ofBook b).intoBook = .ok b' → Reachable b'

/-- A prefix of the pending queue is the sequences of a first part of it. -/
lemma take_pendingOrderSeqs (b : OrderBook) (n : ℕ) :
    b.pendingOrderSeqs.take n = (b.pendingOrders.take n).map Order.id ∧
      b.pendingOrders = b.pendingOrders.take n ++ b.pendingOrders.drop n :=
  ⟨by rw [pendingOrderSeqs, List.map_take], (List.take_append_drop n _).symm⟩

/-- **The invariant holds of every reachable book**, by induction on the mutators. -/
theorem Reachable.wellFormed {b : OrderBook} (h : Reachable b) :
    b.WellFormed ∧ b.filledOrders = SortedSet.empty := by
  induction h with
  | new id tick lot min max fees => exact ⟨wellFormed_new id tick lot min max fees, rfl⟩
  | add _ hadd ih =>
      obtain ⟨hvalid, hid, hseq, rfl⟩ := addPendingOrder_eq_ok hadd
      exact ⟨(addPendingOrder_spec ih.1 hvalid hid hseq).2, ih.2⟩
  | @process b b' n out _ hproc ih =>
      obtain ⟨htake, hsplit⟩ := b.take_pendingOrderSeqs n
      obtain ⟨out', b'', hchunk, hspec⟩ := processPendingOrders_spec ih.1 ih.2 hsplit
      rw [htake, hspec] at hproc
      cases hproc
      exact ⟨hchunk.wf ih.1, hchunk.filledOrders.trans ih.2⟩
  | @remove b b' seq removed _ hrem ih =>
      by_cases hlive : ∃ o ∈ b.live, o.id = seq
      · obtain ⟨o, ho, rfl⟩ := hlive
        obtain ⟨b'', hspec, hw⟩ := removeOrder_live ih.1 ho
        rw [hspec] at hrem
        cases hrem
        exact ⟨hw.wf, hw.filledOrders.trans ih.2⟩
      · have hdead := removeOrder_dead ih.1.sound
          (fun o ho hid => hlive ⟨o, ho, hid⟩)
        rw [hdead] at hrem
        cases hrem
  | restore _ hres ih =>
      rw [OrderBookSnapshot.intoBook_ofBook ih.1.sound] at hres
      cases hres
      exact ih

/-! ## The invariant in terms of the fields -/

/-- The queue at a price level. -/
def levelAt (b : OrderBook) : Side → Price → Option (List RestingOrder)
  | .buy, price => b.bids.levels.get (OrderDual.toDual price)
  | .sell, price => b.asks.levels.get price

/-- The sequences in the bids, then those in the asks, level by level. -/
def levelSeqs (b : OrderBook) : List OrderSeq :=
  (b.bids.levels.entries.flatMap fun level => level.2.map RestingOrder.id)
    ++ b.asks.levels.entries.flatMap fun level => level.2.map RestingOrder.id

/-- The representation invariant, field by field. -/
structure Representation (b : OrderBook) : Prop where
  /-- The index holds exactly the orders of the levels, with side and price. -/
  index : ∀ seq side price, b.restingOrders.get seq = some (side, price) ↔
    ∃ queue, b.levelAt side price = some queue ∧ ∃ r ∈ queue, r.id = seq
  /-- Each of them is there once. -/
  once : b.levelSeqs.Nodup
  /-- No level is empty. -/
  nonEmpty : ∀ side price queue, b.levelAt side price = some queue → queue ≠ []
  /-- Each level is strictly increasing in sequence. -/
  fifo : ∀ side price queue, b.levelAt side price = some queue →
    (queue.map RestingOrder.id).Pairwise (· < ·)
  /-- So is the pending queue. -/
  pendingSorted : b.pendingOrderSeqs.Pairwise (· < ·)
  /-- Pending sequences lie between the resting ones and the counter. -/
  pendingRange : ∀ o ∈ b.pendingOrders, o.id < b.nextSeq ∧
    ∀ seq loc, b.restingOrders.get seq = some loc → seq < o.id
  /-- No sequence is pending and resting. -/
  disjoint : ∀ o ∈ b.pendingOrders, b.restingOrders.get o.id = none
  /-- Pending orders are valid. -/
  pendingValid : ∀ o ∈ b.pendingOrders, b.ValidOrder o
  /-- Resting orders are valid and none of them is fill-or-kill. -/
  restingValid : ∀ side price queue, b.levelAt side price = some queue → ∀ r ∈ queue,
    b.ValidOrder (r.toOrder side price) ∧ r.timeInForce ≠ .fillOrKill
  /-- Nothing is left to drain between calls. -/
  drained : b.filledOrders = SortedSet.empty
  /-- The best bid is below the best ask. -/
  uncrossed : ∀ bid ask, (b.levelAt .buy bid).isSome → (b.levelAt .sell ask).isSome → bid < ask

lemma mem_resting_iff {b : OrderBook} {side : Side} {price : Price} {r : RestingOrder} :
    (price, r) ∈ b.resting side ↔ ∃ queue, b.levelAt side price = some queue ∧ r ∈ queue := by
  cases side with
  | buy =>
      have hmap : (price, r) ∈ b.resting .buy ↔ (OrderDual.toDual price, r) ∈ b.bids.iter := by
        refine List.mem_map.trans ?_
        constructor
        · rintro ⟨⟨k, m⟩, hk, hkm⟩
          simp only [Prod.mk.injEq] at hkm
          obtain ⟨rfl, rfl⟩ := hkm
          exact hk
        · intro h
          exact ⟨_, h, rfl⟩
      rw [hmap, OrderQueue.mem_iter]
      rfl
  | sell => exact OrderQueue.mem_iter

lemma levelSeqs_eq (b : OrderBook) : b.levelSeqs = b.restingList.map Order.id := by
  simp only [levelSeqs, restingList, restingOn, resting, bidsIter, asksIter, OrderQueue.iter,
    OrderQueue.flatten, List.map_append, List.map_flatMap, List.map_map]
  rfl

/-- A level sits inside its side in one piece. -/
lemma sublist_of_levelAt {b : OrderBook} {side : Side} {price : Price} {queue : List RestingOrder}
    (h : b.levelAt side price = some queue) :
    (queue.map fun r => (price, r)).Sublist (b.resting side) := by
  have hflat : ∀ {K : Type} [LinearOrder K] (q : OrderQueue K RestingOrder) {k : K},
      q.levels.get k = some queue → (queue.map fun r => (k, r)).Sublist q.iter := by
    intro K _ q k hk
    obtain ⟨pre, post, hsplit, -⟩ := q.levels.exists_split_of_some hk
    rw [OrderQueue.iter, hsplit, OrderQueue.flatten_append, OrderQueue.flatten_cons]
    exact (List.sublist_append_left _ _).trans (List.sublist_append_right _ _)
  cases side with
  | buy =>
      have hs := (hflat b.bids h).map fun e => (OrderDual.ofDual e.1, e.2)
      rw [List.map_map] at hs
      exact hs
  | sell => exact hflat b.asks h

/-- A well-formed book is represented as the source says. -/
lemma WellFormed.representation {b : OrderBook} (h : b.WellFormed)
    (hf : b.filledOrders = SortedSet.empty) : b.Representation := by
  have hindex : ∀ seq side price, b.restingOrders.get seq = some (side, price) ↔
      ∃ queue, b.levelAt side price = some queue ∧ ∃ r ∈ queue, r.id = seq := by
    intro seq side price
    rw [h.sound.index]
    constructor
    · rintro ⟨o, ho, hid, hloc⟩
      obtain ⟨side', ⟨p, r⟩, he, rfl⟩ := mem_restingList.mp ho
      cases hloc
      obtain ⟨queue, hq, hr⟩ := mem_resting_iff.mp he
      exact ⟨queue, hq, r, hr, hid⟩
    · rintro ⟨queue, hq, r, hr, rfl⟩
      exact ⟨_, mem_restingList_of_mem (mem_resting_iff.mpr ⟨queue, hq, hr⟩), rfl, rfl⟩
  have hgetmem : ∀ seq loc, b.restingOrders.get seq = some loc →
      ∃ o ∈ b.restingList, o.id = seq := by
    intro seq loc hg
    obtain ⟨o, ho, hid, -⟩ := (h.sound.index seq loc).mp hg
    exact ⟨o, ho, hid⟩
  refine ⟨hindex, ?_, ?_, ?_, h.pendingSorted, ?_, ?_, ?_, ?_, hf, ?_⟩
  · rw [levelSeqs_eq]
    exact h.sound.nodup
  · intro side price queue hq
    cases side with
    | buy => exact h.sound.nonEmpty .buy (_, queue) (b.bids.levels.mem_entries_iff.mpr hq)
    | sell => exact h.sound.nonEmpty .sell (_, queue) (b.asks.levels.mem_entries_iff.mpr hq)
  · intro side price queue hq
    have hp := (h.sound.priority side).sublist (sublist_of_levelAt hq)
    rw [List.pairwise_map] at hp ⊢
    refine hp.imp fun hab => ?_
    rcases hab with hb | ⟨-, hlt⟩
    · exact absurd hb Side.Better.irrefl
    · exact hlt
  · intro o ho
    refine ⟨h.pendingBelow o ho, fun seq loc hg => ?_⟩
    obtain ⟨o', ho', rfl⟩ := hgetmem seq loc hg
    exact h.restingFirst o' ho' o ho
  · intro o ho
    cases hg : b.restingOrders.get o.id with
    | none => rfl
    | some loc =>
        obtain ⟨o', ho', hid⟩ := hgetmem _ _ hg
        exact absurd hid (h.restingFirst o' ho' o ho).ne
  · exact fun o ho => h.valid o (mem_live.mpr (Or.inl ho))
  · intro side price queue hq r hr
    have hmem := mem_restingList_of_mem (mem_resting_iff.mpr ⟨queue, hq, hr⟩)
    refine ⟨h.valid _ (mem_live.mpr (Or.inr hmem)), ?_⟩
    have htif := h.restingGtc _ hmem
    simp only [RestingOrder.toOrder] at htif
    rw [htif]
    exact fun hx => by cases hx
  · have hhead : ∀ {side price}, (b.levelAt side price).isSome →
        ∃ r, (price, r) ∈ b.resting side := by
      intro side price hs
      obtain ⟨queue, hq⟩ := Option.isSome_iff_exists.mp hs
      cases queue with
      | nil =>
          exfalso
          cases side with
          | buy => exact h.sound.nonEmpty .buy _ (b.bids.levels.mem_entries_iff.mpr hq) rfl
          | sell => exact h.sound.nonEmpty .sell _ (b.asks.levels.mem_entries_iff.mpr hq) rfl
      | cons r queue => exact ⟨r, mem_resting_iff.mpr ⟨_, hq, List.mem_cons_self⟩⟩
    intro bid ask hbid hask
    obtain ⟨x, hx⟩ := hhead hbid
    obtain ⟨y, hy⟩ := hhead hask
    exact h.uncrossed _ hx _ hy

/-- What `remove_order` does with a sequence, live or not. -/
def RemoveSpec (b : OrderBook) (seq : OrderSeq) : Prop :=
  (∃ o ∈ b.live, o.id = seq ∧ ∃ b',
    b.removeOrder seq = .ok (some (⟨o.side, o.price, o.remainingQuantity⟩, b')) ∧
    b'.pendingOrders = b.pendingOrders.filter (fun o => o.id ≠ seq) ∧
    (∀ side, b'.resting side = (b.resting side).filter (fun e => e.2.id ≠ seq)) ∧
    SameConfig b b' ∧ b'.nextFill = b.nextFill ∧ b'.filledOrders = b.filledOrders) ∨
  ((∀ o ∈ b.live, o.id ≠ seq) ∧ b.removeOrder seq = .ok none)

/-- **Every reachable book is represented as the source says, and removal is exact.** -/
theorem reachable_representation {b : OrderBook} (h : Reachable b) :
    b.Representation ∧ ∀ seq, b.RemoveSpec seq := by
  obtain ⟨hwf, hf⟩ := h.wellFormed
  refine ⟨hwf.representation hf, fun seq => ?_⟩
  by_cases hlive : ∃ o ∈ b.live, o.id = seq
  · obtain ⟨o, ho, rfl⟩ := hlive
    obtain ⟨b', hrem, hw⟩ := removeOrder_live hwf ho
    exact Or.inl ⟨o, ho, rfl, b', hrem, hw.pending, hw.resting, hw.config, hw.nextFill,
      hw.filledOrders⟩
  · have hdead : ∀ o ∈ b.live, o.id ≠ seq := fun o ho hid => hlive ⟨o, ho, hid⟩
    exact Or.inr ⟨hdead, removeOrder_dead hwf.sound hdead⟩

/-- Adding orders one by one. -/
lemma Reachable.addAll {b b' : OrderBook} {orders : List Order} (h : Reachable b)
    (hadd : orders.foldlM addPendingOrder b = .ok b') : Reachable b' := by
  induction orders generalizing b with
  | nil =>
      cases hadd
      exact h
  | cons order orders ih =>
      rw [List.foldlM_cons, Except.bind_eq_ok] at hadd
      obtain ⟨b₁, hone, hrest⟩ := hadd
      exact ih (h.add hone) hrest

/-! A book with two asks at 5 and one at 6, of which nothing is filled, and a pending bid that meets
them all. -/

/-- No fee. -/
def noFees : FeeRates := ⟨⟨0, by decide⟩, ⟨0, by decide⟩⟩

/-- An empty book with unit tick and lot. -/
def unitBook : OrderBook :=
  new Seq.zero ⟨1, by decide⟩ ⟨1, by decide⟩ Quantity.zero none noFees

/-- A limit order with a small quantity. -/
def unitOrder (seq : ℕ) (side : Side) (price quantity : ℕ) (timeInForce : TimeInForce) : Order :=
  ⟨Seq.wrap seq, side, ⟨BitVec.ofNat 128 price⟩, Quantity.ofNat quantity, timeInForce⟩

/-- The book with the asks pending. -/
def pendingAsks : OrderBook :=
  ([unitOrder 0 .sell 5 3 .goodTilCanceled, unitOrder 1 .sell 6 4 .goodTilCanceled,
    unitOrder 2 .sell 5 2 .goodTilCanceled].foldlM addPendingOrder unitBook).valueD unitBook

/-- The batch that lets the asks rest. -/
def askBatch : Except Trap (MatchingOutput × OrderBook) :=
  pendingAsks.processPendingOrders (pendingAsks.pendingOrderSeqs.take 3)

/-- The book with the asks resting. -/
def restingAsks : OrderBook := (askBatch.valueD (StepOut.empty.output, unitBook)).2

/-- A bid for more than the asks offer. -/
def unitBid : Order := unitOrder 3 .buy 6 10 .goodTilCanceled

/-- The book with the bid pending. -/
def crossingBook : OrderBook := (restingAsks.addPendingOrder unitBid).valueD unitBook

lemma reachable_crossingBook : Reachable crossingBook := by
  have hasks : Reachable pendingAsks :=
    (Reachable.new _ _ _ _ _ _).addAll (Except.eq_ok_valueD unitBook (by decide +kernel))
  have hbatch : askBatch = .ok (askBatch.valueD (StepOut.empty.output, unitBook)) :=
    Except.eq_ok_valueD _ (by decide +kernel)
  exact (Reachable.process hasks hbatch).add (Except.eq_ok_valueD unitBook (by decide +kernel))

theorem reachable_representation_crossingBook :
    (crossingBook.resting .sell).map (fun e => (e.1, e.2.id))
        = [(⟨5⟩, Seq.wrap 0), (⟨5⟩, Seq.wrap 2), (⟨6⟩, Seq.wrap 1)] ∧
      crossingBook.pendingOrderSeqs = [unitBid.id] ∧
      crossingBook.Representation ∧ ∀ seq, crossingBook.RemoveSpec seq :=
  ⟨by decide +kernel, by decide +kernel, reachable_representation reachable_crossingBook⟩

end OrderBook

end OisyTrade
