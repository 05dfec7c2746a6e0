import OisyTrade.Order.Chunk

/-!
# Adding, removing and restoring

The remaining mutators of a book: `add_pending_order`, `remove_order` and the pair of snapshot
conversions.  Each keeps `WellFormed`; restoring a snapshot of a sound book gives the book back.
-/

namespace OisyTrade

namespace OrderBook

/-! ## Adding -/

/-- Adding a valid order with the next sequence puts it behind the queue. -/
lemma addPendingOrder_spec {b : OrderBook} (hb : b.WellFormed) {order : Order}
    (hvalid : b.ValidOrder order) (hid : order.id = b.nextSeq)
    (hseq : b.nextSeq.val + 1 < 2 ^ 64) :
    b.addPendingOrder order = .ok { b with
      pendingOrders := b.pendingOrders ++ [order]
      nextSeq := ⟨b.nextSeq.val + 1, hseq⟩ } ∧
    ({ b with
      pendingOrders := b.pendingOrders ++ [order]
      nextSeq := ⟨b.nextSeq.val + 1, hseq⟩ } : OrderBook).WellFormed := by
  have hok : (b.validateOrder order.price order.remainingQuantity).isOk = true := by
    rw [validateOrder_eq_ok.mpr hvalid]
    rfl
  have hsucc : b.nextSeq < ⟨b.nextSeq.val + 1, hseq⟩ := Nat.lt_succ_self _
  refine ⟨?_, hb.sound.congr rfl rfl rfl, ?_, ?_, ?_, ?_, ?_, hb.restingGtc, hb.uncrossed, ?_⟩
  · simp only [addPendingOrder, hok, Except.assert_true, Except.bind_ok, hid, decide_true,
      Seq.increment_of_lt hseq]
  · rw [List.map_append, List.pairwise_append]
    refine ⟨hb.pendingSorted, List.pairwise_singleton _ _, fun s hs s' hs' => ?_⟩
    obtain ⟨o, ho, rfl⟩ := List.mem_map.mp hs
    rw [List.map_singleton, List.mem_singleton] at hs'
    rw [hs', hid]
    exact hb.pendingBelow o ho
  · intro o ho
    rcases List.mem_append.mp ho with ho | ho
    · exact (hb.pendingBelow o ho).trans hsucc
    · rw [List.mem_singleton.mp ho, hid]
      exact hsucc
  · exact fun o ho => (hb.restingBelow o ho).trans hsucc
  · intro o ho o' ho'
    rcases List.mem_append.mp ho' with ho' | ho'
    · exact hb.restingFirst o ho o' ho'
    · rw [List.mem_singleton.mp ho', hid]
      exact hb.restingBelow o ho
  · intro o ho
    rcases mem_live.mp ho with ho | ho
    · rcases List.mem_append.mp ho with ho | ho
      · exact hb.valid o (mem_live.mpr (Or.inl ho))
      · rw [List.mem_singleton.mp ho]
        exact hvalid
    · exact hb.valid o (mem_live.mpr (Or.inr ho))
  · have h := hb.fillBound
    show b.nextFill.val + (b.pendingOrders ++ [order]).length + b.restingList.length
      ≤ b.nextSeq.val + 1
    rw [List.length_append, List.length_singleton]
    omega

/-- What `add_pending_order` did if it returned. -/
lemma addPendingOrder_eq_ok {b b' : OrderBook} {order : Order}
    (h : b.addPendingOrder order = .ok b') :
    b.ValidOrder order ∧ order.id = b.nextSeq ∧ ∃ hseq : b.nextSeq.val + 1 < 2 ^ 64,
      b' = { b with
        pendingOrders := b.pendingOrders ++ [order]
        nextSeq := ⟨b.nextSeq.val + 1, hseq⟩ } := by
  simp only [addPendingOrder, Except.bind_eq_ok, Except.assert_eq_ok, decide_eq_true_eq] at h
  obtain ⟨-, hvalid, -, hid, next, hnext, hb'⟩ := h
  have hval := Seq.increment_eq_ok.mp hnext
  have hseq : b.nextSeq.val + 1 < 2 ^ 64 := hval ▸ next.isLt
  have hv : b.validateOrder order.price order.remainingQuantity = .ok () := by
    cases hx : b.validateOrder order.price order.remainingQuantity with
    | ok u => rfl
    | error e => rw [hx] at hvalid; cases hvalid
  refine ⟨validateOrder_eq_ok.mp hv, hid, hseq, ?_⟩
  cases hb'
  rw [show next = ⟨b.nextSeq.val + 1, hseq⟩ from Seq.ext_val hval]

/-! ## Removing -/

/-- `b'` is `b` without the order with sequence `seq`; everything else keeps its place. -/
structure Without (b : OrderBook) (seq : OrderSeq) (b' : OrderBook) : Prop where
  wf : b'.WellFormed
  config : SameConfig b b'
  nextFill : b'.nextFill = b.nextFill
  filledOrders : b'.filledOrders = b.filledOrders
  pending : b'.pendingOrders = b.pendingOrders.filter (fun o => o.id ≠ seq)
  resting : ∀ side, b'.resting side = (b.resting side).filter (fun e => e.2.id ≠ seq)

lemma restingList_filter {b b' : OrderBook} {seq : OrderSeq}
    (h : ∀ side, b'.resting side = (b.resting side).filter (fun e => e.2.id ≠ seq)) :
    b'.restingList = b.restingList.filter (fun o => o.id ≠ seq) := by
  have hon : ∀ side, b'.restingOn side = (b.restingOn side).filter (fun o => o.id ≠ seq) := by
    intro side
    rw [restingOn, restingOn, h, List.filter_map]
    rfl
  rw [restingList, restingList, hon, hon, List.filter_append]

/-- A filtered book is well formed as soon as its index and levels are. -/
lemma WellFormed.without {b b' : OrderBook} (hb : b.WellFormed) {seq : OrderSeq} (hs : b'.Sound)
    (hcfg : SameConfig b b') (hnf : b'.nextFill = b.nextFill)
    (hpend : b'.pendingOrders = b.pendingOrders.filter (fun o => o.id ≠ seq))
    (hrest : ∀ side, b'.resting side = (b.resting side).filter (fun e => e.2.id ≠ seq)) :
    b'.WellFormed := by
  have hlist := restingList_filter hrest
  have hp : ∀ o ∈ b'.pendingOrders, o ∈ b.pendingOrders := fun o ho =>
    (List.mem_filter.mp (hpend ▸ ho)).1
  have hr : ∀ o ∈ b'.restingList, o ∈ b.restingList := fun o ho =>
    (List.mem_filter.mp (hlist ▸ ho)).1
  refine ⟨hs, ?_, ?_, ?_, ?_, ?_, fun o ho => hb.restingGtc o (hr o ho), ?_, ?_⟩
  · rw [hpend]
    exact hb.pendingSorted.sublist (List.Sublist.map _ List.filter_sublist)
  · rw [hcfg.nextSeq]
    exact fun o ho => hb.pendingBelow o (hp o ho)
  · rw [hcfg.nextSeq]
    exact fun o ho => hb.restingBelow o (hr o ho)
  · exact fun o ho o' ho' => hb.restingFirst o (hr o ho) o' (hp o' ho')
  · intro o ho
    rw [ValidOrder, hcfg.tickSize, hcfg.lotSize]
    refine hb.valid o (mem_live.mpr ?_)
    exact (mem_live.mp ho).imp (hp o) (hr o)
  · intro x hx y hy
    rw [hrest] at hx hy
    exact hb.uncrossed x (List.mem_filter.mp hx).1 y (List.mem_filter.mp hy).1
  · have hb' := hb.fillBound
    have h1 : b'.pendingOrders.length ≤ b.pendingOrders.length := by
      rw [hpend]
      exact List.length_filter_le _ _
    have h2 : b'.restingList.length ≤ b.restingList.length := by
      rw [hlist]
      exact List.length_filter_le _ _
    rw [hnf, hcfg.nextSeq]
    omega

lemma filter_id_ne_of_split {pre post : List (Price × RestingOrder)} {e : Price × RestingOrder}
    (h : ((pre ++ e :: post).map fun e => e.2.id).Nodup) :
    (pre ++ e :: post).filter (fun a => a.2.id ≠ e.2.id) = pre ++ post := by
  have hperm : ((e :: (pre ++ post)).map fun e => e.2.id).Nodup :=
    (List.perm_middle.map _).nodup_iff.mp h
  rw [List.map_cons, List.nodup_cons] at hperm
  have hne : ∀ a ∈ pre ++ post, decide (a.2.id ≠ e.2.id) = true := by
    intro a ha
    rw [decide_eq_true_eq]
    intro heq
    exact hperm.1 (List.mem_map.mpr ⟨a, ha, heq⟩)
  rw [List.filter_append, List.filter_cons_of_neg (by simp),
    List.filter_eq_self.mpr fun a ha => hne a (List.mem_append_left _ ha),
    List.filter_eq_self.mpr fun a ha => hne a (List.mem_append_right _ ha)]

lemma Sound.side_nodup {b : OrderBook} (h : b.Sound) (side : Side) :
    ((b.resting side).map fun e => e.2.id).Nodup := by
  have hnd := ((b.restingList_perm side).map Order.id).nodup_iff.mp h.nodup
  rw [List.map_append, List.nodup_append] at hnd
  have h1 := hnd.1
  rw [restingOn, List.map_map] at h1
  exact h1

/-- Taking a resting order out of its side and out of the index. -/
lemma WellFormed.remove_resting {b b' : OrderBook} (hb : b.WellFormed) {side : Side}
    {pre post : List (Price × RestingOrder)} {p : Price} {m : RestingOrder}
    (h : b.resting side = pre ++ (p, m) :: post) (h' : b'.resting side = pre ++ post)
    (hother : b'.resting side.opposite = b.resting side.opposite)
    (hne : ∀ s, b'.NonEmptyLevels s)
    (hindex : b'.restingOrders = b.restingOrders.erase m.id) (hcfg : SameConfig b b')
    (hpend : b'.pendingOrders = b.pendingOrders) (hnf : b'.nextFill = b.nextFill)
    (hfilled : b'.filledOrders = b.filledOrders) : b.Without m.id b' := by
  have hs := hb.sound.of_remove (e := (p, m)) h h' hother hne hindex
  have hmem : m.toOrder side p ∈ b.restingList :=
    mem_restingList_of_mem (e := (p, m)) (h ▸ by simp)
  have hrest : ∀ s, b'.resting s = (b.resting s).filter (fun e => e.2.id ≠ m.id) := by
    intro s
    rcases side.eq_or_eq_opposite s with rfl | rfl
    · have hnd := hb.sound.side_nodup s
      rw [h] at hnd
      rw [h, h', filter_id_ne_of_split hnd]
    · rw [hother]
      refine (List.filter_eq_self.mpr fun a ha => ?_).symm
      rw [decide_eq_true_eq]
      intro heq
      -- The other side cannot hold a second order with this sequence.
      have hsame := List.inj_on_of_nodup_map hb.sound.nodup hmem (mem_restingList_of_mem ha) heq.symm
      exact side.opposite_ne (congrArg Order.side hsame).symm
  have hpend' : b'.pendingOrders = b.pendingOrders.filter (fun o => o.id ≠ m.id) := by
    rw [hpend]
    refine (List.filter_eq_self.mpr fun o ho => ?_).symm
    rw [decide_eq_true_eq]
    exact (hb.restingFirst _ hmem o ho).ne'
  exact ⟨hb.without hs hcfg hnf hpend' hrest, hcfg, hnf, hfilled, hpend', hrest⟩

/-- Sequences being distinct, erasing the first match erases all of them. -/
lemma eraseP_id_eq_filter {seq : OrderSeq} :
    ∀ {l : List Order}, (l.map Order.id).Nodup →
      l.eraseP (fun x => decide (x.id = seq)) = l.filter (fun x => x.id ≠ seq)
  | [], _ => rfl
  | a :: l, hnd => by
      rw [List.map_cons, List.nodup_cons] at hnd
      by_cases ha : a.id = seq
      · rw [List.eraseP_cons_of_pos (by simpa using ha), List.filter_cons_of_neg (by simp [ha])]
        refine (List.filter_eq_self.mpr fun x hx => ?_).symm
        rw [decide_eq_true_eq]
        intro hxo
        exact hnd.1 (List.mem_map.mpr ⟨x, hx, hxo.trans ha.symm⟩)
      · rw [List.eraseP_cons_of_neg (by simpa using ha), List.filter_cons_of_pos (by simp [ha]),
          eraseP_id_eq_filter hnd.2]

/-- **A live order can be removed**, and the report carries its side, price and quantity. -/
theorem removeOrder_live {b : OrderBook} (hb : b.WellFormed) {o : Order} (ho : o ∈ b.live) :
    ∃ b', b.removeOrder o.id = .ok (some (⟨o.side, o.price, o.remainingQuantity⟩, b')) ∧
      b.Without o.id b' := by
  rcases mem_live.mp ho with hp | hr
  · have hnone : b.restingOrders.get o.id = none := by
      cases hg : b.restingOrders.get o.id with
      | none => rfl
      | some loc =>
          obtain ⟨o', ho', hid, -⟩ := (hb.sound.index _ _).mp hg
          exact absurd hid (hb.restingFirst o' ho' o hp).ne
    have hfind : b.pendingOrders.find? (fun x => decide (x.id = o.id)) = some o := by
      cases hf : b.pendingOrders.find? (fun x => decide (x.id = o.id)) with
      | none =>
          have := List.find?_eq_none.mp hf o hp
          simp at this
      | some o' =>
          have hid : o'.id = o.id := by simpa using List.find?_some hf
          have hmem := List.mem_of_find?_eq_some hf
          exact congrArg some (hb.eq_of_id_eq (mem_live.mpr (Or.inl hmem)) ho hid)
    let b' : OrderBook := { b with
      pendingOrders := b.pendingOrders.eraseP (fun x => decide (x.id = o.id)) }
    have herase : b.pendingOrders.eraseP (fun x => decide (x.id = o.id))
        = b.pendingOrders.filter (fun x => x.id ≠ o.id) :=
      eraseP_id_eq_filter (hb.pendingSorted.imp fun h => h.ne)
    have hrest : ∀ side, b.resting side = (b.resting side).filter (fun e => e.2.id ≠ o.id) := by
      intro side
      refine (List.filter_eq_self.mpr fun e he => ?_).symm
      rw [decide_eq_true_eq]
      exact (hb.restingFirst _ (mem_restingList_of_mem he) o hp).ne
    have hcfg : SameConfig b b' := ⟨rfl, rfl, rfl, rfl, rfl, rfl, rfl⟩
    refine ⟨b', ?_, hb.without (hb.sound.congr rfl rfl rfl) hcfg rfl herase hrest, hcfg, rfl, rfl,
      herase, hrest⟩
    simp only [removeOrder, hnone, hfind]
    rfl
  · obtain ⟨side, e, he, rfl⟩ := mem_restingList.mp hr
    obtain ⟨p, m⟩ := e
    have hget : b.restingOrders.get m.id = some (side, p) := hb.sound.get_index he
    -- On either side, the queue gives up exactly this order.
    have huniq : ∀ {w : RestingOrder}, (p, w) ∈ b.resting side → w.id = m.id → w = m := by
      intro w hw hid
      have hsame := List.inj_on_of_nodup_map hb.sound.nodup (mem_restingList_of_mem hw)
        (mem_restingList_of_mem he) hid
      have h1 := congrArg Order.id hsame
      have h2 := congrArg Order.remainingQuantity hsame
      have h3 := congrArg Order.timeInForce hsame
      cases w
      cases m
      simp only [RestingOrder.toOrder] at h1 h2 h3
      rw [h1, h2, h3]
    cases side with
    | buy =>
        have hmem : (OrderDual.toDual p, m) ∈ b.bids.iter := by
          obtain ⟨⟨k, m'⟩, hk, hkm⟩ := List.mem_map.mp
            (show (p, m) ∈ b.bids.iter.map (fun e => (OrderDual.ofDual e.1, e.2)) from he)
          simp only [Prod.mk.injEq] at hkm
          obtain ⟨rfl, rfl⟩ := hkm
          exact hk
        obtain ⟨w, bids, hrem⟩ := OrderQueue.remove_isSome
          (fun x => decide (x.id = m.id)) hmem (by simp)
        obtain ⟨pre, post, h1, h2, hw, -, hne⟩ := OrderQueue.iter_remove (hb.sound.nonEmpty .buy) hrem
        have hview : b.resting .buy = pre.map (fun e => (OrderDual.ofDual e.1, e.2))
            ++ (p, w) :: post.map (fun e => (OrderDual.ofDual e.1, e.2)) := by
          show b.bids.iter.map _ = _
          rw [h1, List.map_append, List.map_cons]
          rfl
        obtain rfl : w = m := huniq (hview ▸ by simp) (by simpa using hw)
        let b' : OrderBook := { b with bids, restingOrders := b.restingOrders.erase w.id }
        refine ⟨b', ?_, hb.remove_resting hview ?_ rfl (fun s => ?_) rfl
          ⟨rfl, rfl, rfl, rfl, rfl, rfl, rfl⟩ rfl rfl rfl⟩
        · have hid : (w.toOrder .buy p).id = w.id := rfl
          simp only [removeOrder, hid, hget, hrem, Except.expect_some, Except.bind_ok]
          rfl
        · show bids.iter.map _ = _
          rw [h2, List.map_append]
        · cases s with
          | buy => exact hne
          | sell => exact hb.sound.nonEmpty .sell
    | sell =>
        have hmem : (p, m) ∈ b.asks.iter := he
        obtain ⟨w, asks, hrem⟩ := OrderQueue.remove_isSome
          (fun x => decide (x.id = m.id)) hmem (by simp)
        obtain ⟨pre, post, h1, h2, hw, -, hne⟩ := OrderQueue.iter_remove (hb.sound.nonEmpty .sell) hrem
        have hview : b.resting .sell = pre ++ (p, w) :: post := h1
        obtain rfl : w = m := huniq (hview ▸ by simp) (by simpa using hw)
        let b' : OrderBook := { b with asks, restingOrders := b.restingOrders.erase w.id }
        refine ⟨b', ?_, hb.remove_resting hview h2 rfl (fun s => ?_) rfl
          ⟨rfl, rfl, rfl, rfl, rfl, rfl, rfl⟩ rfl rfl rfl⟩
        · have hid : (w.toOrder .sell p).id = w.id := rfl
          simp only [removeOrder, hid, hget, hrem, Except.expect_some, Except.bind_ok]
          rfl
        · cases s with
          | buy => exact hb.sound.nonEmpty .buy
          | sell => exact hne

/-- A sequence that is not live is not found. -/
theorem removeOrder_dead {b : OrderBook} (hb : b.Sound) {seq : OrderSeq}
    (h : ∀ o ∈ b.live, o.id ≠ seq) : b.removeOrder seq = .ok none := by
  have hnone : b.restingOrders.get seq = none := by
    cases hg : b.restingOrders.get seq with
    | none => rfl
    | some loc =>
        obtain ⟨o, ho, hid, -⟩ := (hb.index _ _).mp hg
        exact absurd hid (h o (mem_live.mpr (Or.inr ho)))
  have hfind : b.pendingOrders.find? (fun x => decide (x.id = seq)) = none := by
    rw [List.find?_eq_none]
    intro o ho
    simpa using h o (mem_live.mpr (Or.inl ho))
  simp only [removeOrder, hnone, hfind]

end OrderBook

/-! ## Restoring -/

namespace OrderBookSnapshot

/-- The index entries of a list of levels. -/
def indexEntries (side : Side) (levels : List PriceLevel) : List (OrderSeq × Side × Price) :=
  levels.flatMap fun level => level.orders.map fun order => (order.id, side, level.price)

lemma indexLevel_spec (side : Side) (price : Price) :
    ∀ {orders : List RestingOrder} {index : SortedMap OrderSeq (Side × Price)},
      (orders.map RestingOrder.id).Nodup → (∀ order ∈ orders, index.get order.id = none) →
      indexLevel side price index orders
        = .ok (index.insertAll (orders.map fun order => (order.id, side, price)))
  | [], index, _, _ => rfl
  | order :: orders, index, hnd, hfresh => by
      rw [List.map_cons, List.nodup_cons] at hnd
      have hc : (!index.contains order.id) = true := by
        rw [SortedMap.contains, hfresh order List.mem_cons_self]
        rfl
      have hfresh' : ∀ o ∈ orders, (index.insert order.id (side, price)).get o.id = none := by
        intro o ho
        rw [SortedMap.get_insert_of_ne]
        · exact hfresh o (List.mem_cons_of_mem _ ho)
        · intro heq
          exact hnd.1 (List.mem_map.mpr ⟨o, ho, heq.symm⟩)
      have hstep : indexLevel side price index (order :: orders)
          = indexLevel side price (index.insert order.id (side, price)) orders := by
        simp only [indexLevel, List.foldlM_cons, hc, Except.assert_true, Except.bind_ok]
      rw [hstep, indexLevel_spec side price hnd.2 hfresh', List.map_cons, SortedMap.insertAll_cons]

/-- The loop over the levels of one side. -/
lemma restoreLevels_spec {K : Type} [LinearOrder K] {side : Side} {toKey : Price → K} :
    ∀ {levels : List PriceLevel} {map : SortedMap K (List RestingOrder)}
      {index : SortedMap OrderSeq (Side × Price)},
      (levels.map fun level => toKey level.price).Nodup →
      (∀ level ∈ levels, map.get (toKey level.price) = none) →
      ((indexEntries side levels).map Prod.fst).Nodup →
      (∀ e ∈ indexEntries side levels, index.get e.1 = none) →
      levels.foldlM (restoreLevel side toKey) (map, index)
        = .ok (map.insertAll (levels.map fun level => (toKey level.price, level.orders)),
            index.insertAll (indexEntries side levels))
  | [], map, index, _, _, _, _ => rfl
  | level :: levels, map, index, hk, hkf, hi, hif => by
      rw [List.map_cons, List.nodup_cons] at hk
      have hsplit : indexEntries side (level :: levels)
          = (level.orders.map fun order => (order.id, side, level.price))
            ++ indexEntries side levels := rfl
      rw [hsplit] at hif
      rw [hsplit, List.map_append, List.nodup_append, List.map_map] at hi
      obtain ⟨hi1, hi2, hi3⟩ := hi
      have hlevel := indexLevel_spec side level.price hi1
        (fun order ho => hif _ (List.mem_append_left _ (List.mem_map_of_mem ho)))
      have hc : (!map.contains (toKey level.price)) = true := by
        rw [SortedMap.contains, hkf level List.mem_cons_self]
        rfl
      have hkf' : ∀ l ∈ levels,
          (map.insert (toKey level.price) level.orders).get (toKey l.price) = none := by
        intro l hl
        rw [SortedMap.get_insert_of_ne]
        · exact hkf l (List.mem_cons_of_mem _ hl)
        · intro heq
          exact hk.1 (List.mem_map.mpr ⟨l, hl, heq.symm⟩)
      have hif' : ∀ e ∈ indexEntries side levels, (index.insertAll
          (level.orders.map fun order => (order.id, side, level.price))).get e.1 = none := by
        intro e he
        rw [SortedMap.get_insertAll_of_notMem]
        · exact hif e (List.mem_append_right _ he)
        · rw [List.map_map]
          intro hmem
          exact hi3 e.1 hmem e.1 (List.mem_map_of_mem he) rfl
      rw [List.foldlM_cons]
      simp only [restoreLevel, hlevel, Except.bind_ok, hc, Except.assert_true]
      have ih := restoreLevels_spec hk.2 hkf' hi2 hif'
      rw [ih, hsplit, SortedMap.insertAll_append, List.map_cons, SortedMap.insertAll_cons]

/-- The index entries of the levels of a side are those of its orders. -/
lemma indexEntries_bids (b : OrderBook) :
    indexEntries .buy (b.bids.levels.entries.map fun level =>
        (⟨OrderDual.ofDual level.1, level.2⟩ : PriceLevel))
      = (b.restingOn .buy).map fun o => (o.id, o.side, o.price) := by
  simp only [indexEntries, OrderBook.restingOn, OrderBook.resting, OrderBook.bidsIter,
    OrderQueue.iter, OrderQueue.flatten, List.map_flatMap, List.flatMap_map, List.map_map]
  rfl

lemma indexEntries_asks (b : OrderBook) :
    indexEntries .sell (b.asks.levels.entries.map fun level =>
        (⟨level.1, level.2⟩ : PriceLevel))
      = (b.restingOn .sell).map fun o => (o.id, o.side, o.price) := by
  simp only [indexEntries, OrderBook.restingOn, OrderBook.resting, OrderBook.asksIter,
    OrderQueue.iter, OrderQueue.flatten, List.map_flatMap, List.flatMap_map, List.map_map]
  rfl

lemma fromLevels_of_nonEmpty {K : Type} [LinearOrder K] {q : OrderQueue K RestingOrder}
    (h : q.NonEmptyLevels) : OrderQueue.fromLevels q.levels = q := by
  have hfilter : q.levels.filter (fun _ queue => !queue.isEmpty) = q.levels := by
    refine SortedMap.ext_get fun k => ?_
    rw [SortedMap.get_filter]
    cases hg : q.levels.get k with
    | none => rfl
    | some queue =>
        have hne := h (k, queue) (q.levels.mem_entries_iff.mpr hg)
        rw [Option.filter_some, if_pos]
        simpa using hne
  rw [OrderQueue.fromLevels, hfilter]

/-- **Restoring a snapshot gives the book back.** -/
theorem intoBook_ofBook {b : OrderBook} (hb : b.Sound) : (ofBook b).intoBook = .ok b := by
  have hlist : b.restingList.map (fun o => (o.id, o.side, o.price))
      = (b.restingOn .buy).map (fun o => (o.id, o.side, o.price))
        ++ (b.restingOn .sell).map (fun o => (o.id, o.side, o.price)) := by
    rw [OrderBook.restingList, List.map_append]
  have hnd : ((b.restingList.map fun o => (o.id, o.side, o.price)).map Prod.fst).Nodup := by
    rw [List.map_map]
    exact hb.nodup
  rw [hlist, List.map_append, List.nodup_append] at hnd
  obtain ⟨hnb, hna, hdisj⟩ := hnd
  have hbids : (ofBook b).bids.foldlM (restoreLevel .buy OrderDual.toDual)
      (SortedMap.empty, SortedMap.empty) = .ok (b.bids.levels, SortedMap.empty.insertAll
        ((b.restingOn .buy).map fun o => (o.id, o.side, o.price))) := by
    rw [restoreLevels_spec]
    · rw [ofBook, indexEntries_bids, List.map_map]
      have := b.bids.levels.insertAll_entries
      simp only [Function.comp_def, OrderDual.toDual_ofDual, Prod.mk.eta, List.map_id']
      rw [this]
    · rw [ofBook, List.map_map]
      exact b.bids.levels.keys_nodup
    · exact fun _ _ => rfl
    · rw [ofBook, indexEntries_bids]
      exact hnb
    · exact fun _ _ => rfl
  have hasks : ∀ index : SortedMap OrderSeq (Side × Price),
      (∀ e ∈ (b.restingOn .sell).map (fun o => (o.id, o.side, o.price)), index.get e.1 = none) →
      (ofBook b).asks.foldlM (restoreLevel .sell fun price => price) (SortedMap.empty, index)
        = .ok (b.asks.levels, index.insertAll
          ((b.restingOn .sell).map fun o => (o.id, o.side, o.price))) := by
    intro index hidx
    rw [restoreLevels_spec]
    · rw [ofBook, indexEntries_asks, List.map_map]
      have := b.asks.levels.insertAll_entries
      simp only [Function.comp_def, Prod.mk.eta, List.map_id']
      rw [this]
    · rw [ofBook, List.map_map]
      exact b.asks.levels.keys_nodup
    · exact fun _ _ => rfl
    · rw [ofBook, indexEntries_asks]
      exact hna
    · rw [ofBook, indexEntries_asks]
      exact hidx
  have hfresh : ∀ e ∈ (b.restingOn .sell).map (fun o => (o.id, o.side, o.price)),
      ((SortedMap.empty : SortedMap OrderSeq (Side × Price)).insertAll
        ((b.restingOn .buy).map fun o => (o.id, o.side, o.price))).get e.1 = none := by
    intro e he
    rw [SortedMap.get_insertAll_of_notMem, SortedMap.get_empty]
    intro hmem
    exact hdisj e.1 hmem e.1 (List.mem_map_of_mem he) rfl
  have hindex : ((SortedMap.empty : SortedMap OrderSeq (Side × Price)).insertAll
      ((b.restingOn .buy).map fun o => (o.id, o.side, o.price))).insertAll
        ((b.restingOn .sell).map fun o => (o.id, o.side, o.price)) = b.restingOrders := by
    rw [← SortedMap.insertAll_append, ← hlist]
    have hnd : ((b.restingList.map fun o => (o.id, o.side, o.price)).map Prod.fst).Nodup := by
      rw [List.map_map]
      exact hb.nodup
    refine SortedMap.ext_get fun seq => ?_
    cases hg : b.restingOrders.get seq with
    | none =>
        rw [SortedMap.get_insertAll_of_notMem, SortedMap.get_empty]
        intro hmem
        obtain ⟨e, he, rfl⟩ := List.mem_map.mp hmem
        obtain ⟨o, ho, rfl⟩ := List.mem_map.mp he
        have hsome := (hb.index o.id (o.side, o.price)).mpr ⟨o, ho, rfl, rfl⟩
        rw [hg] at hsome
        cases hsome
    | some loc =>
        obtain ⟨o, ho, rfl, rfl⟩ := (hb.index _ _).mp hg
        exact SortedMap.get_insertAll_of_mem _ hnd (List.mem_map.mpr ⟨o, ho, rfl⟩)
  have hfilled : (ofBook b).filledOrders.foldl (fun set seq => set.insert seq ()) SortedSet.empty
      = b.filledOrders := by
    refine SortedMap.ext_contains fun k => ?_
    have h := SortedMap.contains_addAll (s := SortedSet.empty) (l := b.filledOrders.keys) (k := k)
    refine h.trans ?_
    rw [SortedMap.mem_keys_iff]
    simp [SortedMap.contains]
  simp only [intoBook, hbids, Except.bind_ok, hasks _ hfresh, hindex, hfilled,
    fromLevels_of_nonEmpty (q := b.bids) (hb.nonEmpty .buy),
    fromLevels_of_nonEmpty (q := b.asks) (hb.nonEmpty .sell)]
  rfl

end OrderBookSnapshot

end OisyTrade
