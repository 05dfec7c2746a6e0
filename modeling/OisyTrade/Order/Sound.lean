import OisyTrade.Order.Book

/-!
# The resting orders of a book

A book keeps its resting orders three times: in the two sides and in the index.  `Sound` says
that the three agree, that no level is empty and that each side is in priority order.  The lemmas
here say what it takes to keep `Sound` when one resting order is taken out, changed in place or
put in; every mutator of the book is one of these.

The resting orders are read through `resting side`, the orders of one side in priority order with
their natural price, so that nothing below has to be said once for bids and once for asks.
-/

namespace OisyTrade

namespace Side

@[simp] lemma opposite_opposite (side : Side) : side.opposite.opposite = side := by
  cases side <;> rfl

lemma opposite_ne (side : Side) : side.opposite ≠ side := by
  cases side <;> simp [opposite]

lemma eq_or_eq_opposite (side s : Side) : s = side ∨ s = side.opposite := by
  cases side <;> cases s <;> simp [opposite]

/-- `p` is a strictly better price than `q` for an order resting on this side. -/
def Better : Side → Price → Price → Prop
  | .buy, p, q => q < p
  | .sell, p, q => p < q

instance : ∀ (side : Side) (p q : Price), Decidable (side.Better p q)
  | .buy, p, q => inferInstanceAs (Decidable (q < p))
  | .sell, p, q => inferInstanceAs (Decidable (p < q))

/-- An incoming order of this side and limit `limit` can trade at `maker`. -/
def crosses : Side → Price → Price → Bool
  | .buy, limit, maker => maker ≤ limit
  | .sell, limit, maker => limit ≤ maker

lemma Better.trans {side : Side} {p q r : Price} (h : side.Better p q) (h' : side.Better q r) :
    side.Better p r := by
  cases side with
  | buy => exact lt_trans h' h
  | sell => exact lt_trans h h'

lemma Better.irrefl {side : Side} {p : Price} (h : side.Better p p) : False := by
  cases side <;> exact lt_irrefl _ h

lemma better_trichotomy (side : Side) (p q : Price) :
    side.Better p q ∨ p = q ∨ side.Better q p := by
  cases side with
  | buy =>
      rcases lt_trichotomy p q with h | h | h
      · exact Or.inr (Or.inr h)
      · exact Or.inr (Or.inl h)
      · exact Or.inl h
  | sell => exact lt_trichotomy p q

/-- A better maker crosses whenever a worse one does. -/
lemma crosses_of_better {side : Side} {limit p q : Price} (h : side.opposite.Better p q)
    (hq : side.crosses limit q = true) : side.crosses limit p = true := by
  cases side with
  | buy =>
      simp only [crosses, decide_eq_true_eq] at hq ⊢
      exact (show p < q from h).le.trans hq
  | sell =>
      simp only [crosses, decide_eq_true_eq] at hq ⊢
      exact hq.trans (show q < p from h).le

end Side

/-- `a` is matched before `c`: a better price, or the same price and an earlier sequence. -/
def Ahead (side : Side) (a c : Price × RestingOrder) : Prop :=
  side.Better a.1 c.1 ∨ (a.1 = c.1 ∧ a.2.id < c.2.id)

lemma Ahead.trans {side : Side} {a b c : Price × RestingOrder} (h : Ahead side a b)
    (h' : Ahead side b c) : Ahead side a c := by
  rcases h with h | ⟨h1, h2⟩
  · rcases h' with h' | ⟨h1', -⟩
    · exact Or.inl (h.trans h')
    · exact Or.inl (h1' ▸ h)
  · rcases h' with h' | ⟨h1', h2'⟩
    · exact Or.inl (h1 ▸ h')
    · exact Or.inr ⟨h1.trans h1', h2.trans h2'⟩

lemma Ahead.irrefl {side : Side} {a : Price × RestingOrder} (h : Ahead side a a) : False := by
  rcases h with h | ⟨-, h⟩
  · exact h.irrefl
  · exact lt_irrefl _ h

namespace OrderBook

/-- The orders resting on one side, in priority order. -/
def resting (b : OrderBook) : Side → List (Price × RestingOrder)
  | .buy => b.bidsIter
  | .sell => b.asksIter

/-- The orders resting on one side, as orders. -/
def restingOn (b : OrderBook) (side : Side) : List Order :=
  (b.resting side).map fun e => e.2.toOrder side e.1

/-- All resting orders. -/
def restingList (b : OrderBook) : List Order := b.restingOn .buy ++ b.restingOn .sell

/-- No level of this side is empty. -/
def NonEmptyLevels (b : OrderBook) : Side → Prop
  | .buy => b.bids.NonEmptyLevels
  | .sell => b.asks.NonEmptyLevels

/-- The two sides and the index hold the same orders, each once and in priority order. -/
structure Sound (b : OrderBook) : Prop where
  nonEmpty : ∀ side, b.NonEmptyLevels side
  priority : ∀ side, (b.resting side).Pairwise (Ahead side)
  nodup : (b.restingList.map Order.id).Nodup
  index : ∀ seq loc, b.restingOrders.get seq = some loc ↔
    ∃ o ∈ b.restingList, o.id = seq ∧ (o.side, o.price) = loc

/-- The fields that no matching and no removal changes. -/
structure SameConfig (b b' : OrderBook) : Prop where
  id : b'.id = b.id
  nextSeq : b'.nextSeq = b.nextSeq
  tickSize : b'.tickSize = b.tickSize
  lotSize : b'.lotSize = b.lotSize
  minNotional : b'.minNotional = b.minNotional
  maxNotional : b'.maxNotional = b.maxNotional
  feeRates : b'.feeRates = b.feeRates

lemma SameConfig.refl (b : OrderBook) : SameConfig b b := ⟨rfl, rfl, rfl, rfl, rfl, rfl, rfl⟩

lemma SameConfig.trans {b b' b'' : OrderBook} (h : SameConfig b b') (h' : SameConfig b' b'') :
    SameConfig b b'' :=
  ⟨h'.id.trans h.id, h'.nextSeq.trans h.nextSeq, h'.tickSize.trans h.tickSize,
    h'.lotSize.trans h.lotSize, h'.minNotional.trans h.minNotional,
    h'.maxNotional.trans h.maxNotional, h'.feeRates.trans h.feeRates⟩

lemma mem_restingOn {b : OrderBook} {side : Side} {o : Order} :
    o ∈ b.restingOn side ↔ ∃ e ∈ b.resting side, e.2.toOrder side e.1 = o := by
  rw [restingOn, List.mem_map]

lemma mem_restingList {b : OrderBook} {o : Order} :
    o ∈ b.restingList ↔ ∃ side, ∃ e ∈ b.resting side, e.2.toOrder side e.1 = o := by
  rw [restingList, List.mem_append, mem_restingOn, mem_restingOn]
  constructor
  · rintro (h | h)
    · exact ⟨.buy, h⟩
    · exact ⟨.sell, h⟩
  · rintro ⟨side, h⟩
    cases side with
    | buy => exact Or.inl h
    | sell => exact Or.inr h

lemma mem_restingList_of_mem {b : OrderBook} {side : Side} {e : Price × RestingOrder}
    (h : e ∈ b.resting side) : e.2.toOrder side e.1 ∈ b.restingList :=
  mem_restingList.mpr ⟨side, e, h, rfl⟩

lemma restingList_perm (b : OrderBook) (side : Side) :
    b.restingList.Perm (b.restingOn side ++ b.restingOn side.opposite) := by
  cases side with
  | buy => exact List.Perm.refl _
  | sell => exact List.perm_append_comm

lemma length_restingList (b : OrderBook) (side : Side) : b.restingList.length
    = (b.resting side).length + (b.resting side.opposite).length := by
  rw [(b.restingList_perm side).length_eq, List.length_append, restingOn, restingOn,
    List.length_map, List.length_map]

/-- A book whose other side is the same and whose side is a rearrangement with something changed
has a correspondingly rearranged list of resting orders. -/
lemma restingList_perm_of {b b' : OrderBook} {side : Side}
    (hother : b'.resting side.opposite = b.resting side.opposite) :
    b'.restingList.Perm (b'.restingOn side ++ b.restingOn side.opposite) := by
  refine (b'.restingList_perm side).trans ?_
  rw [restingOn, restingOn, restingOn, hother]

lemma restingOn_append {b : OrderBook} {side : Side} {pre post : List (Price × RestingOrder)}
    {e : Price × RestingOrder} (h : b.resting side = pre ++ e :: post) :
    (b.restingOn side).Perm (e.2.toOrder side e.1
      :: (pre ++ post).map fun e => e.2.toOrder side e.1) := by
  rw [restingOn, h, List.map_append, List.map_cons, List.map_append]
  exact List.perm_middle

/-- Taking `e` out of its side takes one order out of the list of resting orders. -/
lemma restingList_perm_cons {b b' : OrderBook} {side : Side}
    {pre post : List (Price × RestingOrder)} {e : Price × RestingOrder}
    (h : b.resting side = pre ++ e :: post) (h' : b'.resting side = pre ++ post)
    (hother : b'.resting side.opposite = b.resting side.opposite) :
    b.restingList.Perm (e.2.toOrder side e.1 :: b'.restingList) := by
  refine (b.restingList_perm side).trans ?_
  refine ((restingOn_append h).append_right _).trans ?_
  rw [List.cons_append]
  refine List.Perm.cons _ ((restingList_perm_of hother).trans ?_).symm
  rw [restingOn, h']

/-- The index entry of an order that rests. -/
lemma Sound.get_index {b : OrderBook} (hb : b.Sound) {side : Side} {e : Price × RestingOrder}
    (h : e ∈ b.resting side) : b.restingOrders.get e.2.id = some (side, e.1) :=
  (hb.index _ _).mpr ⟨_, mem_restingList_of_mem h, rfl, rfl⟩

/-- **One resting order less.** -/
lemma Sound.of_remove {b b' : OrderBook} (hb : b.Sound) {side : Side}
    {pre post : List (Price × RestingOrder)} {e : Price × RestingOrder}
    (h : b.resting side = pre ++ e :: post) (h' : b'.resting side = pre ++ post)
    (hother : b'.resting side.opposite = b.resting side.opposite)
    (hne : ∀ s, b'.NonEmptyLevels s)
    (hindex : b'.restingOrders = b.restingOrders.erase e.2.id) : b'.Sound := by
  have hperm := restingList_perm_cons h h' hother
  have hnd : ((e.2.toOrder side e.1 :: b'.restingList).map Order.id).Nodup :=
    (hperm.map Order.id).nodup_iff.mp hb.nodup
  rw [List.map_cons, List.nodup_cons] at hnd
  refine ⟨hne, fun s => ?_, hnd.2, fun seq loc => ?_⟩
  · rcases side.eq_or_eq_opposite s with rfl | rfl
    · have hp := hb.priority s
      rw [h] at hp
      rw [h']
      exact hp.sublist (List.Sublist.append_left (List.sublist_cons_self _ _) _)
    · rw [hother]
      exact hb.priority _
  · rw [hindex, SortedMap.get_erase]
    split_ifs with hid
    · simp only [false_iff]
      rintro ⟨o, ho, hoid, -⟩
      refine hnd.1 (List.mem_map.mpr ⟨o, ho, ?_⟩)
      exact hoid.trans hid.symm
    · rw [hb.index]
      constructor
      · rintro ⟨o, ho, hoid, hloc⟩
        rcases List.mem_cons.mp (hperm.mem_iff.mp ho) with rfl | ho'
        · exact absurd hoid hid
        · exact ⟨o, ho', hoid, hloc⟩
      · rintro ⟨o, ho, hoid, hloc⟩
        exact ⟨o, hperm.mem_iff.mpr (List.mem_cons_of_mem _ ho), hoid, hloc⟩

/-- **One resting order more**, behind everything at its own or a better price. -/
lemma Sound.of_insert {b b' : OrderBook} (hb : b.Sound) {side : Side}
    {pre post : List (Price × RestingOrder)} {e : Price × RestingOrder}
    (h : b.resting side = pre ++ post) (h' : b'.resting side = pre ++ e :: post)
    (hother : b'.resting side.opposite = b.resting side.opposite)
    (hne : ∀ s, b'.NonEmptyLevels s)
    (hpre : ∀ a ∈ pre, Ahead side a e) (hpost : ∀ a ∈ post, Ahead side e a)
    (hnew : ∀ o ∈ b.restingList, o.id ≠ e.2.id)
    (hindex : b'.restingOrders = b.restingOrders.insert e.2.id (side, e.1)) : b'.Sound := by
  have hperm : b'.restingList.Perm (e.2.toOrder side e.1 :: b.restingList) :=
    restingList_perm_cons h' h hother.symm
  refine ⟨hne, fun s => ?_, ?_, fun seq loc => ?_⟩
  · rcases side.eq_or_eq_opposite s with rfl | rfl
    · have hp := hb.priority s
      rw [h, List.pairwise_append] at hp
      obtain ⟨h1, h2, h3⟩ := hp
      rw [h', List.pairwise_append]
      refine ⟨h1, List.pairwise_cons.mpr ⟨hpost, h2⟩, fun a ha c hc => ?_⟩
      rcases List.mem_cons.mp hc with rfl | hc
      · exact hpre a ha
      · exact h3 a ha c hc
    · rw [hother]
      exact hb.priority _
  · refine (hperm.map Order.id).nodup_iff.mpr ?_
    rw [List.map_cons, List.nodup_cons]
    refine ⟨fun hmem => ?_, hb.nodup⟩
    obtain ⟨o, ho, hid⟩ := List.mem_map.mp hmem
    exact hnew o ho hid
  · rw [hindex, SortedMap.get_insert]
    split_ifs with hid
    · rw [Option.some.injEq]
      constructor
      · rintro rfl
        exact ⟨_, hperm.mem_iff.mpr List.mem_cons_self, hid, rfl⟩
      · rintro ⟨o, ho, hoid, hloc⟩
        rcases List.mem_cons.mp (hperm.mem_iff.mp ho) with rfl | ho'
        · exact hloc
        · exact absurd (hoid.trans hid.symm) (hnew o ho')
    · rw [hb.index]
      constructor
      · rintro ⟨o, ho, hoid, hloc⟩
        exact ⟨o, hperm.mem_iff.mpr (List.mem_cons_of_mem _ ho), hoid, hloc⟩
      · rintro ⟨o, ho, hoid, hloc⟩
        rcases List.mem_cons.mp (hperm.mem_iff.mp ho) with rfl | ho'
        · exact absurd hoid hid
        · exact ⟨o, ho', hoid, hloc⟩

/-- **The best order of a side reduced in place.** -/
lemma Sound.of_replace {b b' : OrderBook} (hb : b.Sound) {side : Side}
    {rest : List (Price × RestingOrder)} {p : Price} {m m' : RestingOrder}
    (h : b.resting side = (p, m) :: rest) (h' : b'.resting side = (p, m') :: rest)
    (hid : m'.id = m.id)
    (hother : b'.resting side.opposite = b.resting side.opposite)
    (hne : ∀ s, b'.NonEmptyLevels s)
    (hindex : b'.restingOrders = b.restingOrders) : b'.Sound := by
  have hperm := (b.restingList_perm side)
  have hperm' := restingList_perm_of hother
  have hon : b.restingOn side = m.toOrder side p :: rest.map fun e => e.2.toOrder side e.1 := by
    rw [restingOn, h, List.map_cons]
  have hon' : b'.restingOn side = m'.toOrder side p :: rest.map fun e => e.2.toOrder side e.1 := by
    rw [restingOn, h', List.map_cons]
  have hkeys : ∀ seq loc, (∃ o ∈ b'.restingList, o.id = seq ∧ (o.side, o.price) = loc) ↔
      ∃ o ∈ b.restingList, o.id = seq ∧ (o.side, o.price) = loc := by
    intro seq loc
    simp only [hperm.mem_iff, hperm'.mem_iff, hon, hon', List.cons_append, List.mem_cons,
      or_and_right, exists_or, exists_eq_left]
    refine or_congr ?_ Iff.rfl
    simp only [RestingOrder.toOrder, hid]
  refine ⟨hne, fun s => ?_, ?_, fun seq loc => ?_⟩
  · rcases side.eq_or_eq_opposite s with rfl | rfl
    · have hp := hb.priority s
      rw [h, List.pairwise_cons] at hp
      rw [h', List.pairwise_cons]
      refine ⟨fun a ha => ?_, hp.2⟩
      rcases hp.1 a ha with h1 | ⟨h1, h2⟩
      · exact Or.inl h1
      · refine Or.inr ⟨h1, ?_⟩
        rw [show ((p, m') : Price × RestingOrder).2.id = m.id from hid]
        exact h2
    · rw [hother]
      exact hb.priority _
  · refine (hperm'.map Order.id).nodup_iff.mpr ?_
    have hnd := (hperm.map Order.id).nodup_iff.mp hb.nodup
    rw [hon] at hnd
    rw [hon']
    simp only [List.cons_append, List.map_cons, RestingOrder.toOrder] at hnd ⊢
    rw [hid]
    exact hnd
  · rw [hindex, hb.index, hkeys]

/-! ## The primitive steps -/

/-- The bids with their natural price: the head and the tail seen through the order dual. -/
lemma bids_of_bidsIter_cons {b : OrderBook} {p : Price} {m : RestingOrder}
    {rest : List (Price × RestingOrder)} (h : b.bidsIter = (p, m) :: rest) :
    ∃ rest', b.bids.iter = (OrderDual.toDual p, m) :: rest' ∧
      rest'.map (fun e => (OrderDual.ofDual e.1, e.2)) = rest := by
  obtain ⟨⟨k, m'⟩, rest', hk, hcons, hrest'⟩ := List.map_eq_cons_iff.mp h
  simp only [Prod.mk.injEq] at hcons
  obtain ⟨rfl, rfl⟩ := hcons
  exact ⟨rest', hk, hrest'⟩

/-- Popping the best maker takes it out of its side and out of the index. -/
lemma popMaker_spec {b : OrderBook} (hb : b.Sound) {side : Side} {p : Price} {m : RestingOrder}
    {rest : List (Price × RestingOrder)} (h : b.resting side.opposite = (p, m) :: rest) :
    ∃ b' : OrderBook,
      b.popMaker side = .ok (some ((p, m), b')) ∧
      b'.Sound ∧ b'.resting side.opposite = rest ∧ b'.resting side = b.resting side ∧
      SameConfig b b' ∧ b'.pendingOrders = b.pendingOrders ∧ b'.nextFill = b.nextFill ∧
      b'.filledOrders = b.filledOrders := by
  have hmem : (p, m) ∈ b.resting side.opposite := h ▸ List.mem_cons_self
  have hget : b.restingOrders.contains m.id = true := by
    rw [SortedMap.contains, hb.get_index hmem]
    rfl
  cases side with
  | buy =>
      have hiter : b.asks.iter = (p, m) :: rest := h
      obtain ⟨asks, hpop, hrest, hne⟩ := OrderQueue.popFront_of_iter_cons (hb.nonEmpty .sell) hiter
      let b' : OrderBook := { b with asks, restingOrders := b.restingOrders.erase m.id }
      refine ⟨b', ?_, ?_, hrest, rfl, ⟨rfl, rfl, rfl, rfl, rfl, rfl, rfl⟩, rfl, rfl, rfl⟩
      · simp only [popMaker, asksPopFront, hpop, Except.bind_ok, hget, Except.assert_true]
        rfl
      · refine hb.of_remove (show b.resting .sell = [] ++ (p, m) :: rest from h) hrest rfl
          (fun s => ?_) rfl
        cases s with
        | buy => exact hb.nonEmpty .buy
        | sell => exact hne
  | sell =>
      obtain ⟨rest', hk, hrest'⟩ := bids_of_bidsIter_cons h
      obtain ⟨bids, hpop, hrest, hne⟩ := OrderQueue.popFront_of_iter_cons (hb.nonEmpty .buy) hk
      have hview : bids.iter.map (fun e => (OrderDual.ofDual e.1, e.2)) = rest := by
        rw [hrest, hrest']
      let b' : OrderBook := { b with bids, restingOrders := b.restingOrders.erase m.id }
      refine ⟨b', ?_, ?_, hview, rfl, ⟨rfl, rfl, rfl, rfl, rfl, rfl, rfl⟩, rfl, rfl, rfl⟩
      · simp only [popMaker, bidsPopFront, hpop, Except.bind_ok, hget, Except.assert_true]
        rfl
      · refine hb.of_remove (show b.resting .buy = [] ++ (p, m) :: rest from h) hview rfl
          (fun s => ?_) rfl
        cases s with
        | buy => exact hne
        | sell => exact hb.nonEmpty .sell

/-- Reading and writing the best maker. -/
lemma frontMaker_spec {b : OrderBook} (hb : b.Sound) {side : Side} {p : Price} {m : RestingOrder}
    {rest : List (Price × RestingOrder)} (h : b.resting side.opposite = (p, m) :: rest) :
    b.frontMaker side = .ok (some (p, m)) ∧
    ∀ m' : RestingOrder, m'.id = m.id →
      (b.setFrontMaker m' side).Sound ∧
      (b.setFrontMaker m' side).resting side.opposite = (p, m') :: rest ∧
      (b.setFrontMaker m' side).resting side = b.resting side ∧
      SameConfig b (b.setFrontMaker m' side) ∧
      (b.setFrontMaker m' side).pendingOrders = b.pendingOrders ∧
      (b.setFrontMaker m' side).nextFill = b.nextFill ∧
      (b.setFrontMaker m' side).filledOrders = b.filledOrders := by
  cases side with
  | buy =>
      have hiter : b.asks.iter = (p, m) :: rest := h
      obtain ⟨hfront, hset⟩ := OrderQueue.front_of_iter_cons (hb.nonEmpty .sell) hiter
      refine ⟨hfront, fun m' hid => ?_⟩
      obtain ⟨hiter', hne⟩ := hset m'
      refine ⟨?_, hiter', rfl, ⟨rfl, rfl, rfl, rfl, rfl, rfl, rfl⟩, rfl, rfl, rfl⟩
      refine hb.of_replace (show b.resting .sell = [] ++ (p, m) :: rest from hiter) hiter' hid rfl
        (fun s => ?_) rfl
      cases s with
      | buy => exact hb.nonEmpty .buy
      | sell => exact hne
  | sell =>
      obtain ⟨rest', hk, hrest'⟩ := bids_of_bidsIter_cons h
      obtain ⟨hfront, hset⟩ := OrderQueue.front_of_iter_cons (hb.nonEmpty .buy) hk
      refine ⟨by simp only [frontMaker, bidsFront, hfront, Except.bind_ok]; rfl, fun m' hid => ?_⟩
      obtain ⟨hiter', hne⟩ := hset m'
      have hview : (b.bids.setFront m').iter.map (fun e => (OrderDual.ofDual e.1, e.2))
          = (p, m') :: rest := by
        rw [hiter', List.map_cons, hrest']
        rfl
      refine ⟨?_, hview, rfl, ⟨rfl, rfl, rfl, rfl, rfl, rfl, rfl⟩, rfl, rfl, rfl⟩
      refine hb.of_replace h hview hid rfl (fun s => ?_) rfl
      cases s with
      | buy => exact hne
      | sell => exact hb.nonEmpty .sell

/-- A fresh order with the largest sequence rests at the back of its price level. -/
lemma insertOrder_spec {b : OrderBook} (hb : b.Sound) (order : Order)
    (hnew : ∀ o ∈ b.restingList, o.id < order.id) :
    ∃ b' : OrderBook, b.insertOrder order = .ok b' ∧ b'.Sound ∧
      (∃ pre post, b.resting order.side = pre ++ post ∧
        b'.resting order.side = pre ++ (order.price, RestingOrder.ofOrder order) :: post ∧
        (∀ a ∈ pre, ¬ order.side.Better order.price a.1) ∧
        (∀ a ∈ post, order.side.Better order.price a.1)) ∧
      b'.resting order.side.opposite = b.resting order.side.opposite ∧ SameConfig b b' ∧
      b'.pendingOrders = b.pendingOrders ∧ b'.nextFill = b.nextFill ∧
      b'.filledOrders = b.filledOrders := by
  have hnone : b.restingOrders.get order.id = none := by
    cases hg : b.restingOrders.get order.id with
    | none => rfl
    | some loc =>
        obtain ⟨o, ho, hid, -⟩ := (hb.index _ _).mp hg
        exact absurd (hid ▸ hnew o ho) (lt_irrefl _)
  have hcont : (!b.restingOrders.contains order.id) = true := by
    rw [SortedMap.contains, hnone]
    rfl
  have hahead : ∀ {pre : List (Price × RestingOrder)}, (∀ a ∈ pre, a ∈ b.resting order.side) →
      (∀ a ∈ pre, ¬ order.side.Better order.price a.1) →
      ∀ a ∈ pre, Ahead order.side a (order.price, RestingOrder.ofOrder order) := by
    intro pre hsub hpre a ha
    rcases order.side.better_trichotomy a.1 order.price with h | h | h
    · exact Or.inl h
    · exact Or.inr ⟨h, hnew _ (mem_restingList_of_mem (hsub a ha))⟩
    · exact absurd h (hpre a ha)
  obtain ⟨seq, side, price, qty, tif⟩ := order
  cases side with
  | buy =>
      let order : Order := ⟨seq, .buy, price, qty, tif⟩
      obtain ⟨pre, post, h1, h2, h3, h4⟩ := b.bids.iter_pushBack (OrderDual.toDual price)
        (RestingOrder.ofOrder order)
      let toNat : Priceᵒᵈ × RestingOrder → Price × RestingOrder :=
        fun e => (OrderDual.ofDual e.1, e.2)
      have hr : b.resting .buy = pre.map toNat ++ post.map toNat := by
        show b.bids.iter.map toNat = _
        rw [h1, List.map_append]
      have hr' : (b.bids.pushBack (OrderDual.toDual price) (RestingOrder.ofOrder order)).iter.map
          toNat = pre.map toNat ++ (price, RestingOrder.ofOrder order) :: post.map toNat := by
        rw [h2, List.map_append, List.map_cons]
        rfl
      have hpre : ∀ a ∈ pre.map toNat, ¬ Side.buy.Better price a.1 := by
        intro a ha
        obtain ⟨e, he, rfl⟩ := List.mem_map.mp ha
        exact not_lt.mpr (h3 e he)
      have hpost : ∀ a ∈ post.map toNat, Side.buy.Better price a.1 := by
        intro a ha
        obtain ⟨e, he, rfl⟩ := List.mem_map.mp ha
        exact h4 e he
      let b' : OrderBook :=
        { b with
          restingOrders := b.restingOrders.insert seq (.buy, price)
          bids := b.bids.pushBack (OrderDual.toDual price) (RestingOrder.ofOrder order) }
      refine ⟨b', ?_, ?_, ⟨pre.map toNat, post.map toNat, hr, hr', hpre, hpost⟩, rfl,
        ⟨rfl, rfl, rfl, rfl, rfl, rfl, rfl⟩, rfl, rfl, rfl⟩
      · simp only [insertOrder, hcont, Except.assert_true, Except.bind_ok]
        rfl
      · refine hb.of_insert hr hr' rfl (fun s => ?_) ?_
          (fun a ha => Or.inl (hpost a ha)) (fun o ho => (hnew o ho).ne) rfl
        · cases s with
          | buy => exact OrderQueue.nonEmptyLevels_pushBack (hb.nonEmpty .buy) _ _
          | sell => exact hb.nonEmpty .sell
        · exact hahead (fun a ha => hr ▸ List.mem_append_left _ ha) hpre
  | sell =>
      let order : Order := ⟨seq, .sell, price, qty, tif⟩
      obtain ⟨pre, post, h1, h2, h3, h4⟩ := b.asks.iter_pushBack price (RestingOrder.ofOrder order)
      have hpre : ∀ a ∈ pre, ¬ Side.sell.Better price a.1 := fun a ha => not_lt.mpr (h3 a ha)
      have hpost : ∀ a ∈ post, Side.sell.Better price a.1 := h4
      let b' : OrderBook :=
        { b with
          restingOrders := b.restingOrders.insert seq (.sell, price)
          asks := b.asks.pushBack price (RestingOrder.ofOrder order) }
      refine ⟨b', ?_, ?_, ⟨pre, post, h1, h2, hpre, hpost⟩, rfl,
        ⟨rfl, rfl, rfl, rfl, rfl, rfl, rfl⟩, rfl, rfl, rfl⟩
      · simp only [insertOrder, hcont, Except.assert_true, Except.bind_ok]
        rfl
      · refine hb.of_insert (show b.resting .sell = pre ++ post from h1) h2 rfl (fun s => ?_) ?_
          (fun a ha => Or.inl (hpost a ha)) (fun o ho => (hnew o ho).ne) rfl
        · cases s with
          | buy => exact hb.nonEmpty .buy
          | sell => exact OrderQueue.nonEmptyLevels_pushBack (hb.nonEmpty .sell) _ _
        · have hr : b.resting .sell = pre ++ post := h1
          exact hahead (fun a ha => hr ▸ List.mem_append_left _ ha) hpre

end OrderBook

end OisyTrade
