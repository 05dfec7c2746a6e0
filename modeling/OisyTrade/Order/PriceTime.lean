import OisyTrade.Order.Reachable

/-!
# Price-time priority

The reference matcher knows nothing of levels, queues, plans or indices.  A `NaiveBook` is a
collection of resting orders keyed by sequence; the best maker is the one that no other maker of
its side precedes, by price and then by sequence; and matching trades with the best maker, one at a
time, for as long as the taker has something left and the best maker crosses.

`matchOrder_refines_naive` says that the planner and the replayer together are that loop.
-/

namespace OisyTrade

/-! ## The reference -/

/-- The resting orders by sequence, the fill counter, and the orders filled so far. -/
structure NaiveBook where
  resting : SortedMap OrderSeq Order
  nextFill : ℕ
  filled : SortedSet OrderSeq

namespace NaiveBook

/-- `maker` is the best order an incoming order of side `side` can meet. -/
def IsBest (n : NaiveBook) (side : Side) (maker : Order) : Prop :=
  n.resting.get maker.id = some maker ∧ maker.side = side.opposite ∧
    ∀ seq other, n.resting.get seq = some other → other.side = side.opposite → other ≠ maker →
      side.opposite.Better maker.price other.price ∨
        (maker.price = other.price ∧ maker.id < other.id)

/-- The traded quantity. -/
def tradeQuantity (taker maker : Order) : Quantity :=
  taker.remainingQuantity.min maker.remainingQuantity

/-- The book after a trade: the maker is gone iff nothing of it is left. -/
def trade (n : NaiveBook) (taker maker : Order) : NaiveBook :=
  let left := maker.remainingQuantity.sub (tradeQuantity taker maker)
  if left.isZero then
    { resting := n.resting.erase maker.id, nextFill := n.nextFill + 1,
      filled := n.filled.insert maker.id () }
  else
    { n with resting := n.resting.insert maker.id (maker.withRemaining left),
             nextFill := n.nextFill + 1 }

/-- The fill of a trade, at the maker's price. -/
def fill (n : NaiveBook) (taker maker : Order) : Fill :=
  { fillSeq := Seq.wrap n.nextFill, takerOrderSeq := taker.id, takerSide := taker.side,
    takerPrice := taker.price, makerOrderSeq := maker.id, makerPrice := maker.price,
    quantity := tradeQuantity taker maker }

/-- What the taker has left after a trade. -/
def reduce (taker maker : Order) : Order :=
  taker.withRemaining (taker.remainingQuantity.sub (tradeQuantity taker maker))

/-- The loop: trade with the best maker while the taker has something left and it crosses. -/
inductive Loop : Order → NaiveBook → List Fill → Order → NaiveBook → Prop
  | filled {taker : Order} {n : NaiveBook} : taker.remainingQuantity.toNat = 0 →
      Loop taker n [] taker n
  | blocked {taker : Order} {n : NaiveBook} :
      (∀ maker, n.IsBest taker.side maker →
        taker.side.crosses taker.price maker.price = false) →
      Loop taker n [] taker n
  | trade {taker maker taker' : Order} {n n' : NaiveBook} {fills : List Fill} :
      taker.remainingQuantity.toNat ≠ 0 → n.IsBest taker.side maker →
      taker.side.crosses taker.price maker.price = true →
      Loop (reduce taker maker) (n.trade taker maker) fills taker' n' →
      Loop taker n (n.fill taker maker :: fills) taker' n'

/-- The reference matcher: run the loop, then rest what is left. -/
def Match (taker : Order) (n : NaiveBook) (fills : List Fill) (n' : NaiveBook) : Prop :=
  ∃ taker' m, Loop taker n fills taker' m ∧
    n' = if taker'.remainingQuantity.isZero then { m with filled := m.filled.insert taker.id () }
      else { m with resting := m.resting.insert taker.id taker' }

lemma IsBest.unique {n : NaiveBook} {side : Side} {m m' : Order} (h : n.IsBest side m)
    (h' : n.IsBest side m') : m = m' := by
  by_contra hne
  rcases h.2.2 _ _ h'.1 h'.2.1 (Ne.symm hne) with hb | ⟨hp, hlt⟩
  · rcases h'.2.2 _ _ h.1 h.2.1 hne with hb' | ⟨hp', -⟩
    · exact (hb.trans hb').irrefl
    · rw [hp'] at hb
      exact hb.irrefl
  · rcases h'.2.2 _ _ h.1 h.2.1 hne with hb' | ⟨-, hlt'⟩
    · rw [hp] at hb'
      exact hb'.irrefl
    · exact lt_asymm hlt hlt'

/-- The loop is deterministic. -/
lemma Loop.unique {taker : Order} {n : NaiveBook} {fills : List Fill} {t : Order} {m : NaiveBook}
    (h : Loop taker n fills t m) : ∀ {fills' t' m'}, Loop taker n fills' t' m' →
      fills' = fills ∧ t' = t ∧ m' = m := by
  induction h with
  | filled hz =>
      intro fills' t' m' h'
      cases h' with
      | filled _ => exact ⟨rfl, rfl, rfl⟩
      | blocked _ => exact ⟨rfl, rfl, rfl⟩
      | trade hne _ _ _ => exact absurd hz hne
  | blocked hb =>
      intro fills' t' m' h'
      cases h' with
      | filled _ => exact ⟨rfl, rfl, rfl⟩
      | blocked _ => exact ⟨rfl, rfl, rfl⟩
      | trade _ hbest hcross _ => rw [hb _ hbest] at hcross; cases hcross
  | trade hne hbest hcross _ ih =>
      intro fills' t' m' h'
      cases h' with
      | filled hz => exact absurd hz hne
      | blocked hb => rw [hb _ hbest] at hcross; cases hcross
      | trade _ hbest' _ htl =>
          cases hbest.unique hbest'
          obtain ⟨rfl, rfl, rfl⟩ := ih htl
          exact ⟨rfl, rfl, rfl⟩

/-- **The reference matcher has one outcome.** -/
theorem Match.unique {taker : Order} {n n₁ n₂ : NaiveBook} {fills₁ fills₂ : List Fill}
    (h₁ : Match taker n fills₁ n₁) (h₂ : Match taker n fills₂ n₂) :
    fills₂ = fills₁ ∧ n₂ = n₁ := by
  obtain ⟨t₁, m₁, hl₁, rfl⟩ := h₁
  obtain ⟨t₂, m₂, hl₂, rfl⟩ := h₂
  obtain ⟨rfl, rfl, rfl⟩ := hl₁.unique hl₂
  exact ⟨rfl, rfl⟩

end NaiveBook

namespace OrderBook

/-- Orders by sequence. -/
def bySeq (l : List Order) : SortedMap OrderSeq Order :=
  SortedMap.empty.insertAll (l.map fun o => (o.id, o))

/-- The reference's view of a book. -/
def naive (b : OrderBook) : NaiveBook :=
  { resting := bySeq b.restingList, nextFill := b.nextFill.val, filled := b.filledOrders }

lemma get_bySeq {l : List Order} (h : (l.map Order.id).Nodup) {seq : OrderSeq} {o : Order} :
    (bySeq l).get seq = some o ↔ o ∈ l ∧ o.id = seq := by
  have hnd : ((l.map fun o => (o.id, o)).map Prod.fst).Nodup := by rw [List.map_map]; exact h
  constructor
  · intro hg
    by_cases hmem : seq ∈ (l.map fun o => (o.id, o)).map Prod.fst
    · obtain ⟨e, he, rfl⟩ := List.mem_map.mp hmem
      obtain ⟨o', ho', rfl⟩ := List.mem_map.mp he
      rw [bySeq, SortedMap.get_insertAll_of_mem _ hnd (List.mem_map.mpr ⟨o', ho', rfl⟩)] at hg
      cases hg
      exact ⟨ho', rfl⟩
    · rw [bySeq, SortedMap.get_insertAll_of_notMem _ hmem, SortedMap.get_empty] at hg
      cases hg
  · rintro ⟨ho, rfl⟩
    exact SortedMap.get_insertAll_of_mem _ hnd (List.mem_map.mpr ⟨o, ho, rfl⟩)

lemma bySeq_perm {l l' : List Order} (h : (l.map Order.id).Nodup) (hp : l.Perm l') :
    bySeq l = bySeq l' := by
  refine SortedMap.ext_get fun seq => Option.ext fun o => ?_
  rw [get_bySeq h, get_bySeq ((hp.map Order.id).nodup_iff.mp h), hp.mem_iff]

/-- A sound book is determined by the reference's view of its resting orders. -/
lemma resting_eq_of_bySeq {b b' : OrderBook} (h : b.Sound) (h' : b'.Sound)
    (heq : bySeq b'.restingList = bySeq b.restingList) (side : Side) :
    b'.resting side = b.resting side := by
  have hmem : ∀ o, o ∈ b'.restingList ↔ o ∈ b.restingList := by
    intro o
    have h1 : (bySeq b'.restingList).get o.id = some o ↔ _ := get_bySeq h'.nodup
    rw [heq, get_bySeq h.nodup] at h1
    simpa using h1.symm
  have hside : ∀ e, e ∈ b'.resting side ↔ e ∈ b.resting side := by
    have key : ∀ {c c' : OrderBook}, (∀ o, o ∈ c'.restingList → o ∈ c.restingList) →
        ∀ e, e ∈ c'.resting side → e ∈ c.resting side := by
      intro c c' hsub e he
      obtain ⟨side', e', he', hoe⟩ := mem_restingList.mp (hsub _ (mem_restingList_of_mem he))
      simp only [RestingOrder.toOrder, Order.mk.injEq] at hoe
      obtain ⟨hid, rfl, hp, hq, ht⟩ := hoe
      obtain ⟨p, m⟩ := e
      obtain ⟨p', m'⟩ := e'
      cases m
      cases m'
      simp only at hid hp hq ht
      subst hid hp hq ht
      exact he'
    exact fun e => ⟨key (fun o ho => (hmem o).mp ho) e, key (fun o ho => (hmem o).mpr ho) e⟩
  have hnd : ∀ {c : OrderBook}, c.Sound → (c.resting side).Nodup := fun hc =>
    List.Nodup.of_map _ (hc.side_nodup side)
  have hperm := (List.perm_ext_iff_of_nodup (hnd h') (hnd h)).mpr hside
  refine hperm.eq_of_pairwise (fun a c _ _ hac hca => ?_) (h'.priority side) (h.priority side)
  exact absurd (hac.trans hca) Ahead.irrefl

lemma erase_bySeq {o : Order} {l : List Order} (h : ((o :: l).map Order.id).Nodup) :
    (bySeq (o :: l)).erase o.id = bySeq l := by
  have h' := h
  rw [List.map_cons, List.nodup_cons] at h'
  refine SortedMap.ext_get fun seq => Option.ext fun x => ?_
  rw [SortedMap.get_erase, get_bySeq h'.2]
  split_ifs with hs
  · simp only [false_iff]
    rintro ⟨hx, hid⟩
    exact h'.1 (List.mem_map.mpr ⟨x, hx, hid.trans hs.symm⟩)
  · rw [get_bySeq h, List.mem_cons]
    constructor
    · rintro ⟨rfl | hx, hid⟩
      · exact absurd hid hs
      · exact ⟨hx, hid⟩
    · rintro ⟨hx, hid⟩
      exact ⟨Or.inr hx, hid⟩

lemma insert_bySeq {o : Order} {l : List Order} (h : ((o :: l).map Order.id).Nodup) :
    (bySeq l).insert o.id o = bySeq (o :: l) := by
  have h' := h
  rw [List.map_cons, List.nodup_cons] at h'
  refine SortedMap.ext_get fun seq => Option.ext fun x => ?_
  rw [SortedMap.get_insert, get_bySeq h, List.mem_cons]
  split_ifs with hs
  · rw [Option.some.injEq]
    constructor
    · rintro rfl
      exact ⟨Or.inl rfl, hs⟩
    · rintro ⟨rfl | hx, hid⟩
      · rfl
      · exact absurd (List.mem_map.mpr ⟨x, hx, hid.trans hs.symm⟩) h'.1
  · rw [get_bySeq h'.2]
    constructor
    · rintro ⟨hx, hid⟩
      exact ⟨Or.inr hx, hid⟩
    · rintro ⟨rfl | hx, hid⟩
      · exact absurd hid hs
      · exact ⟨hx, hid⟩

lemma insert_bySeq_replace {o o' : Order} {l : List Order} (h : ((o :: l).map Order.id).Nodup)
    (hid : o'.id = o.id) : (bySeq (o :: l)).insert o.id o' = bySeq (o' :: l) := by
  have h' : ((o' :: l).map Order.id).Nodup := by
    rw [List.map_cons, hid]
    exact h
  rw [← insert_bySeq h, SortedMap.insert_insert_self, ← insert_bySeq h', hid]

/-! ## The sweep is the loop -/

section Simulation

variable {order : Order} {own : List Order}

/-- The makers of the opposite side, as orders. -/
def makerOrders (order : Order) (ms : List (Price × RestingOrder)) : List Order :=
  ms.map fun e => e.2.toOrder order.side.opposite e.1

/-- The head of a list in priority order is the best maker. -/
lemma isBest_head {p : Price} {m : RestingOrder} {ms : List (Price × RestingOrder)} {n : ℕ}
    {F : SortedSet OrderSeq} (hprio : ((p, m) :: ms).Pairwise (Ahead order.side.opposite))
    (hnd : ((makerOrders order ((p, m) :: ms) ++ own).map Order.id).Nodup)
    (hown : ∀ o ∈ own, o.side = order.side) :
    (NaiveBook.mk (bySeq (makerOrders order ((p, m) :: ms) ++ own)) n F).IsBest order.side
      (m.toOrder order.side.opposite p) := by
  refine ⟨(get_bySeq hnd).mpr ⟨by simp [makerOrders], rfl⟩, rfl, ?_⟩
  intro seq other hget hside hne
  obtain ⟨hmem, -⟩ := (get_bySeq hnd).mp hget
  rcases List.mem_append.mp hmem with hmem | hmem
  · obtain ⟨e, he, rfl⟩ := List.mem_map.mp hmem
    rcases List.mem_cons.mp he with rfl | he
    · exact absurd rfl hne
    · exact (List.pairwise_cons.mp hprio).1 e he
  · rw [hown other hmem] at hside
    exact absurd hside.symm order.side.opposite_ne

/-- Without makers there is no best one. -/
lemma not_isBest_nil {n : ℕ} {F : SortedSet OrderSeq} {maker : Order}
    (hnd : (own.map Order.id).Nodup) (hown : ∀ o ∈ own, o.side = order.side)
    (h : (NaiveBook.mk (bySeq own) n F).IsBest order.side maker) : False := by
  obtain ⟨hmem, -⟩ := (get_bySeq hnd).mp h.1
  have hs := h.2.1
  rw [hown maker hmem] at hs
  exact order.side.opposite_ne hs.symm

/-- **The walk over the makers is the reference loop**, by induction on the makers. -/
theorem loop_of_sweep : ∀ (ms : List (Price × RestingOrder)) (q : Quantity) (n : ℕ)
    (F : SortedSet OrderSeq), ms.Pairwise (Ahead order.side.opposite) →
    ((makerOrders order ms ++ own).map Order.id).Nodup → (∀ o ∈ own, o.side = order.side) →
    NaiveBook.Loop (order.withRemaining q) ⟨bySeq (makerOrders order ms ++ own), n, F⟩
      (fillsFrom order n (sweep (order.side.crosses order.price) ms q).trades)
      (order.withRemaining (sweep (order.side.crosses order.price) ms q).left)
      ⟨bySeq (makerOrders order (sweep (order.side.crosses order.price) ms q).rest ++ own),
        n + (sweep (order.side.crosses order.price) ms q).trades.length,
        F.addAll ((sweep (order.side.crosses order.price) ms q).consumed.map (·.2.id))⟩
  | [], q, n, F, _, hnd, hown => by
      simp only [sweep, Sweep.trades, List.map_nil, Option.toList_none, List.append_nil, fillsFrom,
        List.length_nil, Nat.add_zero, SortedMap.addAll_nil]
      exact NaiveBook.Loop.blocked fun maker hbest => (not_isBest_nil hnd hown hbest).elim
  | (p, m) :: ms, q, n, F, hprio, hnd, hown => by
      have hbest := isBest_head (n := n) (F := F) hprio hnd hown
      rw [sweep]
      by_cases hstop : (!order.side.crosses order.price p || q.isZero) = true
      · rw [if_pos hstop]
        simp only [Sweep.trades, List.map_nil, Option.toList_none, List.append_nil, fillsFrom,
          List.length_nil, Nat.add_zero, SortedMap.addAll_nil]
        rw [Bool.or_eq_true, Bool.not_eq_true', Quantity.isZero_iff] at hstop
        rcases hstop with hcross | hz
        · refine NaiveBook.Loop.blocked fun maker hmaker => ?_
          rw [← hbest.unique hmaker]
          exact hcross
        · exact NaiveBook.Loop.filled hz
      rw [if_neg hstop]
      rw [Bool.or_eq_true, Bool.not_eq_true', Quantity.isZero_iff, not_or,
        Bool.not_eq_false] at hstop
      obtain ⟨hcross, hpos⟩ := hstop
      have hnd' := hnd
      rw [makerOrders, List.map_cons, List.cons_append] at hnd'
      by_cases hle : m.remainingQuantity.toNat ≤ q.toNat
      · rw [if_pos hle]
        have hq : NaiveBook.tradeQuantity (order.withRemaining q)
            (m.toOrder order.side.opposite p) = m.remainingQuantity := by
          refine Quantity.toNat_inj ?_
          rw [NaiveBook.tradeQuantity, Quantity.toNat_min]
          exact Nat.min_eq_right hle
        have htrade : NaiveBook.trade ⟨bySeq (makerOrders order ((p, m) :: ms) ++ own), n, F⟩
            (order.withRemaining q) (m.toOrder order.side.opposite p)
            = ⟨bySeq (makerOrders order ms ++ own), n + 1, F.insert m.id ()⟩ := by
          have hz : (m.remainingQuantity.sub m.remainingQuantity).isZero = true := by
            rw [Quantity.sub_self]
            rfl
          rw [NaiveBook.trade, hq]
          simp only [RestingOrder.toOrder, hz, if_true]
          exact congrArg (fun r => NaiveBook.mk r (n + 1) (F.insert m.id ())) (erase_bySeq hnd')
        have ih := loop_of_sweep ms (q.sub m.remainingQuantity) (n + 1) (F.insert m.id ())
          (List.pairwise_cons.mp hprio).2 (by
            rw [List.map_cons, List.nodup_cons] at hnd'
            exact hnd'.2) hown
        have hfill : fillOf order n (p, m.id, m.remainingQuantity)
            = NaiveBook.fill ⟨bySeq (makerOrders order ((p, m) :: ms) ++ own), n, F⟩
              (order.withRemaining q) (m.toOrder order.side.opposite p) := by
          rw [NaiveBook.fill, hq]
          rfl
        generalize sweep (order.side.crosses order.price) ms (q.sub m.remainingQuantity) = s at ih ⊢
        have htr : Sweep.trades { s with consumed := (p, m) :: s.consumed }
            = (p, m.id, m.remainingQuantity) :: s.trades := rfl
        have hn : n + ((p, m.id, m.remainingQuantity) :: s.trades).length
            = n + 1 + s.trades.length := by
          rw [List.length_cons]
          omega
        simp only [htr, hn, List.map_cons, SortedMap.addAll_cons]
        rw [fillsFrom, hfill]
        refine NaiveBook.Loop.trade hpos hbest hcross ?_
        rw [htrade, NaiveBook.reduce, hq]
        exact ih
      · rw [if_neg hle]
        have hq : NaiveBook.tradeQuantity (order.withRemaining q)
            (m.toOrder order.side.opposite p) = q := by
          refine Quantity.toNat_inj ?_
          rw [NaiveBook.tradeQuantity, Quantity.toNat_min]
          exact Nat.min_eq_left (not_le.mp hle).le
        have hnz : ¬ (m.remainingQuantity.sub q).isZero = true := by
          rw [Quantity.isZero_iff, Quantity.toNat_sub (not_le.mp hle).le]
          omega
        have htrade : NaiveBook.trade ⟨bySeq (makerOrders order ((p, m) :: ms) ++ own), n, F⟩
            (order.withRemaining q) (m.toOrder order.side.opposite p)
            = ⟨bySeq (makerOrders order ((p, m.withRemaining (m.remainingQuantity.sub q)) :: ms)
                ++ own), n + 1, F⟩ := by
          rw [NaiveBook.trade, hq]
          simp only [RestingOrder.toOrder, hnz, if_false, Bool.false_eq_true]
          exact congrArg (fun r => NaiveBook.mk r (n + 1) F) (insert_bySeq_replace
            hnd' rfl)
        have hfill : fillOf order n (p, m.id, q)
            = NaiveBook.fill ⟨bySeq (makerOrders order ((p, m) :: ms) ++ own), n, F⟩
              (order.withRemaining q) (m.toOrder order.side.opposite p) := by
          rw [NaiveBook.fill, hq]
          rfl
        simp only [Sweep.trades, List.map_nil, Option.toList_some, List.map_cons, List.nil_append,
          fillsFrom, List.length_singleton, SortedMap.addAll_nil]
        rw [hfill]
        refine NaiveBook.Loop.trade hpos hbest hcross ?_
        rw [htrade, NaiveBook.reduce, hq, Order.withRemaining_withRemaining,
          Order.remainingQuantity_withRemaining, Quantity.sub_self]
        exact NaiveBook.Loop.filled Quantity.toNat_zero

end Simulation

/-- The queue at a price level, empty if there is none. -/
def queueAt (b : OrderBook) (side : Side) (price : Price) : List RestingOrder :=
  (b.levelAt side price).getD []

lemma queueAt_eq (b : OrderBook) (side : Side) (price : Price) :
    b.queueAt side price = OrderQueue.bucket price (b.resting side) := by
  cases side with
  | buy =>
      refine (b.bids.getD_levels (OrderDual.toDual price)).trans ?_
      show _ = OrderQueue.bucket price (b.bids.iter.map fun e => (OrderDual.ofDual e.1, e.2))
      simp only [OrderQueue.bucket, List.filterMap_map]
      rfl
  | sell => exact b.asks.getD_levels price

/-- A resting taker joins the back of its level. -/
lemma Executed.queueAt {b b' : OrderBook} {order : Order} {result : MatchResult}
    (hx : b.Executed order result b') (hz : (b.sweepOf order).left.toNat ≠ 0) :
    b'.queueAt order.side order.price = b.queueAt order.side order.price
      ++ [RestingOrder.ofOrder (order.withRemaining (b.sweepOf order).left)] := by
  obtain ⟨-, ⟨pre, post, h1, h2, -, h4⟩, -⟩ := hx.rested hz
  have hpost : OrderQueue.bucket order.price post = [] := by
    refine OrderQueue.bucket_eq_nil fun e he heq => ?_
    have hb := h4 e he
    rw [heq] at hb
    exact hb.irrefl
  have happ : ∀ l l' : List (Price × RestingOrder), OrderQueue.bucket order.price (l ++ l')
      = OrderQueue.bucket order.price l ++ OrderQueue.bucket order.price l' := by
    intro l l'
    rw [OrderQueue.bucket, OrderQueue.bucket, OrderQueue.bucket, List.filterMap_append]
  have hcons : OrderQueue.bucket order.price ((order.price, RestingOrder.ofOrder
      (order.withRemaining (b.sweepOf order).left)) :: post)
      = [RestingOrder.ofOrder (order.withRemaining (b.sweepOf order).left)] := by
    rw [OrderQueue.bucket, List.filterMap_cons_some (by rw [if_pos rfl])]
    exact congrArg _ hpost
  rw [queueAt_eq, queueAt_eq, h1, h2, happ, happ, hpost, hcons, List.append_nil]

/-- The reference run of an executed order. -/
lemma Executed.naive_match {b b' : OrderBook} (hb : b.Sound) {order : Order} {result : MatchResult}
    (hx : b.Executed order result b') :
    NaiveBook.Match order b.naive (b.fillsOf order) b'.naive := by
  have hperm : b.restingList.Perm (makerOrders order (b.resting order.side.opposite)
      ++ b.restingOn order.side) := by
    have h := b.restingList_perm order.side.opposite
    rw [Side.opposite_opposite] at h
    exact h
  have hnd := (hperm.map Order.id).nodup_iff.mp hb.nodup
  have hownside : ∀ o ∈ b.restingOn order.side, o.side = order.side := by
    intro o ho
    obtain ⟨e, -, rfl⟩ := mem_restingOn.mp ho
    rfl
  have hloop := loop_of_sweep (b.resting order.side.opposite)
    order.remainingQuantity b.nextFill.val b.filledOrders (hb.priority _) hnd hownside
  rw [Order.withRemaining_self, ← bySeq_perm hb.nodup hperm] at hloop
  refine ⟨_, _, hloop, ?_⟩
  have hperm' : b'.restingList.Perm (makerOrders order (b.sweepOf order).rest
      ++ b'.restingOn order.side) := by
    have h := b'.restingList_perm order.side.opposite
    rw [Side.opposite_opposite] at h
    refine h.trans ?_
    rw [restingOn, hx.makers]
    exact List.Perm.refl _
  have hsw : sweep (order.side.crosses order.price) (b.resting order.side.opposite)
      order.remainingQuantity = b.sweepOf order := rfl
  rw [hsw, Order.remainingQuantity_withRemaining]
  by_cases hz : (b.sweepOf order).left.isZero = true
  · obtain ⟨-, hown, hfilled⟩ := hx.filled (Quantity.isZero_iff.mp hz)
    have hon : b'.restingOn order.side = b.restingOn order.side := by
      rw [restingOn, restingOn, hown]
    rw [if_pos hz, naive, hx.nextFill, hfilled, bySeq_perm hx.sound.nodup hperm', hon]
    rfl
  · have hz' : (b.sweepOf order).left.toNat ≠ 0 := fun h => hz (Quantity.isZero_iff.mpr h)
    obtain ⟨-, ⟨pre, post, h1, h2, -, -⟩, hfilled⟩ := hx.rested hz'
    have hon : (b'.restingOn order.side).Perm
        (order.withRemaining (b.sweepOf order).left :: b.restingOn order.side) := by
      refine (restingOn_append h2).trans ?_
      rw [restingOn, h1]
      exact List.Perm.refl _
    have hperm'' : b'.restingList.Perm (order.withRemaining (b.sweepOf order).left ::
        (makerOrders order (b.sweepOf order).rest ++ b.restingOn order.side)) :=
      hperm'.trans ((hon.append_left _).trans List.perm_middle)
    rw [if_neg hz, naive, hx.nextFill, hfilled, bySeq_perm hx.sound.nodup hperm'',
      ← insert_bySeq ((hperm''.map Order.id).nodup_iff.mp hx.sound.nodup)]
    rfl

/-- Every fill of a sweep is at a price its taker accepts. -/
lemma crosses_of_mem_fillsOf {b : OrderBook} {order : Order} {f : Fill}
    (hf : f ∈ b.fillsOf order) : order.side.crosses order.price f.makerPrice = true := by
  have hmem : ∀ {ts : List Sweep.Trade} {n : ℕ}, f ∈ fillsFrom order n ts →
      ∃ t ∈ ts, f.makerPrice = t.1 := by
    intro ts
    induction ts with
    | nil => intro n h; cases h
    | cons t ts ih =>
        intro n h
        rcases List.mem_cons.mp h with rfl | h
        · exact ⟨t, List.mem_cons_self, rfl⟩
        · obtain ⟨t', ht', he⟩ := ih h
          exact ⟨t', List.mem_cons_of_mem _ ht', he⟩
  obtain ⟨t, ht, he⟩ := hmem hf
  rw [he]
  exact (b.sweepOf_spec order).cross t ht

/-- **Matching refines price-time priority.**  On a reachable book, a validated good-til-canceled
order with the largest sequence is matched without a trap; the fills and the book are those of the
reference loop, and no other sound book has that view. -/
theorem matchOrder_refines_naive {b : OrderBook} (h : Reachable b) {order : Order}
    (hgtc : order.timeInForce = .goodTilCanceled)
    (hvalid : b.validateOrder order.price order.remainingQuantity = .ok ())
    (hnew : ∀ seq loc, b.restingOrders.get seq = some loc → seq < order.id) :
    ∃ result b', b.matchOrder order = .ok (.ok (result, b')) ∧
      NaiveBook.Match order b.naive result.fills b'.naive ∧
      (∀ b'', b''.Sound → SameConfig b' b'' → b''.pendingOrders = b.pendingOrders →
        b''.naive = b'.naive → b'' = b') ∧
      b'.Sound ∧ SameConfig b b' ∧ b'.pendingOrders = b.pendingOrders ∧
      (∀ seq, result.restingOrderSeq = some seq → seq = order.id ∧ ∃ r : RestingOrder,
        r.id = order.id ∧ b'.queueAt order.side order.price
          = b.queueAt order.side order.price ++ [r]) ∧
      result.fills.map (fun f => f.fillSeq.val)
        = List.range' b.nextFill.val result.fills.length ∧
      ∀ f ∈ result.fills, order.side.crosses order.price f.makerPrice = true := by
  obtain ⟨hwf, hdrained⟩ := h.wellFormed
  have hnew' : ∀ o ∈ b.restingList, o.id < order.id := fun o ho =>
    hnew _ _ ((hwf.sound.index o.id (o.side, o.price)).mpr ⟨o, ho, rfl, rfl⟩)
  have hbound := hwf.fillSeq_lt order.side.opposite
  rcases matchOrder_spec hwf.sound hvalid hnew' hbound with ⟨hfok, -, -⟩ | ⟨-, result, b', hm, hx⟩
  · rw [hgtc] at hfok
    cases hfok
  have hfills : result.fills = b.fillsOf order := by
    by_cases hz : (b.sweepOf order).left.toNat = 0
    · rw [(hx.filled hz).1]
      rfl
    · rw [(hx.rested hz).1]
      split_ifs with hemp
      · exact (List.isEmpty_iff.mp hemp).symm
      · rfl
  have hlen := (b.sweepOf_spec order).length_trades_le
  refine ⟨result, b', hm, ?_, ?_, hx.sound, hx.config, hx.pending, ?_, ?_, ?_⟩
  · rw [hfills]
    exact hx.naive_match hwf.sound
  · intro b'' hs hcfg hpend hnaive
    refine ext_resting hx.sound hs hcfg (hpend.trans hx.pending.symm) ?_
      (resting_eq_of_bySeq hx.sound hs (congrArg NaiveBook.resting hnaive))
      (congrArg NaiveBook.filled hnaive)
    exact Seq.ext_val (congrArg NaiveBook.nextFill hnaive)
  · intro seq hseq
    by_cases hz : (b.sweepOf order).left.toNat = 0
    · rw [(hx.filled hz).1] at hseq
      cases hseq
    · have hid : seq = order.id := by
        rw [(hx.rested hz).1] at hseq
        split_ifs at hseq <;> exact (Option.some.inj hseq).symm
      exact ⟨hid, _, rfl, hx.queueAt hz⟩
  · rw [hfills, fillsOf, length_fillsFrom]
    exact fillSeq_fillsFrom order (by omega)
  · intro f hf
    rw [hfills] at hf
    exact crosses_of_mem_fillsOf hf

/-- The bid takes the asks of `crossingBook` at 5 in the order of their arrival and then the one at
6, and rests with what is left. -/
theorem matchOrder_refines_naive_crossingBook :
    ∃ result b', crossingBook.matchOrder unitBid = .ok (.ok (result, b')) ∧
      NaiveBook.Match unitBid crossingBook.naive result.fills b'.naive := by
  have hkeys : ∀ seq ∈ crossingBook.restingOrders.keys, seq < unitBid.id := by decide +kernel
  have hnew : ∀ seq loc, crossingBook.restingOrders.get seq = some loc → seq < unitBid.id := by
    intro seq loc hg
    refine hkeys seq ?_
    rw [SortedMap.mem_keys_iff, hg]
    rfl
  obtain ⟨result, b', hm, hmatch, -⟩ := matchOrder_refines_naive reachable_crossingBook
    rfl (by decide +kernel) hnew
  exact ⟨result, b', hm, hmatch⟩

end OrderBook

end OisyTrade
