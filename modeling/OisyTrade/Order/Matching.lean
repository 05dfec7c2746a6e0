import OisyTrade.Order.Sound

/-!
# Matching one order

What `match_order` computes, read off the priority list of the crossing side.

`sweep` walks the makers once: it takes whole makers while the taker has at least their quantity,
then at most one partial maker.  `addFills_eq` says that the planner records exactly that sweep,
`consumeMakers_spec` and `reduceMaker_spec` that the replay performs it, and `matchOrder_spec`
puts the two passes together: on a `Sound` book, with a validated order whose sequence is the
largest, matching never traps and its result is the sweep.
-/

namespace OisyTrade

/-! ## Remaining quantities -/

/-- The order with `q` left to trade. -/
def Order.withRemaining (o : Order) (q : Quantity) : Order := { o with remainingQuantity := q }

/-- The resting order with `q` left to trade. -/
def RestingOrder.withRemaining (r : RestingOrder) (q : Quantity) : RestingOrder :=
  { r with remainingQuantity := q }

namespace Order

variable (o : Order) (q q' : Quantity)

@[simp] lemma id_withRemaining : (o.withRemaining q).id = o.id := rfl
@[simp] lemma side_withRemaining : (o.withRemaining q).side = o.side := rfl
@[simp] lemma price_withRemaining : (o.withRemaining q).price = o.price := rfl
@[simp] lemma timeInForce_withRemaining : (o.withRemaining q).timeInForce = o.timeInForce := rfl
@[simp] lemma remainingQuantity_withRemaining : (o.withRemaining q).remainingQuantity = q := rfl
@[simp] lemma withRemaining_withRemaining :
    (o.withRemaining q).withRemaining q' = o.withRemaining q' := rfl
@[simp] lemma withRemaining_self : o.withRemaining o.remainingQuantity = o := rfl

end Order

namespace RestingOrder

variable (r : RestingOrder) (q : Quantity)

@[simp] lemma id_withRemaining : (r.withRemaining q).id = r.id := rfl
@[simp] lemma timeInForce_withRemaining : (r.withRemaining q).timeInForce = r.timeInForce := rfl
@[simp] lemma remainingQuantity_withRemaining : (r.withRemaining q).remainingQuantity = q := rfl

end RestingOrder

/-! ## The sweep -/

/-- The outcome of walking the makers of one order. -/
structure Sweep where
  consumed : List (Price × RestingOrder)
  last : Option ((Price × RestingOrder) × Quantity)
  left : Quantity
  rest : List (Price × RestingOrder)

/-- Walk the makers in priority order with `q` left to trade. -/
def sweep (crosses : Price → Bool) : List (Price × RestingOrder) → Quantity → Sweep
  | [], q => ⟨[], none, q, []⟩
  | (p, m) :: ms, q =>
      if !crosses p || q.isZero then ⟨[], none, q, (p, m) :: ms⟩
      else if m.remainingQuantity.toNat ≤ q.toNat then
        let s := sweep crosses ms (q.sub m.remainingQuantity)
        { s with consumed := (p, m) :: s.consumed }
      else
        ⟨[], some ((p, m), q), Quantity.zero,
          (p, m.withRemaining (m.remainingQuantity.sub q)) :: ms⟩

namespace Sweep

/-- A trade: the maker's price and sequence, and the traded quantity. -/
abbrev Trade := Price × OrderSeq × Quantity

/-- The trades of a sweep, in order. -/
def trades (s : Sweep) : List Trade :=
  (s.consumed.map fun e => (e.1, e.2.id, e.2.remainingQuantity))
    ++ s.last.toList.map fun x => (x.1.1, x.1.2.id, x.2)

end Sweep

/-- The fill of a trade. -/
def fillOf (order : Order) (n : ℕ) (t : Sweep.Trade) : Fill :=
  { fillSeq := Seq.wrap n, takerOrderSeq := order.id, takerSide := order.side,
    takerPrice := order.price, makerOrderSeq := t.2.1, makerPrice := t.1, quantity := t.2.2 }

/-- The fills of a list of trades, numbered from `n` on. -/
def fillsFrom (order : Order) : ℕ → List Sweep.Trade → List Fill
  | _, [] => []
  | n, t :: ts => fillOf order n t :: fillsFrom order (n + 1) ts

lemma fillsFrom_append (order : Order) (n : ℕ) (ts ts' : List Sweep.Trade) :
    fillsFrom order n (ts ++ ts') = fillsFrom order n ts ++ fillsFrom order (n + ts.length) ts' := by
  induction ts generalizing n with
  | nil => rfl
  | cons t ts ih =>
      rw [List.cons_append, fillsFrom, ih, fillsFrom, List.length_cons, List.cons_append,
        Nat.add_right_comm, Nat.add_assoc n ts.length 1]

/-- A fill does not record what the taker has left. -/
lemma fillsFrom_withRemaining (order : Order) (k : Quantity) (n : ℕ) (ts : List Sweep.Trade) :
    fillsFrom (order.withRemaining k) n ts = fillsFrom order n ts := by
  induction ts generalizing n with
  | nil => rfl
  | cons t ts ih =>
      rw [fillsFrom, ih]
      rfl

lemma length_fillsFrom (order : Order) (n : ℕ) (ts : List Sweep.Trade) :
    (fillsFrom order n ts).length = ts.length := by
  induction ts generalizing n with
  | nil => rfl
  | cons t ts ih => rw [fillsFrom, List.length_cons, ih, List.length_cons]

/-- The fill numbers are consecutive. -/
lemma fillSeq_fillsFrom (order : Order) {n : ℕ} {ts : List Sweep.Trade}
    (h : n + ts.length ≤ 2 ^ 64) :
    (fillsFrom order n ts).map (fun f => f.fillSeq.val) = List.range' n ts.length := by
  induction ts generalizing n with
  | nil => rfl
  | cons t ts ih =>
      rw [List.length_cons] at h
      rw [fillsFrom, List.map_cons, ih (by omega), List.length_cons, List.range'_succ]
      congr 1
      exact Seq.val_wrap (by omega)

/-- The total quantity of a list of makers. -/
def makerTotal (ms : List (Price × RestingOrder)) : ℕ :=
  (ms.map fun e => e.2.remainingQuantity.toNat).sum

namespace Sweep

/-- The quantity of the last, partial fill. -/
def lastQuantity (s : Sweep) : ℕ := s.last.elim 0 fun x => x.2.toNat

end Sweep

/-- What a sweep of the makers `ms` with `q` to trade does. -/
structure Sweep.Spec (crosses : Price → Bool) (ms : List (Price × RestingOrder)) (q : ℕ)
    (s : Sweep) : Prop where
  quantity : makerTotal s.consumed + s.lastQuantity + s.left.toNat = q
  untouched : s.last = none → ms = s.consumed ++ s.rest
  reduced : ∀ p m x, s.last = some ((p, m), x) → ∃ post, ms = s.consumed ++ (p, m) :: post ∧
    s.rest = (p, m.withRemaining (m.remainingQuantity.sub x)) :: post ∧
    x.toNat < m.remainingQuantity.toNat ∧ 0 < x.toNat ∧ s.left = Quantity.zero
  cross : ∀ t ∈ s.trades, crosses t.1 = true
  blocked : s.left.toNat ≠ 0 → s.last = none ∧ ∀ e ∈ s.rest.head?, crosses e.1 = false

namespace Sweep.Spec

variable {crosses : Price → Bool} {ms : List (Price × RestingOrder)}

/-- Nothing is traded when the taker is done or the best maker does not cross. -/
lemma stop {q : Quantity} (h : q.toNat ≠ 0 → ∀ e ∈ ms.head?, crosses e.1 = false) :
    Sweep.Spec crosses ms q.toNat ⟨[], none, q, ms⟩ := by
  refine ⟨?_, fun _ => rfl, fun p m x hx => ?_, fun t ht => ?_, fun hne => ⟨rfl, h hne⟩⟩
  · simp [makerTotal, Sweep.lastQuantity]
  · cases hx
  · simp [Sweep.trades] at ht

/-- A consumed maker in front of the sweep of the others. -/
lemma consume {p : Price} {m : RestingOrder} {s : Sweep} {q : ℕ} (h : s.Spec crosses ms q)
    (hcross : crosses p = true) :
    Sweep.Spec crosses ((p, m) :: ms) (m.remainingQuantity.toNat + q)
      { s with consumed := (p, m) :: s.consumed } := by
  obtain ⟨h1, h2, h3, h4, h5⟩ := h
  refine ⟨?_, fun h => ?_, fun p' m' x h => ?_, fun t ht => ?_, fun hne => h5 hne⟩
  · simp only [makerTotal, List.map_cons, List.sum_cons, Sweep.lastQuantity] at h1 ⊢
    omega
  · simp only [List.cons_append]
    rw [← h2 h]
  · obtain ⟨post, hms, hrest⟩ := h3 p' m' x h
    exact ⟨post, by simp only [List.cons_append]; rw [← hms], hrest⟩
  · simp only [Sweep.trades, List.map_cons, List.cons_append, List.mem_cons] at ht
    rcases ht with rfl | ht
    · exact hcross
    · exact h4 t ht

/-- A larger maker takes all that is left. -/
lemma reduce {p : Price} {m : RestingOrder} {q : Quantity} (hcross : crosses p = true)
    (hpos : 0 < q.toNat) (hlt : q.toNat < m.remainingQuantity.toNat) :
    Sweep.Spec crosses ((p, m) :: ms) q.toNat ⟨[], some ((p, m), q), Quantity.zero,
      (p, m.withRemaining (m.remainingQuantity.sub q)) :: ms⟩ := by
  refine ⟨?_, fun h => ?_, fun p' m' x h => ?_, fun t ht => ?_, fun hne => ?_⟩
  · simp [makerTotal, Sweep.lastQuantity]
  · cases h
  · simp only [Option.some.injEq, Prod.mk.injEq] at h
    obtain ⟨⟨rfl, rfl⟩, rfl⟩ := h
    exact ⟨ms, rfl, rfl, hlt, hpos, rfl⟩
  · simp only [Sweep.trades, List.map_nil, Option.toList_some, List.map_cons,
      List.nil_append, List.mem_singleton] at ht
    rw [ht]
    exact hcross
  · exact absurd Quantity.toNat_zero hne

end Sweep.Spec

/-- **The walk meets its description**, by induction on the makers. -/
lemma sweep_spec (crosses : Price → Bool) (ms : List (Price × RestingOrder)) (q : Quantity) :
    (sweep crosses ms q).Spec crosses ms q.toNat := by
  induction ms generalizing q with
  | nil => exact Sweep.Spec.stop fun _ e he => by cases he
  | cons e ms ih =>
      obtain ⟨p, m⟩ := e
      rw [sweep]
      by_cases hstop : (!crosses p || q.isZero) = true
      · rw [if_pos hstop]
        refine Sweep.Spec.stop fun hne e he => ?_
        cases he
        rw [Bool.or_eq_true, Bool.not_eq_true', Quantity.isZero_iff] at hstop
        exact hstop.resolve_right hne
      rw [if_neg hstop]
      rw [Bool.or_eq_true, Bool.not_eq_true', Quantity.isZero_iff, not_or,
        Bool.not_eq_false] at hstop
      obtain ⟨hcross, hpos⟩ := hstop
      by_cases hle : m.remainingQuantity.toNat ≤ q.toNat
      · rw [if_pos hle]
        have h := (ih (q.sub m.remainingQuantity)).consume (m := m) hcross
        rw [Quantity.toNat_sub hle, Nat.add_sub_cancel' hle] at h
        exact h
      · rw [if_neg hle]
        exact Sweep.Spec.reduce hcross (Nat.pos_of_ne_zero hpos) (not_le.mp hle)

lemma Sweep.Spec.length_trades_le {crosses : Price → Bool} {ms : List (Price × RestingOrder)}
    {q : ℕ} {s : Sweep} (h : s.Spec crosses ms q) : s.trades.length ≤ ms.length := by
  cases hl : s.last with
  | none =>
      rw [h.untouched hl]
      simp [trades, hl]
  | some x =>
      obtain ⟨⟨p, m⟩, x⟩ := x
      obtain ⟨post, hms, -⟩ := h.reduced p m x hl
      rw [hms]
      simp [trades, hl]

/-- A maker left by a sweep is one of the makers, possibly reduced. -/
lemma Sweep.Spec.mem_rest {crosses : Price → Bool} {ms : List (Price × RestingOrder)}
    {q : ℕ} {s : Sweep} (h : s.Spec crosses ms q) {e : Price × RestingOrder} (he : e ∈ s.rest) :
    ∃ e' ∈ ms, e'.1 = e.1 ∧ e'.2.id = e.2.id ∧ e'.2.timeInForce = e.2.timeInForce := by
  cases hl : s.last with
  | none =>
      rw [h.untouched hl]
      exact ⟨e, List.mem_append_right _ he, rfl, rfl, rfl⟩
  | some x =>
      obtain ⟨⟨p, m⟩, x⟩ := x
      obtain ⟨post, hms, hrest, -⟩ := h.reduced p m x hl
      rw [hms]
      rw [hrest] at he
      rcases List.mem_cons.mp he with rfl | he
      · exact ⟨(p, m), by simp, rfl, rfl, rfl⟩
      · exact ⟨e, by simp [he], rfl, rfl, rfl⟩

/-! ## The plan is the sweep -/

namespace FillPlanBuilder

/-- A maker of at most the taker's quantity is consumed. -/
lemma addFill_consumed {b : FillPlanBuilder} {m : RestingOrder} (hlast : b.lastPartial = none)
    (hid : m.id ≠ b.order.id) (hle : m.remainingQuantity.toNat ≤ b.takerRemaining.toNat) :
    b.addFill m = .ok { b with
      takerRemaining := b.takerRemaining.sub m.remainingQuantity
      filledMakers := b.filledMakers ++ [m.id] } := by
  have hmin : b.takerRemaining.min m.remainingQuantity = m.remainingQuantity := by
    refine Quantity.toNat_inj ?_
    rw [Quantity.toNat_min]
    exact Nat.min_eq_right hle
  simp only [addFill, hlast, Option.isNone_none, Except.assert_true, Except.bind_ok, hid,
    ne_eq, not_false_eq_true, decide_true, hmin, Quantity.checkedSub_eq_sub hle,
    Except.expect_some, if_true]

/-- A larger maker takes all that the taker has left and closes the plan. -/
lemma addFill_last {b : FillPlanBuilder} {m : RestingOrder} (hlast : b.lastPartial = none)
    (hid : m.id ≠ b.order.id) (hlt : b.takerRemaining.toNat < m.remainingQuantity.toNat) :
    b.addFill m = .ok { b with
      takerRemaining := Quantity.zero
      lastPartial := some (m.id, b.takerRemaining) } := by
  have hmin : b.takerRemaining.min m.remainingQuantity = b.takerRemaining := by
    refine Quantity.toNat_inj ?_
    rw [Quantity.toNat_min]
    exact Nat.min_eq_left hlt.le
  have hne : b.takerRemaining ≠ m.remainingQuantity := fun h => by rw [h] at hlt; omega
  have hsub : b.takerRemaining.checkedSub b.takerRemaining = some Quantity.zero := by
    rw [Quantity.checkedSub_eq_some, Quantity.toNat_zero, Nat.zero_add]
  simp only [addFill, hlast, Option.isNone_none, Except.assert_true, Except.bind_ok, hid,
    ne_eq, not_false_eq_true, decide_true, hmin, hsub, Except.expect_some, hne, if_false]

lemma addFills_of_zero (stop : Price → Bool) {b : FillPlanBuilder} (h : b.takerRemaining = Quantity.zero) :
    ∀ makers, addFills stop makers b = .ok b
  | [] => rfl
  | (p, m) :: makers => by
      have hz : b.takerRemaining.isZero = true := by rw [h]; rfl
      rw [addFills, hz, Bool.or_true, if_pos rfl]

/-- **The planner records the sweep.** -/
theorem addFills_eq (stop : Price → Bool) :
    ∀ (makers : List (Price × RestingOrder)) (b : FillPlanBuilder), b.lastPartial = none →
      (∀ e ∈ makers, e.2.id ≠ b.order.id) →
      addFills stop makers b = .ok { b with
        filledMakers := b.filledMakers
          ++ (sweep (fun p => !stop p) makers b.takerRemaining).consumed.map (·.2.id)
        lastPartial := (sweep (fun p => !stop p) makers b.takerRemaining).last.map
          fun x => (x.1.2.id, x.2)
        takerRemaining := (sweep (fun p => !stop p) makers b.takerRemaining).left }
  | [], b, hlast, _ => by
      simp [addFills, sweep, ← hlast]
  | (p, m) :: makers, b, hlast, hids => by
      have hid : m.id ≠ b.order.id := hids (p, m) List.mem_cons_self
      rw [addFills, sweep, Bool.not_not]
      by_cases hstop : (stop p || b.takerRemaining.isZero) = true
      · rw [if_pos hstop, if_pos hstop]
        simp [← hlast]
      rw [if_neg hstop, if_neg hstop]
      by_cases hle : m.remainingQuantity.toNat ≤ b.takerRemaining.toNat
      · have ih := addFills_eq stop makers { b with
          takerRemaining := b.takerRemaining.sub m.remainingQuantity
          filledMakers := b.filledMakers ++ [m.id] } hlast
          (fun e he => hids e (List.mem_cons_of_mem _ he))
        rw [if_pos hle, addFill_consumed hlast hid hle, Except.bind_ok, ih]
        simp
      · rw [if_neg hle, addFill_last hlast hid (not_le.mp hle), Except.bind_ok,
          addFills_of_zero stop rfl]
        simp

end FillPlanBuilder

/-! ## The replay performs the sweep -/

lemma Order.reduceQuantity_of_le {o : Order} {q : Quantity}
    (h : q.toNat ≤ o.remainingQuantity.toNat) :
    o.reduceQuantity q = .ok (o.withRemaining (o.remainingQuantity.sub q)) := by
  simp only [Order.reduceQuantity, Quantity.checkedSub_eq_sub h, Except.expect_some,
    Except.bind_ok, Order.withRemaining]

lemma RestingOrder.reduceQuantity_of_le {r : RestingOrder} {q : Quantity}
    (h : q.toNat ≤ r.remainingQuantity.toNat) :
    r.reduceQuantity q = .ok (r.withRemaining (r.remainingQuantity.sub q)) := by
  simp only [RestingOrder.reduceQuantity, Quantity.checkedSub_eq_sub h, Except.expect_some,
    Except.bind_ok, RestingOrder.withRemaining]

namespace OrderBook

/-- What a step of the replay leaves alone, and how far the fill counter moved. -/
structure Replayed (b b' : OrderBook) (side : Side) (fills : ℕ) : Prop where
  sound : b'.Sound
  own : b'.resting side = b.resting side
  config : SameConfig b b'
  pending : b'.pendingOrders = b.pendingOrders
  nextFill : b'.nextFill.val = b.nextFill.val + fills

lemma Replayed.trans {b b' b'' : OrderBook} {side : Side} {n n' : ℕ} (h : Replayed b b' side n)
    (h' : Replayed b' b'' side n') : Replayed b b'' side (n + n') :=
  ⟨h'.sound, h'.own.trans h.own, h.config.trans h'.config, h'.pending.trans h.pending, by
    rw [h'.nextFill, h.nextFill, Nat.add_assoc]⟩

lemma mintFillSeq_of_lt {b : OrderBook} (h : b.nextFill.val + 1 < 2 ^ 64) :
    b.mintFillSeq = .ok (b.nextFill, { b with nextFill := ⟨b.nextFill.val + 1, h⟩ }) := by
  simp only [mintFillSeq, Seq.increment_of_lt h, Except.bind_ok]

/-- `Sound` does not look at the counters, the pending orders or the filled set. -/
lemma Sound.congr {b b' : OrderBook} (hb : b.Sound) (hbids : b'.bids = b.bids)
    (hasks : b'.asks = b.asks) (hidx : b'.restingOrders = b.restingOrders) : b'.Sound := by
  have hrest : ∀ side, b'.resting side = b.resting side := by
    intro side
    cases side with
    | buy => simp only [resting, bidsIter, hbids]
    | sell => simp only [resting, asksIter, hasks]
  have hlist : b'.restingList = b.restingList := by
    simp only [restingList, restingOn, hrest]
  refine ⟨fun side => ?_, fun side => ?_, ?_, ?_⟩
  · cases side with
    | buy => rw [NonEmptyLevels, hbids]; exact hb.nonEmpty .buy
    | sell => rw [NonEmptyLevels, hasks]; exact hb.nonEmpty .sell
  · rw [hrest]
    exact hb.priority side
  · rw [hlist]
    exact hb.nodup
  · rw [hidx, hlist]
    exact hb.index

/-- One consumed maker. -/
lemma consumeMaker_spec {b : OrderBook} (hb : b.Sound) {order : Order} {fills : List Fill}
    {p : Price} {m : RestingOrder} {rest : List (Price × RestingOrder)}
    (h : b.resting order.side.opposite = (p, m) :: rest)
    (hle : m.remainingQuantity.toNat ≤ order.remainingQuantity.toNat)
    (hfill : b.nextFill.val + 1 < 2 ^ 64) :
    ∃ b' : OrderBook,
      consumeMaker (b, order, fills) m.id = .ok (b',
        order.withRemaining (order.remainingQuantity.sub m.remainingQuantity),
        fills ++ [fillOf order b.nextFill.val (p, m.id, m.remainingQuantity)]) ∧
      Replayed b b' order.side 1 ∧ b'.resting order.side.opposite = rest ∧
      b'.filledOrders = b.filledOrders.insert m.id () := by
  obtain ⟨b₁, hpop, hs, hrest, hown, hcfg, hpend, hnf, hfilled⟩ := popMaker_spec hb h
  have hfill₁ : b₁.nextFill.val + 1 < 2 ^ 64 := by rw [hnf]; exact hfill
  let b' : OrderBook := { b₁ with
    nextFill := ⟨b₁.nextFill.val + 1, hfill₁⟩
    filledOrders := b₁.filledOrders.insert m.id () }
  refine ⟨b', ?_, ⟨hs.congr rfl rfl rfl, hown, ?_, hpend, ?_⟩, hrest, ?_⟩
  · simp only [consumeMaker, hpop, Except.bind_ok, Except.expect_some, decide_true,
      Except.assert_true, Order.reduceQuantity_of_le hle, mintFillSeq_of_lt hfill₁, fillOf,
      ← hnf, Seq.wrap_val, Order.id_withRemaining, Order.side_withRemaining,
      Order.price_withRemaining]
    rfl
  · exact hcfg.trans ⟨rfl, rfl, rfl, rfl, rfl, rfl, rfl⟩
  · show b₁.nextFill.val + 1 = _
    rw [hnf]
  · show b₁.filledOrders.insert m.id () = _
    rw [hfilled]

/-- The first loop of `apply_plan`: the induction is on the consumed makers. -/
lemma consumeMakers_spec :
    ∀ (consumed : List (Price × RestingOrder)) {b : OrderBook} (order : Order) (fills : List Fill)
      {rest : List (Price × RestingOrder)}, b.Sound →
      b.resting order.side.opposite = consumed ++ rest →
      makerTotal consumed ≤ order.remainingQuantity.toNat →
      b.nextFill.val + consumed.length < 2 ^ 64 →
      ∃ (b' : OrderBook) (left : Quantity),
        (consumed.map (·.2.id)).foldlM consumeMaker (b, order, fills) = .ok (b',
          order.withRemaining left, fills ++ fillsFrom order b.nextFill.val
            (consumed.map fun e => (e.1, e.2.id, e.2.remainingQuantity))) ∧
        left.toNat + makerTotal consumed = order.remainingQuantity.toNat ∧
        Replayed b b' order.side consumed.length ∧ b'.resting order.side.opposite = rest ∧
        b'.filledOrders = (consumed.map (·.2.id)).foldl (fun s seq => s.insert seq ())
          b.filledOrders
  | [], b, order, fills, rest, hb, h, _, _ => by
      refine ⟨b, order.remainingQuantity, ?_, by simp [makerTotal],
        ⟨hb, rfl, SameConfig.refl b, rfl, rfl⟩, h, rfl⟩
      simp only [List.map_nil, List.foldlM_nil, Order.withRemaining_self, fillsFrom,
        List.append_nil]
      rfl
  | (p, m) :: consumed, b, order, fills, rest, hb, h, htotal, hfill => by
      simp only [makerTotal, List.map_cons, List.sum_cons] at htotal
      rw [List.length_cons] at hfill
      obtain ⟨b₁, hstep, hrep, hrest, hfilled⟩ := consumeMaker_spec hb h
        (by omega) (by omega)
      have hn : b₁.nextFill.val = b.nextFill.val + 1 := hrep.nextFill
      have hsub : (order.remainingQuantity.sub m.remainingQuantity).toNat
          = order.remainingQuantity.toNat - m.remainingQuantity.toNat :=
        Quantity.toNat_sub (by omega)
      obtain ⟨b₂, left, hloop, hleft, hrep₂, hrest₂, hfilled₂⟩ := consumeMakers_spec consumed
        (b := b₁) (order.withRemaining (order.remainingQuantity.sub m.remainingQuantity))
        (fills ++ [fillOf order b.nextFill.val (p, m.id, m.remainingQuantity)])
        hrep.sound hrest
        (by rw [Order.remainingQuantity_withRemaining, hsub, makerTotal]; omega) (by omega)
      rw [Order.side_withRemaining] at hrep₂ hrest₂
      rw [Order.remainingQuantity_withRemaining, hsub] at hleft
      refine ⟨b₂, left, ?_, ?_, ?_, hrest₂, ?_⟩
      · rw [List.map_cons, List.foldlM_cons, hstep, Except.bind_ok, hloop,
          Order.withRemaining_withRemaining, fillsFrom_withRemaining, hn]
        simp only [List.map_cons, fillsFrom, List.append_assoc, List.singleton_append]
      · simp only [makerTotal, List.map_cons, List.sum_cons] at hleft ⊢
        omega
      · rw [List.length_cons, Nat.add_comm]
        exact hrep.trans hrep₂
      · rw [hfilled₂, hfilled]
        rfl

/-- The partial fill of `apply_plan`. -/
lemma reduceMaker_spec {b : OrderBook} (hb : b.Sound) (order : Order) {fills : List Fill}
    {p : Price} {m : RestingOrder} {rest : List (Price × RestingOrder)} {q : Quantity}
    (h : b.resting order.side.opposite = (p, m) :: rest)
    (hlt : q.toNat < m.remainingQuantity.toNat)
    (hle : q.toNat ≤ order.remainingQuantity.toNat)
    (hfill : b.nextFill.val + 1 < 2 ^ 64) :
    ∃ b' : OrderBook,
      reduceMaker (b, order, fills) m.id q = .ok (b',
        order.withRemaining (order.remainingQuantity.sub q),
        fills ++ [fillOf order b.nextFill.val (p, m.id, q)]) ∧
      Replayed b b' order.side 1 ∧
      b'.resting order.side.opposite
        = (p, m.withRemaining (m.remainingQuantity.sub q)) :: rest ∧
      b'.filledOrders = b.filledOrders := by
  obtain ⟨hfront, hset⟩ := frontMaker_spec hb h
  obtain ⟨hs, hrest, hown, hcfg, hpend, hnf, hfilled⟩ :=
    hset (m.withRemaining (m.remainingQuantity.sub q)) (RestingOrder.id_withRemaining _ _)
  have hne : m.remainingQuantity.sub q ≠ Quantity.zero := by
    rw [Ne, Quantity.eq_zero_iff, Quantity.toNat_sub hlt.le]
    omega
  generalize hb₁ : b.setFrontMaker (m.withRemaining (m.remainingQuantity.sub q)) order.side = b₁
    at hs hrest hown hcfg hpend hnf hfilled
  have hfill₁ : b₁.nextFill.val + 1 < 2 ^ 64 := by rw [hnf]; exact hfill
  let b' : OrderBook := { b₁ with nextFill := ⟨b₁.nextFill.val + 1, hfill₁⟩ }
  refine ⟨b', ?_, ⟨hs.congr rfl rfl rfl, hown, ?_, hpend, ?_⟩, hrest, hfilled⟩
  · simp only [reduceMaker, hfront, Except.bind_ok, Except.expect_some, decide_true,
      Except.assert_true, RestingOrder.reduceQuantity_of_le hlt.le,
      RestingOrder.remainingQuantity_withRemaining, ne_eq, hne,
      not_false_eq_true, Order.reduceQuantity_of_le hle, hb₁, mintFillSeq_of_lt hfill₁, fillOf,
      ← hnf, Seq.wrap_val, Order.id_withRemaining, Order.side_withRemaining,
      Order.price_withRemaining]
    rfl
  · exact hcfg.trans ⟨rfl, rfl, rfl, rfl, rfl, rfl, rfl⟩
  · show b₁.nextFill.val + 1 = _
    rw [hnf]

/-- The sweep of an incoming order over the makers of the opposite side. -/
def sweepOf (b : OrderBook) (order : Order) : Sweep :=
  sweep (order.side.crosses order.price) (b.resting order.side.opposite) order.remainingQuantity

lemma sweepOf_spec (b : OrderBook) (order : Order) :
    (b.sweepOf order).Spec (order.side.crosses order.price) (b.resting order.side.opposite)
      order.remainingQuantity.toNat := sweep_spec _ _ _

/-- The fills an incoming order makes. -/
def fillsOf (b : OrderBook) (order : Order) : List Fill :=
  fillsFrom order b.nextFill.val (b.sweepOf order).trades

/-- The builder at the end of the walk. -/
def builderOf (b : OrderBook) (order : Order) : FillPlanBuilder :=
  { order
    filledMakers := (b.sweepOf order).consumed.map (·.2.id)
    lastPartial := (b.sweepOf order).last.map fun x => (x.1.2.id, x.2)
    takerRemaining := (b.sweepOf order).left }

/-- The plan of a sweep. -/
def planOf (b : OrderBook) (order : Order) : FillPlan := (b.builderOf order).intoPlan

lemma planFills_eq {b : OrderBook} (order : Order)
    (hids : ∀ e ∈ b.resting order.side.opposite, e.2.id ≠ order.id) :
    b.planFills order = .ok (b.builderOf order) := by
  obtain ⟨seq, side, price, qty, tif⟩ := order
  cases side with
  | buy =>
      have hstop : (fun p => !decide (price < p)) = Side.buy.crosses price := by
        funext p
        simp [Side.crosses, ← not_lt]
      have h := FillPlanBuilder.addFills_eq (fun p => decide (price < p)) b.asksIter
        (FillPlan.builder ⟨seq, .buy, price, qty, tif⟩) rfl hids
      rw [hstop] at h
      exact h
  | sell =>
      have hstop : (fun p => !decide (p < price)) = Side.sell.crosses price := by
        funext p
        simp [Side.crosses, ← not_lt]
      have h := FillPlanBuilder.addFills_eq (fun p => decide (p < price)) b.bidsIter
        (FillPlan.builder ⟨seq, .sell, price, qty, tif⟩) rfl hids
      rw [hstop] at h
      exact h

/-- The two loops of `apply_plan` perform the sweep. -/
lemma replay_spec {b : OrderBook} (hb : b.Sound) {order : Order}
    (hfill : b.nextFill.val + (b.resting order.side.opposite).length < 2 ^ 64) :
    ∃ b' : OrderBook,
      b.replayPlan (b.planOf order) order
        = .ok (b', order.withRemaining (b.sweepOf order).left, fillsOf b order) ∧
      Replayed b b' order.side (b.sweepOf order).trades.length ∧
      b'.resting order.side.opposite = (b.sweepOf order).rest ∧
      b'.filledOrders = ((b.sweepOf order).consumed.map (·.2.id)).foldl
        (fun s seq => s.insert seq ()) b.filledOrders := by
  have hspec := b.sweepOf_spec order
  have hlen := hspec.length_trades_le
  rw [fillsOf, replayPlan, planOf, FillPlanBuilder.intoPlan, builderOf]
  generalize b.sweepOf order = s at hspec hlen ⊢
  have hq := hspec.quantity
  have hqlt := order.remainingQuantity.toNat_lt
  cases hlast : s.last with
  | none =>
      have hlq : s.lastQuantity = 0 := by rw [Sweep.lastQuantity, hlast]; rfl
      have htr : s.trades = s.consumed.map fun e => (e.1, e.2.id, e.2.remainingQuantity) := by
        rw [Sweep.trades, hlast]
        simp
      have hlc : s.trades.length = s.consumed.length := by rw [htr, List.length_map]
      obtain ⟨b', left, hloop, hleft, hrep, hrest, hfilled⟩ := consumeMakers_spec s.consumed order
        [] hb (hspec.untouched hlast) (by omega) (by omega)
      have hl : left = s.left := Quantity.toNat_inj (by omega)
      refine ⟨b', ?_, by rw [hlc]; exact hrep, hrest, hfilled⟩
      simp only [hloop, Except.bind_ok, Option.map_none, hl, htr, List.nil_append]
  | some x =>
      obtain ⟨⟨p, m⟩, x⟩ := x
      obtain ⟨post, hms, hrest', hxm, hxpos, hleft⟩ := hspec.reduced p m x hlast
      have hlq : s.lastQuantity = x.toNat := by rw [Sweep.lastQuantity, hlast]; rfl
      have htr : s.trades = (s.consumed.map fun e => (e.1, e.2.id, e.2.remainingQuantity))
          ++ [(p, m.id, x)] := by
        rw [Sweep.trades, hlast]
        simp
      have hlc : s.trades.length = s.consumed.length + 1 := by
        rw [htr, List.length_append, List.length_map]
        rfl
      rw [hleft, Quantity.toNat_zero] at hq
      obtain ⟨b₁, left, hloop, htotal, hrep, hrest, hfilled⟩ := consumeMakers_spec s.consumed order
        [] hb hms (by omega) (by omega)
      obtain rfl : left = x := Quantity.toNat_inj (by omega)
      have hn : b₁.nextFill.val = b.nextFill.val + s.consumed.length := hrep.nextFill
      obtain ⟨b₂, hred, hrep₂, hrest₂, hfilled₂⟩ := reduceMaker_spec hrep.sound
        (order.withRemaining left) (q := left) hrest hxm le_rfl (by omega)
      rw [Order.side_withRemaining] at hrep₂ hrest₂
      have hfill₁ : fillOf (order.withRemaining left) b₁.nextFill.val (p, m.id, left)
          = fillOf order (b.nextFill.val + s.consumed.length) (p, m.id, left) := by
        rw [← hn]
        simp only [fillOf, Order.id_withRemaining, Order.side_withRemaining,
          Order.price_withRemaining]
      refine ⟨b₂, ?_, by rw [hlc]; exact hrep.trans hrep₂, by rw [hrest', hrest₂], ?_⟩
      · simp only [hloop, Except.bind_ok, Option.map_some]
        rw [hred, hfill₁, hleft, htr, fillsFrom_append, List.length_map, Order.withRemaining_withRemaining,
          Order.remainingQuantity_withRemaining, Quantity.sub_self]
        rfl
      · rw [hfilled₂, hfilled]

/-- What an executed plan does to the book. -/
structure Executed (b : OrderBook) (order : Order) (result : MatchResult) (b' : OrderBook) :
    Prop where
  sound : b'.Sound
  config : SameConfig b b'
  pending : b'.pendingOrders = b.pendingOrders
  nextFill : b'.nextFill.val = b.nextFill.val + (b.sweepOf order).trades.length
  makers : b'.resting order.side.opposite = (b.sweepOf order).rest
  filled : (b.sweepOf order).left.toNat = 0 → result = .filled (b.fillsOf order) ∧
    b'.resting order.side = b.resting order.side ∧
    b'.filledOrders = (((b.sweepOf order).consumed.map (·.2.id)).foldl
      (fun s seq => s.insert seq ()) b.filledOrders).insert order.id ()
  rested : (b.sweepOf order).left.toNat ≠ 0 →
    result = (if (b.fillsOf order).isEmpty then .resting order.id
      else .partiallyFilled (b.fillsOf order) order.id) ∧
    (∃ pre post, b.resting order.side = pre ++ post ∧
      b'.resting order.side = pre ++ (order.price, RestingOrder.ofOrder
        (order.withRemaining (b.sweepOf order).left)) :: post ∧
      (∀ a ∈ pre, ¬ order.side.Better order.price a.1) ∧
      (∀ a ∈ post, order.side.Better order.price a.1)) ∧
    b'.filledOrders = ((b.sweepOf order).consumed.map (·.2.id)).foldl
      (fun s seq => s.insert seq ()) b.filledOrders

/-- The final split of `apply_plan`: the taker is filled or rests. -/
lemma applyPlan_spec {b : OrderBook} (hb : b.Sound) (order : Order)
    (hnew : (b.sweepOf order).left.toNat ≠ 0 → ∀ o ∈ b.restingList, o.id < order.id)
    (hfill : b.nextFill.val + (b.resting order.side.opposite).length < 2 ^ 64) :
    ∃ result b', b.applyPlan (b.planOf order) order = .ok (result, b') ∧
      b.Executed order result b' := by
  obtain ⟨b₁, hreplay, hrep, hrest, hfilled⟩ := replay_spec hb hfill
  have happly : b.applyPlan (b.planOf order) order
      = b₁.restOrder (order.withRemaining (b.sweepOf order).left) (b.fillsOf order) := by
    simp only [applyPlan, hreplay, Except.bind_ok]
    simp only [planOf, builderOf, FillPlanBuilder.intoPlan, decide_true, Except.assert_true, Except.bind_ok,
      Order.remainingQuantity_withRemaining]
  rw [happly, restOrder]
  by_cases hz : (b.sweepOf order).left.isZero = true
  · have hz' := Quantity.isZero_iff.mp hz
    rw [if_pos (show (order.withRemaining _).remainingQuantity.isZero = true from hz)]
    refine ⟨_, _, rfl, hrep.sound.congr rfl rfl rfl,
      hrep.config.trans ⟨rfl, rfl, rfl, rfl, rfl, rfl, rfl⟩, hrep.pending, hrep.nextFill, hrest,
      fun _ => ⟨rfl, hrep.own, ?_⟩, fun hne => absurd hz' hne⟩
    show b₁.filledOrders.insert (order.withRemaining _).id () = _
    rw [Order.id_withRemaining, hfilled]
  · have hz' : (b.sweepOf order).left.toNat ≠ 0 := fun h => hz (Quantity.isZero_iff.mpr h)
    have hnew₁ : ∀ o ∈ b₁.restingList, o.id < order.id := by
      intro o ho
      obtain ⟨side, e, he, rfl⟩ := mem_restingList.mp ho
      rcases order.side.eq_or_eq_opposite side with rfl | rfl
      · rw [hrep.own] at he
        exact hnew hz' _ (mem_restingList_of_mem he)
      · rw [hrest] at he
        obtain ⟨e', he', -, hid, -⟩ := (b.sweepOf_spec order).mem_rest he
        have hlt := hnew hz' _ (mem_restingList_of_mem he')
        simp only [RestingOrder.toOrder, hid] at hlt ⊢
        exact hlt
    rw [if_neg (show ¬ (order.withRemaining _).remainingQuantity.isZero = true from hz)]
    obtain ⟨b₂, hins, hs₂, hown₂, hother₂, hcfg₂, hpend₂, hnf₂, hfilled₂⟩ := insertOrder_spec
      hrep.sound (order.withRemaining (b.sweepOf order).left) hnew₁
    simp only [Order.side_withRemaining, Order.price_withRemaining, hrep.own] at hown₂ hother₂
    refine ⟨if (b.fillsOf order).isEmpty then .resting order.id
      else .partiallyFilled (b.fillsOf order) order.id, b₂, ?_, hs₂, hrep.config.trans hcfg₂,
      hpend₂.trans hrep.pending, by rw [hnf₂]; exact hrep.nextFill, hother₂.trans hrest,
      fun h => absurd h hz', fun _ => ⟨rfl, hown₂, hfilled₂.trans hfilled⟩⟩
    rw [hins, Except.bind_ok]
    split_ifs <;> rfl

/-- **Matching on a sound book.**  A validated order with the largest sequence is either killed,
which leaves the book alone, or executed along its sweep. -/
theorem matchOrder_spec {b : OrderBook} (hb : b.Sound) {order : Order}
    (hvalid : b.validateOrder order.price order.remainingQuantity = .ok ())
    (hnew : ∀ o ∈ b.restingList, o.id < order.id)
    (hfill : b.nextFill.val + (b.resting order.side.opposite).length < 2 ^ 64) :
    (order.timeInForce = .fillOrKill ∧ (b.sweepOf order).left.toNat ≠ 0 ∧
      b.matchOrder order = .ok (.ok (.killed order.id
        ⟨order.side, order.price, order.remainingQuantity⟩, b))) ∨
    (¬ (order.timeInForce = .fillOrKill ∧ (b.sweepOf order).left.toNat ≠ 0) ∧
      ∃ result b', b.matchOrder order = .ok (.ok (result, b')) ∧ b.Executed order result b') := by
  have hids : ∀ e ∈ b.resting order.side.opposite, e.2.id ≠ order.id := by
    intro e he
    exact (hnew _ (mem_restingList_of_mem he)).ne
  have hplan := planFills_eq order hids
  obtain ⟨result, b', happly, hexec⟩ := applyPlan_spec hb order (fun _ => hnew) hfill
  have hexecute : ((Except.ok : _ → Except MatchOrderError _) <$> b.applyPlan (b.planOf order) order :
      Except Trap _) = .ok (.ok (result, b')) := by
    rw [happly]
    rfl
  cases htif : order.timeInForce with
  | goodTilCanceled =>
      have hbuild : (b.builderOf order).build = .execute (b.planOf order) := by
        simp only [FillPlanBuilder.build, builderOf, htif, planOf]
      refine Or.inr ⟨by simp, result, b', ?_, hexec⟩
      simp only [matchOrder, hvalid, hplan, Except.bind_ok, hbuild]
      exact hexecute
  | fillOrKill =>
      by_cases hz : (b.sweepOf order).left.isZero = true
      · refine Or.inr ⟨fun h => h.2 (Quantity.isZero_iff.mp hz), result, b', ?_, hexec⟩
        have hbuild : (b.builderOf order).build = .execute (b.planOf order) := by
          simp only [FillPlanBuilder.build, builderOf, htif, planOf, hz, if_true]
        simp only [matchOrder, hvalid, hplan, Except.bind_ok, hbuild]
        exact hexecute
      · refine Or.inl ⟨rfl, fun h => hz (Quantity.isZero_iff.mpr h), ?_⟩
        have hbuild : (b.builderOf order).build = .kill := by
          simp only [FillPlanBuilder.build, builderOf, htif, hz, Bool.false_eq_true, if_false]
        simp only [matchOrder, hvalid, hplan, Except.bind_ok, hbuild]

end OrderBook

end OisyTrade
