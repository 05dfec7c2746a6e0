import OisyTrade.Order.Matching

/-!
# The book invariant

`WellFormed` is the invariant of a book between calls: `Sound` resting orders, a strictly
increasing pending queue behind every resting sequence, valid prices and quantities, no resting
fill-or-kill order, an uncrossed book, and a bound on the fill counter.

The bound deserves a word.  Every fill either consumes a maker or finishes its taker, so the fill
counter plus the number of live orders never exceeds the number of orders ever added.  That is
why minting a fill number cannot overflow before minting an order number does.
-/

namespace OisyTrade

namespace OrderBook

/-- Pending and resting orders. -/
def live (b : OrderBook) : List Order := b.pendingOrders ++ b.restingList

/-- What the book checks about an order's price and quantity. -/
def ValidOrder (b : OrderBook) (o : Order) : Prop :=
  0 < o.price.toNat ∧ b.tickSize.get.toNat ∣ o.price.toNat ∧
    0 < o.remainingQuantity.toNat ∧ b.lotSize.get.toNat ∣ o.remainingQuantity.toNat

lemma validateOrder_eq_ok {b : OrderBook} {o : Order} :
    b.validateOrder o.price o.remainingQuantity = .ok () ↔ b.ValidOrder o := by
  have hp : o.price.isZero = false ↔ 0 < o.price.toNat := by
    rw [← Bool.not_eq_true, Price.isZero_iff, Nat.pos_iff_ne_zero]
  have hq : o.remainingQuantity.isZero = false ↔ 0 < o.remainingQuantity.toNat := by
    rw [← Bool.not_eq_true, Quantity.isZero_iff, Nat.pos_iff_ne_zero]
  rw [ValidOrder, ← hp, ← hq, ← Price.isMultipleOf_iff, ← Quantity.isMultipleOf_iff, validateOrder]
  cases o.price.isZero <;> cases o.price.isMultipleOf b.tickSize <;>
    cases o.remainingQuantity.isZero <;> cases o.remainingQuantity.isMultipleOf b.lotSize <;> simp

/-- The invariant of a book. -/
structure WellFormed (b : OrderBook) : Prop where
  sound : b.Sound
  pendingSorted : (b.pendingOrders.map Order.id).Pairwise (· < ·)
  pendingBelow : ∀ o ∈ b.pendingOrders, o.id < b.nextSeq
  restingBelow : ∀ o ∈ b.restingList, o.id < b.nextSeq
  restingFirst : ∀ o ∈ b.restingList, ∀ o' ∈ b.pendingOrders, o.id < o'.id
  valid : ∀ o ∈ b.live, b.ValidOrder o
  restingGtc : ∀ o ∈ b.restingList, o.timeInForce = .goodTilCanceled
  uncrossed : ∀ x ∈ b.resting .buy, ∀ y ∈ b.resting .sell, x.1 < y.1
  fillBound : b.nextFill.val + b.pendingOrders.length + b.restingList.length ≤ b.nextSeq.val

lemma wellFormed_new (id : OrderBookId) (tick : TickSize) (lot : LotSize) (min : Quantity)
    (max : Option Quantity) (fees : FeeRates) : (new id tick lot min max fees).WellFormed := by
  have hrest : ∀ side, (new id tick lot min max fees).resting side = [] := by
    intro side
    cases side <;> rfl
  have hlist : (new id tick lot min max fees).restingList = [] := rfl
  refine ⟨⟨fun side => ?_, fun side => ?_, ?_, fun seq loc => ?_⟩, List.Pairwise.nil, ?_, ?_, ?_,
    ?_, ?_, ?_, ?_⟩
  · cases side <;> exact OrderQueue.nonEmptyLevels_new
  · rw [hrest]
    exact List.Pairwise.nil
  · rw [hlist]
    exact List.nodup_nil
  · rw [hlist]
    simp [new]
  all_goals first
    | (intro o ho; cases ho)
    | exact Nat.le_refl 0

lemma WellFormed.live_nodup {b : OrderBook} (h : b.WellFormed) : (b.live.map Order.id).Nodup := by
  rw [live, List.map_append, List.nodup_append]
  refine ⟨h.pendingSorted.imp fun hlt => hlt.ne, h.sound.nodup, ?_⟩
  intro s hs s' hs'
  obtain ⟨o, ho, rfl⟩ := List.mem_map.mp hs
  obtain ⟨o', ho', rfl⟩ := List.mem_map.mp hs'
  exact (h.restingFirst o' ho' o ho).ne'

lemma mem_live {b : OrderBook} {o : Order} : o ∈ b.live ↔ o ∈ b.pendingOrders ∨ o ∈ b.restingList :=
  List.mem_append

/-- Two live orders with one sequence are one order. -/
lemma WellFormed.eq_of_id_eq {b : OrderBook} (h : b.WellFormed) {o o' : Order} (ho : o ∈ b.live)
    (ho' : o' ∈ b.live) (hid : o.id = o'.id) : o = o' :=
  List.inj_on_of_nodup_map h.live_nodup ho ho' hid

/-! ## Taking the head of the pending queue -/

section Pop

variable {b : OrderBook} {order : Order} {rest : List Order}

/-- Without the head of its queue a book is still well formed. -/
lemma WellFormed.pop (h : b.WellFormed) (hp : b.pendingOrders = order :: rest) :
    ({ b with pendingOrders := rest } : OrderBook).WellFormed := by
  have hsub : ∀ o ∈ rest, o ∈ b.pendingOrders := fun o ho => hp ▸ List.mem_cons_of_mem _ ho
  refine ⟨h.sound.congr rfl rfl rfl, ?_, fun o ho => h.pendingBelow o (hsub o ho), h.restingBelow,
    fun o ho o' ho' => h.restingFirst o ho o' (hsub o' ho'), ?_, h.restingGtc, h.uncrossed, ?_⟩
  · have hs := h.pendingSorted
    rw [hp, List.map_cons, List.pairwise_cons] at hs
    exact hs.2
  · intro o ho
    refine h.valid o ?_
    rcases mem_live.mp ho with ho | ho
    · exact mem_live.mpr (Or.inl (hsub o ho))
    · exact mem_live.mpr (Or.inr ho)
  · have hb := h.fillBound
    rw [hp, List.length_cons] at hb
    show b.nextFill.val + rest.length + b.restingList.length ≤ b.nextSeq.val
    omega

lemma WellFormed.head_valid (h : b.WellFormed) (hp : b.pendingOrders = order :: rest) :
    b.ValidOrder order := h.valid order (mem_live.mpr (Or.inl (hp ▸ List.mem_cons_self)))

lemma WellFormed.head_new (h : b.WellFormed) (hp : b.pendingOrders = order :: rest) :
    ∀ o ∈ b.restingList, o.id < order.id :=
  fun o ho => h.restingFirst o ho order (hp ▸ List.mem_cons_self)

lemma WellFormed.head_before (h : b.WellFormed) (hp : b.pendingOrders = order :: rest) :
    ∀ o ∈ rest, order.id < o.id := by
  intro o ho
  have hs := h.pendingSorted
  rw [hp, List.map_cons, List.pairwise_cons] at hs
  exact hs.1 o.id (List.mem_map_of_mem ho)

/-- There are fewer makers than fill numbers left. -/
lemma WellFormed.fillSeq_lt (h : b.WellFormed) (side : Side) :
    b.nextFill.val + (b.resting side).length < 2 ^ 64 := by
  have hb := h.fillBound
  have hlt := b.nextSeq.isLt
  have hlen : (b.resting side).length ≤ b.restingList.length := by
    rw [restingList, List.length_append, restingOn, restingOn, List.length_map, List.length_map]
    cases side <;> omega
  omega

end Pop

/-! ## Executing keeps the invariant -/

section Execute

variable {b b' : OrderBook} {order : Order} {result : MatchResult}

/-- The makers are valid orders with the statics of the book. -/
lemma WellFormed.maker_valid (h : b.WellFormed) {side : Side} {e : Price × RestingOrder}
    (he : e ∈ b.resting side) : b.ValidOrder (e.2.toOrder side e.1) :=
  h.valid _ (mem_live.mpr (Or.inr (mem_restingList_of_mem he)))

lemma dvd_makerTotal {d : ℕ} {ms : List (Price × RestingOrder)}
    (h : ∀ e ∈ ms, d ∣ e.2.remainingQuantity.toNat) : d ∣ makerTotal ms := by
  induction ms with
  | nil => exact dvd_zero d
  | cons e ms ih =>
      rw [makerTotal, List.map_cons, List.sum_cons]
      exact Nat.dvd_add (h e List.mem_cons_self) (ih fun e' he' => h e' (List.mem_cons_of_mem _ he'))

/-- Every quantity a sweep produces is a multiple of the lot size. -/
lemma sweep_lots {d : ℕ} {crosses : Price → Bool} {ms : List (Price × RestingOrder)} {q : ℕ}
    {s : Sweep} (hs : s.Spec crosses ms q) (hms : ∀ e ∈ ms, d ∣ e.2.remainingQuantity.toNat)
    (hq : d ∣ q) :
    d ∣ s.left.toNat ∧ d ∣ s.lastQuantity ∧ ∀ e ∈ s.rest, d ∣ e.2.remainingQuantity.toNat := by
  have hsum := hs.quantity
  cases hl : s.last with
  | none =>
      have hsplit := hs.untouched hl
      have hcons : d ∣ makerTotal s.consumed := dvd_makerTotal fun e he =>
        hms e (hsplit ▸ List.mem_append_left _ he)
      have hlq : s.lastQuantity = 0 := by rw [Sweep.lastQuantity, hl]; rfl
      refine ⟨?_, hlq ▸ dvd_zero d, fun e he => hms e (hsplit ▸ List.mem_append_right _ he)⟩
      rw [hlq, Nat.add_zero] at hsum
      exact (Nat.dvd_add_right hcons).mp (hsum ▸ hq)
  | some x =>
      obtain ⟨⟨p, m⟩, x⟩ := x
      obtain ⟨post, hsplit, hrest, hlt, -, hleft⟩ := hs.reduced p m x hl
      have hcons : d ∣ makerTotal s.consumed := dvd_makerTotal fun e he =>
        hms e (hsplit ▸ List.mem_append_left _ he)
      have hlq : s.lastQuantity = x.toNat := by rw [Sweep.lastQuantity, hl]; rfl
      rw [hlq, hleft, Quantity.toNat_zero, Nat.add_zero] at hsum
      have hx : d ∣ x.toNat := (Nat.dvd_add_right hcons).mp (hsum ▸ hq)
      refine ⟨by rw [hleft, Quantity.toNat_zero]; exact dvd_zero d, hlq ▸ hx, fun e he => ?_⟩
      rw [hrest] at he
      rcases List.mem_cons.mp he with rfl | he
      · rw [RestingOrder.remainingQuantity_withRemaining, Quantity.toNat_sub hlt.le]
        exact Nat.dvd_sub (hms (p, m) (hsplit ▸ by simp)) hx
      · exact hms e (hsplit ▸ by simp [he])

/-- Every maker left has something left. -/
lemma sweep_rest_pos {crosses : Price → Bool} {ms : List (Price × RestingOrder)} {q : ℕ}
    {s : Sweep} (hs : s.Spec crosses ms q) (hms : ∀ e ∈ ms, 0 < e.2.remainingQuantity.toNat) :
    ∀ e ∈ s.rest, 0 < e.2.remainingQuantity.toNat := by
  intro e he
  cases hl : s.last with
  | none => exact hms e (hs.untouched hl ▸ List.mem_append_right _ he)
  | some x =>
      obtain ⟨⟨p, m⟩, x⟩ := x
      obtain ⟨post, hsplit, hrest, hlt, -, -⟩ := hs.reduced p m x hl
      rw [hrest] at he
      rcases List.mem_cons.mp he with rfl | he
      · rw [RestingOrder.remainingQuantity_withRemaining, Quantity.toNat_sub hlt.le]
        omega
      · exact hms e (hsplit ▸ by simp [he])

lemma sweep_length {crosses : Price → Bool} {ms : List (Price × RestingOrder)} {q : ℕ}
    {s : Sweep} (hs : s.Spec crosses ms q) :
    s.consumed.length + s.rest.length = ms.length ∧
      s.trades.length = s.consumed.length + s.last.toList.length := by
  refine ⟨?_, by simp [Sweep.trades]⟩
  cases hl : s.last with
  | none => rw [hs.untouched hl, List.length_append]
  | some x =>
      obtain ⟨⟨p, m⟩, x⟩ := x
      obtain ⟨post, hsplit, hrest, -⟩ := hs.reduced p m x hl
      rw [hsplit, hrest, List.length_append, List.length_cons, List.length_cons]

/-- The resting orders after an execution: the makers left, the own side as it was, and the
remainder of the taker. -/
lemma Executed.mem_restingList (hx : b.Executed order result b') {o : Order}
    (ho : o ∈ b'.restingList) :
    (∃ e ∈ (b.sweepOf order).rest, o = e.2.toOrder order.side.opposite e.1) ∨
    (o ∈ b.restingOn order.side) ∨
    ((b.sweepOf order).left.toNat ≠ 0 ∧ o = order.withRemaining (b.sweepOf order).left) := by
  obtain ⟨side, e, he, rfl⟩ := OrderBook.mem_restingList.mp ho
  rcases order.side.eq_or_eq_opposite side with rfl | rfl
  · by_cases hz : (b.sweepOf order).left.toNat = 0
    · rw [(hx.filled hz).2.1] at he
      exact Or.inr (Or.inl (mem_restingOn.mpr ⟨e, he, rfl⟩))
    · obtain ⟨-, ⟨pre, post, h1, h2, -, -⟩, -⟩ := hx.rested hz
      rw [h2] at he
      rcases List.mem_append.mp he with he | he
      · exact Or.inr (Or.inl (mem_restingOn.mpr ⟨e, h1 ▸ List.mem_append_left _ he, rfl⟩))
      · rcases List.mem_cons.mp he with rfl | he
        · exact Or.inr (Or.inr ⟨hz, rfl⟩)
        · exact Or.inr (Or.inl (mem_restingOn.mpr ⟨e, h1 ▸ List.mem_append_right _ he, rfl⟩))
  · rw [hx.makers] at he
    exact Or.inl ⟨e, he, rfl⟩

lemma Executed.length_restingList (hx : b.Executed order result b') :
    b'.restingList.length = (b.sweepOf order).rest.length + (b.resting order.side).length
      + if (b.sweepOf order).left.toNat = 0 then 0 else 1 := by
  rw [OrderBook.length_restingList b' order.side, hx.makers]
  split_ifs with hz
  · rw [(hx.filled hz).2.1]
    omega
  · obtain ⟨-, ⟨pre, post, h1, h2, -, -⟩, -⟩ := hx.rested hz
    rw [h1, h2, List.length_append, List.length_append, List.length_cons]
    omega

/-- A maker left behind by an order that rests does not cross it. -/
lemma not_crosses_of_left (h : b.Sound) (hz : (b.sweepOf order).left.toNat ≠ 0)
    {e : Price × RestingOrder} (he : e ∈ (b.sweepOf order).rest) :
    order.side.crosses order.price e.1 = false := by
  obtain ⟨hl, hhead⟩ := (b.sweepOf_spec order).blocked hz
  have hsplit := (b.sweepOf_spec order).untouched hl
  have hprio := h.priority order.side.opposite
  rw [hsplit, List.pairwise_append] at hprio
  cases hrest : (b.sweepOf order).rest with
  | nil => rw [hrest] at he; cases he
  | cons a rest =>
      have ha : order.side.crosses order.price a.1 = false := hhead a (by rw [hrest]; rfl)
      rw [hrest] at he
      rcases List.mem_cons.mp he with rfl | he
      · exact ha
      · have hpw := hprio.2.1
        rw [hrest, List.pairwise_cons] at hpw
        by_contra hcross
        rw [Bool.not_eq_false] at hcross
        have : order.side.crosses order.price a.1 = true := by
          rcases hpw.1 e he with hb | ⟨hp, -⟩
          · exact Side.crosses_of_better hb hcross
          · rw [hp]; exact hcross
        rw [this] at ha
        cases ha

/-- **Executing keeps the invariant.**  `b` is the book with the taker already popped. -/
theorem WellFormed.execute (h : b.WellFormed) (hx : b.Executed order result b')
    (hvalid : b.ValidOrder order) (hbefore : ∀ o ∈ b.pendingOrders, order.id < o.id)
    (hseq : order.id < b.nextSeq)
    (hfok : ¬ (order.timeInForce = .fillOrKill ∧ (b.sweepOf order).left.toNat ≠ 0))
    (hbound : b.nextFill.val + (b.pendingOrders.length + 1) + b.restingList.length
      ≤ b.nextSeq.val) : b'.WellFormed := by
  have hspec := b.sweepOf_spec order
  have hvo : ∀ o : Order, b'.ValidOrder o ↔ b.ValidOrder o := by
    intro o
    rw [ValidOrder, ValidOrder, hx.config.tickSize, hx.config.lotSize]
  have hlots := sweep_lots (d := b.lotSize.get.toNat) hspec
    (fun e he => (h.maker_valid he).2.2.2) hvalid.2.2.2
  have hpos := sweep_rest_pos hspec (fun e he => (h.maker_valid he).2.2.1)
  -- Every resting order of the new book is below, valid and good-til-canceled.
  have hfacts : ∀ o ∈ b'.restingList, o.id < b.nextSeq ∧
      (∀ o' ∈ b.pendingOrders, o.id < o'.id) ∧ b.ValidOrder o ∧
      o.timeInForce = .goodTilCanceled := by
    intro o ho
    rcases hx.mem_restingList ho with ⟨e, he, rfl⟩ | ho | ⟨hz, rfl⟩
    · obtain ⟨e', he', hp, hid, htif⟩ := hspec.mem_rest he
      have hmem := mem_restingList_of_mem he'
      have hv := h.maker_valid he'
      simp only [RestingOrder.toOrder, hp, hid, htif, ValidOrder] at hmem hv ⊢
      refine ⟨?_, fun o' ho' => ?_, ⟨hv.1, hv.2.1, hpos e he, hlots.2.2 e he⟩, ?_⟩
      · exact h.restingBelow _ hmem
      · exact h.restingFirst _ hmem o' ho'
      · exact h.restingGtc _ hmem
    · obtain ⟨e, he, rfl⟩ := mem_restingOn.mp ho
      have hmem := mem_restingList_of_mem he
      exact ⟨h.restingBelow _ hmem, h.restingFirst _ hmem, h.maker_valid he, h.restingGtc _ hmem⟩
    · refine ⟨hseq, hbefore, ⟨hvalid.1, hvalid.2.1, Nat.pos_of_ne_zero hz, hlots.1⟩, ?_⟩
      cases htif : order.timeInForce with
      | goodTilCanceled => exact htif
      | fillOrKill => exact absurd ⟨htif, hz⟩ hfok
  refine ⟨hx.sound, ?_, ?_, ?_, ?_, ?_, fun o ho => (hfacts o ho).2.2.2, ?_, ?_⟩
  · rw [hx.pending]
    exact h.pendingSorted
  · rw [hx.pending, hx.config.nextSeq]
    exact h.pendingBelow
  · rw [hx.config.nextSeq]
    exact fun o ho => (hfacts o ho).1
  · rw [hx.pending]
    exact fun o ho => (hfacts o ho).2.1
  · intro o ho
    rw [hvo]
    rcases mem_live.mp ho with ho | ho
    · rw [hx.pending] at ho
      exact h.valid o (mem_live.mpr (Or.inl ho))
    · exact (hfacts o ho).2.2.1
  · -- Uncrossed: prices on the maker side only disappear, and a resting taker crosses none.
    have huncross : ∀ (side : Side) (p q : Price),
        (∃ x ∈ b.resting side, x.1 = p) → (∃ y ∈ b.resting side.opposite, y.1 = q) →
        side.crosses p q = false := by
      rintro side p q ⟨x, hx', rfl⟩ ⟨y, hy, rfl⟩
      cases side with
      | buy =>
          have := h.uncrossed x hx' y hy
          simp only [Side.crosses, decide_eq_false_iff_not, not_le]
          exact this
      | sell =>
          have := h.uncrossed y hy x hx'
          simp only [Side.crosses, decide_eq_false_iff_not, not_le]
          exact this
    have hside : ∀ x ∈ b'.resting order.side, ∀ y ∈ b'.resting order.side.opposite,
        order.side.crosses x.1 y.1 = false := by
      intro x hx' y hy
      rw [hx.makers] at hy
      obtain ⟨y', hy', hyp, -⟩ := hspec.mem_rest hy
      by_cases hz : (b.sweepOf order).left.toNat = 0
      · rw [(hx.filled hz).2.1] at hx'
        exact huncross order.side _ _ ⟨x, hx', rfl⟩ ⟨y', hy', hyp⟩
      · obtain ⟨-, ⟨pre, post, h1, h2, -, -⟩, -⟩ := hx.rested hz
        rw [h2] at hx'
        rcases List.mem_append.mp hx' with hx' | hx'
        · exact huncross order.side _ _ ⟨x, h1 ▸ List.mem_append_left _ hx', rfl⟩ ⟨y', hy', hyp⟩
        · rcases List.mem_cons.mp hx' with rfl | hx'
          · exact not_crosses_of_left h.sound hz hy
          · exact huncross order.side _ _ ⟨x, h1 ▸ List.mem_append_right _ hx', rfl⟩ ⟨y', hy', hyp⟩
    intro x hx' y hy
    cases hs : order.side with
    | buy =>
        rw [hs] at hside
        have := hside x hx' y hy
        simpa [Side.crosses] using this
    | sell =>
        rw [hs] at hside
        have := hside y hy x hx'
        simpa [Side.crosses] using this
  · have hlen := sweep_length hspec
    have hrl := hx.length_restingList
    have hold := length_restingList b order.side
    rw [hx.nextFill, hx.pending, hx.config.nextSeq, hrl, hlen.2]
    cases hl : (b.sweepOf order).last with
    | none =>
        simp only [Option.toList_none, List.length_nil]
        split_ifs <;> omega
    | some x =>
        obtain ⟨⟨p, m⟩, x⟩ := x
        obtain ⟨-, -, -, -, -, hleft⟩ := hspec.reduced p m x hl
        have hz : (b.sweepOf order).left.toNat = 0 := by rw [hleft, Quantity.toNat_zero]
        simp only [Option.toList_some, List.length_singleton, hz, if_true]
        omega

end Execute

end OrderBook

end OisyTrade
