import OisyTrade.Order.Effect

/-!
# One round of matching

Two readings of the matcher that the rest of the canister rests on.  `roundSpec` says how a round
splits its orders into resting, filled and expired ones and where every quantity went;
`matchOrder_fillOrKill` says that a fill-or-kill order is executed in full or not at all.
-/

namespace OisyTrade

namespace OrderBook

/-! ## The partition of a round -/

/-- What an order has left in a book. -/
def remainingOf (b : OrderBook) (seq : OrderSeq) : ℕ :=
  (b.find seq).elim 0 fun o => o.remainingQuantity.toNat

/-- How a round over the sequences `seqs` of `b` splits them and accounts for every quantity. -/
structure RoundSpec (b : OrderBook) (seqs : List OrderSeq) (out : MatchingOutput)
    (b' : OrderBook) : Prop where
  /-- A processed order rests, or is filled, or is killed. -/
  processed : ∀ seq ∈ seqs,
    (out.restingOrders.contains seq = true ∧ out.filledOrders.contains seq = false ∧
      out.expiredOrders.contains seq = false) ∨
    (out.restingOrders.contains seq = false ∧ out.filledOrders.contains seq = true ∧
      out.expiredOrders.contains seq = false) ∨
    (out.restingOrders.contains seq = false ∧ out.filledOrders.contains seq = false ∧
      out.expiredOrders.contains seq = true)
  /-- Any other filled order was resting and is gone. -/
  filledMaker : ∀ seq, out.filledOrders.contains seq = true → seq ∉ seqs →
    (∃ o ∈ b.restingList, o.id = seq) ∧ b'.find seq = none
  /-- A resting order does not come to rest again and does not expire. -/
  restingMaker : ∀ o ∈ b.restingList, out.restingOrders.contains o.id = false ∧
    out.expiredOrders.contains o.id = false
  /-- Quantity is conserved, and what is left is zero exactly for filled orders. -/
  conserved : ∀ o ∈ b.live, o.id ∈ seqs ∨ o ∈ b.restingList →
    out.expiredOrders.contains o.id = false →
      o.remainingQuantity.toNat = fillTotal (fillsOn out.fills o.id) + b'.remainingOf o.id ∧
      (b'.remainingOf o.id = 0 ↔ out.filledOrders.contains o.id = true)
  /-- An expired order traded nothing and is gone. -/
  expired : ∀ seq, out.expiredOrders.contains seq = true →
    seq ∈ seqs ∧ fillsOn out.fills seq = [] ∧ b'.find seq = none
  /-- A fill is between a processed taker and an earlier maker of the other side. -/
  fills : ∀ f ∈ out.fills, 0 < f.quantity.toNat ∧ f.takerOrderSeq ≠ f.makerOrderSeq ∧
    f.makerOrderSeq < f.takerOrderSeq ∧ ∃ t ∈ b.live, ∃ m ∈ b.live, t.id = f.takerOrderSeq ∧
      m.id = f.makerOrderSeq ∧ t.id ∈ seqs ∧ m.side = t.side.opposite
  /-- Fills are numbered without a gap. -/
  fillSeqs : out.fills.map (fun f => f.fillSeq.val)
    = List.range' b.nextFill.val (b'.nextFill.val - b.nextFill.val)

section Partition

variable {b b' : OrderBook} {out : StepOut} {orders : List Order}

lemma StepOut.contains_filled {out : StepOut} {seq : OrderSeq} :
    out.output.filledOrders.contains seq = true ↔ seq ∈ out.filled := by
  exact SortedMap.contains_addAll_empty

lemma StepOut.contains_expired {out : StepOut} {seq : OrderSeq} :
    out.output.expiredOrders.contains seq = true ↔ seq ∈ out.expired.map Prod.fst := by
  have key : ∀ (l : List (OrderSeq × RemovedOrder)) (m : SortedMap OrderSeq RemovedOrder),
      (m.insertAll l).contains seq = true ↔ m.contains seq = true ∨ seq ∈ l.map Prod.fst := by
    intro l
    induction l with
    | nil => intro m; simp
    | cons e l ih =>
        intro m
        rw [SortedMap.insertAll_cons, ih, SortedMap.contains, SortedMap.get_insert, List.map_cons,
          List.mem_cons]
        by_cases he : e.1 = seq
        · simp [he]
        · simp [he, Ne.symm he, SortedMap.contains]
  refine (key out.expired SortedMap.empty).trans (or_iff_right ?_)
  rw [SortedMap.contains, SortedMap.get_empty]
  exact Bool.false_ne_true

lemma StepOut.contains_resting {out : StepOut} {seq : OrderSeq} :
    out.output.restingOrders.contains seq = true ↔ seq ∈ out.resting ∧ seq ∉ out.filled := by
  have hall : ((SortedSet.empty.addAll out.resting).contains seq = true) ↔ seq ∈ out.resting :=
    SortedMap.contains_addAll_empty
  have hf : ((SortedSet.empty.addAll out.filled).contains seq = true) ↔ seq ∈ out.filled :=
    StepOut.contains_filled
  have hres : (SortedSet.empty.addAll out.resting).contains seq
      = ((SortedSet.empty.addAll out.resting).get seq).isSome := rfl
  rw [← hall, ← hf, hres, StepOut.output, SortedMap.contains, SortedMap.get_filter]
  cases (SortedSet.empty.addAll out.resting).get seq with
  | none => simp
  | some u => cases (SortedSet.empty.addAll out.filled).contains seq <;> simp [Option.filter]

/-- A batch fills at most what was left of an order. -/
lemma Chunk.fillTotal_le (h : Chunk b orders out b') (hb : b.WellFormed) (seq : OrderSeq) :
    fillTotal (fillsOn out.fills seq) ≤ b.remainingOf seq := by
  cases h.effect hb seq with
  | absent _ _ hfills => rw [hfills]; exact Nat.zero_le _
  | live o o' hfind _ _ hquantity =>
      rw [remainingOf, hfind, Option.elim_some]
      omega
  | filled o hfind _ hquantity =>
      rw [remainingOf, hfind, Option.elim_some]
      exact hquantity.le
  | expired _ _ _ _ _ hfills => rw [hfills]; exact Nat.zero_le _

/-- A processed order is live and pending before the round, and not pending after it. -/
lemma Chunk.processed_pending (h : Chunk b orders out b') (hb : b.WellFormed) {o : Order}
    (ho : o ∈ orders) : o ∈ b.pendingOrders ∧ ∀ o' ∈ b'.pendingOrders, o'.id ≠ o.id := by
  have hp := h.pending
  refine ⟨hp ▸ List.mem_append_left _ ho, fun o' ho' hid => ?_⟩
  have hsorted := hb.pendingSorted
  rw [hp, List.map_append, List.pairwise_append] at hsorted
  have hlt := hsorted.2.2 o.id (List.mem_map_of_mem ho) o'.id (List.mem_map_of_mem ho')
  exact hlt.ne hid.symm

/-- **A round partitions its orders and conserves quantity.** -/
lemma Chunk.roundSpec (h : Chunk b orders out b') (hb : b.WellFormed) :
    RoundSpec b (orders.map Order.id) out.output b' := by
  have hb' := h.wf hb
  have hF : ∀ {seq}, out.output.filledOrders.contains seq = false ↔ seq ∉ out.filled := by
    intro seq
    rw [← Bool.not_eq_true, StepOut.contains_filled]
  have hE : ∀ {seq}, out.output.expiredOrders.contains seq = false ↔
      seq ∉ out.expired.map Prod.fst := by
    intro seq
    rw [← Bool.not_eq_true, StepOut.contains_expired]
  have hR : ∀ {seq}, out.output.restingOrders.contains seq = false ↔
      ¬ (seq ∈ out.resting ∧ seq ∉ out.filled) := by
    intro seq
    rw [← Bool.not_eq_true, StepOut.contains_resting]
  refine ⟨?_, ?_, ?_, ?_, ?_, ?_, ?_⟩
  · intro seq hseq
    obtain ⟨o, ho, rfl⟩ := List.mem_map.mp hseq
    obtain ⟨hpend, hgone⟩ := h.processed_pending hb ho
    have hfind : b.find o.id = some o := hb.find_eq_some.mpr ⟨mem_live.mpr (Or.inl hpend), rfl⟩
    rcases h.effect hb o.id with ⟨hno, -⟩ | ⟨o₁, o', h1, h', -, -, -, hrest, -, hfil, hexp⟩ |
      ⟨o₁, h1, h', -, hfil, hexp⟩ | ⟨o₁, h1, -, -, h', -, hfil, hres, hexp, -⟩
    · rw [hfind] at hno
      cases hno
    · rw [hfind] at h1
      cases h1
      -- It is not pending any more, so it rests, and it was not resting before.
      obtain ⟨hlive', hid'⟩ := hb'.find_eq_some.mp h'
      have hresting : o' ∈ b'.restingList := (mem_live.mp hlive').resolve_left
        fun hp' => hgone o' hp' hid'
      have hout := (hrest.mp hresting).resolve_left (hb.not_resting_of_pending hpend)
      exact Or.inl ⟨StepOut.contains_resting.mpr ⟨hout, hfil⟩, hF.mpr hfil, hE.mpr hexp⟩
    · exact Or.inr (Or.inl ⟨hR.mpr fun hx => hx.2 hfil, StepOut.contains_filled.mpr hfil,
        hE.mpr hexp⟩)
    · exact Or.inr (Or.inr ⟨hR.mpr fun hx => hres hx.1, hF.mpr hfil,
        StepOut.contains_expired.mpr (List.mem_map_of_mem hexp)⟩)
  · intro seq hfil hnot
    rw [StepOut.contains_filled] at hfil
    rcases h.effect hb seq with ⟨-, -, -, hno, -⟩ | ⟨-, -, -, -, -, -, -, -, -, hno, -⟩ |
      ⟨o, h1, h', -⟩ | ⟨-, -, -, -, -, -, hno, -⟩
    · exact absurd hfil hno
    · exact absurd hfil hno
    · obtain ⟨hlive, hid⟩ := hb.find_eq_some.mp h1
      refine ⟨⟨o, ?_, hid⟩, h'⟩
      rcases mem_live.mp hlive with hp | hr
      · -- A pending order that is gone was processed.
        rw [h.pending] at hp
        rcases List.mem_append.mp hp with hp | hp
        · exact absurd (hid ▸ List.mem_map_of_mem hp) hnot
        · exact absurd hid (find_eq_none.mp h' o (mem_live.mpr (Or.inl hp)))
      · exact hr
    · exact absurd hfil hno
  · intro o ho
    have hnp : o ∉ b.pendingOrders := fun hp => hb.not_resting_of_pending hp ho
    have hfind : b.find o.id = some o := hb.find_eq_some.mpr ⟨mem_live.mpr (Or.inr ho), rfl⟩
    rcases h.effect hb o.id with ⟨hno, -⟩ | ⟨o₁, o', h1, -, -, -, -, -, hrests, -, hexp⟩ |
      ⟨o₁, h1, -, -, hfil, hexp⟩ | ⟨o₁, h1, -, hpend, -⟩
    · rw [hfind] at hno
      cases hno
    · rw [hfind] at h1
      cases h1
      exact ⟨hR.mpr fun hx => hnp (hrests hx.1), hE.mpr hexp⟩
    · exact ⟨hR.mpr fun hx => hx.2 hfil, hE.mpr hexp⟩
    · rw [hfind] at h1
      cases h1
      exact absurd hpend hnp
  · intro o ho hin hnexp
    rw [hE] at hnexp
    have hfind : b.find o.id = some o := hb.find_eq_some.mpr ⟨ho, rfl⟩
    rcases h.effect hb o.id with ⟨hno, -⟩ | ⟨o₁, o', h1, h', -, hq, -, -, -, hfil, -⟩ |
      ⟨o₁, h1, h', hq, hfil, -⟩ | ⟨o₁, -, -, -, -, -, -, -, hexp, -⟩
    · rw [hfind] at hno
      cases hno
    · rw [hfind] at h1
      cases h1
      have hpos := (hb'.valid o' (hb'.find_eq_some.mp h').1).2.2.1
      have hrem : b'.remainingOf o.id = o'.remainingQuantity.toNat := by rw [remainingOf, h']; rfl
      rw [hrem, StepOut.contains_filled]
      have hq' : o'.remainingQuantity.toNat + fillTotal (fillsOn out.output.fills o.id)
          = o.remainingQuantity.toNat := hq
      exact ⟨by omega, fun h0 => by omega, fun hx => absurd hx hfil⟩
    · rw [hfind] at h1
      cases h1
      have hrem : b'.remainingOf o.id = 0 := by rw [remainingOf, h']; rfl
      rw [hrem, StepOut.contains_filled]
      exact ⟨hq.symm, fun _ => hfil, fun _ => rfl⟩
    · exact absurd (List.mem_map_of_mem hexp) hnexp
  · intro seq hexp
    rw [StepOut.contains_expired] at hexp
    rcases h.effect hb seq with ⟨-, -, -, -, -, hno⟩ | ⟨-, -, -, -, -, -, -, -, -, -, hno⟩ |
      ⟨-, -, -, -, -, hno⟩ | ⟨o, h1, -, hpend, h', hfills, -⟩
    · exact absurd hexp hno
    · exact absurd hexp hno
    · exact absurd hexp hno
    · obtain ⟨-, hid⟩ := hb.find_eq_some.mp h1
      rw [h.pending] at hpend
      refine ⟨?_, hfills, h'⟩
      rcases List.mem_append.mp hpend with hp | hp
      · exact hid ▸ List.mem_map_of_mem hp
      · exact absurd hid (find_eq_none.mp h' o (mem_live.mpr (Or.inl hp)))
  · intro f hf
    obtain ⟨t, m, hok⟩ := h.fillOk hb hf
    have hlt : f.makerOrderSeq < f.takerOrderSeq := by
      rw [hok.takerSeq, hok.makerSeq]
      exact hok.earlier
    exact ⟨hok.positive, hlt.ne', hlt, t,
      mem_live.mpr (Or.inl (h.processed_pending hb hok.taker).1), m, hok.maker, hok.takerSeq.symm,
      hok.makerSeq.symm, List.mem_map_of_mem hok.taker, hok.makerSide⟩
  · rw [h.nextFill, Nat.add_sub_cancel_left]
    exact h.fillSeqs hb

/-- **A matching round partitions its orders and conserves quantity**, on every reachable book and
every prefix of its pending queue. -/
theorem processPendingOrders_partitions {b : OrderBook} (h : Reachable b) (n : ℕ) :
    ∃ out b', b.processPendingOrders (b.pendingOrderSeqs.take n) = .ok (out, b') ∧
      RoundSpec b (b.pendingOrderSeqs.take n) out b' := by
  obtain ⟨hwf, hdrained⟩ := h.wellFormed
  obtain ⟨htake, hsplit⟩ := b.take_pendingOrderSeqs n
  obtain ⟨out, b', hchunk, hok⟩ := processPendingOrders_spec hwf hdrained hsplit
  rw [htake]
  exact ⟨out.output, b', hok, hchunk.roundSpec hwf⟩

/-- The pending bid takes all asks and rests. -/
theorem processPendingOrders_partitions_crossingBook :
    crossingBook.pendingOrderSeqs.take 1 = [unitBid.id] ∧
      ∃ out b',
        crossingBook.processPendingOrders (crossingBook.pendingOrderSeqs.take 1) = .ok (out, b') ∧
        RoundSpec crossingBook (crossingBook.pendingOrderSeqs.take 1) out b' :=
  ⟨by decide +kernel, processPendingOrders_partitions reachable_crossingBook 1⟩

end Partition

/-! ## All or nothing -/

section FillOrKill

variable {b : OrderBook} {order : Order}

/-- What the makers that an order crosses have left together. -/
def crossingTotal (b : OrderBook) (order : Order) : ℕ :=
  makerTotal ((b.resting order.side.opposite).filter fun e => order.side.crosses order.price e.1)

lemma makerTotal_append (l l' : List (Price × RestingOrder)) :
    makerTotal (l ++ l') = makerTotal l + makerTotal l' := by
  simp [makerTotal]

/-- **The sweep is short of liquidity exactly when the crossing makers are.** -/
lemma Sound.left_eq_zero_iff (hb : b.Sound) (order : Order) :
    (b.sweepOf order).left.toNat = 0 ↔ order.remainingQuantity.toNat ≤ b.crossingTotal order := by
  have hspec := b.sweepOf_spec order
  have hq := hspec.quantity
  have hcons : ∀ e ∈ (b.sweepOf order).consumed, order.side.crosses order.price e.1 = true := by
    intro e he
    refine hspec.cross (e.1, e.2.id, e.2.remainingQuantity) ?_
    rw [Sweep.trades]
    exact List.mem_append_left _ (List.mem_map_of_mem he)
  have hfil : (b.sweepOf order).consumed.filter (fun e => order.side.crosses order.price e.1)
      = (b.sweepOf order).consumed := List.filter_eq_self.mpr hcons
  constructor
  · intro hz
    cases hlast : (b.sweepOf order).last with
    | none =>
        rw [crossingTotal, hspec.untouched hlast, List.filter_append, makerTotal_append, hfil]
        rw [Sweep.lastQuantity, hlast] at hq
        simp only [Option.elim_none] at hq
        omega
    | some x =>
        obtain ⟨⟨p, m⟩, x⟩ := x
        obtain ⟨post, hms, -, hlt, -, -⟩ := hspec.reduced p m x hlast
        have hcross : order.side.crosses order.price p = true := by
          refine hspec.cross (p, m.id, x) ?_
          rw [Sweep.trades, hlast]
          simp
        rw [crossingTotal, hms, List.filter_append, makerTotal_append, hfil,
          List.filter_cons_of_pos (a := (p, m)) hcross]
        rw [Sweep.lastQuantity, hlast] at hq
        simp only [Option.elim_some] at hq
        have hcons' : ∀ l : List (Price × RestingOrder), makerTotal ((p, m) :: l)
            = m.remainingQuantity.toNat + makerTotal l := fun l => by simp [makerTotal]
        rw [hcons']
        omega
  · intro hle
    by_contra hne
    obtain ⟨hlast, -⟩ := hspec.blocked hne
    have hrest : (b.sweepOf order).rest.filter (fun e => order.side.crosses order.price e.1)
        = [] := by
      refine List.filter_eq_nil_iff.mpr fun e he => ?_
      rw [not_crosses_of_left hb hne he]
      exact Bool.false_ne_true
    rw [crossingTotal, hspec.untouched hlast, List.filter_append, makerTotal_append, hfil,
      hrest] at hle
    have h0 : makerTotal [] = 0 := rfl
    omega

/-- The same order without the condition to be filled at once. -/
def asGoodTilCanceled (order : Order) : Order := { order with timeInForce := .goodTilCanceled }

/-- Executions of one order under two conditions are the same when nothing is left. -/
lemma Executed.eq_of_filled {result result' : MatchResult} {b₁ b₂ : OrderBook}
    (hz : (b.sweepOf order).left.toNat = 0) (h₁ : b.Executed order result b₁)
    (h₂ : b.Executed (asGoodTilCanceled order) result' b₂) : result' = result ∧ b₂ = b₁ := by
  obtain ⟨r₁, own₁, f₁⟩ := h₁.filled hz
  obtain ⟨r₂, own₂, f₂⟩ := h₂.filled hz
  have hfills : b.fillsOf (asGoodTilCanceled order) = b.fillsOf order := by
    have hone : ∀ (ts : List Sweep.Trade) (n : ℕ),
        fillsFrom (asGoodTilCanceled order) n ts = fillsFrom order n ts := by
      intro ts
      induction ts with
      | nil => intro n; rfl
      | cons t ts ih => intro n; rw [fillsFrom, fillsFrom, ih]; rfl
    exact hone _ _
  refine ⟨by rw [r₁, r₂, hfills], ?_⟩
  have hcfg : SameConfig b₁ b₂ :=
    ⟨h₂.config.id.trans h₁.config.id.symm, h₂.config.nextSeq.trans h₁.config.nextSeq.symm,
      h₂.config.tickSize.trans h₁.config.tickSize.symm,
      h₂.config.lotSize.trans h₁.config.lotSize.symm,
      h₂.config.minNotional.trans h₁.config.minNotional.symm,
      h₂.config.maxNotional.trans h₁.config.maxNotional.symm,
      h₂.config.feeRates.trans h₁.config.feeRates.symm⟩
  refine ext_resting h₁.sound h₂.sound hcfg (h₂.pending.trans h₁.pending.symm)
    (Seq.ext_val (h₂.nextFill.trans h₁.nextFill.symm)) (fun side => ?_) (f₂.trans f₁.symm)
  rcases order.side.eq_or_eq_opposite side with rfl | rfl
  · exact own₂.trans own₁.symm
  · exact h₂.makers.trans h₁.makers.symm

/-- A book in the middle of a batch: some pending orders are taken off, some orders are filled. -/
def midway (b : OrderBook) (rest : List Order) (filled : SortedSet OrderSeq) : OrderBook :=
  { b with pendingOrders := rest, filledOrders := filled }

lemma WellFormed.midway (h : b.WellFormed) {rest : List Order} (hrest : rest <:+ b.pendingOrders)
    (filled : SortedSet OrderSeq) : (b.midway rest filled).WellFormed := by
  have hsub : ∀ o ∈ rest, o ∈ b.pendingOrders := fun o ho => hrest.subset ho
  refine ⟨h.sound.congr rfl rfl rfl, ?_, fun o ho => h.pendingBelow o (hsub o ho), h.restingBelow,
    fun o ho o' ho' => h.restingFirst o ho o' (hsub o' ho'), fun o ho => ?_, h.restingGtc,
    h.uncrossed, ?_⟩
  · exact h.pendingSorted.sublist (hrest.sublist.map Order.id)
  · exact h.valid o (mem_live.mpr ((mem_live.mp ho).imp_left (hsub o)))
  · have hlen := hrest.length_le
    have hbound := h.fillBound
    show b.nextFill.val + rest.length + b.restingList.length ≤ b.nextSeq.val
    omega

/-- **Fill-or-kill is all or nothing**, on a well-formed book and for an order of a new sequence. -/
theorem WellFormed.matchOrder_fillOrKill (hb : b.WellFormed)
    (hfok : order.timeInForce = .fillOrKill)
    (hvalid : b.validateOrder order.price order.remainingQuantity = .ok ())
    (hnew : ∀ o ∈ b.restingList, o.id ≠ order.id) :
    (order.remainingQuantity.toNat ≤ b.crossingTotal order →
      ∃ fills b', b.matchOrder order = .ok (.ok (.filled fills, b')) ∧
        b.matchOrder (asGoodTilCanceled order) = .ok (.ok (.filled fills, b')) ∧
        fillTotal fills = order.remainingQuantity.toNat) ∧
    (b.crossingTotal order < order.remainingQuantity.toNat →
      b.matchOrder order = .ok (.ok (.killed order.id
        ⟨order.side, order.price, order.remainingQuantity⟩, b))) := by
  have hids : ∀ e ∈ b.resting order.side.opposite, e.2.id ≠ order.id := fun e he =>
    hnew _ (mem_restingList_of_mem he)
  have hplan := planFills_eq order hids
  have hbound := hb.fillSeq_lt order.side.opposite
  have hleft := hb.sound.left_eq_zero_iff order
  constructor
  · intro hle
    have hz := hleft.mpr hle
    have hz' : (b.sweepOf order).left.isZero = true := Quantity.isZero_iff.mpr hz
    obtain ⟨result, b', happly, hx⟩ := applyPlan_spec hb.sound order
      (fun hne => absurd hz hne) hbound
    obtain ⟨result', b'', happly', hx'⟩ := applyPlan_spec hb.sound
      (asGoodTilCanceled order) (fun hne => absurd hz hne) hbound
    obtain ⟨hr, hb''⟩ := Executed.eq_of_filled hz hx hx'
    obtain ⟨hres, -, -⟩ := hx.filled hz
    subst hr hb'' hres
    refine ⟨b.fillsOf order, b'', ?_, ?_, ?_⟩
    · have hbuild : (b.builderOf order).build = .execute (b.planOf order) := by
        simp only [FillPlanBuilder.build, builderOf, hfok, planOf, hz', if_true]
      simp only [matchOrder, hvalid, hplan, Except.bind_ok, hbuild, happly]
      rfl
    · have hplan' := planFills_eq (asGoodTilCanceled order) hids
      have hvalid' : b.validateOrder (asGoodTilCanceled order).price
          (asGoodTilCanceled order).remainingQuantity = .ok () := hvalid
      have hbuild : (b.builderOf (asGoodTilCanceled order)).build
          = .execute (b.planOf (asGoodTilCanceled order)) := rfl
      simp only [matchOrder, hvalid', hplan', Except.bind_ok, hbuild, happly']
      rfl
    · have htraded := (b.sweepOf_spec order).traded
      rw [fillsOf, fillTotal_fillsFrom]
      omega
  · intro hlt
    have hne : (b.sweepOf order).left.toNat ≠ 0 := fun hz => by
      have := hleft.mp hz
      omega
    have hz' : (b.sweepOf order).left.isZero = false := by
      rw [← Bool.not_eq_true, Quantity.isZero_iff]
      exact hne
    have hbuild : (b.builderOf order).build = .kill := by
      simp only [FillPlanBuilder.build, builderOf, hfok, hz', Bool.false_eq_true, if_false]
    simp only [matchOrder, hvalid, hplan, Except.bind_ok, hbuild]

end FillOrKill

end OrderBook

end OisyTrade
