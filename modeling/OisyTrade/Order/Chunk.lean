import OisyTrade.Order.BookInv

/-!
# Matching a batch of pending orders

`process_pending_orders` as a sequence of steps.  `Stepped b order b'` is the effect of matching
the head of the pending queue, `Chunk` chains such steps, and `processPendingOrders_spec` says that
on a well-formed book the source's loop runs exactly one chunk and never traps.

Since `Stepped` is deterministic (`Stepped.unique`) and chunks concatenate (`Chunk.append`), how a
run of pending orders is cut into batches cannot matter: `processPendingOrders_append`.
-/

namespace OisyTrade

namespace OrderBook

/-- Sound books with the same orders and counters are equal. -/
theorem ext_resting {b b' : OrderBook} (h : b.Sound) (h' : b'.Sound) (hcfg : SameConfig b b')
    (hpend : b'.pendingOrders = b.pendingOrders) (hfill : b'.nextFill = b.nextFill)
    (hrest : ∀ side, b'.resting side = b.resting side)
    (hfilled : b'.filledOrders = b.filledOrders) : b' = b := by
  have hinj : Function.Injective fun e : Priceᵒᵈ × RestingOrder => (OrderDual.ofDual e.1, e.2) := by
    rintro ⟨k, m⟩ ⟨k', m'⟩ he
    simpa using he
  have hbids : b'.bids = b.bids := OrderQueue.ext_iter (h'.nonEmpty .buy) (h.nonEmpty .buy)
    (List.map_injective_iff.mpr hinj (hrest .buy))
  have hasks : b'.asks = b.asks := OrderQueue.ext_iter (h'.nonEmpty .sell) (h.nonEmpty .sell)
    (hrest .sell)
  have hlist : b'.restingList = b.restingList := by
    simp only [restingList, restingOn, hrest]
  have hindex : b'.restingOrders = b.restingOrders := by
    refine SortedMap.ext_get fun seq => Option.ext fun loc => ?_
    rw [h'.index, h.index, hlist]
  obtain ⟨h1, h2, h3, h4, h5, h6, h7⟩ := hcfg
  cases b
  cases b'
  simp only at *
  subst_vars
  rfl

/-! ## One step -/

/-- What matching the head of the queue reports. -/
structure StepOut where
  fills : List Fill
  filled : List OrderSeq
  resting : List OrderSeq
  expired : List (OrderSeq × RemovedOrder)

namespace StepOut

/-- Nothing happened. -/
def empty : StepOut := ⟨[], [], [], []⟩

/-- One report after the other. -/
def append (x y : StepOut) : StepOut :=
  ⟨x.fills ++ y.fills, x.filled ++ y.filled, x.resting ++ y.resting, x.expired ++ y.expired⟩

/-- The sets the source computes at the end of a batch. -/
def output (x : StepOut) : MatchingOutput :=
  { fills := x.fills
    restingOrders := (SortedSet.empty.addAll x.resting).filter
      fun seq _ => !(SortedSet.empty.addAll x.filled).contains seq
    filledOrders := SortedSet.empty.addAll x.filled
    expiredOrders := SortedMap.empty.insertAll x.expired }

@[simp] lemma empty_append (x : StepOut) : empty.append x = x := rfl

@[simp] lemma append_empty (x : StepOut) : x.append empty = x := by
  simp [append, empty]

lemma append_assoc (x y z : StepOut) : (x.append y).append z = x.append (y.append z) := by
  simp [append]

end StepOut

/-- The order is fill-or-kill and cannot be filled. -/
def Killed (b : OrderBook) (order : Order) : Prop :=
  order.timeInForce = .fillOrKill ∧ (b.sweepOf order).left.toNat ≠ 0

instance (b : OrderBook) (order : Order) : Decidable (b.Killed order) := by
  unfold Killed; infer_instance

/-- The report of one step. -/
def stepOut (b : OrderBook) (order : Order) : StepOut :=
  if b.Killed order then
    ⟨[], [], [], [(order.id, ⟨order.side, order.price, order.remainingQuantity⟩)]⟩
  else if (b.sweepOf order).left.toNat = 0 then
    ⟨b.fillsOf order, (b.sweepOf order).consumed.map (·.2.id) ++ [order.id], [], []⟩
  else
    ⟨b.fillsOf order, (b.sweepOf order).consumed.map (·.2.id), [order.id], []⟩

/-- The own side once the taker rests. -/
def ownAfter (b : OrderBook) (order : Order) : List (Price × RestingOrder) :=
  (b.resting order.side).filter (fun a => ¬ order.side.Better order.price a.1)
    ++ (order.price, RestingOrder.ofOrder (order.withRemaining (b.sweepOf order).left))
    :: (b.resting order.side).filter (fun a => order.side.Better order.price a.1)

/-- **One step of a batch**: `b'` is `b` after matching `order`, the head of its queue. -/
structure Stepped (b : OrderBook) (order : Order) (b' : OrderBook) : Prop where
  wf : b'.WellFormed
  pending : b.pendingOrders = order :: b'.pendingOrders
  config : SameConfig b b'
  nextFill : b'.nextFill.val = b.nextFill.val + (b.stepOut order).fills.length
  makers : b'.resting order.side.opposite
    = if b.Killed order then b.resting order.side.opposite else (b.sweepOf order).rest
  own : b'.resting order.side
    = if b.Killed order ∨ (b.sweepOf order).left.toNat = 0 then b.resting order.side
      else b.ownAfter order
  filledOrders : b'.filledOrders = b.filledOrders

lemma Stepped.unique {b b₁ b₂ : OrderBook} {order : Order} (h₁ : b.Stepped order b₁)
    (h₂ : b.Stepped order b₂) : b₂ = b₁ := by
  have hcfg : SameConfig b₁ b₂ :=
    ⟨h₂.config.id.trans h₁.config.id.symm, h₂.config.nextSeq.trans h₁.config.nextSeq.symm,
      h₂.config.tickSize.trans h₁.config.tickSize.symm,
      h₂.config.lotSize.trans h₁.config.lotSize.symm,
      h₂.config.minNotional.trans h₁.config.minNotional.symm,
      h₂.config.maxNotional.trans h₁.config.maxNotional.symm,
      h₂.config.feeRates.trans h₁.config.feeRates.symm⟩
  have hpend : order :: b₂.pendingOrders = order :: b₁.pendingOrders :=
    h₂.pending.symm.trans h₁.pending
  refine ext_resting h₁.wf.sound h₂.wf.sound hcfg (List.cons.inj hpend).2
    (Seq.ext_val (h₂.nextFill.trans h₁.nextFill.symm)) (fun side => ?_)
    (h₂.filledOrders.trans h₁.filledOrders.symm)
  rcases order.side.eq_or_eq_opposite side with rfl | rfl
  · exact h₂.own.trans h₁.own.symm
  · exact h₂.makers.trans h₁.makers.symm

lemma WellFormed.with_filled {b : OrderBook} (h : b.WellFormed) (F : SortedSet OrderSeq) :
    ({ b with filledOrders := F } : OrderBook).WellFormed :=
  ⟨h.sound.congr rfl rfl rfl, h.pendingSorted, h.pendingBelow, h.restingBelow, h.restingFirst,
    h.valid, h.restingGtc, h.uncrossed, h.fillBound⟩

lemma filter_split {α : Type} {P : α → Prop} [DecidablePred P] {pre post : List α}
    (hpre : ∀ a ∈ pre, ¬ P a) (hpost : ∀ a ∈ post, P a) :
    (pre ++ post).filter (fun a => ¬ P a) = pre ∧ (pre ++ post).filter (fun a => P a) = post := by
  have h1 : pre.filter (fun a => ¬ P a) = pre := List.filter_eq_self.mpr fun a ha => by
    simpa using hpre a ha
  have h2 : post.filter (fun a => ¬ P a) = [] := List.filter_eq_nil_iff.mpr fun a ha => by
    simpa using hpost a ha
  have h3 : pre.filter (fun a => P a) = [] := List.filter_eq_nil_iff.mpr fun a ha => by
    simpa using hpre a ha
  have h4 : post.filter (fun a => P a) = post := List.filter_eq_self.mpr fun a ha => by
    simpa using hpost a ha
  rw [List.filter_append, List.filter_append, h1, h2, h3, h4, List.append_nil, List.nil_append]
  exact ⟨rfl, rfl⟩

/-- An execution is a step, once the filled set is put back. -/
lemma Executed.stepped {b b' : OrderBook} {order : Order} {rest : List Order} {result : MatchResult}
    (hb : b.WellFormed) (hp : b.pendingOrders = order :: rest)
    (hx : ({ b with pendingOrders := rest } : OrderBook).Executed order result b')
    (hk : ¬ b.Killed order) :
    b.Stepped order { b' with filledOrders := b.filledOrders } := by
  have hbound := hb.fillBound
  rw [hp, List.length_cons] at hbound
  have hwf : b'.WellFormed := (hb.pop hp).execute hx (hb.head_valid hp) (hb.head_before hp)
    (hb.pendingBelow order (hp ▸ List.mem_cons_self)) hk hbound
  have hfills : (b.stepOut order).fills = b.fillsOf order := by
    rw [stepOut, if_neg hk]
    split_ifs <;> rfl
  have hcfg : SameConfig b { b' with filledOrders := b.filledOrders } :=
    ⟨hx.config.id, hx.config.nextSeq, hx.config.tickSize, hx.config.lotSize,
      hx.config.minNotional, hx.config.maxNotional, hx.config.feeRates⟩
  refine ⟨hwf.with_filled _, ?_, hcfg, ?_, ?_, ?_, rfl⟩
  · show b.pendingOrders = order :: b'.pendingOrders
    rw [hx.pending]
    exact hp
  · rw [hfills, fillsOf, length_fillsFrom]
    exact hx.nextFill
  · rw [if_neg hk]
    exact hx.makers
  · by_cases hz : (b.sweepOf order).left.toNat = 0
    · rw [if_pos (Or.inr hz)]
      exact (hx.filled hz).2.1
    · rw [if_neg (not_or.mpr ⟨hk, hz⟩), ownAfter]
      obtain ⟨-, ⟨pre, post, h1, h2, h3, h4⟩, -⟩ := hx.rested hz
      have h1' : b.resting order.side = pre ++ post := h1
      obtain ⟨hf1, hf2⟩ := filter_split (P := fun a : Price × RestingOrder =>
        order.side.Better order.price a.1) h3 h4
      rw [h1', hf1, hf2]
      exact h2

/-! ## The loop body -/

lemma pushFills_of_nodup {allFills fills : List Fill} (h : (allFills ++ fills).Nodup) :
    pushFills allFills fills = .ok (allFills ++ fills) := by
  induction fills generalizing allFills with
  | nil => simp [pushFills]; rfl
  | cons f fills ih =>
      have hnot : f ∉ allFills := by
        intro hmem
        rw [List.nodup_append] at h
        exact h.2.2 f hmem f List.mem_cons_self rfl
      have hc : (!allFills.contains f) = true := by simpa using hnot
      have hstep : pushFills allFills (f :: fills) = pushFills (allFills ++ [f]) fills := by
        simp only [pushFills, List.foldlM_cons, hc, Except.assert_true, Except.bind_ok]
      rw [hstep, ih (by simpa using h)]
      simp

/-- Fills that already carry smaller numbers than the book's counter do not repeat. -/
lemma nodup_append_fillsOf {b : OrderBook} {order : Order} {fills : List Fill}
    (hfill : b.nextFill.val + (b.resting order.side.opposite).length < 2 ^ 64)
    (hnd : fills.Nodup) (hold : ∀ f ∈ fills, f.fillSeq.val < b.nextFill.val) :
    (fills ++ b.fillsOf order).Nodup ∧
      ∀ f ∈ fills ++ b.fillsOf order, f.fillSeq.val < b.nextFill.val + (b.fillsOf order).length := by
  have hlen := (b.sweepOf_spec order).length_trades_le
  have hseqs : (b.fillsOf order).map (fun f => f.fillSeq.val)
      = List.range' b.nextFill.val (b.sweepOf order).trades.length :=
    fillSeq_fillsFrom order (by omega)
  have hmem : ∀ f ∈ b.fillsOf order, b.nextFill.val ≤ f.fillSeq.val ∧
      f.fillSeq.val < b.nextFill.val + (b.fillsOf order).length := by
    intro f hf
    have hin : f.fillSeq.val ∈ (b.fillsOf order).map (fun f => f.fillSeq.val) :=
      List.mem_map_of_mem hf
    rw [hseqs, List.mem_range'_1] at hin
    rw [fillsOf, length_fillsFrom]
    exact hin
  have hnd' : (b.fillsOf order).Nodup := by
    refine List.Nodup.of_map (fun f => f.fillSeq.val) ?_
    rw [hseqs]
    exact List.nodup_range'
  refine ⟨List.nodup_append.mpr ⟨hnd, hnd', fun f hf g hg heq => ?_⟩, fun f hf => ?_⟩
  · have h1 := hold f hf
    have h2 := (hmem g hg).1
    rw [heq] at h1
    omega
  · rcases List.mem_append.mp hf with hf | hf
    · have := hold f hf
      omega
    · exact (hmem f hf).2

/-- The accumulators after a step. -/
def MatchingAcc.add (acc : MatchingAcc) (b' : OrderBook) (out : StepOut) : MatchingAcc :=
  { book := { b' with filledOrders := acc.book.filledOrders.addAll out.filled }
    allFills := acc.allFills ++ out.fills
    restingOrderSeqs := acc.restingOrderSeqs.addAll out.resting
    expiredOrders := acc.expiredOrders.insertAll out.expired }

/-- The fills collected so far are distinct and carry earlier numbers. -/
def MatchingAcc.Fresh (acc : MatchingAcc) : Prop :=
  acc.allFills.Nodup ∧ ∀ f ∈ acc.allFills, f.fillSeq.val < acc.book.nextFill.val

/-- **The loop body performs one step** and does not trap. -/
lemma processPendingOrder_spec {acc : MatchingAcc} {order : Order} {rest : List Order}
    (hb : acc.book.WellFormed) (hp : acc.book.pendingOrders = order :: rest) (hf : acc.Fresh) :
    ∃ b', acc.book.Stepped order b' ∧
      processPendingOrder acc order.id = .ok (acc.add b' (acc.book.stepOut order)) ∧
      (acc.add b' (acc.book.stepOut order)).Fresh := by
  obtain ⟨b, allFills, restingOrderSeqs, expiredOrders⟩ := acc
  simp only at hb hp
  have hpop := hb.pop hp
  have hbound := hpop.fillSeq_lt order.side.opposite
  have hspec := matchOrder_spec (b := { b with pendingOrders := rest }) hpop.sound
    (validateOrder_eq_ok.mpr (hb.head_valid hp)) (hb.head_new hp) hbound
  rcases hspec with ⟨hfok, hleft, hmatch⟩ | ⟨hk, result, b', hmatch, hx⟩
  · have hk : b.Killed order := ⟨hfok, hleft⟩
    have hout : b.stepOut order = ⟨[], [], [], [(order.id,
        ⟨order.side, order.price, order.remainingQuantity⟩)]⟩ := by
      rw [stepOut, if_pos hk]
    refine ⟨{ b with pendingOrders := rest }, ?_, ?_, ?_⟩
    · refine ⟨hpop, hp, ⟨rfl, rfl, rfl, rfl, rfl, rfl, rfl⟩, ?_, ?_, ?_, rfl⟩
      · rw [hout]
        rfl
      · rw [if_pos hk]
        rfl
      · rw [if_pos (Or.inl hk)]
        rfl
    · simp only [processPendingOrder, hp, Except.expect_some, Except.bind_ok, decide_true,
        Except.assert_true, hmatch, hout, MatchingAcc.add, List.append_nil, SortedMap.addAll_nil,
        SortedMap.insertAll_cons, SortedMap.insertAll_nil]
    · simp only [hout, MatchingAcc.add, MatchingAcc.Fresh, List.append_nil]
      exact hf
  · have hk' : ¬ b.Killed order := hk
    have hst := hx.stepped hb hp hk'
    have hfills : (b.stepOut order).fills = b.fillsOf order := by
      rw [stepOut, if_neg hk']
      split_ifs <;> rfl
    obtain ⟨hnd, hlt⟩ := nodup_append_fillsOf hbound hf.1 hf.2
    have hpush : pushFills allFills (b.fillsOf order) = .ok (allFills ++ b.fillsOf order) :=
      pushFills_of_nodup hnd
    have hfr : (MatchingAcc.add ⟨b, allFills, restingOrderSeqs, expiredOrders⟩
        { b' with filledOrders := b.filledOrders } (b.stepOut order)).Fresh := by
      refine ⟨by simp only [MatchingAcc.add, hfills]; exact hnd, ?_⟩
      simp only [MatchingAcc.add, hfills]
      have hn := hst.nextFill
      rw [hfills] at hn
      rw [hn]
      exact hlt
    refine ⟨_, hst, ?_, hfr⟩
    by_cases hz : (b.sweepOf order).left.toNat = 0
    · obtain ⟨hres, -, hfilled⟩ := hx.filled hz
      change result = .filled (b.fillsOf order) at hres
      have hout : b.stepOut order = ⟨b.fillsOf order,
          (b.sweepOf order).consumed.map (·.2.id) ++ [order.id], [], []⟩ := by
        rw [stepOut, if_neg hk', if_pos hz]
      have hset : b.filledOrders.addAll ((b.sweepOf order).consumed.map (·.2.id) ++ [order.id])
          = b'.filledOrders := by
        rw [hfilled, SortedMap.addAll_append]
        rfl
      simp only [processPendingOrder, hp, Except.expect_some, Except.bind_ok, decide_true,
        Except.assert_true, hmatch, hres, MatchResult.restingOrderSeq, MatchResult.fills, hout,
        MatchingAcc.add, SortedMap.addAll_nil, SortedMap.insertAll_nil, hset, hpush]
    · obtain ⟨hres, -, hfilled⟩ := hx.rested hz
      change result = (if (b.fillsOf order).isEmpty then _ else _) at hres
      have hout : b.stepOut order = ⟨b.fillsOf order,
          (b.sweepOf order).consumed.map (·.2.id), [order.id], []⟩ := by
        rw [stepOut, if_neg hk', if_neg hz]
      have hset : b.filledOrders.addAll ((b.sweepOf order).consumed.map (·.2.id))
          = b'.filledOrders := hfilled.symm
      have hfl : result.fills = b.fillsOf order ∧ result.restingOrderSeq = some order.id := by
        rw [hres]
        split_ifs with hemp
        · exact ⟨(List.isEmpty_iff.mp hemp).symm, rfl⟩
        · exact ⟨rfl, rfl⟩
      have hnk : ∀ seq killed, result ≠ .killed seq killed := by
        intro seq killed
        rw [hres]
        split_ifs <;> simp
      have hbody : processPendingOrder ⟨b, allFills, restingOrderSeqs, expiredOrders⟩ order.id
          = (do
            let allFills ← pushFills allFills result.fills
            .ok ⟨b', allFills, restingOrderSeqs.insert order.id (), expiredOrders⟩) := by
        cases result with
        | killed seq killed => exact absurd rfl (hnk seq killed)
        | filled fills => exact absurd hfl.2 (by simp [MatchResult.restingOrderSeq])
        | resting seq =>
            simp only [processPendingOrder, hp, Except.expect_some, Except.bind_ok, decide_true,
              Except.assert_true, hmatch, hfl.2]
        | partiallyFilled fills seq =>
            simp only [processPendingOrder, hp, Except.expect_some, Except.bind_ok, decide_true,
              Except.assert_true, hmatch, hfl.2]
      rw [hbody, hfl.1]
      simp only [hpush, Except.bind_ok, hout, MatchingAcc.add, SortedMap.insertAll_nil, hset]
      rfl

/-! ## Batches -/

/-- A run of steps over the front of the pending queue. -/
inductive Chunk : OrderBook → List Order → StepOut → OrderBook → Prop
  | nil (b : OrderBook) : Chunk b [] StepOut.empty b
  | cons {b b₁ b' : OrderBook} {order : Order} {orders : List Order} {out : StepOut} :
      b.Stepped order b₁ → Chunk b₁ orders out b' →
      Chunk b (order :: orders) ((b.stepOut order).append out) b'

namespace Chunk

variable {b b' b'' : OrderBook} {orders orders' : List Order} {out out' : StepOut}

lemma append (h : Chunk b orders out b') (h' : Chunk b' orders' out' b'') :
    Chunk b (orders ++ orders') (out.append out') b'' := by
  induction h with
  | nil b => simpa using h'
  | cons hst _ ih =>
      rw [StepOut.append_assoc]
      exact Chunk.cons hst (ih h')

/-- **Batches are deterministic.** -/
theorem unique (h : Chunk b orders out b') : ∀ {out' b''}, Chunk b orders out' b'' →
    out' = out ∧ b'' = b' := by
  induction h with
  | nil b =>
      intro out' b'' h'
      cases h'
      exact ⟨rfl, rfl⟩
  | cons hst _ ih =>
      intro out' b'' h'
      cases h' with
      | cons hst' htl =>
          cases hst.unique hst'
          obtain ⟨rfl, rfl⟩ := ih htl
          exact ⟨rfl, rfl⟩

lemma pending (h : Chunk b orders out b') : b.pendingOrders = orders ++ b'.pendingOrders := by
  induction h with
  | nil b => rfl
  | cons hst _ ih => rw [hst.pending, ih, List.cons_append]

lemma config (h : Chunk b orders out b') : SameConfig b b' := by
  induction h with
  | nil b => exact SameConfig.refl b
  | cons hst _ ih => exact hst.config.trans ih

lemma wf (h : Chunk b orders out b') (hb : b.WellFormed) : b'.WellFormed := by
  induction h with
  | nil b => exact hb
  | cons hst _ ih => exact ih hst.wf

lemma filledOrders (h : Chunk b orders out b') : b'.filledOrders = b.filledOrders := by
  induction h with
  | nil b => rfl
  | cons hst _ ih => rw [ih, hst.filledOrders]

lemma nextFill (h : Chunk b orders out b') :
    b'.nextFill.val = b.nextFill.val + out.fills.length := by
  induction h with
  | nil b => rfl
  | cons hst _ ih =>
      rw [ih, hst.nextFill]
      simp only [StepOut.append, List.length_append]
      omega

end Chunk

/-- Two reports into one set of accumulators. -/
lemma MatchingAcc.add_add (acc : MatchingAcc) (b₁ b₂ : OrderBook) (out out' : StepOut) :
    (acc.add b₁ out).add b₂ out' = acc.add b₂ (out.append out') := by
  simp only [MatchingAcc.add, StepOut.append, SortedMap.addAll_append, SortedMap.insertAll_append,
    List.append_assoc]

lemma Stepped.with_filled {b b' : OrderBook} {order : Order} (h : b.Stepped order b')
    (F : SortedSet OrderSeq) :
    ({ b with filledOrders := F } : OrderBook).Stepped order { b' with filledOrders := F } :=
  ⟨h.wf.with_filled F, h.pending, ⟨h.config.id, h.config.nextSeq, h.config.tickSize,
    h.config.lotSize, h.config.minNotional, h.config.maxNotional, h.config.feeRates⟩,
    h.nextFill, h.makers, h.own, rfl⟩

/-- The loop of `process_pending_orders`, by induction on the orders it matches. -/
lemma processLoop_spec :
    ∀ (orders : List Order) {acc : MatchingAcc} {b : OrderBook} {F : SortedSet OrderSeq}
      {rest : List Order}, b.WellFormed → acc.book = { b with filledOrders := F } →
      b.pendingOrders = orders ++ rest → acc.Fresh →
      ∃ out b', Chunk b orders out b' ∧
        (orders.map Order.id).foldlM processPendingOrder acc = .ok (acc.add b' out)
  | [], acc, b, F, rest, _, hbook, _, _ => by
      refine ⟨StepOut.empty, b, Chunk.nil b, ?_⟩
      obtain ⟨book, allFills, restingOrderSeqs, expiredOrders⟩ := acc
      simp only at hbook
      subst hbook
      simp only [List.map_nil, List.foldlM_nil, MatchingAcc.add, StepOut.empty, List.append_nil,
        SortedMap.addAll_nil, SortedMap.insertAll_nil]
      rfl
  | order :: orders, acc, b, F, rest, hb, hbook, hp, hf => by
      have hp' : acc.book.pendingOrders = order :: (orders ++ rest) := by rw [hbook]; exact hp
      obtain ⟨b₁, hst, hstep, hfresh⟩ := processPendingOrder_spec
        (by rw [hbook]; exact hb.with_filled F) hp' hf
      -- The same step on the book without its filled set.
      have hst₀ : b.Stepped order { b₁ with filledOrders := b.filledOrders } := by
        have h := hst.with_filled b.filledOrders
        rw [hbook] at h
        exact h
      have hout : acc.book.stepOut order = b.stepOut order := by rw [hbook]; rfl
      have hpend : b₁.pendingOrders = orders ++ rest := by
        have h := hst.pending
        rw [hp'] at h
        exact (List.cons.inj h).2.symm
      obtain ⟨out, b', hchunk, hloop⟩ := processLoop_spec orders
        (b := { b₁ with filledOrders := b.filledOrders })
        hst₀.wf rfl hpend hfresh
      refine ⟨(b.stepOut order).append out, b', Chunk.cons hst₀ hchunk, ?_⟩
      rw [List.map_cons, List.foldlM_cons, hstep, Except.bind_ok, hloop, MatchingAcc.add_add, hout]

/-- **`process_pending_orders` on a well-formed book** matches the batch and never traps. -/
theorem processPendingOrders_spec {b : OrderBook} (hb : b.WellFormed)
    (hf : b.filledOrders = SortedSet.empty) {orders rest : List Order}
    (hp : b.pendingOrders = orders ++ rest) :
    ∃ out b', Chunk b orders out b' ∧
      b.processPendingOrders (orders.map Order.id) = .ok (out.output, b') := by
  have hfresh : MatchingAcc.Fresh ⟨b, [], SortedSet.empty, SortedMap.empty⟩ :=
    ⟨List.nodup_nil, fun f hmem => by cases hmem⟩
  obtain ⟨out, b', hchunk, hloop⟩ := processLoop_spec orders (F := b.filledOrders) hb rfl hp hfresh
  refine ⟨out, b', hchunk, ?_⟩
  have hb' : ({ b' with filledOrders := SortedSet.empty } : OrderBook) = b' := by
    have h := hchunk.filledOrders
    rw [hf] at h
    cases b'
    simp only at h
    rw [h]
  have hdisj : ∀ R F : SortedSet OrderSeq, ((R.filter fun seq _ => !F.contains seq).keys.all
      fun seq => !F.contains seq) = true := by
    intro R F
    rw [List.all_eq_true]
    intro seq hseq
    rw [SortedMap.mem_keys_iff, SortedMap.get_filter] at hseq
    obtain ⟨u, hu⟩ := Option.isSome_iff_exists.mp hseq
    exact (Option.filter_eq_some_iff.mp hu).2
  simp only [processPendingOrders, hloop, Except.bind_ok, MatchingAcc.add, hf, hdisj,
    Except.assert_true, List.nil_append, StepOut.output]
  exact congrArg (fun x => Except.ok (_, x)) hb'

/-- **Batches concatenate.**  Matching two runs of the queue one after the other is matching them
together. -/
theorem processPendingOrders_append {b : OrderBook} (hb : b.WellFormed)
    (hf : b.filledOrders = SortedSet.empty) {xs ys rest : List Order}
    (hp : b.pendingOrders = xs ++ ys ++ rest) :
    ∃ out₁ out₂ b₁ b₂,
      b.processPendingOrders (xs.map Order.id) = .ok (StepOut.output out₁, b₁) ∧
      b₁.processPendingOrders (ys.map Order.id) = .ok (StepOut.output out₂, b₂) ∧
      b.processPendingOrders (xs.map Order.id ++ ys.map Order.id)
        = .ok (StepOut.output (out₁.append out₂), b₂) := by
  obtain ⟨out₁, b₁, hc₁, h₁⟩ := processPendingOrders_spec hb hf
    (hp.trans (List.append_assoc xs ys rest))
  have hp₁ : b₁.pendingOrders = ys ++ rest := by
    have h := hc₁.pending
    rw [hp, List.append_assoc] at h
    exact (List.append_cancel_left h).symm
  obtain ⟨out₂, b₂, hc₂, h₂⟩ := processPendingOrders_spec (hc₁.wf hb)
    (hc₁.filledOrders.trans hf) hp₁
  obtain ⟨out, b', hc, h⟩ := processPendingOrders_spec hb hf hp
  obtain ⟨rfl, rfl⟩ := (hc₁.append hc₂).unique hc
  rw [List.map_append] at h
  exact ⟨out₁, out₂, b₁, b', h₁, h₂, h⟩

end OrderBook

end OisyTrade
