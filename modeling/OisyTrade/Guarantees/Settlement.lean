import OisyTrade.Invariant.Moves
import OisyTrade.Script

/-!
# Settling exactly once

Every fill is settled exactly once and in order.  Besides the numbering of fills, the balance
operations themselves are followed through the canister: `produced` lists those that matching
rounds, kills and cancels have given rise to, computed from the book each of them met, and `applied`
those of the recorded settling events.  What is produced is what is applied and what is queued, and what
is applied is what has been posted to the balances.
-/

namespace OisyTrade

/-- The operations of a matching round, from the output of the book. -/
def MatchingOutput.operations (out : MatchingOutput) (rates : FeeRates) (scale : BaseScale) :
    List BalanceOperation :=
  (out.fills.flatMap fun f =>
    match FillSettlement.new f rates scale with
    | .ok settlement => settlement.balanceOperations
    | .error _ => [])
  ++ out.expiredOrders.entries.flatMap fun e =>
    match RemovedOrderSettlement.new e.1 e.2 scale with
    | .ok settlement => settlement.balanceOperations
    | .error _ => []

/-- **The operations that an event gives rise to** in a state. -/
def State.operationsOf (s : State) : EventType → List (OrderBookId × BalanceOperation)
  | .matching e =>
      match s.orderBooks.get e.bookId, s.baseScaleForBook e.bookId with
      | some b, .ok scale =>
          match b.processPendingOrders e.orders with
          | .ok (out, _) => (out.operations b.feeRates scale).map fun op => (e.bookId, op)
          | .error _ => []
      | _, _ => []
  | .cancelLimitOrder e =>
      match s.orderBooks.get e.orderId.bookId, s.baseScaleForBook e.orderId.bookId with
      | some b, .ok scale =>
          match b.removeOrder e.orderId.seq with
          | .ok (some (removed, _)) =>
              match RemovedOrderSettlement.new e.orderId.seq removed scale with
              | .ok settlement =>
                  settlement.balanceOperations.map fun op => (e.orderId.bookId, op)
              | .error _ => []
          | _ => []
      | _, _ => []
  | _ => []

/-- The operations of settling events. -/
def operationsIn (events : List SettlingEvent) : List (OrderBookId × BalanceOperation) :=
  events.flatMap fun e => e.balanceOperations.map fun op => (e.bookId, op)

namespace Canister

/-- All operations that rounds, kills and cancels have given rise to. -/
def produced (c : Canister) : List (OrderBookId × BalanceOperation) :=
  c.journal.flatMap fun entry => entry.1.operationsOf entry.2.payload

end Canister

lemma operationsIn_events (bookId : OrderBookId) (groups : List (List Piece)) :
    operationsIn (groups.map (eventOf bookId))
      = (groups.flatten.flatMap Piece.ops).map fun op => (bookId, op) := by
  induction groups with
  | nil => rfl
  | cons g groups ih =>
      rw [List.map_cons, operationsIn, List.flatMap_cons]
      rw [operationsIn] at ih
      rw [ih, List.flatten_cons, List.flatMap_append, List.map_append]
      rfl

/-- The pieces of a batch carry the operations of its output. -/
lemma operations_pieces {out : MatchingOutput} {rates : FeeRates} {scale : BaseScale}
    {fills : List FillSettlement} {refunds : List RemovedOrderSettlement}
    (hfills : List.Forall₂ (fun f st => FillSettlement.new f rates scale = .ok st) out.fills fills)
    (hrefunds : List.Forall₂ (fun e rs => RemovedOrderSettlement.new e.1 e.2 scale = .ok rs)
      out.expiredOrders.entries refunds) :
    (fills.map Piece.fill ++ refunds.map Piece.refund).flatMap Piece.ops
      = out.operations rates scale := by
  have h1 : ∀ {fs : List Fill} {sts : List FillSettlement},
      List.Forall₂ (fun f st => FillSettlement.new f rates scale = .ok st) fs sts →
      (sts.map Piece.fill).flatMap Piece.ops = fs.flatMap fun f =>
        match FillSettlement.new f rates scale with
        | .ok settlement => settlement.balanceOperations
        | .error _ => [] := by
    intro fs sts hall
    induction hall with
    | nil => rfl
    | cons hnew _ ih =>
        rw [List.map_cons, List.flatMap_cons, List.flatMap_cons, ih, hnew]
        rfl
  have h2 : ∀ {es : List (OrderSeq × RemovedOrder)} {rss : List RemovedOrderSettlement},
      List.Forall₂ (fun e rs => RemovedOrderSettlement.new e.1 e.2 scale = .ok rs) es rss →
      (rss.map Piece.refund).flatMap Piece.ops = es.flatMap fun e =>
        match RemovedOrderSettlement.new e.1 e.2 scale with
        | .ok settlement => settlement.balanceOperations
        | .error _ => [] := by
    intro es rss hall
    induction hall with
    | nil => rfl
    | cons hnew _ ih =>
        rw [List.map_cons, List.flatMap_cons, List.flatMap_cons, ih, hnew]
        rfl
  rw [List.flatMap_append, h1 hfills, h2 hrefunds]
  rfl

namespace State

variable {s s' : State}

lemma Matched.operationsOf {event : MatchingEvent} {now : Timestamp} {b b' : OrderBook}
    {orders : List Order} {out : OrderBook.StepOut} {pair : TradingPair} {scale : BaseScale}
    {fills : List FillSettlement} {refunds : List RemovedOrderSettlement}
    {groups : List (List Piece)}
    (h : s.Matched event.bookId now b b' orders out pair scale fills refunds groups s')
    (horders : event.orders = orders.map Order.id) (hs : s.Sound) :
    s.operationsOf (.matching event) = operationsIn (groups.map (eventOf event.bookId)) := by
  have hl := hs.wired.listed _ b h.book
  obtain ⟨out₁, b₁, hchunk, hproc⟩ :=
    OrderBook.processPendingOrders_spec hl.wf hl.drained h.chunk.pending
  obtain ⟨rfl, rfl⟩ := h.chunk.unique hchunk
  rw [operationsIn_events, h.pieces, operations_pieces h.settled h.refunded]
  simp only [State.operationsOf, h.book, baseScaleForBook_eq_ok.mpr ⟨pair, h.market⟩, horders, hproc]

lemma Canceled.operationsOf {event : CancelLimitOrderEvent} {now : Timestamp} {o : Order}
    {r r' : OrderRecord} {b b' : OrderBook} {pair : TradingPair} {scale : BaseScale}
    {refund : RemovedOrderSettlement}
    (h : s.Canceled event.orderId event.canceledBy now o r r' b b' pair scale refund s')
    (hs : s.Sound) :
    s.operationsOf (.cancelLimitOrder event)
      = operationsIn [eventOf event.orderId.bookId [.refund refund]] := by
  obtain ⟨-, -, ho, hid, -⟩ := h.standing hs
  obtain ⟨b₁, hrem, -⟩ := OrderBook.removeOrder_live (hs.wired.listed _ b h.book).wf ho
  rw [hid] at hrem
  rw [eventOf_refund]
  simp only [State.operationsOf, h.book, baseScaleForBook_eq_ok.mpr ⟨pair, h.market⟩, hrem,
    h.refunded, operationsIn, List.flatMap_singleton]

end State

namespace Canister

/-- **Operations are neither lost nor made up.** -/
def Conserved (c : Canister) : Prop :=
  c.produced.Perm (c.applied ++ operationsIn c.state.pendingSettlingEvents)

variable {c c' : Canister}

lemma Logged.produced {payload : EventType} {timestamp : Timestamp}
    (h : c.Logged payload timestamp c') :
    c'.produced = c.produced ++ c.state.operationsOf payload := by
  rw [Canister.produced, h.2, List.flatMap_append, List.flatMap_singleton]
  rfl

/-- The rule for events that neither produce nor apply operations. -/
lemma Conserved.of_log (h : c.Conserved)
    (hproduced : c'.produced = c.produced) (happlied : c'.applied = c.applied)
    (hqueue : c'.state.pendingSettlingEvents = c.state.pendingSettlingEvents) : c'.Conserved := by
  rw [Conserved, hproduced, happlied, hqueue]
  exact h

/-- The rule for events that queue what they produce. -/
lemma Conserved.of_queued (h : c.Conserved) {queued : List SettlingEvent}
    (hproduced : c'.produced = c.produced ++ operationsIn queued)
    (happlied : c'.applied = c.applied)
    (hqueue : c'.state.pendingSettlingEvents = c.state.pendingSettlingEvents ++ queued) :
    c'.Conserved := by
  rw [Conserved, hproduced, happlied, hqueue, operationsIn, operationsIn, List.flatMap_append,
    ← List.append_assoc]
  exact h.append_right _

lemma QuietLog.conserved (h : c.QuietLog c') (hc : c.Conserved)
    (hqueue : c'.state.pendingSettlingEvents = c.state.pendingSettlingEvents) : c'.Conserved := by
  obtain ⟨-, ⟨j, hj, hjournal⟩⟩ := id h
  refine hc.of_log ?_ h.applied hqueue
  · have hnil : j.flatMap (fun entry => entry.1.operationsOf entry.2.payload) = [] := by
      refine List.flatMap_eq_nil_iff.mpr fun e he => ?_
      have hq := hj e he
      cases hp : e.2.payload <;> rw [hp] at hq <;> first | rfl | cases hq
    rw [produced, hjournal, List.flatMap_append, hnil, List.append_nil]
    rfl

/-- **Every change conserves the operations.** -/
theorem Change.conserved (hs : c.state.Sound) (hc : c.Conserved) (h : c.Change c') :
    c'.Conserved := by
  cases h with
  | listed event timestamp hadmits hok hlog =>
      obtain ⟨_, -, -, -, -, -, -, -, hstate⟩ := State.recordTradingPair_eq_ok hok
      refine hc.of_log ?_ ?_ (by rw [hstate])
      · rw [hlog.produced]
        exact List.append_nil _
      · rw [hlog.applied]
        exact List.append_nil _
  | placed event _ _ _ _ _ _ _ _ _ _ h hlog =>
      refine hc.of_log ?_ ?_ (by rw [h.state])
      · rw [hlog.produced]
        exact List.append_nil _
      · rw [hlog.applied]
        exact List.append_nil _
  | canceled event _ _ _ _ _ _ _ _ refund _ h hlog =>
      have hqueue : c'.state.pendingSettlingEvents = c.state.pendingSettlingEvents
          ++ [eventOf event.orderId.bookId [.refund refund]] := by rw [h.state]
      exact hc.of_queued (by rw [hlog.produced, h.operationsOf hs])
        (by rw [hlog.applied]; exact List.append_nil _) hqueue
  | matched event _ _ _ _ _ _ _ _ _ groups _ horders _ h hlog =>
      have hqueue : c'.state.pendingSettlingEvents = c.state.pendingSettlingEvents
          ++ groups.map (eventOf event.bookId) := by rw [h.state]
      exact hc.of_queued (by rw [hlog.produced, h.operationsOf horders hs])
        (by rw [hlog.applied]; exact List.append_nil _) hqueue
  | settled before after event _ _ _ _ hqueue _ _ h hlog =>
      have hqueue' : c'.state.pendingSettlingEvents = before ++ after := by rw [h.state]
      have hproduced : c'.produced = c.produced := by
        rw [hlog.produced]
        exact List.append_nil _
      rw [Conserved, hproduced, hlog.applied, hqueue']
      show c.produced.Perm (c.applied ++ _ ++ operationsIn (before ++ after))
      rw [Conserved, hqueue, operationsIn, List.flatMap_append, List.flatMap_cons] at hc
      refine hc.trans ?_
      rw [operationsIn, List.flatMap_append, List.append_assoc]
      refine List.Perm.append_left _ ?_
      exact List.perm_append_comm_assoc _ _ _
  | credited _ _ _ _ hok hlog =>
      obtain ⟨_, _, _, -, -, hstate⟩ := State.deposit_eq_ok hok
      rcases hlog with hlog | ⟨timestamp, hlog⟩
      · refine hc.of_log ?_ ?_ (by rw [hstate])
        · rw [produced, hlog.2]
          rfl
        · rw [applied, hlog.1]
          rfl
      · refine hc.of_log ?_ ?_ (by rw [hstate])
        · rw [hlog.produced]
          exact List.append_nil _
        · rw [hlog.applied]
          exact List.append_nil _
  | debited _ _ _ hok hlog =>
      obtain ⟨_, _, -, -, hstate⟩ := State.withdraw_eq_ok hok
      refine hc.of_log ?_ ?_ (by rw [hstate])
      · rw [produced, hlog.2]
        rfl
      · rw [applied, hlog.1]
        rfl
  | frame h hlog => exact hlog.conserved hc h.queue

lemma conserved_init {arg : OisyTradeArg} {rt : Runtime} (hinit : init arg rt = .ok c) :
    c.Conserved := by
  obtain ⟨-, -, hjournal, -, -, -, -, -, hqueue, _, hevents⟩ := init_eq_ok hinit
  rw [Conserved, produced, applied, hjournal, hevents, hqueue]
  exact List.Perm.refl _

/-- **Every stored leg is one of the two legs of a recorded fill**, and both are stored. -/
def LegsRecorded (c : Canister) : Prop :=
  ∀ tid leg, c.state.tradeHistory.get tid = some leg → ∃ now event st now',
    ⟨now, .settling event⟩ ∈ c.events ∧ FillSettlement.fillEvent st ∈ event.fills ∧
    ((tid, leg) = st.takerLeg event.bookId now' ∨ (tid, leg) = st.makerLeg event.bookId now') ∧
    c.state.tradeHistory.get (st.takerLeg event.bookId now').1
      = some (st.takerLeg event.bookId now').2 ∧
    c.state.tradeHistory.get (st.makerLeg event.bookId now').1
      = some (st.makerLeg event.bookId now').2

/-- The rule for changes that settle nothing. -/
lemma LegsRecorded.mono (h : c.LegsRecorded) (htrades : c'.state.tradeHistory = c.state.tradeHistory)
    (hlog : ∃ new, c'.events = c.events ++ new) : c'.LegsRecorded := by
  obtain ⟨new, hnew⟩ := hlog
  intro tid leg hleg
  rw [htrades] at hleg ⊢
  obtain ⟨now, event, st, now', hmem, hst⟩ := h tid leg hleg
  exact ⟨now, event, st, now', by rw [hnew]; exact List.mem_append_left _ hmem, hst⟩

/-- **Every change keeps the legs recorded.** -/
theorem Change.legsRecorded (hc : c.LegsRecorded) (h : c.Change c') : c'.LegsRecorded := by
  cases h with
  | listed event timestamp hadmits hok hlog =>
      obtain ⟨_, -, -, -, -, -, -, -, hstate⟩ := State.recordTradingPair_eq_ok hok
      exact hc.mono (by rw [hstate]) ⟨_, hlog.1⟩
  | placed _ _ _ _ _ _ _ _ _ _ _ h hlog => exact hc.mono (by rw [h.state]) ⟨_, hlog.1⟩
  | canceled _ _ _ _ _ _ _ _ _ _ _ h hlog => exact hc.mono (by rw [h.state]) ⟨_, hlog.1⟩
  | matched _ _ _ _ _ _ _ _ _ _ _ _ _ _ h hlog => exact hc.mono (by rw [h.state]) ⟨_, hlog.1⟩
  | settled before after event timestamp pair scale pieces hqueue hfront hevent h hlog =>
      intro tid leg hleg
      have hevents : c'.events = c.events ++ [⟨timestamp, .settling event⟩] := hlog.1
      rcases h.get_trade.mp hleg with hold | ⟨st, hst, hkey⟩
      · obtain ⟨now, event₁, st, now', hmem, hfill, hkey, htaker, hmaker⟩ := hc tid leg hold
        refine ⟨now, event₁, st, now', ?_, hfill, hkey, h.get_trade.mpr (Or.inl htaker),
          h.get_trade.mpr (Or.inl hmaker)⟩
        rw [hevents]
        exact List.mem_append_left _ hmem
      · have hfill := State.fillEvent_mem event.bookId hst
        rw [← hevent] at hfill
        refine ⟨timestamp, event, st, timestamp, ?_, hfill, hkey,
          h.get_trade.mpr (Or.inr ⟨st, hst, Or.inl rfl⟩),
          h.get_trade.mpr (Or.inr ⟨st, hst, Or.inr rfl⟩)⟩
        rw [hevents]
        exact List.mem_append_right _ (List.mem_singleton.mpr rfl)
  | credited _ _ _ _ hok hlog =>
      obtain ⟨_, _, _, -, -, hstate⟩ := State.deposit_eq_ok hok
      refine hc.mono (by rw [hstate]) ?_
      rcases hlog with hlog | ⟨timestamp, hlog⟩
      · exact ⟨[], by rw [hlog.1, List.append_nil]⟩
      · exact ⟨_, hlog.1⟩
  | debited _ _ _ hok hlog =>
      obtain ⟨_, _, -, -, hstate⟩ := State.withdraw_eq_ok hok
      exact hc.mono (by rw [hstate]) ⟨[], by rw [hlog.1, List.append_nil]⟩
  | frame h hlog =>
      obtain ⟨⟨l, -, hevents⟩, -⟩ := hlog
      exact hc.mono h.tradeHistory ⟨l, hevents⟩

end Canister

namespace World

variable {w : World}

lemma Reachable.conserved (h : Reachable w) : w.canister.Conserved :=
  h.invariant (P := Canister.Conserved) (fun _ _ _ hinit => Canister.conserved_init hinit)
    fun _ _ hs hc hchange => hchange.conserved hs hc

lemma Reachable.legsRecorded (h : Reachable w) : w.canister.LegsRecorded := by
  refine h.invariant (P := Canister.LegsRecorded) (fun arg rt c hinit tid leg hleg => ?_)
    fun c c' hs hc hchange => hchange.legsRecorded hc
  obtain ⟨-, -, -, -, -, -, htrades, -⟩ := Canister.init_eq_ok hinit
  rw [htrades] at hleg
  cases hleg

/-- **Every run leaves a trail** from its first state, in which all balances are empty and nothing was
applied. -/
lemma Reachable.trail (h : Reachable w) : ∃ (c₀ : Canister) (moves : List Move),
    c₀.Trail moves w.canister ∧ c₀.state.Sound ∧ c₀.state.balances = TokenBalance.empty ∧
      c₀.applied = [] := by
  refine (h.invariant (P := fun c => c.state.Sound ∧ ∃ (c₀ : Canister) (moves : List Move),
      c₀.Trail moves c ∧ c₀.state.Sound ∧ c₀.state.balances = TokenBalance.empty ∧ c₀.applied = [])
    (fun arg rt c hinit => ?_) fun c c' hs hc hchange => ?_).2
  · obtain ⟨hs, -, -, -, hbalances, -, -, -, -, _, hevents⟩ := Canister.init_eq_ok hinit
    refine ⟨hs, c, [], .refl, hs, hbalances, ?_⟩
    rw [Canister.applied, hevents]
    rfl
  · obtain ⟨-, c₀, moves, htrail, h₀⟩ := hc
    obtain ⟨step, hshift, -⟩ := hchange.shift hs
    exact ⟨(hchange.sound hs).1, c₀, moves ++ step, htrail.tail hchange hshift, h₀⟩

/-- **The fills of a book up to `k` are settled, the others queued.** -/
structure SettledUpTo (w : World) (id : OrderBookId) (b : OrderBook) (k : ℕ) : Prop where
  le : k ≤ b.nextFill.val
  legs : ∀ i < k, ∃ (seq : FillSeq) (taker maker : OrderSeq) (takerLeg makerLeg : TradeRecord),
    seq.val = i ∧ taker ≠ maker ∧
    w.canister.state.tradeHistory.get (.new (.new id taker) seq) = some takerLeg ∧
    w.canister.state.tradeHistory.get (.new (.new id maker) seq) = some makerLeg ∧
    takerLeg.isMaker = false ∧ makerLeg.isMaker = true ∧
    (∃ now event fill, ⟨now, .settling event⟩ ∈ w.canister.events ∧ event.bookId = id ∧
      fill ∈ event.fills ∧ fill.fillSeq = seq ∧ fill.takerOrderSeq = taker ∧
      fill.makerOrderSeq = maker) ∧
    ∀ tid, (w.canister.state.tradeHistory.get tid).isSome → tid.orderId.bookId = id →
      tid.seq = seq → tid = .new (.new id taker) seq ∨ tid = .new (.new id maker) seq
  noOther : ∀ tid, (w.canister.state.tradeHistory.get tid).isSome → tid.orderId.bookId = id →
    tid.seq.val < k
  queued : (queuedFills w.canister.state.pendingSettlingEvents id).map (fun f => f.fillSeq.val)
    = List.range' k (b.nextFill.val - k)
  together : ∀ event ∈ w.canister.state.pendingSettlingEvents, ∀ f ∈ event.fills,
    ∃ op ∈ event.balanceOperations, f.takerOrderSeq ∈ op.seqs ∧ f.makerOrderSeq ∈ op.seqs

/-- **The moves of a run**: those of its changes, from a first state with empty balances.  Among them
are the operations of the recorded settling events, each with the posting that the records give it, and
all balances are accounted for. -/
structure MovesOf (w : World) (moves : List Move) : Prop where
  trail : ∃ c₀ : Canister, c₀.state.balances = TokenBalance.empty ∧ c₀.Trail moves w.canister
  applied : moves.filterMap Move.operation = w.canister.applied
  postings : ∀ bookId op posting, .posted bookId op posting ∈ moves →
    ∃ pair scale, w.canister.state.Market bookId pair scale ∧
      posting = w.canister.state.posting bookId pair op
  accounted : Accounted TokenBalance.empty moves w.canister.state.balances

/-- The operations of a fill name its two orders together. -/
lemma exists_op_of_fill (st : FillSettlement) :
    ∃ op ∈ st.balanceOperations, st.fill.takerOrderSeq ∈ op.seqs ∧
      st.fill.makerOrderSeq ∈ op.seqs := by
  refine ⟨_, List.mem_append_left _ (List.mem_append_left _ (List.mem_singleton.mpr rfl)), ?_⟩
  cases st.fill.takerSide <;> simp [BalanceOperation.seqs]

/-- The legs of a settled fill are those of a recorded one. -/
lemma Reachable.recorded_fill (h : Reachable w) {id : OrderBookId} {st : FillSettlement}
    {now : Timestamp} (ht : w.canister.state.Trade id st now) :
    ∃ now event fill, ⟨now, .settling event⟩ ∈ w.canister.events ∧ event.bookId = id ∧
      fill ∈ event.fills ∧ fill.fillSeq = st.fill.fillSeq ∧
      fill.takerOrderSeq = st.fill.takerOrderSeq ∧ fill.makerOrderSeq = st.fill.makerOrderSeq := by
  obtain ⟨now₁, event, st₁, now', hmem, hfill, hkey, -, hmaker⟩ := h.legsRecorded _ _ ht.taker
  -- The stored taker leg says that it is one.
  have htaker : st.takerLeg id now = st₁.takerLeg event.bookId now' := by
    rcases hkey with hkey | hkey
    · exact hkey
    · have hflag := congrArg (fun leg : TradeLeg => leg.2.isMaker) hkey
      cases hflag
  obtain ⟨horder, hseq⟩ := TradeId.new_inj.mp (congrArg Prod.fst htaker)
  obtain ⟨hbook, horder⟩ := OrderId.new_inj.mp horder
  -- So its other leg is the maker leg, the only other one of this number.
  have hother : (st₁.makerLeg event.bookId now').1 = (st.makerLeg id now).1 := by
    have hsome : (w.canister.state.tradeHistory.get (st₁.makerLeg event.bookId now').1).isSome := by
      rw [hmaker]
      rfl
    rcases ht.only _ hsome hbook.symm hseq.symm with he | he
    · rw [he, ht.taker] at hmaker
      have hflag := congrArg TradeRecord.isMaker (Option.some.inj hmaker)
      cases hflag
    · exact he
  obtain ⟨hmakerOrder, -⟩ := TradeId.new_inj.mp hother
  exact ⟨now₁, event, _, hmem, hbook.symm, hfill, hseq.symm, horder.symm,
    (OrderId.new_inj.mp hmakerOrder).2⟩

/-- **Every fill is settled exactly once and in order**, as it was recorded; no operation is lost,
duplicated or applied twice, and what is applied is posted to the balances. -/
theorem Reachable.settled_once (h : Reachable w) :
    (∀ id b, w.canister.state.orderBooks.get id = some b → ∃ k, w.SettledUpTo id b k) ∧
      w.canister.produced.Perm
        (w.canister.applied ++ operationsIn w.canister.state.pendingSettlingEvents) ∧
      ∃ moves, w.MovesOf moves := by
  refine ⟨fun id b hb => ?_, h.conserved, ?_⟩
  · obtain ⟨k, hk⟩ := h.numbered.books id b hb
    refine ⟨k, hk.le, fun i hi => ?_, hk.below, hk.queued, fun event hev f hf => ?_⟩
    · obtain ⟨st, now, hst, ht⟩ := hk.settled i hi
      obtain ⟨pair, scale, t, m, hm, hp⟩ := ht.piece
      exact ⟨st.fill.fillSeq, st.fill.takerOrderSeq, st.fill.makerOrderSeq,
        (st.takerLeg id now).2, (st.makerLeg id now).2, hst, (ne_of_lt hp.earlier).symm, ht.taker,
        ht.maker, rfl, rfl, h.recorded_fill ht, ht.only⟩
    · obtain ⟨pair, scale, pieces, hm, he, hok⟩ := h.guarded.sound.queue event hev
      rw [he] at hf ⊢
      obtain ⟨st, hst, rfl⟩ := State.exists_piece_of_fill hf
      obtain ⟨op, hop, hseqs⟩ := exists_op_of_fill st
      exact ⟨op, List.mem_flatMap.mpr ⟨_, hst, hop⟩, hseqs⟩
  · obtain ⟨c₀, moves, htrail, hs, hbalances, happlied⟩ := h.trail
    refine ⟨moves, ⟨c₀, hbalances, htrail⟩, ?_, fun bookId op posting hmem => ?_, ?_⟩
    · rw [htrail.applied, happlied, List.nil_append]
    · exact (htrail.posting hs hmem).2
    · rw [← hbalances]
      exact htrail.accounted

/-- In the sample run one fill is settled and one is queued. -/
theorem settled_once_sampleWorld :
    (∃ b, sampleWorld.canister.state.orderBooks.get Seq.zero = some b ∧ b.nextFill.val = 2 ∧
      ∃ k, sampleWorld.SettledUpTo Seq.zero b k) ∧
      sampleWorld.canister.produced.length = 4 ∧ sampleWorld.canister.applied.length = 2 ∧
      ∃ moves, sampleWorld.MovesOf moves := by
  have hsome : (sampleWorld.canister.state.orderBooks.get Seq.zero).any
      (fun b => b.nextFill.val = 2) = true := by decide +kernel
  obtain ⟨b, hb, hp⟩ := (Option.any_eq_true _ _).mp hsome
  refine ⟨⟨b, hb, of_decide_eq_true hp, reachable_sampleWorld.settled_once.1 _ b hb⟩, ?_, ?_,
    reachable_sampleWorld.settled_once.2.2⟩
  · decide +kernel
  · decide +kernel

end World

end OisyTrade
