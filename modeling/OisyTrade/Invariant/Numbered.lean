import OisyTrade.Invariant.Settling
import OisyTrade.Invariant.Reach

/-!
# Fills are numbered without a gap

A book numbers its fills.  `Numbering s id b k` says how far settling has come: the fills below `k`
are in the trade history with exactly their two legs (`Trade`), and those from `k` on wait in the
queue, in order.  Matching adds fills at the end of the queue, settling the head of the queue moves
`k` forward, and a cancel that overtakes the backlog settles an event without fills.
-/

namespace OisyTrade

/-- The fills of a book in a queue. -/
def queuedFills (queue : List SettlingEvent) (bookId : OrderBookId) : List FillEvent :=
  queue.flatMap fun e => if e.bookId = bookId then e.fills else []

lemma queuedFills_append (queue queue' : List SettlingEvent) (bookId : OrderBookId) :
    queuedFills (queue ++ queue') bookId = queuedFills queue bookId ++ queuedFills queue' bookId :=
  List.flatMap_append

lemma queuedFills_cons (e : SettlingEvent) (queue : List SettlingEvent) (bookId : OrderBookId) :
    queuedFills (e :: queue) bookId
      = (if e.bookId = bookId then e.fills else []) ++ queuedFills queue bookId := List.flatMap_cons

lemma queuedFills_eq_nil {queue : List SettlingEvent} {bookId : OrderBookId}
    (h : ∀ e ∈ queue, e.bookId ≠ bookId) : queuedFills queue bookId = [] := by
  refine List.flatMap_eq_nil_iff.mpr fun e he => ?_
  rw [if_neg (h e he)]

lemma queuedFills_events (bookId : OrderBookId) (groups : List (List Piece)) :
    queuedFills (groups.map (eventOf bookId)) bookId
      = groups.flatten.flatMap Piece.fillEvents := by
  induction groups with
  | nil => rfl
  | cons g groups ih =>
      have hbook : (eventOf bookId g).bookId = bookId := rfl
      rw [List.map_cons, queuedFills_cons, ih, List.flatten_cons, List.flatMap_append, if_pos hbook,
        eventOf_fills]

/-- Removing an event without fills leaves the queued fills as they are. -/
lemma queuedFills_remove {before after : List SettlingEvent} {event : SettlingEvent}
    (h : event.fills = []) (bookId : OrderBookId) :
    queuedFills (before ++ event :: after) bookId = queuedFills (before ++ after) bookId := by
  rw [queuedFills_append, queuedFills_append, queuedFills_cons, h, ite_self, List.nil_append]

lemma fillEvents_pieces (fills : List FillSettlement) (refunds : List RemovedOrderSettlement) :
    (fills.map Piece.fill ++ refunds.map Piece.refund).flatMap Piece.fillEvents
      = fills.map FillSettlement.fillEvent := by
  rw [List.flatMap_append, List.flatMap_map, List.flatMap_map]
  have h1 : fills.flatMap (fun st => Piece.fillEvents (.fill st))
      = fills.map FillSettlement.fillEvent := List.flatMap_pure_eq_map _ _
  have h2 : refunds.flatMap (fun rs => Piece.fillEvents (.refund rs)) = [] :=
    List.flatMap_eq_nil_iff.mpr fun _ _ => rfl
  rw [h1, h2, List.append_nil]

namespace State

variable {s s' : State} {bookId : OrderBookId}

/-- **A settled fill**: its two legs are in the trade history, and no other leg has its number. -/
structure Trade (s : State) (bookId : OrderBookId) (st : FillSettlement) (now : Timestamp) :
    Prop where
  piece : ∃ pair scale t m, s.Market bookId pair scale ∧ s.FillPiece bookId scale st t m
  taker : s.tradeHistory.get (st.takerLeg bookId now).1 = some (st.takerLeg bookId now).2
  maker : s.tradeHistory.get (st.makerLeg bookId now).1 = some (st.makerLeg bookId now).2
  only : ∀ id, (s.tradeHistory.get id).isSome → id.orderId.bookId = bookId →
    id.seq = st.fill.fillSeq → id = (st.takerLeg bookId now).1 ∨ id = (st.makerLeg bookId now).1

/-- **How far settling has come** in a book. -/
structure Numbering (s : State) (id : OrderBookId) (b : OrderBook) (k : ℕ) : Prop where
  le : k ≤ b.nextFill.val
  queued : (queuedFills s.pendingSettlingEvents id).map (fun f => f.fillSeq.val)
    = List.range' k (b.nextFill.val - k)
  below : ∀ tid, (s.tradeHistory.get tid).isSome → tid.orderId.bookId = id → tid.seq.val < k
  settled : ∀ i < k, ∃ st now, st.fill.fillSeq.val = i ∧ s.Trade id st now

/-- **Fills are numbered without a gap.** -/
structure Numbered (s : State) : Prop where
  listed : ∀ tid, (s.tradeHistory.get tid).isSome → (s.orderBooks.get tid.orderId.bookId).isSome
  books : ∀ id b, s.orderBooks.get id = some b → ∃ k, s.Numbering id b k

/-- A settled fill stays settled while the history gets only legs of other fills. -/
lemma Trade.mono {st : FillSettlement} {now : Timestamp} (h : s.Trade bookId st now)
    (hx : s.Extends s')
    (hkept : ∀ id leg, s.tradeHistory.get id = some leg → s'.tradeHistory.get id = some leg)
    (hnew : ∀ id, (s'.tradeHistory.get id).isSome → (s.tradeHistory.get id).isSome ∨
      id.orderId.bookId ≠ bookId ∨ id.seq ≠ st.fill.fillSeq) : s'.Trade bookId st now := by
  obtain ⟨pair, scale, t, m, hm, hp⟩ := h.piece
  obtain ⟨t', m', hp', -⟩ := hp.mono hx
  refine ⟨⟨pair, scale, t', m', hx.market hm, hp'⟩, hkept _ _ h.taker, hkept _ _ h.maker,
    fun id hid hbook hseq => ?_⟩
  rcases hnew id hid with hold | hne | hne
  · exact h.only id hold hbook hseq
  · exact absurd hbook hne
  · exact absurd hseq hne

/-- The rule for changes without fills. -/
lemma Numbering.mono {b b' : OrderBook} {k : ℕ} (h : s.Numbering bookId b k) (hx : s.Extends s')
    (hfill : b'.nextFill = b.nextFill) (htrades : s'.tradeHistory = s.tradeHistory)
    (hqueue : queuedFills s'.pendingSettlingEvents bookId
      = queuedFills s.pendingSettlingEvents bookId) : s'.Numbering bookId b' k := by
  refine ⟨by rw [hfill]; exact h.le, by rw [hqueue, hfill]; exact h.queued, ?_, fun i hi => ?_⟩
  · rw [htrades]
    exact h.below
  · obtain ⟨st, now, hst, ht⟩ := h.settled i hi
    refine ⟨st, now, hst, ht.mono hx (fun id leg hid => ?_) fun id hid => ?_⟩
    · rw [htrades]
      exact hid
    · rw [htrades] at hid
      exact Or.inl hid

/-- The rule for changes that replace one book and settle nothing. -/
lemma Numbered.of_book (h : s.Numbered) (hx : s.Extends s') {b b' : OrderBook}
    (hb : s.orderBooks.get bookId = some b)
    (hbooks : s'.orderBooks = s.orderBooks.insert bookId b')
    (htrades : s'.tradeHistory = s.tradeHistory)
    (hother : ∀ id, id ≠ bookId → queuedFills s'.pendingSettlingEvents id
      = queuedFills s.pendingSettlingEvents id)
    (hown : ∀ k, s.Numbering bookId b k → s'.Numbering bookId b' k) : s'.Numbered := by
  refine ⟨fun tid htid => ?_, fun id b₀ hb₀ => ?_⟩
  · rw [htrades] at htid
    rw [hbooks, SortedMap.get_insert]
    split_ifs
    · rfl
    · exact h.listed tid htid
  · rw [hbooks, SortedMap.get_insert] at hb₀
    split_ifs at hb₀ with he
    · cases hb₀
      subst he
      obtain ⟨k, hk⟩ := h.books _ b hb
      exact ⟨k, hown k hk⟩
    · obtain ⟨k, hk⟩ := h.books id b₀ hb₀
      exact ⟨k, hk.mono hx rfl htrades (hother id (Ne.symm he))⟩

/-- The rule for changes that touch neither books nor queue nor trades. -/
lemma Numbered.of_same (h : s.Numbered) (hx : s.Extends s') (hbooks : s'.orderBooks = s.orderBooks)
    (htrades : s'.tradeHistory = s.tradeHistory)
    (hqueue : s'.pendingSettlingEvents = s.pendingSettlingEvents) : s'.Numbered := by
  refine ⟨fun tid htid => ?_, fun id b hb => ?_⟩
  · rw [htrades] at htid
    rw [hbooks]
    exact h.listed tid htid
  · rw [hbooks] at hb
    obtain ⟨k, hk⟩ := h.books id b hb
    exact ⟨k, hk.mono hx rfl htrades (by rw [hqueue])⟩

/-! ## The changes -/

/-- A new pair starts without fills. -/
lemma Numbered.recordTradingPair {event : AddTradingPairEvent} (h : s.Numbered) (hs : s.Sound)
    (hx : s.Extends s') (hok : s.recordTradingPair event = .ok s') : s'.Numbered := by
  obtain ⟨_, -, -, -, hpair, hfree, -, -, hstate⟩ := recordTradingPair_eq_ok hok
  have hqueue : ∀ e ∈ s.pendingSettlingEvents, e.bookId ≠ event.bookId := by
    intro e he hbook
    obtain ⟨pair, scale, pieces, hm, -⟩ := hs.queue e he
    have hp : s.tradingPairs.byBook.get e.bookId = some pair := hm.pair
    rw [hbook, hpair] at hp
    cases hp
  have hkeys : ∀ tid, (s.tradeHistory.get tid).isSome → tid.orderId.bookId ≠ event.bookId := by
    intro tid htid hbook
    have hl := h.listed tid htid
    rw [hbook, hfree] at hl
    cases hl
  refine ⟨fun tid htid => ?_, fun id b hb => ?_⟩
  · rw [hstate] at htid ⊢
    show (SortedMap.get (SortedMap.insert _ _ _) _).isSome
    rw [SortedMap.get_insert_of_ne _ _ (hkeys tid htid).symm]
    exact h.listed tid htid
  · have hb' := hb
    rw [hstate] at hb'
    replace hb' : (s.orderBooks.insert event.bookId _).get id = some b := hb'
    rw [SortedMap.get_insert] at hb'
    split_ifs at hb' with he
    · cases hb'
      subst he
      refine ⟨0, Nat.zero_le _, ?_, fun tid htid hbook => ?_, fun i hi => absurd hi (Nat.not_lt_zero i)⟩
      · rw [hstate]
        show (queuedFills s.pendingSettlingEvents _).map _ = _
        rw [queuedFills_eq_nil hqueue]
        rfl
      · rw [hstate] at htid
        exact absurd hbook (hkeys tid htid)
    · obtain ⟨k, hk⟩ := h.books id b hb'
      exact ⟨k, hk.mono hx rfl (by rw [hstate]) (by rw [hstate])⟩

/-- **A batch numbers its fills after those of the queue.** -/
lemma Matched.numbered {now : Timestamp} {b b' : OrderBook} {orders : List Order}
    {out : OrderBook.StepOut} {pair : TradingPair} {scale : BaseScale}
    {fills : List FillSettlement} {refunds : List RemovedOrderSettlement}
    {groups : List (List Piece)}
    (h : s.Matched bookId now b b' orders out pair scale fills refunds groups s') (hs : s.Sound)
    (hn : s.Numbered) : s'.Numbered := by
  obtain ⟨-, hx⟩ := h.sound hs
  have hl := hs.wired.listed _ b h.book
  have hqueue : s'.pendingSettlingEvents
      = s.pendingSettlingEvents ++ groups.map (eventOf bookId) := by rw [h.state]
  have htrades : s'.tradeHistory = s.tradeHistory := by rw [h.state]
  have hseqs : ∀ {fs : List Fill} {sts : List FillSettlement},
      List.Forall₂ (fun f st => FillSettlement.new f b.feeRates scale = .ok st) fs sts →
      sts.map (fun st => st.fillEvent.fillSeq.val) = fs.map fun f => f.fillSeq.val := by
    intro fs sts hall
    induction hall with
    | nil => rfl
    | cons hnew _ ih =>
        rw [List.map_cons, List.map_cons, ih]
        exact congrArg (fun f : Fill => f.fillSeq.val :: _) (FillSettlement.of_new hnew).fill
  refine hn.of_book hx h.book (by rw [h.state]) htrades (fun id hne => ?_) fun k hk => ?_
  · have hnone : queuedFills (groups.map (eventOf bookId)) id = [] := by
      refine queuedFills_eq_nil fun e he => ?_
      obtain ⟨g, -, rfl⟩ := List.mem_map.mp he
      exact Ne.symm hne
    rw [hqueue, queuedFills_append, hnone, List.append_nil]
  · have hnext := h.chunk.nextFill
    refine ⟨by rw [hnext]; exact hk.le.trans (Nat.le_add_right _ _), ?_, ?_, fun i hi => ?_⟩
    · rw [hqueue, queuedFills_append, queuedFills_events, h.pieces, fillEvents_pieces,
        List.map_append, hk.queued, List.map_map]
      show _ ++ fills.map (fun st => st.fillEvent.fillSeq.val) = _
      have hlen : b'.nextFill.val - k = (b.nextFill.val - k) + out.fills.length := by
        have := hk.le
        omega
      rw [hseqs h.settled, h.chunk.fillSeqs hl.wf, hlen, ← List.range'_append_1,
        Nat.add_sub_cancel' hk.le]
    · rw [htrades]
      exact hk.below
    · obtain ⟨st, time, hst, ht⟩ := hk.settled i hi
      refine ⟨st, time, hst, ht.mono hx (fun id leg hid => ?_) fun id hid => ?_⟩
      · rw [htrades]
        exact hid
      · rw [htrades] at hid
        exact Or.inl hid

/-- The fill pieces of an event and its fills. -/
lemma exists_piece_of_fill {pieces : List Piece} {f : FillEvent}
    (hf : f ∈ (eventOf bookId pieces).fills) :
    ∃ st, Piece.fill st ∈ pieces ∧ st.fillEvent = f := by
  rw [eventOf_fills, List.mem_flatMap] at hf
  obtain ⟨p, hp, hmem⟩ := hf
  cases p with
  | fill st => exact ⟨st, hp, (List.mem_singleton.mp hmem).symm⟩
  | refund rs => cases hmem

lemma fillEvent_mem (bookId : OrderBookId) {pieces : List Piece} {st : FillSettlement}
    (h : Piece.fill st ∈ pieces) :
    st.fillEvent ∈ (eventOf bookId pieces).fills := by
  rw [eventOf_fills]
  exact List.mem_flatMap.mpr ⟨_, h, List.mem_singleton.mpr rfl⟩

/-- The legs that settling an event adds. -/
lemma mem_legs {now : Timestamp} {pieces : List Piece} {leg : TradeLeg} :
    leg ∈ (pieces.flatMap (s.pieceLegs bookId now)).map Prod.snd ↔
      ∃ st, Piece.fill st ∈ pieces ∧
        (leg = st.takerLeg bookId now ∨ leg = st.makerLeg bookId now) := by
  rw [List.mem_map]
  constructor
  · rintro ⟨⟨u, leg'⟩, hmem, rfl⟩
    obtain ⟨p, hp, hleg⟩ := List.mem_flatMap.mp hmem
    cases p with
    | fill st =>
        refine ⟨st, hp, ?_⟩
        simp only [pieceLegs, fillLegs, List.mem_cons, Prod.mk.injEq, List.not_mem_nil,
          or_false] at hleg
        exact hleg.imp And.right And.right
    | refund rs => cases hleg
  · rintro ⟨st, hp, rfl | rfl⟩
    · exact ⟨_, List.mem_flatMap.mpr ⟨_, hp, List.mem_cons_self⟩, rfl⟩
    · exact ⟨_, List.mem_flatMap.mpr ⟨_, hp, List.mem_cons_of_mem _ List.mem_cons_self⟩, rfl⟩

section Settling

variable {before after : List SettlingEvent} {event : SettlingEvent} {now : Timestamp}
  {pair : TradingPair} {scale : BaseScale} {pieces : List Piece}

/-- The keys of the trade history after settling an event. -/
lemma Settled.get_trade {queue : List SettlingEvent}
    (h : s.Settled queue bookId now pair scale pieces s') {tid : TradeId} {leg : TradeRecord} :
    s'.tradeHistory.get tid = some leg ↔ s.tradeHistory.get tid = some leg ∨
      ∃ st, Piece.fill st ∈ pieces ∧
        ((tid, leg) = st.takerLeg bookId now ∨ (tid, leg) = st.makerLeg bookId now) := by
  rw [TradeHistory.get_insertLegs h.trades, mem_legs]

/-- **Settling an event without fills** moves no numbering. -/
lemma Settled.numbered_refunds
    (h : s.Settled (before ++ after) event.bookId now pair scale pieces s') (hx : s.Extends s')
    (hqueue : s.pendingSettlingEvents = before ++ event :: after)
    (hevent : event = eventOf event.bookId pieces) (hfills : event.fills = [])
    (hn : s.Numbered) : s'.Numbered := by
  have hnone : ∀ st, Piece.fill st ∉ pieces := by
    intro st hst
    have hmem := fillEvent_mem event.bookId hst
    rw [← hevent, hfills] at hmem
    cases hmem
  have hsame : ∀ tid, s'.tradeHistory.get tid = s.tradeHistory.get tid := by
    intro tid
    refine Option.ext fun leg => ?_
    rw [h.get_trade]
    exact ⟨fun hx => hx.resolve_right fun ⟨st, hst, _⟩ => hnone st hst, Or.inl⟩
  have hq : ∀ id, queuedFills s'.pendingSettlingEvents id
      = queuedFills s.pendingSettlingEvents id := by
    intro id
    rw [h.state, hqueue]
    exact (queuedFills_remove hfills id).symm
  have hbooks : s'.orderBooks = s.orderBooks := by rw [h.state]
  refine ⟨fun tid htid => ?_, fun id b hb => ?_⟩
  · rw [hsame] at htid
    rw [hbooks]
    exact hn.listed tid htid
  · rw [hbooks] at hb
    obtain ⟨k, hk⟩ := hn.books id b hb
    refine ⟨k, hk.le, by rw [hq]; exact hk.queued, fun tid htid => ?_, fun i hi => ?_⟩
    · rw [hsame] at htid
      exact hk.below tid htid
    · obtain ⟨st, time, hst, ht⟩ := hk.settled i hi
      refine ⟨st, time, hst, ht.mono hx (fun id leg hid => ?_) fun id hid => ?_⟩
      · rw [hsame]
        exact hid
      · rw [hsame] at hid
        exact Or.inl hid

/-- The fills of the event at the head of the queue are the next ones. -/
lemma Numbering.head {b : OrderBook} {k : ℕ} (hk : s.Numbering event.bookId b k)
    (hqueue : s.pendingSettlingEvents = event :: after) :
    k + event.fills.length ≤ b.nextFill.val ∧
      event.fills.map (fun f => f.fillSeq.val) = List.range' k event.fills.length ∧
      (queuedFills after event.bookId).map (fun f => f.fillSeq.val)
        = List.range' (k + event.fills.length) (b.nextFill.val - (k + event.fills.length)) := by
  have hq := hk.queued
  rw [hqueue, queuedFills_cons, if_pos rfl, List.map_append] at hq
  have hlen := congrArg List.length hq
  rw [List.length_append, List.length_map, List.length_map, List.length_range'] at hlen
  have hle := hk.le
  have hsplit : b.nextFill.val - k
      = event.fills.length + (b.nextFill.val - (k + event.fills.length)) := by omega
  rw [hsplit, ← List.range'_append_1] at hq
  obtain ⟨h1, h2⟩ := List.append_inj hq (by rw [List.length_map, List.length_range'])
  exact ⟨by omega, h1, h2⟩

/-- **Settling the head of the queue** moves the numbering of its book forward. -/
lemma Settled.numbering (h : s.Settled after event.bookId now pair scale pieces s')
    (hx : s.Extends s') (hqueue : s.pendingSettlingEvents = event :: after)
    (hevent : event = eventOf event.bookId pieces) {b : OrderBook} {k : ℕ}
    (hk : s.Numbering event.bookId b k) :
    s'.Numbering event.bookId b (k + event.fills.length) := by
  obtain ⟨hle, hfills, hrest⟩ := hk.head hqueue
  have hget : ∀ {tid leg}, s'.tradeHistory.get tid = some leg ↔ _ :=
    Settled.get_trade h
  have hseq : ∀ st, Piece.fill st ∈ pieces → st.fillEvent ∈ event.fills ∧
      k ≤ st.fill.fillSeq.val ∧ st.fill.fillSeq.val < k + event.fills.length := by
    intro st hst
    have hmem : st.fillEvent ∈ event.fills := by
      have := fillEvent_mem event.bookId hst
      rwa [← hevent] at this
    have hval : st.fill.fillSeq.val ∈ event.fills.map (fun f => f.fillSeq.val) :=
      List.mem_map.mpr ⟨_, hmem, rfl⟩
    rw [hfills, List.mem_range'_1] at hval
    exact ⟨hmem, hval⟩
  -- A key of the new history is an old one or belongs to a fill of the event.
  have hkey : ∀ tid, (s'.tradeHistory.get tid).isSome → (s.tradeHistory.get tid).isSome ∨
      ∃ st, Piece.fill st ∈ pieces ∧ tid.seq = st.fill.fillSeq ∧
        (tid = (st.takerLeg event.bookId now).1 ∨ tid = (st.makerLeg event.bookId now).1) := by
    intro tid htid
    obtain ⟨leg, hleg⟩ := Option.isSome_iff_exists.mp htid
    rcases hget.mp hleg with hold | ⟨st, hst, he | he⟩
    · exact Or.inl (by rw [hold]; rfl)
    · have he := congrArg Prod.fst he
      exact Or.inr ⟨st, hst, congrArg TradeId.seq he, Or.inl he⟩
    · have he := congrArg Prod.fst he
      exact Or.inr ⟨st, hst, congrArg TradeId.seq he, Or.inr he⟩
  refine ⟨hle, ?_, fun tid htid hbook => ?_, fun i hi => ?_⟩
  · rw [h.state]
    exact hrest
  · rcases hkey tid htid with hold | ⟨st, hst, hs, _⟩
    · exact (hk.below tid hold hbook).trans_le (Nat.le_add_right _ _)
    · rw [hs]
      exact (hseq st hst).2.2
  · by_cases hik : i < k
    · obtain ⟨st, time, hst, ht⟩ := hk.settled i hik
      refine ⟨st, time, hst, ht.mono hx (fun id leg hid => hget.mpr (Or.inl hid)) fun id hid => ?_⟩
      refine (hkey id hid).imp_right fun ⟨st', hst', hs, _⟩ => Or.inr fun he => ?_
      have hge := (hseq st' hst').2.1
      rw [← hs, he, hst] at hge
      exact absurd hge (Nat.not_le.mpr hik)
    · have hmem : i ∈ event.fills.map (fun f => f.fillSeq.val) := by
        rw [hfills, List.mem_range'_1]
        omega
      obtain ⟨f, hf, hfi⟩ := List.mem_map.mp hmem
      rw [hevent] at hf
      obtain ⟨st, hst, rfl⟩ := exists_piece_of_fill hf
      obtain ⟨t, m, hp⟩ := h.agrees _ hst
      obtain ⟨t', m', hp', -⟩ := hp.mono hx
      refine ⟨st, now, hfi, ⟨pair, scale, t', m', hx.market h.market, hp'⟩,
        hget.mpr (Or.inr ⟨st, hst, Or.inl rfl⟩), hget.mpr (Or.inr ⟨st, hst, Or.inr rfl⟩),
        fun tid htid hbook hs => ?_⟩
      rcases hkey tid htid with hold | ⟨st', hst', hs', hid⟩
      · have hlt := hk.below tid hold hbook
        rw [hs] at hlt
        exact absurd ((hseq st hst).2.1.trans_lt hlt) (Nat.lt_irrefl _)
      · -- Two fills of one event with the same number are the same fill.
        have hnd : (event.fills.map fun f => f.fillSeq.val).Nodup := by
          rw [hfills]
          exact List.nodup_range' ..
        have heq : st'.fillEvent = st.fillEvent :=
          List.inj_on_of_nodup_map hnd (hseq st' hst').1 (hseq st hst).1
            (congrArg Seq.val (hs'.symm.trans hs))
        have htaker : (st'.takerLeg event.bookId now).1 = (st.takerLeg event.bookId now).1 :=
          congrArg (fun f : FillEvent =>
            TradeId.new (OrderId.new event.bookId f.takerOrderSeq) f.fillSeq) heq
        have hmaker : (st'.makerLeg event.bookId now).1 = (st.makerLeg event.bookId now).1 :=
          congrArg (fun f : FillEvent =>
            TradeId.new (OrderId.new event.bookId f.makerOrderSeq) f.fillSeq) heq
        rw [← htaker, ← hmaker]
        exact hid

lemma Settled.numbered_head (h : s.Settled after event.bookId now pair scale pieces s')
    (hs : s.Sound) (hx : s.Extends s') (hqueue : s.pendingSettlingEvents = event :: after)
    (hevent : event = eventOf event.bookId pieces) (hn : s.Numbered) : s'.Numbered := by
  have hget : ∀ {tid leg}, s'.tradeHistory.get tid = some leg ↔ _ :=
    Settled.get_trade h
  have hbooks : s'.orderBooks = s.orderBooks := by rw [h.state]
  -- New keys belong to the book of the event.
  have hkey : ∀ tid, (s'.tradeHistory.get tid).isSome → (s.tradeHistory.get tid).isSome ∨
      tid.orderId.bookId = event.bookId := by
    intro tid htid
    obtain ⟨leg, hleg⟩ := Option.isSome_iff_exists.mp htid
    rcases hget.mp hleg with hold | ⟨st, hst, he | he⟩
    · exact Or.inl (by rw [hold]; rfl)
    · exact Or.inr (congrArg (fun l : TradeLeg => l.1.orderId.bookId) he)
    · exact Or.inr (congrArg (fun l : TradeLeg => l.1.orderId.bookId) he)
  refine ⟨fun tid htid => ?_, fun id b hb => ?_⟩
  · rw [hbooks]
    rcases hkey tid htid with hold | hbook
    · exact hn.listed tid hold
    · rw [hbook]
      exact hs.wired.traded _ pair h.market.pair
  · rw [hbooks] at hb
    obtain ⟨k, hk⟩ := hn.books id b hb
    by_cases hid : event.bookId = id
    · subst hid
      exact ⟨_, h.numbering hx hqueue hevent hk⟩
    · refine ⟨k, hk.le, ?_, fun tid htid hbook => ?_, fun i hi => ?_⟩
      · have hq := hk.queued
        rw [hqueue, queuedFills_cons, if_neg hid, List.nil_append] at hq
        rw [h.state]
        exact hq
      · rcases hkey tid htid with hold | hbook'
        · exact hk.below tid hold hbook
        · exact absurd (hbook'.symm.trans hbook) hid
      · obtain ⟨st, time, hst, ht⟩ := hk.settled i hi
        refine ⟨st, time, hst, ht.mono hx (fun id leg hid => hget.mpr (Or.inl hid)) fun tid htid => ?_⟩
        refine (hkey tid htid).imp_right fun hbook => Or.inl fun he => hid (hbook.symm.trans he)

end Settling

end State

/-- **Every change keeps the fills numbered.** -/
theorem Canister.Change.numbered {c c' : Canister} (hs : c.state.Sound) (hn : c.state.Numbered)
    (h : c.Change c') : c'.state.Numbered := by
  obtain ⟨-, hx⟩ := h.sound hs
  cases h with
  | listed event timestamp hadmits hok => exact hn.recordTradingPair hs hx hok
  | placed event _ order b b' pair scale uid required _ _ h =>
      refine hn.of_book hx h.book (by rw [h.state]) (by rw [h.state])
        (fun id _ => by rw [h.state]) fun k hk => ?_
      exact hk.mono hx (by rw [h.grown.state]) (by rw [h.state]) (by rw [h.state])
  | canceled event _ o r r' b b' pair scale refund _ h =>
      have hq : ∀ id, queuedFills c'.state.pendingSettlingEvents id
          = queuedFills c.state.pendingSettlingEvents id := by
        intro id
        have hqueue : c'.state.pendingSettlingEvents
            = c.state.pendingSettlingEvents ++ [eventOf event.orderId.bookId [.refund refund]] := by
          rw [h.state]
        have hnil : (eventOf event.orderId.bookId [.refund refund]).fills = [] := by
          rw [State.eventOf_refund]
        rw [hqueue, queuedFills_remove hnil, List.append_nil]
      exact hn.of_book hx h.book (by rw [h.state]) (by rw [h.state]) (fun id _ => hq id)
        fun k hk => hk.mono hx h.removed.nextFill (by rw [h.state]) (hq _)
  | matched _ _ _ _ _ _ _ _ _ _ _ _ _ _ h => exact h.numbered hs hn
  | settled before after event _ _ _ _ hqueue hfront hevent h =>
      rcases hfront with rfl | hfills
      · exact h.numbered_head hs hx hqueue hevent hn
      · exact h.numbered_refunds hx hqueue hevent hfills hn
  | credited _ _ _ _ hok =>
      obtain ⟨_, _, _, -, -, hstate⟩ := State.deposit_eq_ok hok
      exact hn.of_same hx (by rw [hstate]) (by rw [hstate]) (by rw [hstate])
  | debited _ _ _ hok =>
      obtain ⟨_, _, -, -, hstate⟩ := State.withdraw_eq_ok hok
      exact hn.of_same hx (by rw [hstate]) (by rw [hstate]) (by rw [hstate])
  | frame h => exact hn.of_same hx h.orderBooks h.tradeHistory h.queue

theorem World.Reachable.numbered {w : World} (h : w.Reachable) : w.canister.state.Numbered := by
  refine h.invariant (P := fun c => c.state.Numbered) (fun arg rt c hinit => ?_)
    fun c c' hs hn hchange => hchange.numbered hs hn
  obtain ⟨-, -, -, hbooks, -, -, htrades, -⟩ := Canister.init_eq_ok hinit
  refine ⟨fun tid htid => ?_, fun id b hb => ?_⟩
  · rw [htrades] at htid
    cases htid
  · rw [hbooks] at hb
    cases hb

end OisyTrade
