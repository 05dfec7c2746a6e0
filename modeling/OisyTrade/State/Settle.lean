import OisyTrade.State.Effects

/-!
# Settling an event

`record_settling_event` resolves the order sequences an event names to users, appends the trades of
its fills and applies its balance operations through the write-back buffer.

Every event is made of pieces: one for each fill and one for each removed order.  `PieceOk` says
what a piece has to do with the records of the orders it names, and `EventOk` that an event is made
of such pieces.  Under it an event resolves, its operations are the postings `posting` and its
trades are the legs `fillLegs` of its fills.
-/

namespace OisyTrade

/-! ## Resolving -/

namespace State

variable {s s' : State} {bookId : OrderBookId} {pair : TradingPair} {scale : BaseScale}
  {ops : List BalanceOperation} {seq : OrderSeq}

/-- The user behind an order. -/
def party (s : State) (bookId : OrderBookId) (seq : OrderSeq) : UserId :=
  ((s.orderHistory.get (.new bookId seq)).bind fun r => s.userRegistry.fundingId r.owner).getD
    Seq.zero

/-- The order is on record and its owner is registered. -/
def Known (s : State) (bookId : OrderBookId) (seq : OrderSeq) : Prop :=
  ∃ r uid, s.orderHistory.get (.new bookId seq) = some r ∧
    s.userRegistry.fundingId r.owner = some uid

lemma party_eq {r : OrderRecord} {uid : UserId}
    (hr : s.orderHistory.get (.new bookId seq) = some r)
    (hu : s.userRegistry.fundingId r.owner = some uid) : s.party bookId seq = uid := by
  rw [party, hr, Option.bind_some, hu, Option.getD_some]

lemma resolveOrder_eq_ok {order : ResolvedOrder}
    (h : resolveOrder bookId s.orderHistory s.userRegistry seq = .ok order) :
    ∃ r, s.orderHistory.get (.new bookId seq) = some r ∧
      s.userRegistry.fundingId r.owner = some (s.party bookId seq) ∧
      order = ⟨s.party bookId seq, r.side, r.price⟩ := by
  simp only [resolveOrder, Except.bind_eq_ok, Except.expect_eq_ok, Except.ok.injEq] at h
  obtain ⟨r, hr, o, ho, uid, rfl, rfl⟩ := h
  have hu := (UserRegistry.lookupFundingId_eq_ok ho).symm
  rw [party_eq hr hu]
  exact ⟨r, hr, hu, rfl⟩

lemma resolveOrder_returns (hs : s.userRegistry.Sound) (h : s.Known bookId seq) :
    ∃ order, resolveOrder bookId s.orderHistory s.userRegistry seq = .ok order := by
  obtain ⟨r, uid, hr, hu⟩ := h
  simp only [resolveOrder, hr, Except.expect_some, Except.bind_ok, hs.lookupFundingId, hu]
  exact ⟨_, rfl⟩

/-- The map holds the resolved order of each sequence. -/
def Resolves (s : State) (bookId : OrderBookId) (resolved : SortedMap OrderSeq ResolvedOrder)
    (seqs : List OrderSeq) : Prop :=
  ∀ seq ∈ seqs, ∃ r, s.orderHistory.get (.new bookId seq) = some r ∧
    s.userRegistry.fundingId r.owner = some (s.party bookId seq) ∧
    resolved.get seq = some ⟨s.party bookId seq, r.side, r.price⟩

/-- The loop of `resolve_op_orders`. -/
lemma resolveLoop_eq_ok :
    ∀ {keys : List OrderSeq} {m m' : SortedMap OrderSeq ResolvedOrder},
      keys.foldlM (fun (m : SortedMap OrderSeq ResolvedOrder) seq => do
        let order ← resolveOrder bookId s.orderHistory s.userRegistry seq
        .ok (m.insert seq order)) m = .ok m' →
      (∀ seq ∉ keys, m'.get seq = m.get seq) ∧ s.Resolves bookId m' keys
  | [], m, m', h => by
      cases h
      exact ⟨fun _ _ => rfl, fun _ hx => absurd hx List.not_mem_nil⟩
  | k :: keys, m, m', h => by
      rw [List.foldlM_cons] at h
      simp only [Except.bind_eq_ok, Except.ok.injEq] at h
      obtain ⟨_, ⟨order, horder, rfl⟩, hrest⟩ := h
      obtain ⟨h1, h2⟩ := resolveLoop_eq_ok hrest
      refine ⟨fun seq hseq => ?_, fun seq hseq => ?_⟩
      · rw [List.mem_cons, not_or] at hseq
        rw [h1 seq hseq.2, SortedMap.get_insert_of_ne _ _ (Ne.symm hseq.1)]
      · by_cases hin : seq ∈ keys
        · exact h2 seq hin
        · obtain rfl : seq = k := (List.mem_cons.mp hseq).resolve_right hin
          obtain ⟨r, hr, hu, rfl⟩ := resolveOrder_eq_ok horder
          refine ⟨r, hr, hu, ?_⟩
          rw [h1 seq hin, SortedMap.get_insert_self]

lemma mem_seqs_keys {l : List OrderSeq} : seq ∈ (SortedSet.empty.addAll l).keys ↔ seq ∈ l := by
  rw [SortedMap.mem_keys_iff]
  exact SortedMap.contains_addAll_empty

/-- **Resolving** finds the owner of every order that the operations name. -/
lemma resolveOpOrders_eq_ok {resolved : SortedMap OrderSeq ResolvedOrder}
    (h : resolveOpOrders bookId ops s.orderHistory s.userRegistry = .ok resolved) :
    s.Resolves bookId resolved (ops.flatMap BalanceOperation.seqs) := by
  obtain ⟨-, hres⟩ := resolveLoop_eq_ok h
  exact fun seq hseq => hres seq (mem_seqs_keys.mpr hseq)

/-- **Resolving returns** when every order that the operations name is known. -/
lemma resolveOpOrders_returns (hs : s.userRegistry.Sound)
    (h : ∀ seq ∈ ops.flatMap BalanceOperation.seqs, s.Known bookId seq) :
    ∃ resolved, resolveOpOrders bookId ops s.orderHistory s.userRegistry = .ok resolved := by
  have key : ∀ (keys : List OrderSeq) (m : SortedMap OrderSeq ResolvedOrder),
      (∀ seq ∈ keys, s.Known bookId seq) →
      ∃ m', keys.foldlM (fun (m : SortedMap OrderSeq ResolvedOrder) seq => do
        let order ← resolveOrder bookId s.orderHistory s.userRegistry seq
        .ok (m.insert seq order)) m = .ok m' := by
    intro keys
    induction keys with
    | nil => exact fun m _ => ⟨m, rfl⟩
    | cons k keys ih =>
        intro m hk
        obtain ⟨order, horder⟩ := resolveOrder_returns hs (hk k List.mem_cons_self)
        rw [List.foldlM_cons]
        simp only [horder, Except.bind_ok]
        exact ih _ fun seq hseq => hk seq (List.mem_cons_of_mem _ hseq)
  exact key _ _ fun seq hseq => h seq (mem_seqs_keys.mp hseq)

/-! ## Operations are postings -/

/-- The posting of an operation. -/
def posting (s : State) (bookId : OrderBookId) (pair : TradingPair) : BalanceOperation → Posting
  | .transfer fromOrder toOrder token amount fee =>
      .transfer (s.party bookId fromOrder) (s.party bookId toOrder) (pair.token token) amount
        (fee.getD Quantity.zero)
  | .unreserve order token amount =>
      .unreserve (s.party bookId order) (pair.token token) amount

/-- The postings of an event's operations. -/
def postings (s : State) (bookId : OrderBookId) (pair : TradingPair)
    (ops : List BalanceOperation) : List Posting := ops.map (s.posting bookId pair)

lemma applyOperation_eq {resolved : SortedMap OrderSeq ResolvedOrder} {op : BalanceOperation}
    (h : s.Resolves bookId resolved op.seqs) (wb : BalanceWriteBack) :
    applyOperation pair resolved wb op = wb.post (s.posting bookId pair op) := by
  cases op with
  | transfer fromOrder toOrder token amount fee =>
      obtain ⟨r, -, -, hf⟩ := h fromOrder (by simp [BalanceOperation.seqs])
      obtain ⟨r', -, -, ht⟩ := h toOrder (by simp [BalanceOperation.seqs])
      simp only [applyOperation, hf, ht, Except.expect_some, Except.bind_ok]
      rfl
  | unreserve order token amount =>
      obtain ⟨r, -, -, ho⟩ := h order (by simp [BalanceOperation.seqs])
      simp only [applyOperation, ho, Except.expect_some, Except.bind_ok]
      rfl

lemma applyOperations_eq {resolved : SortedMap OrderSeq ResolvedOrder} :
    ∀ {ops : List BalanceOperation}, s.Resolves bookId resolved (ops.flatMap BalanceOperation.seqs) →
      ∀ wb : BalanceWriteBack, ops.foldlM (applyOperation pair resolved) wb
        = (s.postings bookId pair ops).foldlM BalanceWriteBack.post wb
  | [], _, _ => rfl
  | op :: ops, h, wb => by
      rw [postings, List.map_cons, List.foldlM_cons, List.foldlM_cons,
        applyOperation_eq (s := s) fun seq hseq => h seq (by
          rw [List.flatMap_cons]
          exact List.mem_append_left _ hseq)]
      refine bind_congr fun wb' => ?_
      exact applyOperations_eq (fun seq hseq => h seq (by
        rw [List.flatMap_cons]
        exact List.mem_append_right _ hseq)) wb'

/-! ## What settling did -/

/-- **Settling an event**: the balances move by its postings, and its trades are appended. -/
lemma recordSettlingEvent_eq_ok {event : SettlingEvent} {timestamp : Timestamp}
    (h : s.recordSettlingEvent event timestamp .write = .ok s') :
    ∃ pair scale resolved tradeHistory balances, s.Market event.bookId pair scale ∧
      s.Resolves event.bookId resolved (event.balanceOperations.flatMap BalanceOperation.seqs) ∧
      event.fills.foldlM (appendTrade event.bookId resolved scale timestamp) s.tradeHistory
        = .ok tradeHistory ∧
      Posted s.balances (s.postings event.bookId pair event.balanceOperations) balances ∧
      s' = { s with tradeHistory, balances } := by
  simp only [recordSettlingEvent, Except.bind_eq_ok, Except.expect_eq_ok, Except.ok.injEq] at h
  obtain ⟨pair, hpair, scale, hscale, resolved, hres, trades, htrades, balances, hbal, rfl⟩ := h
  obtain ⟨pair', hm⟩ := baseScaleForBook_eq_ok.mp hscale
  obtain rfl : pair' = pair := Option.some.inj (hm.pair.symm.trans hpair)
  have hres' := resolveOpOrders_eq_ok hres
  refine ⟨pair', scale, resolved, trades, balances, hm, hres', htrades, ?_, rfl⟩
  simp only [TokenBalance.withWriteBack, Except.bind_eq_ok, Except.ok.injEq,
    applyOperations_eq hres'] at hbal
  obtain ⟨wb, hwb, rfl⟩ := hbal
  have hposted := (BalanceWriteBack.coherent_new s.balances).postAll_spec hwb
  rwa [BalanceWriteBack.flush_new] at hposted

end State

/-- Insert legs one by one. -/
def TradeHistory.insertLegs (h : TradeHistory) (legs : List (UserId × TradeLeg)) :
    Except Trap TradeHistory :=
  legs.foldlM (fun (h : TradeHistory) leg => h.insertOnce leg.1 leg.2.1 leg.2.2) h

lemma TradeHistory.insertLegs_append (h : TradeHistory) (legs legs' : List (UserId × TradeLeg)) :
    h.insertLegs (legs ++ legs') = h.insertLegs legs >>= fun h' => h'.insertLegs legs' := by
  rw [insertLegs, List.foldlM_append]
  rfl

lemma TradeHistory.indexed_insertLegs :
    ∀ {legs : List (UserId × TradeLeg)} {h h' : TradeHistory}, h.Indexed →
      h.insertLegs legs = .ok h' → h'.Indexed
  | [], h, h', hi, hok => by
      cases hok
      exact hi
  | leg :: legs, h, h', hi, hok => by
      rw [TradeHistory.insertLegs, List.foldlM_cons, Except.bind_eq_ok] at hok
      obtain ⟨h₁, h1, h2⟩ := hok
      exact TradeHistory.indexed_insertLegs (hi.insertOnce h1) h2

/-- Legs with new keys can be inserted while the map has room for them. -/
lemma TradeHistory.insertLegs_outcome :
    ∀ {legs : List (UserId × TradeLeg)} {h : TradeHistory}, h.Indexed →
      (legs.map fun leg => leg.2.1).Nodup → (∀ leg ∈ legs, h.get leg.2.1 = none) →
      (h.insertLegs legs).Outcome
        (fun e => e = .exhausted .stableMap ∧ legs ≠ [] ∧ 2 ^ 64 < h.primary.size + legs.length)
        fun h' => h.insertLegs legs = .ok h'
  | [], h, _, _, _ => rfl
  | leg :: legs, h, hi, hnd, hnew => by
      obtain ⟨hhead, htail⟩ := List.nodup_cons.mp hnd
      have hnone : h.primary.get leg.2.1 = none :=
        Option.map_eq_none_iff.mp (hnew leg List.mem_cons_self)
      rw [TradeHistory.insertLegs, List.foldlM_cons]
      refine Except.Outcome.bind ((History.insertOnce_outcome hi hnone).mono ?_ fun _ hx => hx)
        fun h₁ h1 => ?_
      · rintro e ⟨he, hsize⟩
        refine ⟨he, List.cons_ne_nil _ _, ?_⟩
        rw [List.length_cons]
        omega
      · have hget : ∀ l ∈ legs, h₁.get l.2.1 = none := by
          intro l hl
          rw [History.get_insertOnce h1, if_neg]
          · exact hnew l (List.mem_cons_of_mem _ hl)
          · exact fun he => hhead (List.mem_map.mpr ⟨l, hl, he.symm⟩)
        obtain ⟨seq, -, hk, -, heq⟩ := History.insertOnce_eq_ok h1
        have hsize : h₁.primary.size = h.primary.size + 1 := by
          rw [heq]
          exact SortedMap.size_insert_of_none _ _ hk
        refine (TradeHistory.insertLegs_outcome (hi.insertOnce h1) htail hget).mono ?_ ?_
        · rintro e ⟨he, -, hlt⟩
          refine ⟨he, List.cons_ne_nil _ _, ?_⟩
          rw [List.length_cons]
          omega
        · intro h' h2
          rw [h1]
          exact h2

/-- **Inserted legs are found**, next to what was there before. -/
lemma TradeHistory.get_insertLegs :
    ∀ {legs : List (UserId × TradeLeg)} {h h' : TradeHistory}, h.insertLegs legs = .ok h' →
      ∀ (id : TradeId) (r : TradeRecord),
        h'.get id = some r ↔ h.get id = some r ∨ (id, r) ∈ legs.map Prod.snd
  | [], h, h', hok, id, r => by
      cases hok
      simp
  | leg :: legs, h, h', hok, id, r => by
      rw [TradeHistory.insertLegs, List.foldlM_cons, Except.bind_eq_ok] at hok
      obtain ⟨h₁, h1, h2⟩ := hok
      have hnone := History.get_eq_none_of_insertOnce h1
      rw [TradeHistory.get_insertLegs h2, History.get_insertOnce h1, List.map_cons, List.mem_cons]
      split_ifs with he
      · subst he
        have hleg : some leg.2.2 = some r ↔ (leg.2.1, r) = leg.2 := by
          rw [Option.some.injEq, Prod.ext_iff]
          exact ⟨fun hx => ⟨rfl, hx.symm⟩, fun hx => hx.2.symm⟩
        rw [hleg, hnone]
        simp
      · have hne : (id, r) ≠ leg.2 := fun hx => he (congrArg Prod.fst hx).symm
        simp [hne]

lemma TradeHistory.size_insertLegs :
    ∀ {legs : List (UserId × TradeLeg)} {h h' : TradeHistory}, h.insertLegs legs = .ok h' →
      h'.primary.size = h.primary.size + legs.length
  | [], h, h', hok => by
      cases hok
      rfl
  | leg :: legs, h, h', hok => by
      rw [TradeHistory.insertLegs, List.foldlM_cons, Except.bind_eq_ok] at hok
      obtain ⟨h₁, h1, h2⟩ := hok
      obtain ⟨seq, -, hnone, -, rfl⟩ := History.insertOnce_eq_ok h1
      have hsize : (h.primary.insert leg.2.1 ⟨seq, leg.2.2⟩).size = h.primary.size + 1 :=
        SortedMap.size_insert_of_none _ _ hnone
      rw [TradeHistory.size_insertLegs h2, List.length_cons]
      show (h.primary.insert _ _).size + _ = _
      rw [hsize]
      omega

/-- A history has at most as many entries as there are numbers for them. -/
lemma TradeHistory.size_le_of_insertLegs :
    ∀ {legs : List (UserId × TradeLeg)} {h h' : TradeHistory}, h.insertLegs legs = .ok h' →
      h.primary.size ≤ 2 ^ 64 → h'.primary.size ≤ 2 ^ 64
  | [], h, h', hok, hle => by
      cases hok
      exact hle
  | leg :: legs, h, h', hok, _ => by
      rw [TradeHistory.insertLegs, List.foldlM_cons, Except.bind_eq_ok] at hok
      obtain ⟨h₁, h1, h2⟩ := hok
      obtain ⟨seq, hseq, hnone, -, rfl⟩ := History.insertOnce_eq_ok h1
      refine TradeHistory.size_le_of_insertLegs h2 ?_
      show (h.primary.insert _ _).size ≤ _
      rw [SortedMap.size_insert_of_none _ _ hnone, ← hseq]
      exact seq.isLt

/-- Sums over a history grow by the inserted legs. -/
lemma TradeHistory.sum_insertLegs (f : TradeId → TradeRecord → ℕ) :
    ∀ {legs : List (UserId × TradeLeg)} {h h' : TradeHistory}, h.insertLegs legs = .ok h' →
      h'.primary.sum (fun id e => f id e.record)
        = h.primary.sum (fun id e => f id e.record) + (legs.map fun leg => f leg.2.1 leg.2.2).sum
  | [], h, h', hok => by
      cases hok
      rfl
  | leg :: legs, h, h', hok => by
      rw [TradeHistory.insertLegs, List.foldlM_cons, Except.bind_eq_ok] at hok
      obtain ⟨h₁, h1, h2⟩ := hok
      obtain ⟨seq, -, hnone, -, rfl⟩ := History.insertOnce_eq_ok h1
      rw [TradeHistory.sum_insertLegs f h2, List.map_cons, List.sum_cons]
      show (h.primary.insert _ _).sum _ + _ = _
      rw [SortedMap.sum_insert_of_none _ _ _ hnone, Nat.add_assoc]

/-! ## Pieces of an event -/

/-- What an event is made of. -/
inductive Piece
  | fill (settlement : FillSettlement)
  | refund (settlement : RemovedOrderSettlement)

/-- The settlement unit of a piece. -/
def Piece.unit : Piece → SettlementUnit
  | fill settlement => settlement.unit
  | refund settlement => settlement.unit

/-- The operations of a piece. -/
def Piece.ops : Piece → List BalanceOperation
  | fill settlement => settlement.balanceOperations
  | refund settlement => settlement.balanceOperations

/-- The event made of some pieces. -/
def eventOf (bookId : OrderBookId) (pieces : List Piece) : SettlingEvent :=
  { bookId, balanceOperations := pieces.flatMap Piece.ops
    fills := pieces.flatMap fun
      | .fill settlement => [settlement.fillEvent]
      | .refund _ => [] }

/-- The fills of a piece. -/
def Piece.fillEvents : Piece → List FillEvent
  | fill settlement => [settlement.fillEvent]
  | refund _ => []

lemma eventOf_fills (bookId : OrderBookId) (pieces : List Piece) :
    (eventOf bookId pieces).fills = pieces.flatMap Piece.fillEvents := by
  show pieces.flatMap _ = _
  refine congrArg (List.flatMap · pieces) (funext fun p => ?_)
  cases p <;> rfl

lemma settlingEventOf_units (bookId : OrderBookId) (pieces : List Piece) :
    State.settlingEventOf bookId (batchOf (pieces.map Piece.unit)) = eventOf bookId pieces := by
  have hops : ∀ p : Piece, p.unit.balanceOperations = p.ops := fun p => by cases p <;> rfl
  have hfill : ∀ p : Piece, p.unit.fill.toList = match p with
      | .fill settlement => [settlement.fillEvent]
      | .refund _ => [] := fun p => by cases p <;> rfl
  simp only [State.settlingEventOf, batchOf, eventOf, List.flatMap_map, hops, hfill]

namespace State

/-- **A fill and the records of its two orders.** -/
structure FillPiece (s : State) (bookId : OrderBookId) (scale : BaseScale) (st : FillSettlement)
    (t m : OrderRecord) : Prop where
  new : FillSettlement.new st.fill st.feeRates scale = .ok st
  taker : s.orderHistory.get (.new bookId st.fill.takerOrderSeq) = some t
  maker : s.orderHistory.get (.new bookId st.fill.makerOrderSeq) = some m
  takerSide : st.fill.takerSide = t.side
  takerPrice : st.fill.takerPrice = t.price
  makerSide : m.side = t.side.opposite
  makerPrice : st.fill.makerPrice = m.price
  crosses : t.side.crosses t.price m.price = true
  earlier : st.fill.makerOrderSeq < st.fill.takerOrderSeq
  positive : 0 < st.fill.quantity.toNat

/-- **A refund and the record of its order**: what a canceled or expired order did not trade. -/
structure RefundPiece (s : State) (bookId : OrderBookId) (scale : BaseScale)
    (rs : RemovedOrderSettlement) (r : OrderRecord) : Prop where
  record : s.orderHistory.get (.new bookId rs.orderSeq) = some r
  removed : r.status = .canceled ∨ r.status = .expired
  new : ∃ q : Quantity, q.toNat + r.filledQuantity.toNat = r.quantity.toNat ∧ 0 < q.toNat ∧
    RemovedOrderSettlement.new rs.orderSeq ⟨r.side, r.price, q⟩ scale = .ok rs

/-- A piece agrees with the records of the orders it names. -/
def PieceOk (s : State) (bookId : OrderBookId) (scale : BaseScale) : Piece → Prop
  | .fill st => ∃ t m, s.FillPiece bookId scale st t m
  | .refund rs => ∃ r, s.RefundPiece bookId scale rs r

/-- An event is made of pieces that agree with the records. -/
def EventOk (s : State) (event : SettlingEvent) : Prop :=
  ∃ pair scale pieces, s.Market event.bookId pair scale ∧ event = eventOf event.bookId pieces ∧
    ∀ p ∈ pieces, s.PieceOk event.bookId scale p

variable {s s' : State} {bookId : OrderBookId} {pair : TradingPair} {scale : BaseScale}

/-- The legs of a fill, with the users they belong to. -/
def fillLegs (s : State) (bookId : OrderBookId) (timestamp : Timestamp) (st : FillSettlement) :
    List (UserId × TradeLeg) :=
  [(s.party bookId st.fill.takerOrderSeq, st.takerLeg bookId timestamp),
    (s.party bookId st.fill.makerOrderSeq, st.makerLeg bookId timestamp)]

/-- The legs of a piece. -/
def pieceLegs (s : State) (bookId : OrderBookId) (timestamp : Timestamp) :
    Piece → List (UserId × TradeLeg)
  | .fill st => s.fillLegs bookId timestamp st
  | .refund _ => []

/-- The orders that a fill's operations name. -/
lemma mem_seqs_balanceOperations (st : FillSettlement) (seq : OrderSeq) :
    seq ∈ st.balanceOperations.flatMap BalanceOperation.seqs ↔
      seq = st.fill.takerOrderSeq ∨ seq = st.fill.makerOrderSeq := by
  rw [FillSettlement.balanceOperations]
  cases hside : st.fill.takerSide <;> by_cases hz : st.surplus.isZero = true <;>
    simp [hz, BalanceOperation.seqs] <;> tauto

variable {resolved : SortedMap OrderSeq ResolvedOrder} {timestamp : Timestamp}

/-- **Rebuilding the trades of a fill** from its event gives the legs of the match. -/
lemma FillPiece.appendTrade_eq {st : FillSettlement} {t m : OrderRecord}
    (h : s.FillPiece bookId scale st t m)
    (hres : s.Resolves bookId resolved (st.balanceOperations.flatMap BalanceOperation.seqs))
    (history : TradeHistory) :
    appendTrade bookId resolved scale timestamp history st.fillEvent
      = history.insertLegs (s.fillLegs bookId timestamp st) := by
  obtain ⟨t', ht', -, hgt⟩ := hres st.fill.takerOrderSeq
    ((mem_seqs_balanceOperations st _).mpr (Or.inl rfl))
  obtain ⟨m', hm', -, hgm⟩ := hres st.fill.makerOrderSeq
    ((mem_seqs_balanceOperations st _).mpr (Or.inr rfl))
  obtain rfl : t' = t := Option.some.inj (ht'.symm.trans h.taker)
  obtain rfl : m' = m := Option.some.inj (hm'.symm.trans h.maker)
  have hlegs := FillSettlement.tradeLegs_fillEvent h.new bookId timestamp
  rw [h.takerSide, h.makerPrice] at hlegs
  have hgt' : resolved.get st.fillEvent.takerOrderSeq = some _ := hgt
  have hgm' : resolved.get st.fillEvent.makerOrderSeq = some _ := hgm
  simp only [appendTrade, hgt', hgm', Except.expect_some, Except.bind_ok, hlegs]
  rw [TradeHistory.append, TradeHistory.insertLegs, fillLegs, List.foldlM_cons]
  refine bind_congr fun h' => ?_
  rw [List.foldlM_cons]
  cases h'.insertOnce (s.party bookId st.fill.makerOrderSeq) (st.makerLeg bookId timestamp).1
    (st.makerLeg bookId timestamp).2 <;> rfl

/-- The trade loop of an event inserts the legs of its pieces. -/
lemma appendTrades_eq :
    ∀ {pieces : List Piece}, (∀ p ∈ pieces, s.PieceOk bookId scale p) →
      s.Resolves bookId resolved ((pieces.flatMap Piece.ops).flatMap BalanceOperation.seqs) →
      ∀ history : TradeHistory,
        (eventOf bookId pieces).fills.foldlM (appendTrade bookId resolved scale timestamp) history
          = history.insertLegs (pieces.flatMap (s.pieceLegs bookId timestamp))
  | [], _, _, _ => rfl
  | p :: pieces, hok, hres, history => by
      rw [List.flatMap_cons, List.flatMap_append] at hres
      have hhead : s.Resolves bookId resolved (p.ops.flatMap BalanceOperation.seqs) :=
        fun seq hseq => hres seq (List.mem_append_left _ hseq)
      have hrest := appendTrades_eq
        (fun q hq => hok q (List.mem_cons_of_mem _ hq))
        (fun seq hseq => hres seq (List.mem_append_right _ hseq))
      cases p with
      | refund rs => exact hrest history
      | fill st =>
          obtain ⟨t, m, hfill⟩ := hok _ List.mem_cons_self
          have hfills : (eventOf bookId (.fill st :: pieces)).fills
              = st.fillEvent :: (eventOf bookId pieces).fills := rfl
          rw [hfills, List.foldlM_cons, hfill.appendTrade_eq hhead, List.flatMap_cons,
            TradeHistory.insertLegs_append]
          exact bind_congr fun h' => hrest h'

/-- **Settling an event of such pieces.** -/
theorem EventOk.of_recordSettlingEvent {event : SettlingEvent} (hok : s.EventOk event)
    (h : s.recordSettlingEvent event timestamp .write = .ok s') :
    ∃ pair scale pieces tradeHistory balances, s.Market event.bookId pair scale ∧
      event = eventOf event.bookId pieces ∧ (∀ p ∈ pieces, s.PieceOk event.bookId scale p) ∧
      s.tradeHistory.insertLegs (pieces.flatMap (s.pieceLegs event.bookId timestamp))
        = .ok tradeHistory ∧
      Posted s.balances (s.postings event.bookId pair event.balanceOperations) balances ∧
      s' = { s with tradeHistory, balances } := by
  obtain ⟨pair, scale, resolved, trades, balances, hm, hres, htrades, hposted, rfl⟩ :=
    recordSettlingEvent_eq_ok h
  obtain ⟨pair', scale', pieces, hm', hev, hpieces⟩ := hok
  obtain ⟨rfl, rfl⟩ := hm.unique hm'
  refine ⟨pair', scale', pieces, trades, balances, hm, hev, hpieces, ?_, hposted, rfl⟩
  rw [← appendTrades_eq hpieces]
  · rw [← hev]
    exact htrades
  · rw [hev] at hres
    exact hres

end State

end OisyTrade
