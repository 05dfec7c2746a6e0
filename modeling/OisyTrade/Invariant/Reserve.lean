import OisyTrade.Invariant.Settling
import OisyTrade.Invariant.Reach
import Mathlib.Data.Nat.ModEq

/-!
# Reservations are backed

`Backed s` says that what a user has reserved in a token is the sum, over the user's orders with that
reserve token, of what the order's remaining quantity reserves while it is live (`liveReservation`)
and of what queued events will take from it (`queuedFrom`).

Every change of the canister keeps it.  Placing an order reserves exactly its reservation.
Canceling and matching only move amounts from the first part to the second: for a fill this is the
executed amount together with the price improvement, for a removed order the refund.  Settling an
event takes from the rows what it takes from the orders.
-/

namespace OisyTrade

/-! ## Reservations are additive -/

lemma reservation_add {side : Side} {price : Price} {scale : BaseScale} {x y : ℕ}
    (h : scale.get.toNat ∣ price.toNat * x) :
    reservation side price scale (x + y)
      = reservation side price scale x + reservation side price scale y := by
  cases side with
  | sell => rfl
  | buy =>
      rw [reservation, reservation, reservation, Nat.mul_add]
      exact Nat.add_div_of_dvd_right h

@[simp] lemma reservation_zero (side : Side) (price : Price) (scale : BaseScale) :
    reservation side price scale 0 = 0 := by
  cases side with
  | sell => rfl
  | buy => rw [reservation, Nat.mul_zero, Nat.zero_div]

/-- What the book holds for an order. -/
def OrderBook.reservedFor (b : OrderBook) (scale : BaseScale) (seq : OrderSeq) : ℕ :=
  (b.find seq).elim 0 fun o => reservation o.side o.price scale o.remainingQuantity.toNat

/-- What a queue takes from an order. -/
def queuedIn (queue : List SettlingEvent) (id : OrderId) (token : PairToken) : ℕ :=
  (queue.map fun e =>
    if e.bookId = id.bookId then takenFrom e.balanceOperations id.seq token else 0).sum

lemma queuedIn_append (queue queue' : List SettlingEvent) (id : OrderId) (token : PairToken) :
    queuedIn (queue ++ queue') id token = queuedIn queue id token + queuedIn queue' id token := by
  rw [queuedIn, List.map_append, List.sum_append]
  rfl

lemma queuedIn_cons (e : SettlingEvent) (queue : List SettlingEvent) (id : OrderId)
    (token : PairToken) : queuedIn (e :: queue) id token
      = (if e.bookId = id.bookId then takenFrom e.balanceOperations id.seq token else 0)
        + queuedIn queue id token := by
  rw [queuedIn, List.map_cons, List.sum_cons]
  rfl

lemma queuedIn_eq_zero {queue : List SettlingEvent} {id : OrderId} {token : PairToken}
    (h : ∀ e ∈ queue, e.bookId = id.bookId → takenFrom e.balanceOperations id.seq token = 0) :
    queuedIn queue id token = 0 := by
  rw [queuedIn, List.sum_eq_zero_iff]
  intro n hn
  obtain ⟨e, he, rfl⟩ := List.mem_map.mp hn
  split_ifs with hb
  · exact h e he hb
  · rfl

/-- What the events of one book take from an order of that book. -/
lemma queuedIn_events (bookId : OrderBookId) (groups : List (List Piece)) (seq : OrderSeq)
    (token : PairToken) :
    queuedIn (groups.map (eventOf bookId)) (.new bookId seq) token
      = (groups.flatten.map fun p => takenFrom p.ops seq token).sum := by
  induction groups with
  | nil => rfl
  | cons g groups ih =>
      have hbook : (eventOf bookId g).bookId = (OrderId.new bookId seq).bookId := rfl
      have hhead : takenFrom (eventOf bookId g).balanceOperations (OrderId.new bookId seq).seq token
          = (g.map fun p => takenFrom p.ops seq token).sum := takenFrom_flatMap Piece.ops g seq token
      rw [List.map_cons, queuedIn_cons, ih, List.flatten_cons, List.map_append, List.sum_append,
        if_pos hbook, hhead]

lemma queuedIn_events_of_ne {bookId : OrderBookId} {id : OrderId} (hne : bookId ≠ id.bookId)
    (groups : List (List Piece)) (token : PairToken) :
    queuedIn (groups.map (eventOf bookId)) id token = 0 := by
  refine queuedIn_eq_zero fun e he hb => ?_
  obtain ⟨g, -, rfl⟩ := List.mem_map.mp he
  exact absurd hb hne

namespace State

variable {s s' : State}

/-- What the book of an order holds for it. -/
def liveReservation (s : State) (id : OrderId) : ℕ :=
  match s.orderBooks.get id.bookId, s.baseScaleForBook id.bookId with
  | some b, .ok scale => b.reservedFor scale id.seq
  | _, _ => 0

/-- What queued events take from an order in its reserve token. -/
def queuedFrom (s : State) (id : OrderId) (r : OrderRecord) : ℕ :=
  queuedIn s.pendingSettlingEvents id (reserveToken r.side)

/-- The token that an order reserves. -/
def reserveTokenOf (s : State) (id : OrderId) (r : OrderRecord) : Option TokenId :=
  (s.tradingPairs.getPair id.bookId).map fun pair => pair.token (reserveToken r.side)

/-- The order belongs to the user and reserves the token. -/
def Reserves (s : State) (t : TokenId) (u : UserId) (id : OrderId) (r : OrderRecord) : Prop :=
  s.userRegistry.fundingId r.owner = some u ∧ s.reserveTokenOf id r = some t

instance (s : State) (t : TokenId) (u : UserId) (id : OrderId) (r : OrderRecord) :
    Decidable (s.Reserves t u id r) := inferInstanceAs (Decidable (_ ∧ _))

/-- What an order contributes to the reserved balance of a user in a token. -/
def backing (s : State) (t : TokenId) (u : UserId) (id : OrderId) (r : OrderRecord) : ℕ :=
  if s.Reserves t u id r then s.liveReservation id + s.queuedFrom id r else 0

/-- **Reserved balances are backed by orders.** -/
def Backed (s : State) : Prop :=
  ∀ t u, s.balances.reserved t u
    = s.orderHistory.primary.sum fun id e => s.backing t u id e.record

lemma liveReservation_eq {id : OrderId} {b : OrderBook} {pair : TradingPair} {scale : BaseScale}
    (hb : s.orderBooks.get id.bookId = some b) (hm : s.Market id.bookId pair scale) :
    s.liveReservation id = b.reservedFor scale id.seq := by
  rw [liveReservation, hb, baseScaleForBook_eq_ok.mpr ⟨pair, hm⟩]

lemma liveReservation_new {bookId : OrderBookId} {seq : OrderSeq} {b : OrderBook}
    {pair : TradingPair} {scale : BaseScale} (hb : s.orderBooks.get bookId = some b)
    (hm : s.Market bookId pair scale) :
    s.liveReservation (.new bookId seq) = b.reservedFor scale seq :=
  liveReservation_eq hb hm

/-- Whose order it is and what it reserves never changes. -/
lemma reserves_iff (hs : s.Sound) (hx : s.Extends s') {id : OrderId} {r r' : OrderRecord}
    (hr : s.orderHistory.get id = some r) (hev : r.Evolves r') (t : TokenId) (u : UserId) :
    s'.Reserves t u id r' ↔ s.Reserves t u id r := by
  obtain ⟨uid, hu⟩ := (hs.records id r hr).owner
  obtain ⟨b, hb, -⟩ := (hs.records id r hr).book
  obtain ⟨pair, scale, hm, -⟩ := (hs.wired.listed _ b hb).market
  have hu' := hx.registry _ _ hu
  have hm' := hx.market hm
  rw [Reserves, Reserves, reserveTokenOf, reserveTokenOf, hm.pair, hm'.pair, hev.owner, hev.side,
    hu, hu']

/-- The rule for changes that only move amounts between an order's two parts. -/
lemma Backed.of_terms (h : s.Backed) (hs : s.Sound) (hx : s.Extends s')
    (hkeys : ∀ id, (s'.orderHistory.get id).isSome ↔ (s.orderHistory.get id).isSome)
    (hreserved : ∀ t u, s'.balances.reserved t u = s.balances.reserved t u)
    (hterm : ∀ id r r', s.orderHistory.get id = some r → s'.orderHistory.get id = some r' →
      r.Evolves r' → s'.liveReservation id + s'.queuedFrom id r'
        = s.liveReservation id + s.queuedFrom id r) : s'.Backed := by
  intro t u
  rw [hreserved, h t u]
  refine SortedMap.sum_eq_of_get (fun id => ?_) fun id e e' he he' => ?_
  · have hk := hkeys id
    rw [History.get, History.get, Option.isSome_map, Option.isSome_map] at hk
    exact hk.symm
  · have hr : s.orderHistory.get id = some e.record := by rw [History.get, he]; rfl
    have hr' : s'.orderHistory.get id = some e'.record := by rw [History.get, he']; rfl
    obtain ⟨r', hr'', hev⟩ := hx.record hr
    obtain rfl : r' = e'.record := Option.some.inj (hr''.symm.trans hr')
    rw [backing, backing, hterm id _ _ hr hr' hev]
    simp only [reserves_iff hs hx hr hev]

/-- The rule for changes that leave orders, books and queue alone. -/
lemma Backed.of_same (h : s.Backed) (hs : s.Sound) (hx : s.Extends s')
    (horders : s'.orderHistory = s.orderHistory)
    (hbooks : ∀ id b, s.orderBooks.get id = some b → s'.orderBooks.get id = some b)
    (hqueue : s'.pendingSettlingEvents = s.pendingSettlingEvents)
    (hreserved : ∀ t u, s'.balances.reserved t u = s.balances.reserved t u) : s'.Backed := by
  refine h.of_terms hs hx (fun id => by rw [horders]) hreserved fun id r r' hr hr' hev => ?_
  obtain ⟨b, hb, -⟩ := (hs.records id r hr).book
  obtain ⟨pair, scale, hm, -⟩ := (hs.wired.listed _ b hb).market
  rw [liveReservation_eq hb hm, liveReservation_eq (hbooks _ b hb) (hx.market hm), queuedFrom,
    queuedFrom, hqueue, hev.side]

/-! ## Placing -/

/-- No queued event names an order that is not on record. -/
lemma Sound.queuedIn_unknown (hs : s.Sound) {id : OrderId} (hnone : s.orderHistory.get id = none)
    (token : PairToken) : queuedIn s.pendingSettlingEvents id token = 0 := by
  refine queuedIn_eq_zero fun event hev hbook => ?_
  obtain ⟨pair, scale, pieces, -, he, hok⟩ := hs.queue event hev
  rw [takenFrom, List.sum_eq_zero_iff]
  intro n hn
  obtain ⟨op, hop, rfl⟩ := List.mem_map.mp hn
  have hops : event.balanceOperations = pieces.flatMap Piece.ops :=
    congrArg SettlingEvent.balanceOperations he
  rw [hops] at hop
  have hopOk := opOk_of_pieces hs hok op hop
  rw [BalanceOperation.taken_eq, if_neg]
  rintro ⟨hsrc, -⟩
  obtain ⟨r, hr, -⟩ := hopOk.reserve
  rw [hsrc, hbook, OrderId.new_eta, hnone] at hr
  cases hr

/-- What placing does to the reserved balances. -/
lemma reserved_of_reserve {table table' : TokenBalance} {uid : UserId} {token : TokenId}
    {amount : Quantity} (h : table.reserve uid token amount = .ok (.ok (), table')) (t : TokenId)
    (u : UserId) : table'.reserved t u
      = table.reserved t u + if token = t ∧ uid = u then amount.toNat else 0 := by
  rcases table.reserve_spec uid token amount with ⟨-, e, he⟩ | ⟨he, -⟩ |
    ⟨table₁, b, he, hrow, -, hres⟩
  · rw [h] at he
    cases he
  · rw [h] at he
    cases he
  · rw [h] at he
    cases he
    rw [hrow.reserved]
    split_ifs with hk
    · obtain ⟨rfl, rfl⟩ := hk
      exact hres
    · rfl

lemma Placed.backed {bookId : OrderBookId} {order : Order} {user : Principal}
    {placedBy : Option Principal} {timestamp : Timestamp} {b b' : OrderBook} {pair : TradingPair}
    {scale : BaseScale} {uid : UserId} {required : Quantity}
    (h : s.Placed bookId order user placedBy timestamp b b' pair scale uid required s')
    (hs : s.Sound) (hb : s.Backed) : s'.Backed := by
  obtain ⟨hs', hx⟩ := h.sound hs
  have hwf := (hs.wired.listed _ b h.book).wf
  have hnew := History.get_eq_none_of_insertOnce h.history
  obtain ⟨seq, -, hprimary, -, hhist⟩ := History.insertOnce_eq_ok h.history
  have hqueue : s'.pendingSettlingEvents = s.pendingSettlingEvents := by rw [h.state]
  have hbooks : s'.orderBooks = s.orderBooks.insert bookId b' := by rw [h.state]
  intro t u
  have hsum : s'.orderHistory.primary.sum (fun id e => s'.backing t u id e.record)
      = s.orderHistory.primary.sum (fun id e => s.backing t u id e.record)
        + s'.backing t u (.new bookId order.id) (newRecord user order placedBy timestamp) := by
    rw [hhist]
    show (s.orderHistory.primary.insert _ _).sum _ = _
    rw [SortedMap.sum_insert_of_none _ _ _ hprimary]
    refine congrArg (· + _) (SortedMap.sum_congr fun id e he => ?_)
    have hr : s.orderHistory.get id = some e.record := by rw [History.get, he]; rfl
    rw [backing, backing]
    simp only [reserves_iff hs hx hr (OrderRecord.Evolves.refl _)]
    -- An older order sees the same book entry and the same queue.
    obtain ⟨b₀, hb₀, -⟩ := (hs.records id _ hr).book
    obtain ⟨pair₀, scale₀, hm₀, -⟩ := (hs.wired.listed _ b₀ hb₀).market
    have hlive : s'.liveReservation id = s.liveReservation id := by
      rw [liveReservation_eq hb₀ hm₀]
      by_cases hid : bookId = id.bookId
      · rw [← hid, h.book] at hb₀
        cases hb₀
        have hne : order.id ≠ id.seq := by
          intro he'
          rw [he', hid, OrderId.new_eta, hr] at hnew
          cases hnew
        rw [liveReservation_eq (b := b') (by rw [hbooks, ← hid, SortedMap.get_insert_self])
          (hx.market hm₀), OrderBook.reservedFor, OrderBook.reservedFor, h.grown.find hwf,
          if_neg hne]
      · rw [liveReservation_eq (b := b₀) (by rw [hbooks, SortedMap.get_insert_of_ne _ _ hid]; exact hb₀)
          (hx.market hm₀)]
    rw [hlive, queuedFrom, queuedFrom, hqueue]
  have hterm : s'.backing t u (.new bookId order.id) (newRecord user order placedBy timestamp)
      = if pair.token (reserveToken order.side) = t ∧ uid = u then required.toNat else 0 := by
    have hlive : s'.liveReservation (.new bookId order.id) = required.toNat := by
      rw [liveReservation_new (by rw [hbooks, SortedMap.get_insert_self]) (hx.market h.market),
        OrderBook.reservedFor, h.grown.find hwf, if_pos rfl, h.amount]
      rfl
    have hqueued : s'.queuedFrom (.new bookId order.id) (newRecord user order placedBy timestamp)
        = 0 := by
      rw [queuedFrom, hqueue]
      exact hs.queuedIn_unknown hnew _
    have hreserves : s'.Reserves t u (.new bookId order.id)
        (newRecord user order placedBy timestamp) ↔
        pair.token (reserveToken order.side) = t ∧ uid = u := by
      have hown : s'.userRegistry.fundingId user = some uid := hx.registry _ _ h.owner
      have hpair : s'.tradingPairs.getPair bookId = some pair := (hx.market h.market).pair
      rw [Reserves, reserveTokenOf]
      show s'.userRegistry.fundingId user = some u ∧
        (s'.tradingPairs.getPair bookId).map _ = some t ↔ _
      rw [hown, hpair, Option.map_some, Option.some.injEq, Option.some.injEq]
      exact and_comm
    rw [backing, hlive, hqueued, Nat.add_zero]
    simp only [hreserves]
  rw [hsum, hterm, reserved_of_reserve h.reserve, hb t u]

/-! ## Canceling -/

lemma Canceled.backed {id : OrderId} {canceledBy : Option Principal} {now : Timestamp} {o : Order}
    {r r' : OrderRecord} {b b' : OrderBook} {pair : TradingPair} {scale : BaseScale}
    {refund : RemovedOrderSettlement}
    (h : s.Canceled id canceledBy now o r r' b b' pair scale refund s') (hs : s.Sound)
    (hb : s.Backed) : s'.Backed := by
  obtain ⟨-, hx⟩ := h.sound hs
  have hwf := (hs.wired.listed _ b h.book).wf
  have hstand := (h.standing hs).2.1
  obtain ⟨hside, -⟩ := hstand.of_live h.live
  obtain ⟨hseq, htoken, hamount, -⟩ := RemovedOrderSettlement.of_new h.refunded
  have hqueue : s'.pendingSettlingEvents
      = s.pendingSettlingEvents ++ [[.refund refund]].map (eventOf id.bookId) := by rw [h.state]; rfl
  have hbooks : s'.orderBooks = s.orderBooks.insert id.bookId b' := by rw [h.state]
  refine hb.of_terms hs hx (fun k => ?_) (fun t u => by rw [h.state]) fun k r₀ r₁ hr₀ hr₁ hev => ?_
  · rw [h.history]
    split_ifs with he
    · rw [← he, h.record]
      rfl
    · rfl
  obtain ⟨b₀, hb₀, -⟩ := (hs.records k r₀ hr₀).book
  obtain ⟨pair₀, scale₀, hm₀, -⟩ := (hs.wired.listed _ b₀ hb₀).market
  rw [queuedFrom, queuedFrom, hqueue, queuedIn_append, hev.side, liveReservation_eq hb₀ hm₀]
  by_cases hbook : id.bookId = k.bookId
  · obtain ⟨bk, seq, rfl⟩ : ∃ bk seq, k = OrderId.new bk seq := ⟨_, _, (OrderId.new_eta k).symm⟩
    rw [OrderId.bookId_new] at hbook
    subst hbook
    obtain rfl : b = b₀ := Option.some.inj (h.book.symm.trans hb₀)
    obtain ⟨rfl, rfl⟩ := h.market.unique hm₀
    rw [liveReservation_new (by rw [hbooks, SortedMap.get_insert_self]) h.market', queuedIn_events,
      List.flatten_singleton, List.map_singleton, List.sum_singleton, OrderBook.reservedFor,
      OrderBook.reservedFor, h.removed.find hwf, OrderId.seq_new]
    show _ + (_ + takenFrom refund.balanceOperations seq (reserveToken r₀.side)) = _
    rw [RemovedOrderSettlement.takenFrom, hseq, htoken]
    by_cases hid : id.seq = seq
    · -- What the book held for the order is what its refund takes.
      subst hid
      rw [OrderId.new_eta, h.record] at hr₀
      cases hr₀
      rw [if_pos rfl, if_pos ⟨rfl, congrArg reserveToken hside⟩, hamount, h.live]
      exact Nat.zero_add _ |>.trans (Nat.add_comm _ _)
    · rw [if_neg hid, if_neg fun hx => hid hx.1, Nat.add_zero]
  · have hb₁ : s'.orderBooks.get k.bookId = some b₀ := by
      rw [hbooks, SortedMap.get_insert_of_ne _ _ hbook]
      exact hb₀
    rw [liveReservation_eq hb₁ (hx.market hm₀), queuedIn_events_of_ne hbook, Nat.add_zero]

/-! ## Matching -/

section Matching

variable {bookId : OrderBookId} {now : Timestamp} {b b' : OrderBook} {orders : List Order}
  {out : OrderBook.StepOut} {pair : TradingPair} {scale : BaseScale} {fills : List FillSettlement}
  {refunds : List RemovedOrderSettlement} {groups : List (List Piece)}

/-- The fill takes from the order only at the order's own terms. -/
structure FillTerms (scale : BaseScale) (seq : OrderSeq) (side : Side) (price : Price) (f : Fill) :
    Prop where
  crosses : f.takerSide.crosses f.takerPrice f.makerPrice = true
  distinct : f.makerOrderSeq ≠ f.takerOrderSeq
  taker : f.takerOrderSeq = seq → f.takerSide = side ∧ f.takerPrice = price
  maker : f.makerOrderSeq = seq → f.takerSide.opposite = side ∧ f.makerPrice = price
  dvd : scale.get.toNat ∣ price.toNat * f.quantity.toNat

lemma FillTerms.takenFrom {rates : FeeRates} {seq : OrderSeq} {side : Side} {price : Price}
    {f : Fill} {st : FillSettlement} (h : FillTerms scale seq side price f)
    (hnew : FillSettlement.new f rates scale = .ok st) :
    OisyTrade.takenFrom st.balanceOperations seq (reserveToken side)
      = if f.involves seq then reservation side price scale f.quantity.toNat else 0 := by
  rw [(FillSettlement.of_new hnew).takenFrom h.crosses, Fill.involves]
  by_cases ht : f.takerOrderSeq = seq
  · have hm : ¬ f.makerOrderSeq = seq := fun hm => h.distinct (hm.trans ht.symm)
    obtain ⟨rfl, rfl⟩ := h.taker ht
    rw [if_pos ⟨ht, rfl⟩, if_neg fun hx => hm hx.1, if_pos (by simp [ht]), Nat.add_zero]
  · by_cases hm : f.makerOrderSeq = seq
    · obtain ⟨rfl, rfl⟩ := h.maker hm
      rw [if_neg fun hx => ht hx.1, if_pos ⟨hm, rfl⟩, if_pos (by simp [hm]), Nat.zero_add]
    · rw [if_neg fun hx => ht hx.1, if_neg fun hx => hm hx.1, if_neg (by simp [ht, hm])]

/-- **The fills of a batch take from an order the reservation of what it traded.** -/
lemma takenFrom_fills {rates : FeeRates} {seq : OrderSeq} {side : Side} {price : Price} :
    ∀ {fs : List Fill} {sts : List FillSettlement},
      List.Forall₂ (fun f st => FillSettlement.new f rates scale = .ok st) fs sts →
      (∀ f ∈ fs, FillTerms scale seq side price f) →
      (sts.map fun st => OisyTrade.takenFrom st.balanceOperations seq (reserveToken side)).sum
        = reservation side price scale (fillTotal (fillsOn fs seq)) := by
  intro fs sts hall
  induction hall with
  | nil =>
      intro _
      exact (reservation_zero side price scale).symm
  | @cons f st _ _ hnew _ ih =>
      intro hterms
      have ih := ih fun g hg => hterms g (List.mem_cons_of_mem _ hg)
      have hf := hterms f List.mem_cons_self
      rw [List.map_cons, List.sum_cons, ih, hf.takenFrom hnew, fillsOn, fillsOn]
      by_cases hinv : f.involves seq = true
      · rw [if_pos hinv, List.filter_cons_of_pos (by exact hinv), fillTotal, fillTotal,
          List.map_cons, List.sum_cons, reservation_add hf.dvd]
      · rw [if_neg hinv, List.filter_cons_of_neg (by exact hinv), Nat.zero_add]

/-- **The refunds of a batch take from an order what it had when it was killed.** -/
lemma takenFrom_refunds {expired : SortedMap OrderSeq RemovedOrder} (seq : OrderSeq)
    (token : PairToken)
    (h : List.Forall₂ (fun e rs => RemovedOrderSettlement.new e.1 e.2 scale = .ok rs)
      expired.entries refunds) :
    (refunds.map fun rs => OisyTrade.takenFrom rs.balanceOperations seq token).sum
      = (expired.get seq).elim 0 fun removed => if reserveToken removed.side = token then
          reservation removed.side removed.price scale removed.remainingQuantity.toNat else 0 := by
  have hmap : ∀ {es : List (OrderSeq × RemovedOrder)} {rss : List RemovedOrderSettlement},
      List.Forall₂ (fun e rs => RemovedOrderSettlement.new e.1 e.2 scale = .ok rs) es rss →
      (rss.map fun rs => OisyTrade.takenFrom rs.balanceOperations seq token)
        = es.map fun e => if e.1 = seq ∧ reserveToken e.2.side = token then
            reservation e.2.side e.2.price scale e.2.remainingQuantity.toNat else 0 := by
    intro es rss hall
    induction hall with
    | nil => rfl
    | cons hnew _ ih =>
        obtain ⟨hseq, htoken, hamount, -⟩ := RemovedOrderSettlement.of_new hnew
        rw [List.map_cons, List.map_cons, ih, RemovedOrderSettlement.takenFrom, hseq, htoken,
          hamount]
  rw [hmap h]
  show expired.sum (fun k removed => if k = seq ∧ reserveToken removed.side = token then
    reservation removed.side removed.price scale removed.remainingQuantity.toNat else 0) = _
  cases hget : expired.get seq with
  | none =>
      refine SortedMap.sum_eq_zero fun k removed hk => if_neg ?_
      rintro ⟨rfl, -⟩
      rw [hget] at hk
      cases hk
  | some removed =>
      rw [SortedMap.sum_single hget]
      · simp only [true_and]
        rfl
      · exact fun k _ _ hne => if_neg fun hx => hne hx.1

/-- The fills of a batch and one order on record. -/
lemma Sound.fillTerms (hs : s.Sound) (hb : s.orderBooks.get bookId = some b)
    (hm : s.Market bookId pair scale) (hchunk : OrderBook.Chunk b orders out b') {seq : OrderSeq}
    {r : OrderRecord} (hr : s.orderHistory.get (.new bookId seq) = some r) :
    ∀ f ∈ out.fills, FillTerms scale seq r.side r.price f := by
  intro f hf
  have hl := hs.wired.listed _ b hb
  obtain ⟨-, hterms, hstand⟩ := hs.book_of_record hr hb
  have hstand : Standing b seq r := hstand
  obtain ⟨t, m, hok⟩ := hchunk.fillOk hl.wf hf
  have ht : t ∈ b.live :=
    OrderBook.mem_live.mpr (Or.inl (hchunk.processed_pending hl.wf hok.taker).1)
  refine ⟨?_, ?_, fun he => ?_, fun he => ?_, hterms.dvd (hl.dvd hm).2 hok.lots⟩
  · rw [hok.takerSide, hok.takerPrice, hok.makerPrice]
    exact hok.crosses
  · rw [hok.makerSeq, hok.takerSeq]
    exact ne_of_lt hok.earlier
  · obtain ⟨hside, hprice, -⟩ :=
      hstand.of_live (hl.wf.find_eq_some.mpr ⟨ht, hok.takerSeq.symm.trans he⟩)
    rw [hok.takerSide, hok.takerPrice]
    exact ⟨hside, hprice⟩
  · obtain ⟨hside, hprice, -⟩ :=
      hstand.of_live (hl.wf.find_eq_some.mpr ⟨hok.maker, hok.makerSeq.symm.trans he⟩)
    rw [hok.takerSide, hok.makerPrice, ← hok.makerSide]
    exact ⟨hside, hprice⟩

/-- **A batch moves amounts from the book to the queue**: what the book holds less for an order is
what the new events take from it. -/
lemma Matched.reservedFor
    (h : s.Matched bookId now b b' orders out pair scale fills refunds groups s') (hs : s.Sound)
    {seq : OrderSeq} {r : OrderRecord} (hr : s.orderHistory.get (.new bookId seq) = some r) :
    b'.reservedFor scale seq
        + (groups.flatten.map fun p => OisyTrade.takenFrom p.ops seq (reserveToken r.side)).sum
      = b.reservedFor scale seq := by
  have hl := hs.wired.listed _ b h.book
  obtain ⟨-, hterms, hstand⟩ := hs.book_of_record hr h.book
  have hstand : Standing b seq r := hstand
  have hpieces : (groups.flatten.map fun p =>
        OisyTrade.takenFrom p.ops seq (reserveToken r.side)).sum
      = reservation r.side r.price scale (fillTotal (fillsOn out.fills seq))
        + (out.output.expiredOrders.get seq).elim 0 fun removed =>
          if reserveToken removed.side = reserveToken r.side then
            reservation removed.side removed.price scale removed.remainingQuantity.toNat else 0 := by
    rw [h.pieces, List.map_append, List.sum_append, List.map_map, List.map_map,
      ← takenFrom_fills h.settled (hs.fillTerms h.book h.market h.chunk hr),
      ← takenFrom_refunds seq _ h.refunded]
    rfl
  have hnone : seq ∉ out.expired.map Prod.fst → out.output.expiredOrders.get seq = none := by
    intro hne
    cases hget : out.output.expiredOrders.get seq with
    | none => rfl
    | some removed =>
        refine absurd (OrderBook.StepOut.contains_expired.mp ?_) hne
        rw [SortedMap.contains, hget]
        rfl
  rw [hpieces, OrderBook.reservedFor, OrderBook.reservedFor]
  cases h.chunk.effect hl.wf seq with
  | absent hfind hfind' hfills _ _ hne =>
      rw [hfind, hfind', hfills, hnone hne, Option.elim_none, Option.elim_none, Nat.zero_add,
        Nat.add_zero]
      exact reservation_zero _ _ _
  | live o o' hfind hfind' hsame hq _ _ _ _ hne =>
      obtain ⟨hside, hprice, -⟩ := hstand.of_live hfind
      have hlot : b.lotSize.get.toNat ∣ o'.remainingQuantity.toNat := by
        rw [← h.chunk.config.lotSize]
        exact ((h.chunk.wf hl.wf).valid o' ((h.chunk.wf hl.wf).find_eq_some.mp hfind').1).2.2.2
      rw [hfind, hfind', hnone hne, Option.elim_some, Option.elim_some, Option.elim_none,
        Nat.add_zero, hsame.side, hsame.price, hside, hprice, ← hq,
        reservation_add (hterms.dvd (hl.dvd h.market).2 hlot)]
  | filled o hfind hfind' hq _ hne =>
      obtain ⟨hside, hprice, -⟩ := hstand.of_live hfind
      rw [hfind, hfind', hnone hne, hq, hside.symm, hprice.symm]
      exact Nat.zero_add _
  | expired o hfind hfok hpend hfind' hfills hnf hnr hin honce =>
      obtain ⟨hside, hprice, -⟩ := hstand.of_live hfind
      have hget : out.output.expiredOrders.get seq
          = some ⟨o.side, o.price, o.remainingQuantity⟩ := by
        obtain ⟨removed, hget⟩ := Option.isSome_iff_exists.mp
          (OrderBook.StepOut.contains_expired.mpr (List.mem_map_of_mem hin))
        rcases SortedMap.mem_of_get_insertAll hget with hmem | hmem
        · rw [hget, honce removed hmem]
        · cases hmem
      rw [hfind, hfind', hfills, hget, Option.elim_some, Option.elim_some, Option.elim_none,
        if_pos (congrArg reserveToken hside)]
      show 0 + (reservation _ _ _ 0 + _) = _
      rw [reservation_zero, Nat.zero_add, Nat.zero_add]

lemma Matched.backed
    (h : s.Matched bookId now b b' orders out pair scale fills refunds groups s') (hs : s.Sound)
    (hb : s.Backed) : s'.Backed := by
  obtain ⟨-, hx⟩ := h.sound hs
  have hqueue : s'.pendingSettlingEvents
      = s.pendingSettlingEvents ++ groups.map (eventOf bookId) := by rw [h.state]
  have hbooks : s'.orderBooks = s.orderBooks.insert bookId b' := by rw [h.state]
  refine hb.of_terms hs hx h.present (fun t u => by rw [h.state]) fun k r₀ r₁ hr₀ hr₁ hev => ?_
  obtain ⟨b₀, hb₀, -⟩ := (hs.records k r₀ hr₀).book
  obtain ⟨pair₀, scale₀, hm₀, -⟩ := (hs.wired.listed _ b₀ hb₀).market
  rw [queuedFrom, queuedFrom, hqueue, queuedIn_append, hev.side, liveReservation_eq hb₀ hm₀]
  by_cases hbook : bookId = k.bookId
  · obtain ⟨bk, seq, rfl⟩ : ∃ bk seq, k = OrderId.new bk seq := ⟨_, _, (OrderId.new_eta k).symm⟩
    rw [OrderId.bookId_new] at hbook
    subst hbook
    obtain rfl : b = b₀ := Option.some.inj (h.book.symm.trans hb₀)
    obtain ⟨rfl, rfl⟩ := h.market.unique hm₀
    rw [liveReservation_new (by rw [hbooks, SortedMap.get_insert_self]) h.market', queuedIn_events,
      OrderId.seq_new, ← h.reservedFor hs hr₀]
    omega
  · have hb₁ : s'.orderBooks.get k.bookId = some b₀ := by
      rw [hbooks, SortedMap.get_insert_of_ne _ _ hbook]
      exact hb₀
    rw [liveReservation_eq hb₁ (hx.market hm₀), queuedIn_events_of_ne hbook, Nat.add_zero]

end Matching

/-! ## Settling -/

/-- What one queued event takes is part of what is queued. -/
lemma backing_split {before after : List SettlingEvent} {event : SettlingEvent} {pair : TradingPair}
    {scale : BaseScale} (hqueue : s.pendingSettlingEvents = before ++ event :: after)
    (hm : s.Market event.bookId pair scale) (t : TokenId) (u : UserId) (id : OrderId)
    (r : OrderRecord) :
    s.backing t u id r = s.takenOf event.balanceOperations event.bookId pair t u id r
      + if s.Reserves t u id r then
          s.liveReservation id + queuedIn (before ++ after) id (reserveToken r.side) else 0 := by
  rw [backing, takenOf, queuedFrom, hqueue, queuedIn_append, queuedIn_cons, queuedIn_append]
  by_cases hbook : event.bookId = id.bookId
  · have hiff : s.Reserves t u id r ↔ id.bookId = event.bookId ∧
        s.userRegistry.fundingId r.owner = some u ∧ pair.token (reserveToken r.side) = t := by
      rw [Reserves, reserveTokenOf, ← hbook, hm.pair, Option.map_some, Option.some.injEq]
      tauto
    simp only [hiff, if_pos hbook]
    split_ifs
    · omega
    · rfl
  · have hno : ¬ (id.bookId = event.bookId ∧ s.userRegistry.fundingId r.owner = some u ∧
        pair.token (reserveToken r.side) = t) := fun hx => hbook hx.1.symm
    rw [if_neg hno, if_neg hbook]
    split_ifs
    · omega
    · rfl

/-- The sum that backs a row, split at one queued event. -/
lemma sum_backing_split {before after : List SettlingEvent} {event : SettlingEvent}
    {pair : TradingPair} {scale : BaseScale}
    (hqueue : s.pendingSettlingEvents = before ++ event :: after)
    (hm : s.Market event.bookId pair scale) (t : TokenId) (u : UserId) :
    s.orderHistory.primary.sum (fun id e => s.backing t u id e.record)
      = s.orderHistory.primary.sum (fun id e =>
          s.takenOf event.balanceOperations event.bookId pair t u id e.record)
        + s.orderHistory.primary.sum (fun id e => if s.Reserves t u id e.record then
          s.liveReservation id + queuedIn (before ++ after) id (reserveToken e.record.side)
          else 0) := by
  rw [← SortedMap.sum_add]
  exact SortedMap.sum_congr fun id e _ => backing_split hqueue hm t u id e.record

/-- **What a queued event takes from a row is reserved there.** -/
lemma Backed.covers (hb : s.Backed) (hs : s.Sound) {event : SettlingEvent} {pair : TradingPair}
    {scale : BaseScale} (hev : event ∈ s.pendingSettlingEvents)
    (hm : s.Market event.bookId pair scale) (t : TokenId) (u : UserId) :
    debits (s.postings event.bookId pair event.balanceOperations) t u ≤ s.balances.reserved t u := by
  obtain ⟨before, after, hqueue⟩ := List.append_of_mem hev
  obtain ⟨_, _, pieces, -, he, hok⟩ := hs.queue event hev
  have hops : ∀ op ∈ event.balanceOperations, s.OpOk event.bookId op := by
    rw [he]
    exact opOk_of_pieces hs hok
  rw [debits_eq hops, hb t u, sum_backing_split hqueue hm]
  exact Nat.le_add_right _ _

lemma Settled.backed {before after : List SettlingEvent} {event : SettlingEvent} {now : Timestamp}
    {pair : TradingPair} {scale : BaseScale} {pieces : List Piece}
    (h : s.Settled (before ++ after) event.bookId now pair scale pieces s') (hs : s.Sound)
    (hqueue : s.pendingSettlingEvents = before ++ event :: after)
    (hevent : event = eventOf event.bookId pieces) (hb : s.Backed) : s'.Backed := by
  have hops : event.balanceOperations = pieces.flatMap Piece.ops :=
    congrArg SettlingEvent.balanceOperations hevent
  have hdebits : ∀ t u, debits (s.postings event.bookId pair (pieces.flatMap Piece.ops)) t u
      = s.orderHistory.primary.sum fun id e =>
        s.takenOf event.balanceOperations event.bookId pair t u id e.record := by
    intro t u
    rw [hops]
    exact debits_eq (opOk_of_pieces hs h.agrees) t u
  intro t u
  have hres := h.posted.reserved t u
  have hsum : s'.orderHistory.primary.sum (fun id e => s'.backing t u id e.record)
      = s.orderHistory.primary.sum fun id e => if s.Reserves t u id e.record then
          s.liveReservation id + queuedIn (before ++ after) id (reserveToken e.record.side)
        else 0 := by
    rw [h.state]
    rfl
  rw [hdebits, hb t u, sum_backing_split hqueue h.market] at hres
  rw [hsum]
  omega

/-! ## Funds -/

lemma reserved_of_deposit {table table' : TokenBalance} {uid : UserId} {token : TokenId}
    {amount : Quantity} (h : table.deposit uid token amount = .ok table') (t : TokenId)
    (u : UserId) : table'.reserved t u = table.reserved t u := by
  obtain ⟨b, hrow, -, hres⟩ := table.deposit_spec h
  rw [hrow.reserved]
  split_ifs with hk
  · obtain ⟨rfl, rfl⟩ := hk
    exact hres
  · rfl

lemma reserved_of_withdraw {table table' : TokenBalance} {uid : UserId} {token : TokenId}
    {amount : Quantity} (h : table.withdraw uid token amount = .ok (.ok (), table')) (t : TokenId)
    (u : UserId) : table'.reserved t u = table.reserved t u := by
  rcases table.withdraw_spec uid token amount with ⟨-, e, he⟩ | ⟨table₁, b, he, hrow, -, hres⟩
  · rw [h] at he
    cases he
  · rw [h] at he
    cases he
    rw [hrow.reserved]
    split_ifs with hk
    · obtain ⟨rfl, rfl⟩ := hk
      exact hres
    · rfl

end State

/-- **Every change keeps the reservations backed.** -/
theorem Canister.Change.backed {c c' : Canister} (hs : c.state.Sound) (hb : c.state.Backed)
    (h : c.Change c') : c'.state.Backed := by
  obtain ⟨-, hx⟩ := h.sound hs
  cases h with
  | listed event timestamp hadmits hok =>
      obtain ⟨_, -, -, -, -, hfree, -, -, hstate⟩ := State.recordTradingPair_eq_ok hok
      refine hb.of_same hs hx (by rw [hstate]) (fun id b hget => ?_) (by rw [hstate])
        fun t u => by rw [hstate]
      rw [hstate]
      refine (SortedMap.get_insert_of_ne _ _ ?_).trans hget
      rintro rfl
      rw [hfree] at hget
      cases hget
  | placed _ _ _ _ _ _ _ _ _ _ _ h => exact h.backed hs hb
  | canceled _ _ _ _ _ _ _ _ _ _ _ h => exact h.backed hs hb
  | matched _ _ _ _ _ _ _ _ _ _ _ _ _ _ h => exact h.backed hs hb
  | settled before after event _ _ _ _ hqueue _ hevent h => exact h.backed hs hqueue hevent hb
  | credited _ _ _ _ hok =>
      obtain ⟨_, _, _, -, hdep, hstate⟩ := State.deposit_eq_ok hok
      refine hb.of_same hs hx (by rw [hstate]) (fun _ _ hget => by rw [hstate]; exact hget)
        (by rw [hstate]) fun t u => ?_
      rw [hstate]
      exact State.reserved_of_deposit hdep t u
  | debited _ _ _ hok =>
      obtain ⟨_, _, -, hwd, hstate⟩ := State.withdraw_eq_ok hok
      refine hb.of_same hs hx (by rw [hstate]) (fun _ _ hget => by rw [hstate]; exact hget)
        (by rw [hstate]) fun t u => ?_
      rw [hstate]
      exact State.reserved_of_withdraw hwd t u
  | frame h =>
      exact hb.of_same hs hx h.orderHistory (fun _ _ hget => by rw [h.orderBooks]; exact hget)
        h.queue fun t u => by rw [h.balances]

/-- **Reservations are backed in every reachable world.** -/
theorem World.Reachable.backed {w : World} (h : w.Reachable) : w.canister.state.Backed := by
  refine h.invariant (P := fun c => c.state.Backed) (fun arg rt c hinit => ?_)
    fun c c' hs hb hchange => hchange.backed hs hb
  obtain ⟨-, -, -, -, hbal, hord, -⟩ := Canister.init_eq_ok hinit
  intro t u
  rw [hbal, hord]
  exact Quantity.toNat_zero

end OisyTrade
