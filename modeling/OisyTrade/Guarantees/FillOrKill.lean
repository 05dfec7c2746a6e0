import OisyTrade.Guarantees.Settlement
import OisyTrade.Order.Round

/-!
# Fill or kill

On the book a fill-or-kill order trades its whole quantity or nothing.  In the canister a killed
order has reserved funds, so it matters that it gives all of them back and never touches a balance in
any other way.  `Traced` follows every order through the journal: by which event it was placed, and
which operations name it.
-/

namespace OisyTrade

/-- The journal entry places the order. -/
def places (id : OrderId) (entry : State × Event) : Bool :=
  match entry.2.payload with
  | .addLimitOrder e => decide (e.orderId = id)
  | _ => false

namespace Canister

/-- The operations that name an order. -/
def operationsOn (c : Canister) (id : OrderId) : List (OrderBookId × BalanceOperation) :=
  c.produced.filter (names id)

/-- The placements of an order, each with the state it met. -/
def placements (c : Canister) (id : OrderId) : List (State × Event) := c.journal.filter (places id)

/-- **An order was placed once**, between `c₀` and `c₁`, and reserved its funds then.  The moves since
then reserve nothing for it. -/
structure Placement (c : Canister) (id : OrderId) (r : OrderRecord) (c₀ c₁ : Canister)
    (moves : List Move) : Prop where
  logged : ∃ now e, c.placements id = [(c₀.state, ⟨now, .addLimitOrder e⟩)] ∧
    c₀.Logged (.addLimitOrder e) now c₁
  reserve : ∃ pair scale uid required, c.state.Market id.bookId pair scale ∧
    c.state.userRegistry.fundingId r.owner = some uid ∧
    c₀.state.balances.reserve uid (pair.token (reserveToken r.side)) required
      = .ok (.ok (), c₁.state.balances) ∧
    required.toNat = reservation r.side r.price scale r.quantity.toNat
  sound : c₁.state.Sound
  fresh : c₁.applied.filter (names id) = []
  trail : c₁.Trail moves c
  once : ∀ user token amount, .reserved id user token amount ∉ moves

/-- An order was placed once. -/
def PlacedOnce (c : Canister) (id : OrderId) (r : OrderRecord) : Prop :=
  ∃ c₀ c₁ moves, c.Placement id r c₀ c₁ moves

/-- **An order was refunded once, with all that it reserved.** -/
def RefundedOnce (c : Canister) (id : OrderId) (r : OrderRecord) : Prop :=
  ∃ pair scale q, c.state.Market id.bookId pair scale ∧
    c.operationsOn id = [(id.bookId, .unreserve id.seq (reserveToken r.side) q)] ∧
    q.toNat = reservation r.side r.price scale r.quantity.toNat

/-- **The trace of every order.** -/
structure Traced (c : Canister) : Prop where
  unknown : ∀ id, c.state.orderHistory.get id = none → c.operationsOn id = [] ∧ c.placements id = []
  placed : ∀ id r, c.state.orderHistory.get id = some r → c.PlacedOnce id r
  pending : ∀ id r, c.state.orderHistory.get id = some r → r.status = .pending →
    c.operationsOn id = []
  expired : ∀ id r, c.state.orderHistory.get id = some r → r.status = .expired →
    c.RefundedOnce id r

variable {c c' : Canister}

lemma PlacedOnce.mono {id : OrderId} {r r' : OrderRecord} (h : c.PlacedOnce id r)
    (hs : c.state.Sound) (hchange : c.Change c') (hr : c.state.orderHistory.get id = some r)
    (he : r.Evolves r') (hplaced : c'.placements id = c.placements id) : c'.PlacedOnce id r' := by
  obtain ⟨c₀, c₁, moves, h⟩ := h
  obtain ⟨-, hx⟩ := hchange.sound hs
  obtain ⟨step, hshift, hnew⟩ := hchange.shift hs
  obtain ⟨now, e, hone, hlog⟩ := h.logged
  obtain ⟨pair, scale, uid, required, hm, hu, hres, hreq⟩ := h.reserve
  refine ⟨c₀, c₁, moves ++ step, ⟨now, e, hplaced.trans hone, hlog⟩,
    ⟨pair, scale, uid, required, hx.market hm, ?_, ?_, ?_⟩, h.sound, h.fresh,
    h.trail.tail hchange hshift, fun user token amount hmem => ?_⟩
  · rw [he.owner]
    exact hx.registry _ _ hu
  · rw [he.side]
    exact hres
  · rw [he.side, he.price, he.quantity]
    exact hreq
  · rcases List.mem_append.mp hmem with hmem | hmem
    · exact h.once user token amount hmem
    · rw [hnew id user token amount hmem] at hr
      cases hr

lemma RefundedOnce.mono {id : OrderId} {r : OrderRecord} (h : c.RefundedOnce id r)
    (hx : c.state.Extends c'.state) (hops : c'.operationsOn id = c.operationsOn id) :
    c'.RefundedOnce id r := by
  obtain ⟨pair, scale, q, hm, hone, hq⟩ := h
  exact ⟨pair, scale, q, hx.market hm, hops.trans hone, hq⟩

/-- The rule for changes that place nothing: the operations may only grow for orders whose record
says so. -/
lemma Traced.of_ops (h : c.Traced) (hs : c.state.Sound) (hchange : c.Change c')
    (hback : ∀ id, (c'.state.orderHistory.get id).isSome → (c.state.orderHistory.get id).isSome)
    (hplaced : ∀ id, c'.placements id = c.placements id)
    (hunknown : ∀ id, c'.state.orderHistory.get id = none →
      c'.operationsOn id = c.operationsOn id)
    (hops : ∀ id r r', c.state.orderHistory.get id = some r →
      c'.state.orderHistory.get id = some r' → r.Evolves r' →
      (r'.status = .pending → c'.operationsOn id = c.operationsOn id) ∧
      (r'.status = .expired → (r.status = .expired ∧ c'.operationsOn id = c.operationsOn id) ∨
        (r.status = .pending ∧ (c.operationsOn id = [] → c'.RefundedOnce id r')))) :
    c'.Traced := by
  obtain ⟨-, hx⟩ := hchange.sound hs
  have hold : ∀ id r', c'.state.orderHistory.get id = some r' →
      ∃ r, c.state.orderHistory.get id = some r ∧ r.Evolves r' := by
    intro id r' hr'
    obtain ⟨r, hr⟩ := Option.isSome_iff_exists.mp (hback id (by rw [hr']; rfl))
    obtain ⟨r'', hr'', he⟩ := hx.record hr
    obtain rfl : r'' = r' := Option.some.inj (hr''.symm.trans hr')
    exact ⟨r, hr, he⟩
  refine ⟨fun id hnone => ?_, fun id r' hr' => ?_, fun id r' hr' hst => ?_,
    fun id r' hr' hst => ?_⟩
  · have hnone' : c.state.orderHistory.get id = none := by
      cases hr : c.state.orderHistory.get id with
      | none => rfl
      | some r =>
          obtain ⟨r', hr', -⟩ := hx.record hr
          rw [hnone] at hr'
          cases hr'
    rw [hunknown id hnone, hplaced]
    exact h.unknown id hnone'
  · obtain ⟨r, hr, he⟩ := hold id r' hr'
    exact (h.placed id r hr).mono hs hchange hr he (hplaced id)
  · obtain ⟨r, hr, he⟩ := hold id r' hr'
    have hpending : r.status = .pending := by
      have hleads := he.status
      rw [hst] at hleads
      exact hleads.eq_pending
    rw [(hops id r r' hr hr' he).1 hst]
    exact h.pending id r hr hpending
  · obtain ⟨r, hr, he⟩ := hold id r' hr'
    rcases (hops id r r' hr hr' he).2 hst with ⟨hexp, hsame⟩ | ⟨hpending, hnew⟩
    · obtain rfl : r' = r := he.final (by rw [hexp]; rfl)
      exact (h.expired id r' hr hexp).mono hx hsame
    · exact hnew (h.pending id r hr hpending)

/-- The rule for changes that neither place nor produce. -/
lemma Traced.of_quiet (h : c.Traced) (hs : c.state.Sound) (hchange : c.Change c')
    (hrecords : c'.state.orderHistory = c.state.orderHistory)
    (hplaced : ∀ id, c'.placements id = c.placements id)
    (hproduced : c'.produced = c.produced) : c'.Traced := by
  have hops : ∀ id, c'.operationsOn id = c.operationsOn id := fun id => by
    rw [operationsOn, hproduced]
    rfl
  refine h.of_ops hs hchange (by rw [hrecords]; exact fun _ hk => hk) hplaced (fun id _ => hops id)
    fun id r r' hr hr' he => ⟨fun _ => hops id, fun hst => Or.inl ⟨?_, hops id⟩⟩
  rw [hrecords] at hr'
  rw [Option.some.inj (hr.symm.trans hr')]
  exact hst

end Canister

namespace State

variable {s s' : State} {bookId : OrderBookId} {now : Timestamp} {b b' : OrderBook}
  {orders : List Order} {out : OrderBook.StepOut} {pair : TradingPair} {scale : BaseScale}
  {fills : List FillSettlement} {refunds : List RemovedOrderSettlement}
  {groups : List (List Piece)}

/-- The operations of a batch on an order that has not traded are its refunds. -/
lemma Matched.operations_on
    (h : s.Matched bookId now b b' orders out pair scale fills refunds groups s')
    {id : OrderId} (hbook : id.bookId = bookId)
    (hnone : ∀ st ∈ fills, ∀ op ∈ st.balanceOperations, id.seq ∉ op.seqs) :
    (operationsIn (groups.map (eventOf bookId))).filter (names id)
      = (refunds.filter fun rs => rs.orderSeq = id.seq).map fun rs =>
          (bookId, .unreserve rs.orderSeq rs.token rs.amount) := by
  have hfills : (((fills.map Piece.fill).flatMap Piece.ops).map fun op => (bookId, op)).filter
      (names id) = [] := by
    refine List.filter_eq_nil_iff.mpr fun entry hentry hname => ?_
    obtain ⟨op, hop, rfl⟩ := List.mem_map.mp hentry
    obtain ⟨p, hp, hop⟩ := List.mem_flatMap.mp hop
    obtain ⟨st, hst, rfl⟩ := List.mem_map.mp hp
    exact hnone st hst op hop (of_decide_eq_true hname).2
  have hrefunds : ∀ l : List RemovedOrderSettlement,
      (((l.map Piece.refund).flatMap Piece.ops).map fun op => (bookId, op)).filter (names id)
        = (l.filter fun rs => rs.orderSeq = id.seq).map fun rs =>
          (bookId, .unreserve rs.orderSeq rs.token rs.amount) := by
    intro l
    induction l with
    | nil => rfl
    | cons rs l ih =>
        have hops : (Piece.refund rs).ops = [.unreserve rs.orderSeq rs.token rs.amount] := rfl
        rw [List.map_cons, List.flatMap_cons, List.map_append, List.filter_append, ih, hops,
          List.map_singleton, List.filter_cons]
        have hname : names id (bookId, .unreserve rs.orderSeq rs.token rs.amount)
            = decide (rs.orderSeq = id.seq) := by
          rw [names]
          refine decide_eq_decide.mpr ⟨fun hx => ?_, fun hx => ⟨hbook.symm, ?_⟩⟩
          · exact (List.mem_singleton.mp hx.2).symm
          · exact List.mem_singleton.mpr hx.symm
        by_cases he : rs.orderSeq = id.seq
        · rw [hname, List.filter_cons_of_pos (by simpa using he), if_pos (by simpa using he)]
          rfl
        · rw [hname, List.filter_cons_of_neg (by simpa using he), if_neg (by simpa using he)]
          rfl
  rw [operationsIn_events, h.pieces, List.flatMap_append, List.map_append, List.filter_append,
    hfills, hrefunds, List.nil_append]

/-- No refund of a batch is for an order that is not over after it. -/
lemma Matched.not_refunded
    (h : s.Matched bookId now b b' orders out pair scale fills refunds groups s') (hs : s.Sound)
    {seq : OrderSeq} (hno : ∀ r', s'.orderHistory.get (.new bookId seq) = some r' →
      r'.status ≠ .expired ∨ ∃ r, s.orderHistory.get (.new bookId seq) = some r ∧
        r.status.isTerminal = true) :
    refunds.filter (fun rs => rs.orderSeq = seq) = [] := by
  refine List.filter_eq_nil_iff.mpr fun rs hrs he => ?_
  have he : rs.orderSeq = seq := of_decide_eq_true he
  obtain ⟨o, hpend, hseq, hfind, -, -, -, hexp, -⟩ := h.refund_order hs hrs
  have hid : o.id = seq := hseq.symm.trans he
  obtain ⟨r, hr, -, -, hstand, -⟩ := hs.record_of_live h.book (OrderBook.mem_live.mpr (.inl hpend))
  obtain ⟨-, -, -, -, hterm, -⟩ := hstand.of_live hfind
  obtain ⟨r', u, hr', happ, hstatus, -⟩ := h.records o.id r hr
  rw [hid] at hr hr'
  rcases hno r' hr' with hst | ⟨r₁, hr₁, hterm₁⟩
  · refine hst ?_
    rw [happ.status, hstatus, OrderBook.StepOut.statusOf_eq, if_pos hexp]
    rfl
  · obtain rfl : r = r₁ := Option.some.inj (hr.symm.trans hr₁)
    rw [hterm] at hterm₁
    cases hterm₁

/-- An order that expires in a batch is refunded by it, once and in full. -/
lemma Matched.refunded_once
    (h : s.Matched bookId now b b' orders out pair scale fills refunds groups s') (hs : s.Sound)
    {seq : OrderSeq} {r r' : OrderRecord} (hr : s.orderHistory.get (.new bookId seq) = some r)
    (hr' : s'.orderHistory.get (.new bookId seq) = some r') (hpending : r.status = .pending)
    (hexpired : r'.status = .expired) :
    ∃ rs : RemovedOrderSettlement, refunds.filter (fun rs => rs.orderSeq = seq) = [rs] ∧
      rs.orderSeq = seq ∧ rs.token = reserveToken r'.side ∧
      rs.amount.toNat = reservation r'.side r'.price scale r'.quantity.toNat := by
  -- The status says that the book reported the order as expired.
  obtain ⟨r'', u, hr'', happ, hstatus, -⟩ := h.records seq r hr
  obtain rfl : r'' = r' := Option.some.inj (hr''.symm.trans hr')
  have hreported : out.output.statusOf seq = some .expired := by
    have hx := happ.status
    rw [hexpired, hstatus] at hx
    cases ho : out.output.statusOf seq with
    | none => rw [ho, Option.getD_none, hpending] at hx; cases hx
    | some st => rw [ho, Option.getD_some] at hx; rw [hx]
  have hin : seq ∈ out.expired.map Prod.fst := by
    rw [OrderBook.StepOut.statusOf_eq] at hreported
    split_ifs at hreported with h1
    · exact h1
    all_goals cases hreported
  obtain ⟨e, he, hfst⟩ : ∃ e ∈ out.output.expiredOrders.entries, e.1 = seq := by
    have hcontains := OrderBook.StepOut.contains_expired.mpr hin
    obtain ⟨removed, hget⟩ := Option.isSome_iff_exists.mp hcontains
    exact ⟨(seq, removed), (SortedMap.mem_entries_iff _).mpr hget, rfl⟩
  obtain ⟨rs, hrs, hnew⟩ := forall₂_mem_left h.refunded he
  obtain ⟨hseq, -⟩ := RemovedOrderSettlement.of_new hnew
  have hrsSeq : rs.orderSeq = seq := hseq.trans hfst
  obtain ⟨r₁, hpiece⟩ := h.refundPiece hs hrs
  obtain rfl : r₁ = r'' := by
    have hx := hpiece.record
    rw [hrsSeq, hr'] at hx
    exact (Option.some.inj hx).symm
  have hzero : r₁.filledQuantity.toNat = 0 := by
    obtain ⟨r₂, hr₂, -, hstand, -⟩ := h.recordEffect hs hr
    obtain rfl : r₂ = r₁ := Option.some.inj (hr₂.symm.trans hr')
    exact hstand.filled_eq_zero (Or.inr hexpired) .quantity
  obtain ⟨q, hq, -, hnew'⟩ := hpiece.new
  obtain ⟨-, htoken, hamount, -⟩ := RemovedOrderSettlement.of_new hnew'
  refine ⟨rs, ?_, hrsSeq, htoken, ?_⟩
  · have hx := filter_key_eq_singleton h.nodup_refunds hrs
    rw [hrsSeq] at hx
    exact hx
  · rw [hamount, ← hq, hzero, Nat.add_zero]

end State

namespace Canister

variable {c c' : Canister}

/-- An event that does not place the order leaves its placements. -/
lemma Logged.placements {payload : EventType} {timestamp : Timestamp}
    (h : c.Logged payload timestamp c') {id : OrderId}
    (hnot : places id (c.state, ⟨timestamp, payload⟩) = false) :
    c'.placements id = c.placements id := by
  rw [Canister.placements, h.2, List.filter_append, List.filter_cons, hnot, List.filter_nil]
  exact List.append_nil _

lemma Logged.operationsOn {payload : EventType} {timestamp : Timestamp}
    (h : c.Logged payload timestamp c') (id : OrderId) :
    c'.operationsOn id = c.operationsOn id ++ (c.state.operationsOf payload).filter (names id) := by
  rw [Canister.operationsOn, h.produced, List.filter_append]
  rfl

/-- A batch keeps the trace. -/
lemma Traced.matched {event : MatchingEvent} {timestamp : Timestamp} {b b' : OrderBook}
    {orders : List Order} {out : OrderBook.StepOut} {pair : TradingPair} {scale : BaseScale}
    {fills : List FillSettlement} {refunds : List RemovedOrderSettlement}
    {groups : List (List Piece)} (hc : c.Traced) (hs : c.state.Sound)
    (horders : event.orders = orders.map Order.id)
    (h : c.state.Matched event.bookId timestamp b b' orders out pair scale fills refunds groups
      c'.state) (hlog : c.Logged (.matching event) timestamp c') (hchange : c.Change c') :
    c'.Traced := by
  have hnew : ∀ id, c'.operationsOn id
      = c.operationsOn id ++ (operationsIn (groups.map (eventOf event.bookId))).filter (names id) :=
    fun id => by rw [hlog.operationsOn, h.operationsOf horders hs]
  have hother : ∀ id, id.bookId ≠ event.bookId → c'.operationsOn id = c.operationsOn id := by
    intro id hne
    rw [hnew, operationsIn_events, List.filter_eq_nil_iff.mpr, List.append_nil]
    intro entry hentry hname
    obtain ⟨op, -, rfl⟩ := List.mem_map.mp hentry
    exact hne (of_decide_eq_true hname).1.symm
  have hsame : ∀ id, id.bookId = event.bookId →
      (∀ st ∈ fills, ∀ op ∈ st.balanceOperations, id.seq ∉ op.seqs) →
      refunds.filter (fun rs => rs.orderSeq = id.seq) = [] →
      c'.operationsOn id = c.operationsOn id := by
    intro id hbook hfills hrefunds
    rw [hnew, h.operations_on hbook hfills, hrefunds, List.map_nil, List.append_nil]
  have hid : ∀ {id : OrderId}, id.bookId = event.bookId → OrderId.new event.bookId id.seq = id :=
    fun {id} hbook => by rw [← hbook, OrderId.new_eta]
  refine hc.of_ops hs hchange (fun id => (h.present id).mp) (fun _ => hlog.placements rfl)
    (fun id hnone => ?_) fun id r r' hr hr' he => ?_
  · by_cases hbook : id.bookId = event.bookId
    · rw [← hid hbook] at hnone
      refine hsame id hbook (fun st hst op hop hseq => ?_) (h.not_refunded hs fun r' hr' => ?_)
      · obtain ⟨_, _, hpiece⟩ := h.fillPiece hs hst
        rcases (State.mem_seqs_balanceOperations st id.seq).mp
          (List.mem_flatMap.mpr ⟨op, hop, hseq⟩) with heq | heq
        · rw [heq, hpiece.taker] at hnone
          cases hnone
        · rw [heq, hpiece.maker] at hnone
          cases hnone
      · rw [hnone] at hr'
        cases hr'
    · exact hother id hbook
  · by_cases hbook : id.bookId = event.bookId
    · rw [← hid hbook] at hr hr'
      have hstand : Standing b' id.seq r' := by
        obtain ⟨r₁, hr₁, -, hstand, -⟩ := h.recordEffect hs hr
        obtain rfl : r₁ = r' := Option.some.inj (hr₁.symm.trans hr')
        exact hstand
      refine ⟨fun hpending => ?_, fun hexpired => ?_⟩
      · refine hsame id hbook (fun st hst => h.not_names_fill hs hr' ?_ hst)
          (h.not_refunded hs fun r₁ hr₁ => ?_)
        · exact hstand.filled_eq_zero (Or.inl hpending) .quantity
        · rw [hr'] at hr₁
          cases hr₁
          rw [hpending]
          exact Or.inl nofun
      · have hfills : ∀ st ∈ fills, ∀ op ∈ st.balanceOperations, id.seq ∉ op.seqs := fun st hst =>
          h.not_names_fill hs hr' (hstand.filled_eq_zero (Or.inr hexpired) .quantity) hst
        have hleads := he.status
        rw [hexpired] at hleads
        rcases hleads.of_expired with hold | hold
        · refine Or.inl ⟨hold, hsame id hbook hfills (h.not_refunded hs fun r₁ hr₁ => ?_)⟩
          exact Or.inr ⟨r, hr, by rw [hold]; rfl⟩
        · refine Or.inr ⟨hold, fun hnil => ?_⟩
          obtain ⟨rs, hone, hseq, htoken, hamount⟩ := h.refunded_once hs hr hr' hold hexpired
          refine ⟨pair, scale, rs.amount, ?_, ?_, hamount⟩
          · rw [hbook]
            exact h.market'
          · rw [hnew, hnil, h.operations_on hbook hfills, hone, List.nil_append, List.map_singleton,
              hseq, htoken, hbook]
    · refine ⟨fun _ => hother id hbook, fun hexpired => Or.inl ⟨?_, hother id hbook⟩⟩
      rw [h.others id hbook, hr] at hr'
      rw [Option.some.inj hr']
      exact hexpired

/-- A cancel keeps the trace: only the canceled order is named. -/
lemma Traced.canceled {event : CancelLimitOrderEvent} {timestamp : Timestamp} {o : Order}
    {r r' : OrderRecord} {b b' : OrderBook} {pair : TradingPair} {scale : BaseScale}
    {refund : RemovedOrderSettlement} (hc : c.Traced) (hs : c.state.Sound)
    (h : c.state.Canceled event.orderId event.canceledBy timestamp o r r' b b' pair scale refund
      c'.state) (hlog : c.Logged (.cancelLimitOrder event) timestamp c') (hchange : c.Change c') :
    c'.Traced := by
  have hseq := (RemovedOrderSettlement.of_new h.refunded).1
  have hsame : ∀ id, event.orderId ≠ id → c'.operationsOn id = c.operationsOn id := by
    intro id hne
    rw [hlog.operationsOn, h.operationsOf hs, List.filter_eq_nil_iff.mpr, List.append_nil]
    intro entry hentry hname
    rw [State.eventOf_refund, operationsIn, List.flatMap_singleton] at hentry
    obtain ⟨op, hop, rfl⟩ := List.mem_map.mp hentry
    obtain ⟨hbook, hmem⟩ := of_decide_eq_true hname
    obtain rfl : op = .unreserve refund.orderSeq refund.token refund.amount :=
      List.mem_singleton.mp hop
    have hs₁ : id.seq = event.orderId.seq := (List.mem_singleton.mp hmem).trans hseq
    refine hne ?_
    rw [← OrderId.new_eta event.orderId, ← OrderId.new_eta id, hs₁, ← hbook]
  have hcanceled : c'.state.orderHistory.get event.orderId = some r' := by
    rw [h.history, if_pos rfl]
  refine hc.of_ops hs hchange (fun id hsome => ?_) (fun _ => hlog.placements rfl)
    (fun id hnone => hsame id fun he => ?_) fun id r₁ r₁' hr₁ hr₁' he => ?_
  · rw [h.history] at hsome
    split_ifs at hsome with he
    · rw [← he, h.record]
      rfl
    · exact hsome
  · rw [← he, hcanceled] at hnone
    cases hnone
  · by_cases hid : event.orderId = id
    · subst hid
      obtain rfl : r' = r₁' := Option.some.inj (hcanceled.symm.trans hr₁')
      rw [h.status.1]
      refine ⟨?_, ?_⟩
      · intro hpending
        cases hpending
      · intro hexpired
        cases hexpired
    · refine ⟨fun _ => hsame id hid, fun hexpired => Or.inl ⟨?_, hsame id hid⟩⟩
      rw [h.history, if_neg hid, hr₁] at hr₁'
      rw [Option.some.inj hr₁']
      exact hexpired

/-- A placement starts the trace of its order. -/
lemma Traced.placed_order {event : AddLimitOrderEvent} {timestamp : Timestamp} {order : Order}
    {b b' : OrderBook} {pair : TradingPair} {scale : BaseScale} {uid : UserId}
    {required : Quantity} (hc : c.Traced) (hs : c.state.Sound) (hconserved : c.Conserved)
    (horder : order = PendingOrder.intoOrder
      ⟨event.side, event.price, event.quantity, event.timeInForce⟩ event.orderId.seq)
    (h : c.state.Placed event.orderId.bookId order event.user event.placedBy timestamp b b' pair
      scale uid required c'.state) (hlog : c.Logged (.addLimitOrder event) timestamp c')
    (hchange : c.Change c') : c'.Traced := by
  obtain ⟨hs', hx⟩ := h.sound hs
  have hid : OrderId.new event.orderId.bookId order.id = event.orderId := by
    rw [horder]
    exact OrderId.new_eta _
  have hhistory := h.history
  rw [hid] at hhistory
  have hget := History.get_insertOnce hhistory
  have hnone := History.get_eq_none_of_insertOnce hhistory
  have hops : ∀ id, c'.operationsOn id = c.operationsOn id := fun id => by
    rw [hlog.operationsOn]
    exact List.append_nil _
  have hplacements : ∀ id, c'.placements id = c.placements id
      ++ if event.orderId = id then [(c.state, ⟨timestamp, .addLimitOrder event⟩)] else [] := by
    intro id
    rw [Canister.placements, hlog.2, List.filter_append, List.filter_cons, List.filter_nil]
    by_cases he : event.orderId = id
    · have hp : places id (c.state, ⟨timestamp, .addLimitOrder event⟩) = true := decide_eq_true he
      rw [hp, if_pos rfl, if_pos he]
      rfl
    · have hp : places id (c.state, ⟨timestamp, .addLimitOrder event⟩) = false :=
        decide_eq_false he
      rw [hp, if_neg Bool.false_ne_true, if_neg he]
      rfl
  have hsame : ∀ id, event.orderId ≠ id → c'.placements id = c.placements id := fun id hne => by
    rw [hplacements, if_neg hne, List.append_nil]
  refine ⟨fun id hn => ?_, fun id r hr => ?_, fun id r hr hst => ?_, fun id r hr hst => ?_⟩
  · rw [hget] at hn
    split_ifs at hn with he
    rw [hops, hsame id he]
    exact hc.unknown id hn
  · rw [hget] at hr
    split_ifs at hr with he
    · cases hr
      subst he
      refine ⟨c, c', [], ⟨timestamp, event, ?_, hlog⟩, ⟨pair, scale, uid, required,
        hx.market h.market, hx.registry _ _ h.owner, h.reserve, h.amount⟩, hs', ?_, .refl,
        fun _ _ _ => List.not_mem_nil⟩
      · rw [hplacements, if_pos rfl, (hc.unknown _ hnone).2]
        rfl
      · -- What names the order would have been produced.
        have hnil := (hconserved.filter (names event.orderId)).symm.trans
          (List.Perm.of_eq (hc.unknown _ hnone).1)
        rw [List.perm_nil, List.filter_append] at hnil
        rw [hlog.applied]
        exact (congrArg _ (List.append_nil _)).trans (List.append_eq_nil_iff.mp hnil).1
    · exact (hc.placed id r hr).mono hs hchange hr (OrderRecord.Evolves.refl r) (hsame id he)
  · rw [hops]
    rw [hget] at hr
    split_ifs at hr with he
    · rw [← he]
      exact (hc.unknown _ hnone).1
    · exact hc.pending id r hr hst
  · rw [hget] at hr
    split_ifs at hr with he
    · cases hr
      cases hst
    · exact (hc.expired id r hr hst).mono hx (hops id)

/-- **Every change keeps the trace.** -/
theorem Change.traced (hs : c.state.Sound) (hconserved : c.Conserved) (hc : c.Traced)
    (hchange : c.Change c') : c'.Traced := by
  cases id hchange with
  | listed event timestamp hadmits hok hlog =>
      obtain ⟨_, -, -, -, -, -, -, -, hstate⟩ := State.recordTradingPair_eq_ok hok
      refine hc.of_quiet hs hchange (by rw [hstate]) (fun _ => hlog.placements rfl) ?_
      rw [hlog.produced]
      exact List.append_nil _
  | placed event _ _ _ _ _ _ _ _ horder _ h hlog =>
      exact hc.placed_order hs hconserved horder h hlog hchange
  | canceled event _ _ _ _ _ _ _ _ refund _ h hlog =>
      exact hc.canceled hs h hlog hchange
  | matched event _ _ _ _ _ _ _ _ _ groups _ horders _ h hlog =>
      exact hc.matched hs horders h hlog hchange
  | settled before after event timestamp _ _ _ hqueue _ _ h hlog =>
      refine hc.of_quiet hs hchange (by rw [h.state]) (fun _ => hlog.placements rfl) ?_
      exact hlog.produced.trans (List.append_nil _)
  | credited _ _ _ _ hok hlog =>
      obtain ⟨_, _, _, -, -, hstate⟩ := State.deposit_eq_ok hok
      rcases hlog with hlog | ⟨timestamp, hlog⟩
      · refine hc.of_quiet hs hchange (by rw [hstate]) (fun id => ?_) ?_
        · rw [placements, hlog.2]
          rfl
        · rw [produced, hlog.2]
          rfl
      · refine hc.of_quiet hs hchange (by rw [hstate]) (fun _ => hlog.placements rfl) ?_
        rw [hlog.produced]
        exact List.append_nil _
  | debited _ _ _ hok hlog =>
      obtain ⟨_, _, -, -, hstate⟩ := State.withdraw_eq_ok hok
      refine hc.of_quiet hs hchange (by rw [hstate]) (fun id => ?_) ?_
      · rw [placements, hlog.2]
        rfl
      · rw [produced, hlog.2]
        rfl
  | frame h hlog =>
      obtain ⟨-, l, hl, hjournal⟩ := hlog
      refine hc.of_quiet hs hchange h.orderHistory (fun id => ?_) ?_
      · have hnil : l.filter (places id) = [] := by
          refine List.filter_eq_nil_iff.mpr fun e he hp => ?_
          have hq := hl e he
          rw [places] at hp
          cases hpay : e.2.payload <;> rw [hpay] at hq hp <;>
            first | exact Bool.false_ne_true hq | exact Bool.false_ne_true hp
        rw [placements, hjournal, List.filter_append, hnil, List.append_nil]
        rfl
      · have hnil : l.flatMap (fun entry => entry.1.operationsOf entry.2.payload) = [] := by
          refine List.flatMap_eq_nil_iff.mpr fun e he => ?_
          have hq := hl e he
          cases hp : e.2.payload <;> rw [hp] at hq <;> first | rfl | cases hq
        rw [produced, hjournal, List.flatMap_append, hnil, List.append_nil]
        rfl

end Canister

namespace World

variable {w : World}

lemma Reachable.traced (h : w.Reachable) : w.canister.Traced := by
  refine (h.invariant (P := fun c => c.Conserved ∧ c.Traced) (fun arg rt c hinit => ?_)
    fun c c' hs hc hchange =>
      ⟨hchange.conserved hs hc.1, hchange.traced hs hc.1 hc.2⟩).2
  obtain ⟨-, -, hjournal, -, -, hhistory, -⟩ := Canister.init_eq_ok hinit
  refine ⟨Canister.conserved_init hinit, ?_⟩
  have hnone : ∀ id, c.state.orderHistory.get id = none := fun id => by
    rw [hhistory]
    rfl
  refine ⟨fun id _ => ?_, fun id r hr => ?_, fun id r hr => ?_, fun id r hr => ?_⟩
  · rw [Canister.operationsOn, Canister.placements, Canister.produced, hjournal]
    exact ⟨rfl, rfl⟩
  all_goals
    rw [hnone] at hr
    cases hr

/-- **A killed order is neutral.**  It was placed once, between `c₀` and `c₁`, which moved some funds of
its owner from free to reserved; the one operation of the run that names it moved the same funds back;
and all rows are those of `c₀` with the moves since then added up that concern other orders. -/
structure Neutral (w : World) (id : OrderId) (r : OrderRecord) (c₀ c₁ : Canister) (moves : List Move)
    (moved : TokenId → UserId → ℕ) : Prop where
  market : ∃ pair scale uid, w.canister.state.Market id.bookId pair scale ∧
    w.canister.state.userRegistry.fundingId r.owner = some uid ∧
    moved = inRow uid (pair.token (reserveToken r.side))
      (reservation r.side r.price scale r.quantity.toNat)
  placed : ∃ now e, w.canister.placements id = [(c₀.state, ⟨now, .addLimitOrder e⟩)] ∧
    c₀.Logged (.addLimitOrder e) now c₁
  reserved : ∀ t u,
    c₁.state.balances.free t u + moved t u = c₀.state.balances.free t u ∧
    c₁.state.balances.reserved t u = c₀.state.balances.reserved t u + moved t u
  trail : c₁.Trail moves w.canister
  returned : ∃ op posting, w.canister.applied.filter (names id) = [(id.bookId, op)] ∧
    moves.filter (Move.concerns id) = [.posted id.bookId op posting] ∧
    posting.credit = moved ∧ posting.debit = moved
  rest : Accounted c₀.state.balances (moves.filter fun m => !m.concerns id)
    w.canister.state.balances

/-- **An expired order is neutral** once the queue is drained. -/
lemma Reachable.neutral (h : Reachable w) (hqueue : w.canister.state.pendingSettlingEvents = [])
    {id : OrderId} {r : OrderRecord} (hr : w.canister.state.orderHistory.get id = some r)
    (hexpired : r.status = .expired) : ∃ c₀ c₁ moves moved, w.Neutral id r c₀ c₁ moves moved := by
  have htraced := h.traced
  obtain ⟨c₀, c₁, moves, hplace⟩ := htraced.placed id r hr
  obtain ⟨pair, scale, uid, required, hm, hu, hres, hreq⟩ := hplace.reserve
  obtain ⟨pair', scale', q, hm', hops, hq⟩ := htraced.expired id r hr hexpired
  obtain ⟨rfl, rfl⟩ := hm'.unique hm
  have hparty : w.canister.state.party id.bookId id.seq = uid :=
    State.party_eq (by rw [OrderId.new_eta]; exact hr) hu
  -- Nothing is queued, so what was produced is applied.
  have happlied : w.canister.applied.filter (names id)
      = [(id.bookId, .unreserve id.seq (reserveToken r.side) q)] := by
    have hperm := h.conserved
    rw [Canister.Conserved, hqueue] at hperm
    have hfilter := hperm.filter (names id)
    rw [operationsIn, List.flatMap_nil, List.append_nil] at hfilter
    exact List.perm_singleton.mp (hfilter.symm.trans (List.Perm.of_eq hops))
  -- So one move since the placement concerns the order.
  obtain ⟨posting, hone⟩ : ∃ posting, moves.filter (Move.concerns id)
      = [.posted id.bookId (.unreserve id.seq (reserveToken r.side) q) posting] := by
    refine Move.filter_concerns hplace.once ?_
    have hx := happlied
    rw [hplace.trail.applied, List.filter_append, hplace.fresh, List.nil_append] at hx
    exact hx
  obtain rfl : posting = .unreserve uid (pair.token (reserveToken r.side)) q := by
    have hmem : .posted id.bookId (.unreserve id.seq (reserveToken r.side) q) posting ∈ moves :=
      List.mem_of_mem_filter (p := Move.concerns id) (by rw [hone]; exact List.mem_singleton_self _)
    obtain ⟨-, pair₁, scale₁, hm₁, rfl⟩ := hplace.trail.posting hplace.sound hmem
    obtain ⟨rfl, rfl⟩ := hm₁.unique hm
    rw [State.posting, hparty]
  have hplaced := Accounted.of_reserve id hres
  rw [hreq] at hplaced
  have hmoved : ∀ t u, (if pair.token (reserveToken r.side) = t ∧ uid = u then q.toNat else 0)
      = inRow uid (pair.token (reserveToken r.side))
          (reservation r.side r.price scale r.quantity.toNat) t u := fun t u => by rw [hq]; rfl
  refine ⟨c₀, c₁, moves, _, ⟨pair, scale, uid, hm, hu, rfl⟩, hplace.logged,
    fun t u => ⟨hplaced.free t u, hplaced.reserved t u⟩, hplace.trail,
    ⟨_, _, happlied, hone, funext fun t => funext (hmoved t), funext fun t => funext (hmoved t)⟩, ?_⟩
  -- What the order has moved cancels out.
  have hconcerns : Move.concerns id (.reserved id uid (pair.token (reserveToken r.side))
      (reservation r.side r.price scale r.quantity.toNat)) = true := decide_eq_true rfl
  have hall := hplaced.trans hplace.trail.accounted
  rw [List.singleton_append] at hall
  have hrest := hall.others id (by
    rw [List.filter_cons_of_pos hconcerns, hone]
    exact Move.balanced_unreserve id _ _ hq)
  rwa [List.filter_cons_of_neg (by rw [hconcerns]; exact Bool.false_ne_true)] at hrest

/-- **All or nothing** on one book. -/
def AllOrNothing (b : OrderBook) (order : Order) : Prop :=
  (order.remainingQuantity.toNat ≤ b.crossingTotal order →
    ∃ fills b', b.matchOrder order = .ok (.ok (.filled fills, b')) ∧
      b.matchOrder (OrderBook.asGoodTilCanceled order) = .ok (.ok (.filled fills, b')) ∧
      fillTotal fills = order.remainingQuantity.toNat) ∧
  (b.crossingTotal order < order.remainingQuantity.toNat →
    b.matchOrder order = .ok (.ok (.killed order.id
      ⟨order.side, order.price, order.remainingQuantity⟩, b)))

/-- **Fill-or-kill is all or nothing.**  On a reachable book, also in the middle of a batch, an order
of a new sequence is filled exactly like a good-til-canceled order if the crossing makers suffice, and
otherwise killed with the book unchanged.  In every reachable world whose queue is drained, all rows
are those of just before a killed order was placed, but for what concerns other orders. -/
theorem fillOrKill_all_or_nothing :
    (∀ (b : OrderBook) (rest : List Order) (filled : SortedSet OrderSeq) (order : Order),
      OrderBook.Reachable b → rest <:+ b.pendingOrders → order.timeInForce = .fillOrKill →
      b.validateOrder order.price order.remainingQuantity = .ok () →
      (∀ o ∈ b.restingList, o.id ≠ order.id) → AllOrNothing (b.midway rest filled) order) ∧
    ∀ (w : World), w.Reachable → w.canister.state.pendingSettlingEvents = [] →
      ∀ id r, w.canister.state.orderHistory.get id = some r → r.status = .expired →
        ∃ c₀ c₁ moves moved, w.Neutral id r c₀ c₁ moves moved := by
  refine ⟨fun b rest filled order hb hrest hfok hvalid hnew => ?_,
    fun w h hqueue id r hr hexpired => ?_⟩
  · exact (hb.wellFormed.1.midway hrest filled).matchOrder_fillOrKill hfok hvalid hnew
  exact h.neutral hqueue hr hexpired

/-- Three resting asks of nine units fill an order of six and kill an order of ten; and the killed
order of a run has left no trace. -/
theorem fillOrKill_all_or_nothing_samples :
    AllOrNothing OrderBook.crossingBook (OrderBook.unitOrder 4 .buy 6 6 .fillOrKill) ∧
    (OrderBook.crossingBook.crossingTotal (OrderBook.unitOrder 4 .buy 6 6 .fillOrKill) = 9 ∧
      OrderBook.crossingBook.crossingTotal (OrderBook.unitOrder 4 .buy 6 10 .fillOrKill) = 9) ∧
    AllOrNothing OrderBook.crossingBook (OrderBook.unitOrder 4 .buy 6 10 .fillOrKill) ∧
    ∃ r c₀ c₁ moves moved,
      killedWorld.canister.state.orderHistory.get (.new Seq.zero Seq.zero) = some r ∧
      r.status = .expired ∧
      killedWorld.Neutral (.new Seq.zero Seq.zero) r c₀ c₁ moves moved := by
  have hsome : (killedWorld.canister.state.orderHistory.get (.new Seq.zero Seq.zero)).any
      (fun r => r.status = .expired) = true := by decide +kernel
  obtain ⟨r, hr, hp⟩ := (Option.any_eq_true _ _).mp hsome
  have hexpired := of_decide_eq_true hp
  obtain ⟨hbooks, hworlds⟩ := fillOrKill_all_or_nothing
  obtain ⟨c₀, c₁, moves, moved, hneutral⟩ :=
    hworlds killedWorld reachable_killedWorld (by decide +kernel) _ r hr hexpired
  refine ⟨?_, by decide +kernel, ?_, r, c₀, c₁, moves, moved, hr, hexpired, hneutral⟩
  · exact hbooks OrderBook.crossingBook OrderBook.crossingBook.pendingOrders
      OrderBook.crossingBook.filledOrders _ OrderBook.reachable_crossingBook
      (List.suffix_refl _) rfl (by decide +kernel) (by decide +kernel)
  · exact hbooks OrderBook.crossingBook OrderBook.crossingBook.pendingOrders
      OrderBook.crossingBook.filledOrders _ OrderBook.reachable_crossingBook
      (List.suffix_refl _) rfl (by decide +kernel) (by decide +kernel)

end World

end OisyTrade
