import OisyTrade.Invariant.Amounts
import OisyTrade.Invariant.Charged
import OisyTrade.Invariant.Drain

/-!
# Matching a batch returns

`record_matching_event` adds up amounts with checked arithmetic and stops the message if a sum does
not fit.  Quantities and fees always fit, and so does what a buy order pays.  What a sell order is
paid as a taker is bounded by what the buyers have reserved (`Sound.notionals_le`), so by the total
of the quote token, and what it is paid later as a maker by its own price.  `PayoutFits` says that
these two bounds together fit into a record.  Then the records have room for what the batch pays
(`Payable`), and that is all that matching needs to return (`Sound.match_returns`).
-/

namespace OisyTrade

namespace State

variable {s s' : State} {bookId : OrderBookId} {pair : TradingPair} {scale : BaseScale}

/-! ## Reservations and totals -/

/-- What the live orders reserve of a token is there. -/
lemma Backed.live_le_total (h : s.Backed) (hs : s.Sound) (t : TokenId) :
    (s.orderHistory.primary.sum fun id e =>
      if s.reserveTokenOf id e.record = some t then s.liveReservation id else 0)
      ≤ s.balances.total t := by
  have hrows : s.balances.balances.sum (fun key _ =>
      s.orderHistory.primary.sum fun id e =>
        if key.token = t then s.backing t key.user id e.record else 0)
      ≤ s.balances.userTotal t := by
    refine SortedMap.sum_le fun key b hkey => ?_
    rw [TokenBalance.held]
    by_cases htoken : key.token = t
    · have hrow : s.balances.reserved t key.user = b.reserved.toNat := by
        rw [TokenBalance.reserved, ← htoken, BalanceKey.new_eta, TokenBalance.row, hkey]
        rfl
      simp only [if_pos htoken]
      rw [← h t key.user, hrow]
      exact Nat.le_add_left _ _
    · simp only [if_neg htoken]
      exact (SortedMap.sum_eq_zero fun _ _ _ => rfl).le.trans (Nat.zero_le _)
  refine le_trans ?_ (hrows.trans (Nat.le_add_right _ _))
  rw [SortedMap.sum_comm]
  refine SortedMap.sum_le fun id e he => ?_
  split_ifs with htoken
  · have hr : s.orderHistory.get id = some e.record := by
      rw [History.get, he]
      rfl
    obtain ⟨u, hu⟩ := (hs.records id e.record hr).owner
    have hback : s.liveReservation id ≤ s.backing t u id e.record := by
      rw [backing, if_pos ⟨hu, htoken⟩]
      exact Nat.le_add_right _ _
    by_cases h0 : s.liveReservation id = 0
    · rw [h0]
      exact Nat.zero_le _
    · -- The owner has a row, because it holds the reservation.
      have hsum : s.backing t u id e.record ≤ s.balances.reserved t u := by
        rw [h t u]
        exact SortedMap.le_sum (fun id (e : SeqRecord OrderRecord) => s.backing t u id e.record) he
      cases hrow : s.balances.balances.get (.new t u) with
      | none =>
          rw [TokenBalance.reserved, TokenBalance.row, hrow] at hsum
          have hzero : (Balance.zero).reserved.toNat = 0 := Quantity.toNat_zero
          simp only [Option.getD_none, hzero] at hsum
          omega
      | some b =>
          refine hback.trans ?_
          have hle := SortedMap.le_sum (m := s.balances.balances) (fun key _ =>
            if key.token = t then s.backing t key.user id e.record else 0) hrow
          simpa using hle
  · exact Nat.zero_le _

/-! ## What a batch pays -/

section Round

variable {b b' : OrderBook} {orders : List Order} {out : OrderBook.StepOut} {rates : FeeRates}
  {fills : List FillSettlement} {seq : OrderSeq} {r : OrderRecord}

lemma reservation_mono (side : Side) (price : Price) (scale : BaseScale) {x y : ℕ} (h : x ≤ y) :
    reservation side price scale x ≤ reservation side price scale y := by
  cases side with
  | buy => exact Nat.div_le_div_right (Nat.mul_le_mul_left _ h)
  | sell => exact h

/-- A batch takes from an order at most what the order reserves. -/
lemma Sound.takenFrom_le (hs : s.Sound) (hb : s.orderBooks.get bookId = some b)
    (hm : s.Market bookId pair scale) (hchunk : OrderBook.Chunk b orders out b')
    (hset : List.Forall₂ (fun f st => FillSettlement.new f rates scale = .ok st) out.fills fills)
    (hr : s.orderHistory.get (.new bookId seq) = some r) :
    (fills.map fun st => takenFrom st.balanceOperations seq (reserveToken r.side)).sum
      ≤ s.liveReservation (.new bookId seq) := by
  have hwf := (hs.wired.listed bookId b hb).wf
  have hle := hchunk.fillTotal_le hwf seq
  rw [takenFrom_fills hset (hs.fillTerms hb hm hchunk hr), liveReservation_new hb hm,
    OrderBook.reservedFor]
  rw [OrderBook.remainingOf] at hle
  cases hfind : b.find seq with
  | none =>
      rw [hfind, Option.elim_none] at hle
      rw [Nat.le_zero.mp hle, reservation_zero]
      exact Nat.zero_le _
  | some o =>
      obtain ⟨hside, hprice, -⟩ := (hs.book_of_record hr hb).2.2.of_live hfind
      rw [hfind, Option.elim_some] at hle
      rw [Option.elim_some, hside, hprice]
      exact reservation_mono _ _ _ hle

/-- The buyer of a fill. -/
def buyerOf (f : Fill) : OrderSeq :=
  match f.takerSide with
  | .buy => f.takerOrderSeq
  | .sell => f.makerOrderSeq

lemma notional_le_takenFrom (st : FillSettlement) :
    st.notional.toNat ≤ takenFrom st.balanceOperations (buyerOf st.fill) .quote := by
  rw [FillSettlement.balanceOperations, buyerOf]
  cases st.fill.takerSide <;>
    simp only [takenFrom_append] <;>
    simp [takenFrom, BalanceOperation.taken]

/-- **The buyers of a batch have reserved what they pay.** -/
lemma Sound.notionals_le (hs : s.Sound) (hbacked : s.Backed) (hb : s.orderBooks.get bookId = some b)
    (hm : s.Market bookId pair scale) (hchunk : OrderBook.Chunk b orders out b')
    (hset : List.Forall₂ (fun f st => FillSettlement.new f rates scale = .ok st) out.fills fills) :
    (fills.map fun st => st.notional.toNat).sum ≤ s.balances.total pair.quote := by
  have hwf := (hs.wired.listed bookId b hb).wf
  have hone : ∀ st ∈ fills, st.notional.toNat
      ≤ s.orderHistory.primary.sum fun id e =>
        if id.bookId = bookId ∧ e.record.side = .buy then
          takenFrom st.balanceOperations id.seq .quote else 0 := by
    intro st hst
    obtain ⟨f, hf, hnew⟩ := forall₂_mem_right hset hst
    obtain ⟨t, m, hok⟩ := hchunk.fillOk hwf hf
    have htaker : t ∈ b.live :=
      OrderBook.mem_live.mpr (Or.inl (hchunk.processed_pending hwf hok.taker).1)
    have hbuyer : ∃ o ∈ b.live, o.id = buyerOf f ∧ o.side = .buy := by
      rw [buyerOf, hok.takerSide]
      cases hside : t.side with
      | buy => exact ⟨t, htaker, hok.takerSeq.symm, hside⟩
      | sell =>
          refine ⟨m, hok.maker, hok.makerSeq.symm, ?_⟩
          rw [hok.makerSide, hside]
          rfl
    obtain ⟨o, ho, hid, hside⟩ := hbuyer
    obtain ⟨r, hr, -, -, hstand, hfind⟩ := hs.record_of_live hb ho
    obtain ⟨e, he, rfl⟩ := Option.map_eq_some_iff.mp hr
    have hbuy : e.record.side = .buy := (hstand.of_live hfind).1.symm.trans hside
    refine le_trans ?_ (SortedMap.le_sum _ he)
    rw [if_pos ⟨OrderId.bookId_new _ _, hbuy⟩, OrderId.seq_new, hid, ← (FillSettlement.of_new hnew).fill]
    exact notional_le_takenFrom st
  calc (fills.map fun st => st.notional.toNat).sum
      ≤ (fills.map fun st => s.orderHistory.primary.sum fun id e =>
          if id.bookId = bookId ∧ e.record.side = .buy then
            takenFrom st.balanceOperations id.seq .quote else 0).sum := List.sum_le_sum hone
    _ = s.orderHistory.primary.sum fun id e => (fills.map fun st =>
          if id.bookId = bookId ∧ e.record.side = .buy then
            takenFrom st.balanceOperations id.seq .quote else 0).sum :=
        (SortedMap.sum_list_sum _ _ _).symm
    _ ≤ s.orderHistory.primary.sum fun id e =>
          if s.reserveTokenOf id e.record = some pair.quote then s.liveReservation id else 0 := by
        refine SortedMap.sum_le fun id e he => ?_
        by_cases hcase : id.bookId = bookId ∧ e.record.side = .buy
        · obtain ⟨rfl, hbuy⟩ := hcase
          have hr : s.orderHistory.get (.new id.bookId id.seq) = some e.record := by
            rw [OrderId.new_eta, History.get, he]
            rfl
          have htoken : s.reserveTokenOf id e.record = some pair.quote := by
            rw [reserveTokenOf, hm.pair, hbuy]
            rfl
          have hle := hs.takenFrom_le hb hm hchunk hset hr
          rw [hbuy, OrderId.new_eta] at hle
          simp only [hbuy, and_self, if_true, if_pos htoken]
          exact hle
        · simp [hcase]
    _ ≤ s.balances.total pair.quote := hbacked.live_le_total hs pair.quote

lemma soldAsTaker_le_notionals (fills : List FillSettlement) (seq : OrderSeq) :
    soldAsTaker fills seq ≤ (fills.map fun st => st.notional.toNat).sum := by
  refine List.sum_le_sum fun st _ => ?_
  split_ifs
  · exact le_rfl
  · exact Nat.zero_le _

/-- An open order does not take. -/
lemma Sound.soldAsTaker_open (hs : s.Sound) (hb : s.orderBooks.get bookId = some b)
    (hchunk : OrderBook.Chunk b orders out b')
    (hset : List.Forall₂ (fun f st => FillSettlement.new f rates scale = .ok st) out.fills fills)
    (hr : s.orderHistory.get (.new bookId seq) = some r) (hopen : r.status = .open) :
    soldAsTaker fills seq = 0 := by
  have hwf := (hs.wired.listed bookId b hb).wf
  refine List.sum_eq_zero fun x hx => ?_
  obtain ⟨st, hst, rfl⟩ := List.mem_map.mp hx
  obtain ⟨f, hf, hnew⟩ := forall₂_mem_right hset hst
  obtain ⟨t, m, hok⟩ := hchunk.fillOk hwf hf
  refine if_neg fun hseq => ?_
  rw [(FillSettlement.of_new hnew).fill, hok.takerSeq] at hseq
  have hpend := (hchunk.processed_pending hwf hok.taker).1
  have hfind : b.find seq = some t :=
    hwf.find_eq_some.mpr ⟨OrderBook.mem_live.mpr (Or.inl hpend), hseq⟩
  obtain ⟨-, -, -, -, -, ⟨-, hpending, -⟩ | ⟨hrest, -⟩⟩ :=
    (hs.book_of_record hr hb).2.2.of_live hfind
  · rw [hopen] at hpending
    cases hpending
  · exact hwf.not_resting_of_pending hpend hrest

/-- The most that a sell order may have been paid in the end: a pending order takes at most all
there is of the quote token, and an order that rests is paid its own price. -/
def payoutBound (s : State) (pair : TradingPair) (scale : BaseScale) (r : OrderRecord) : ℕ :=
  (if r.status = .pending then s.balances.total pair.quote else r.filledQuote.toNat)
    + r.price.toNat * (r.quantity.toNat - r.filledQuantity.toNat) / scale.get.toNat

/-- **Every live sell order can be paid.** -/
def PayoutFits (s : State) : Prop :=
  ∀ id r pair scale, s.orderHistory.get id = some r → r.side = .sell →
    r.status.isTerminal = false → s.Market id.bookId pair scale →
    s.payoutBound pair scale r < 2 ^ 256

/-- A bound for all payouts that can be computed. -/
lemma payoutFits_of_units
    (h : ∀ e ∈ s.orderHistory.primary.entries, s.balances.units + e.2.record.filledQuote.toNat
      + e.2.record.price.toNat * e.2.record.quantity.toNat < 2 ^ 256) : s.PayoutFits := by
  intro id r pair scale hr _ _ _
  obtain ⟨e, he, rfl⟩ := Option.map_eq_some_iff.mp hr
  have hbound := h (id, e) (s.orderHistory.primary.mem_entries_iff.mpr he)
  have htotal := s.balances.total_le_units pair.quote
  have hdiv : e.record.price.toNat * (e.record.quantity.toNat - e.record.filledQuantity.toNat)
      / scale.get.toNat ≤ e.record.price.toNat * e.record.quantity.toNat :=
    (Nat.div_le_self _ _).trans (Nat.mul_le_mul_left _ (Nat.sub_le _ _))
  rw [payoutBound]
  simp only at hbound
  split_ifs <;> omega

/-- **A batch does not raise the bound** of a sell order. -/
lemma Sound.payout_le (hs : s.Sound) (hbacked : s.Backed) (hb : s.orderBooks.get bookId = some b)
    (hm : s.Market bookId pair scale) (hchunk : OrderBook.Chunk b orders out b')
    (hset : List.Forall₂ (fun f st => FillSettlement.new f rates scale = .ok st) out.fills fills)
    (hr : s.orderHistory.get (.new bookId seq) = some r) (hsell : r.side = .sell) {o : Order}
    (hlive : b.find seq = some o) :
    r.filledQuote.toNat + shares fills seq .quote
        + r.price.toNat * (r.quantity.toNat - r.filledQuantity.toNat - shares fills seq .quantity)
          / scale.get.toNat
      ≤ s.payoutBound pair scale r := by
  have hterms := hs.fillTerms hb hm hchunk hr
  have hsum := (shares_bounds hset hterms).sell hsell
  have hq : shares fills seq .quantity ≤ r.quantity.toNat - r.filledQuantity.toNat := by
    have hle := hchunk.fillTotal_le (hs.wired.listed bookId b hb).wf seq
    obtain ⟨-, -, -, hquantity, -⟩ := (hs.book_of_record hr hb).2.2.of_live hlive
    rw [OrderBook.remainingOf, hlive, Option.elim_some] at hle
    rw [shares_quantity seq hset fun f hf => (hterms f hf).distinct]
    omega
  rw [payoutBound]
  generalize shares fills seq .quantity = dq at hsum hq ⊢
  generalize shares fills seq .quote = dn at hsum ⊢
  generalize r.quantity.toNat - r.filledQuantity.toNat = rest at hq ⊢
  have hdn' : dn ≤ soldAsTaker fills seq + r.price.toNat * dq / scale.get.toNat := by
    rw [Nat.add_comm (soldAsTaker fills seq), ← Nat.add_mul_div_right _ _ scale.pos]
    refine (Nat.le_div_iff_mul_le scale.pos).mpr ?_
    omega
  have hsplit : r.price.toNat * dq / scale.get.toNat
      + r.price.toNat * (rest - dq) / scale.get.toNat
      ≤ r.price.toNat * rest / scale.get.toNat := by
    refine Nat.div_add_div_le_add_div.trans ?_
    rw [← Nat.mul_add, Nat.add_sub_cancel' hq]
  have hbase : r.filledQuote.toNat + soldAsTaker fills seq
      ≤ if r.status = .pending then s.balances.total pair.quote else r.filledQuote.toNat := by
    obtain ⟨-, -, -, -, -, ⟨-, hpending, hzero⟩ | ⟨-, hopen⟩⟩ :=
      (hs.book_of_record hr hb).2.2.of_live hlive
    · have h0 : r.filledQuote.toNat = 0 := hzero .quote
      rw [if_pos hpending, h0, Nat.zero_add]
      exact (soldAsTaker_le_notionals fills seq).trans
        (hs.notionals_le hbacked hb hm hchunk hset)
    · rw [hs.soldAsTaker_open hb hchunk hset hr hopen, hopen]
      exact le_rfl
  omega

/-- What a batch adds to the filled quantity of a record is there. -/
lemma Sound.quantity_le (hs : s.Sound) (hb : s.orderBooks.get bookId = some b)
    (hm : s.Market bookId pair scale) (hchunk : OrderBook.Chunk b orders out b')
    (hset : List.Forall₂ (fun f st => FillSettlement.new f rates scale = .ok st) out.fills fills)
    (hr : s.orderHistory.get (.new bookId seq) = some r) :
    r.filledQuantity.toNat + shares fills seq .quantity ≤ r.quantity.toNat := by
  have hle := hchunk.fillTotal_le (hs.wired.listed bookId b hb).wf seq
  obtain ⟨-, -, hstand⟩ := hs.book_of_record hr hb
  have hfilled := hstand.filled_le
  rw [shares_quantity seq hset fun f hf => (hs.fillTerms hb hm hchunk hr f hf).distinct]
  cases hfind : b.find seq with
  | none =>
      rw [OrderBook.remainingOf, hfind, Option.elim_none] at hle
      omega
  | some o =>
      obtain ⟨-, -, -, hq, -⟩ := hstand.of_live hfind
      rw [OrderBook.remainingOf, hfind, Option.elim_some] at hle
      omega

/-- **The records have room for what some fills pay.** -/
def Payable (s : State) (bookId : OrderBookId) (fills : List FillSettlement) : Prop :=
  ∀ seq r, s.orderHistory.get (.new bookId seq) = some r →
    r.filledQuote.toNat + shares fills seq .quote < 2 ^ 256

/-- A batch can be paid if every live sell order can be. -/
lemma Sound.payable (hs : s.Sound) (hbacked : s.Backed) (hcharged : s.Charged)
    (hpay : s.PayoutFits) (hb : s.orderBooks.get bookId = some b)
    (hm : s.Market bookId pair scale) (hchunk : OrderBook.Chunk b orders out b')
    (hset : List.Forall₂ (fun f st => FillSettlement.new f rates scale = .ok st) out.fills fills) :
    s.Payable bookId fills := by
  intro seq r hr
  have hbounds := shares_bounds hset (hs.fillTerms hb hm hchunk hr)
  obtain ⟨-, hfits, hstand⟩ := hs.book_of_record hr hb
  cases hside : r.side with
  | buy =>
      -- At most the limit price for every unit.
      have hold := hcharged.paid _ r scale hr hside (baseScaleForBook_eq_ok.mpr ⟨pair, hm⟩)
      have hnew := hbounds.buy hside
      have hmul : (r.filledQuote.toNat + shares fills seq .quote) * scale.get.toNat
          ≤ r.price.toNat * r.quantity.toNat := by
        refine le_trans ?_ (Nat.mul_le_mul_left _ (hs.quantity_le hb hm hchunk hset hr))
        rw [Nat.add_mul, Nat.mul_add]
        omega
      exact lt_of_le_of_lt ((Nat.le_mul_of_pos_right _ scale.pos).trans hmul) hfits.fits
  | sell =>
      cases hfind : b.find seq with
      | none =>
          have hnone : shares fills seq .quote = 0 := by
            refine shares_eq_zero .quote hset ?_
            cases hchunk.effect (hs.wired.listed bookId b hb).wf seq with
            | absent _ _ hfills => exact hfills
            | live _ _ hx => rw [hfind] at hx; cases hx
            | filled _ hx => rw [hfind] at hx; cases hx
            | expired _ hx => rw [hfind] at hx; cases hx
          rw [hnone, Nat.add_zero]
          exact r.filledQuote.toNat_lt
      | some o =>
          have hle := hs.payout_le hbacked hb hm hchunk hset hr hside hfind
          have hlt := hpay _ r pair scale hr hside (hstand.of_live hfind).2.2.2.2.1 hm
          exact lt_of_le_of_lt (Nat.le_add_right _ _) (lt_of_le_of_lt hle hlt)

/-- **The sums of every record stay in range** if its payments do. -/
lemma Sound.sums_fit (hs : s.Sound) (hcharged : s.Charged) (hb : s.orderBooks.get bookId = some b)
    (hm : s.Market bookId pair scale) (hchunk : OrderBook.Chunk b orders out b')
    (hset : List.Forall₂ (fun f st => FillSettlement.new f rates scale = .ok st) out.fills fills)
    (hpay : s.Payable bookId fills) (hr : s.orderHistory.get (.new bookId seq) = some r) :
    r.filledQuantity.toNat + shares fills seq .quantity ≤ r.quantity.toNat ∧
      r.filledQuote.toNat + shares fills seq .quote < 2 ^ 256 ∧
      r.filledFee.toNat + shares fills seq .fee < 2 ^ 256 := by
  have hquantity := hs.quantity_le hb hm hchunk hset hr
  have hquote := hpay seq r hr
  refine ⟨hquantity, hquote, ?_⟩
  have hold := hcharged.fee _ r hr
  have hnew := (shares_bounds hset (hs.fillTerms hb hm hchunk hr)).fee
  cases hside : r.side with
  | buy =>
      rw [hside] at hold hnew
      have hold' : r.filledFee.toNat ≤ r.filledQuantity.toNat := hold
      have hnew' : shares fills seq .fee ≤ shares fills seq .quantity := hnew
      have hlt := r.quantity.toNat_lt
      omega
  | sell =>
      rw [hside] at hold hnew
      have hold' : r.filledFee.toNat ≤ r.filledQuote.toNat := hold
      have hnew' : shares fills seq .fee ≤ shares fills seq .quote := hnew
      omega

/-- Settlements for all fills of a batch. -/
lemma Sound.settlements (hs : s.Sound) (hb : s.orderBooks.get bookId = some b)
    (hm : s.Market bookId pair scale) (hchunk : OrderBook.Chunk b orders out b')
    (rates : FeeRates) :
    ∃ fills, List.Forall₂ (fun f st => FillSettlement.new f rates scale = .ok st)
      out.fills fills := by
  have hscale := ((hs.wired.listed bookId b hb).dvd hm).2
  have key : ∀ fs : List Fill, (∀ f ∈ fs, f ∈ out.fills) → ∃ fills,
      List.Forall₂ (fun f st => FillSettlement.new f rates scale = .ok st) fs fills := by
    intro fs
    induction fs with
    | nil => exact fun _ => ⟨[], .nil⟩
    | cons f fs ih =>
        intro hmem
        obtain ⟨hmaker, htaker⟩ := hs.tradable_fill hb hchunk (hmem f List.mem_cons_self)
        obtain ⟨st, hst⟩ := FillSettlement.new_returns rates hmaker.fits (hmaker.dvd hscale)
          fun _ => ⟨htaker.fits, htaker.dvd hscale⟩
        obtain ⟨fills, hrest⟩ := ih fun f' hf' => hmem f' (List.mem_cons_of_mem _ hf')
        exact ⟨st :: fills, .cons hst hrest⟩
  exact key out.fills fun _ hf => hf

/-- Settlements for all killed orders of a batch. -/
lemma Sound.refunds_return (hs : s.Sound) (hb : s.orderBooks.get bookId = some b)
    (hm : s.Market bookId pair scale) (hchunk : OrderBook.Chunk b orders out b')
    {e : OrderSeq × RemovedOrder} (he : e ∈ out.output.expiredOrders.entries) :
    ∃ rs, RemovedOrderSettlement.new e.1 e.2 scale = .ok rs := by
  have hl := hs.wired.listed bookId b hb
  obtain ⟨seq, removed⟩ := e
  obtain ⟨o, ho, -, rfl, -⟩ := hchunk.expired_order hl.wf he
  have htrade := hs.tradable_live hb (OrderBook.mem_live.mpr (Or.inl ho))
  exact RemovedOrderSettlement.new_returns fun _ => ⟨htrade.fits, htrade.dvd (hl.dvd hm).2⟩

/-- An order that a batch touches is on record. -/
lemma Sound.record_of_update (hs : s.Sound) (hb : s.orderBooks.get bookId = some b)
    (hchunk : OrderBook.Chunk b orders out b')
    (h : (∃ f ∈ out.fills, f.involves seq = true) ∨ (out.output.statusOf seq).isSome) :
    ∃ r, s.orderHistory.get (.new bookId seq) = some r := by
  have hwf := (hs.wired.listed bookId b hb).wf
  have hlive : ∀ {o}, b.find seq = some o → ∃ r, s.orderHistory.get (.new bookId seq) = some r := by
    intro o hfind
    obtain ⟨ho, rfl⟩ := hwf.find_eq_some.mp hfind
    obtain ⟨r, hr, -⟩ := hs.record_of_live hb ho
    exact ⟨r, hr⟩
  cases hchunk.effect hwf seq with
  | absent _ _ hfills hnf hnr hne =>
      exfalso
      rcases h with ⟨f, hf, hinv⟩ | hstatus
      · exact List.filter_eq_nil_iff.mp hfills f hf hinv
      · rw [OrderBook.StepOut.statusOf_eq, if_neg hne, if_neg hnf, if_neg hnr] at hstatus
        cases hstatus
  | live o _ hfind => exact hlive hfind
  | filled o hfind => exact hlive hfind
  | expired o hfind => exact hlive hfind

/-- **Matching a batch returns** if its fills can be paid. -/
theorem Sound.match_returns (hs : s.Sound) (hcharged : s.Charged)
    (hb : s.orderBooks.get bookId = some b) (n : ℕ) (now : Timestamp)
    (hpay : ∀ {pair scale out b' fills}, s.Market bookId pair scale →
      OrderBook.Chunk b (b.pendingOrders.take n) out b' →
      List.Forall₂ (fun f st => FillSettlement.new f b.feeRates scale = .ok st) out.fills fills →
      s.Payable bookId fills) :
    ∃ s', s.recordMatchingEvent ⟨bookId, b.pendingOrderSeqs.take n⟩ now .write = .ok s' := by
  have hl := hs.wired.listed bookId b hb
  obtain ⟨pair, scale, hm, -⟩ := hl.market
  obtain ⟨out, b', hchunk, hproc⟩ := OrderBook.processPendingOrders_spec hl.wf hl.drained
    (List.take_append_drop n b.pendingOrders).symm
  rw [List.map_take] at hproc
  obtain ⟨fills, hset⟩ := hs.settlements hb hm hchunk b.feeRates
  have hexpired : ∀ e ∈ out.output.expiredOrders.entries,
      ∃ rs, RemovedOrderSettlement.new e.1 e.2 scale = .ok rs := fun _ he =>
    hs.refunds_return hb hm hchunk he
  have hlt : ∀ seq c, shares fills seq c < 2 ^ 256 := by
    intro seq c
    cases hget : s.orderHistory.get (.new bookId seq) with
    | none =>
        rw [shares_eq_zero c hset]
        · exact Nat.two_pow_pos 256
        · by_contra hne
          obtain ⟨f, hf⟩ := List.exists_mem_of_ne_nil _ hne
          obtain ⟨hmem, hinv⟩ := List.mem_filter.mp hf
          obtain ⟨r, hr⟩ := hs.record_of_update hb hchunk (Or.inl ⟨f, hmem, hinv⟩)
          rw [hget] at hr
          cases hr
    | some r =>
        obtain ⟨hq, hn, hf⟩ := hs.sums_fit hcharged hb hm hchunk hset (hpay hm hchunk hset) hget
        have hlt := r.quantity.toNat_lt
        cases c <;> omega
  obtain ⟨settlement, hfrom⟩ := MatchSettlement.fromMatching_returns
    s.executionPolicy.maxSettlementUnitsPerEvent.toNat hset hexpired hlt
  obtain ⟨fills', refunds, hspec⟩ := MatchSettlement.of_fromMatching hfrom
  have hupdates : ∀ seq u, settlement.orderUpdates.get seq = some u →
      ∃ r, s.orderHistory.get (.new bookId seq) = some r ∧
        r.filledQuantity.toNat + u.filledDelta.toNat ≤ r.quantity.toNat ∧
        r.filledQuote.toNat + u.quoteDelta.toNat < 2 ^ 256 ∧
        r.filledFee.toNat + u.feeDelta.toNat < 2 ^ 256 := by
    intro seq u hu
    obtain ⟨r, hr⟩ := hs.record_of_update hb hchunk (hspec.updated seq (by rw [hu]; rfl))
    have hfit := hs.sums_fit hcharged hb hm hchunk hspec.settled
      (hpay hm hchunk hspec.settled) hr
    have hdelta := hspec.delta seq
    rw [updateOf, hu, Option.getD_some] at hdelta
    rw [← hdelta .quantity, ← hdelta .quote, ← hdelta .fee] at hfit
    exact ⟨r, hr, hfit⟩
  obtain ⟨history, happ⟩ := applyUpdates_returns now hupdates
  have hscale' : s.baseScaleForBook bookId = .ok scale := baseScaleForBook_eq_ok.mpr ⟨pair, hm⟩
  exact ⟨_, by simp only [recordMatchingEvent, hscale', hb, OrderBook.pendingOrderSeqs, hproc,
    hfrom, happ, expectBug, Except.expect_some, Except.bind_ok]; rfl⟩

end Round

end State

end OisyTrade
