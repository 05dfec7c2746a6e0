import OisyTrade.Invariant.Books
import OisyTrade.Invariant.Room

/-!
# Small amounts

The executor has room as long as no ledger holds too much for the canister.  Let `limit` bound the
total of every token at all times.  Then no sell order is for more than `limit`, and beside the price
of what it filled as a maker it was paid at most `limit`, as a taker (`SellsBounded`).  With
`limit < 2 ^ 128` every payout fits into 256 bits (`SellsBounded.payoutFits`).
-/

namespace OisyTrade

/-- The quantity of a sell order and what it was paid. -/
structure SellBound (limit : ℕ) (scale : BaseScale) (r : OrderRecord) : Prop where
  quantity : r.quantity.toNat ≤ limit
  paid : r.filledQuote.toNat * scale.get.toNat
    ≤ limit * scale.get.toNat + r.price.toNat * r.filledQuantity.toNat

namespace State

variable {s s' : State} {limit : ℕ}

/-- **The sell orders are bounded.** -/
def SellsBounded (s : State) (limit : ℕ) : Prop :=
  ∀ id r pair scale, s.orderHistory.get id = some r → r.side = .sell →
    s.Market id.bookId pair scale → SellBound limit scale r

lemma SellsBounded.of_same (h : s.SellsBounded limit) (hs : s.Sound) (hx : s.Extends s')
    (horders : s'.orderHistory = s.orderHistory) : s'.SellsBounded limit := by
  intro id r pair scale hr hside hm
  rw [horders] at hr
  -- The book of the order had its market before.
  obtain ⟨b, hb, -⟩ := (hs.records id r hr).book
  obtain ⟨pair', scale', hm', -⟩ := (hs.wired.listed _ b hb).market
  obtain ⟨rfl, rfl⟩ := hm.unique (hx.market hm')
  exact h id r _ _ hr hside hm'

/-- **Bounded sell orders can be paid.** -/
lemma SellsBounded.payoutFits (h : s.SellsBounded limit) (hs : s.Sound) (hlimit : limit < 2 ^ 128)
    (htotal : ∀ t, s.balances.total t ≤ limit) : s.PayoutFits := by
  intro id r pair scale hr hside _ hm
  obtain ⟨hquantity, hpaid⟩ := h id r pair scale hr hside hm
  obtain ⟨b, hb, -, -, hstand⟩ := (hs.records id r hr).book
  have hfilled := hstand.filled_le
  have hprice : r.price.toNat < 2 ^ 128 := r.price.get.isLt
  have hsize : r.price.toNat * r.quantity.toNat ≤ (2 ^ 128 - 1) * (2 ^ 128 - 1) :=
    Nat.mul_le_mul (by omega) (by omega)
  have htotal' := htotal pair.quote
  rw [payoutBound]
  generalize s.balances.total pair.quote = total at htotal' ⊢
  generalize r.filledQuote.toNat = quote at hpaid ⊢
  generalize r.filledQuantity.toNat = filled at hpaid hfilled ⊢
  generalize r.price.toNat = price at hpaid hsize ⊢
  generalize r.quantity.toNat = quantity at hfilled hsize ⊢
  have hscale := scale.pos
  generalize scale.get.toNat = scale' at hpaid hscale ⊢
  -- The two parts of the order at its own price.
  have hquote : quote ≤ limit + price * filled / scale' := by
    rw [Nat.add_comm, ← Nat.add_mul_div_right _ _ hscale]
    refine (Nat.le_div_iff_mul_le hscale).mpr ?_
    rw [Nat.add_comm]
    exact hpaid
  have hsplit : price * filled / scale' + price * (quantity - filled) / scale'
      ≤ price * quantity / scale' := by
    refine Nat.div_add_div_le_add_div.trans ?_
    rw [← Nat.mul_add, Nat.add_sub_cancel' hfilled]
  have hdiv : price * quantity / scale' ≤ price * quantity := Nat.div_le_self _ _
  have hbase : (if r.status = .pending then total else quote) ≤ limit + price * filled / scale' := by
    split_ifs
    · exact htotal'.trans (Nat.le_add_right _ _)
    · exact hquote
  omega

section Changes

variable {bookId : OrderBookId} {now : Timestamp} {b b' : OrderBook} {orders : List Order}
  {out : OrderBook.StepOut} {pair : TradingPair} {scale : BaseScale} {fills : List FillSettlement}
  {refunds : List RemovedOrderSettlement} {groups : List (List Piece)}

/-- A reservation takes from what is there. -/
lemma reserve_le {table table' : TokenBalance} {uid : UserId} {token : TokenId} {amount : Quantity}
    (h : table.reserve uid token amount = .ok (.ok (), table')) :
    amount.toNat ≤ table.total token := by
  rcases table.reserve_spec uid token amount with ⟨-, e, he⟩ | ⟨he, -⟩ |
    ⟨table₁, b, -, -, hfree, -⟩
  · rw [h] at he
    cases he
  · rw [h] at he
    cases he
  · have hrow := table.row_le_userTotal token uid
    have htotal : table.userTotal token ≤ table.total token := Nat.le_add_right _ _
    omega

/-- Only a pending order takes. -/
lemma Sound.soldAsTaker_eq_zero (hs : s.Sound) {seq : OrderSeq} {r : OrderRecord} {rates : FeeRates}
    (hb : s.orderBooks.get bookId = some b) (hchunk : OrderBook.Chunk b orders out b')
    (hset : List.Forall₂ (fun f st => FillSettlement.new f rates scale = .ok st) out.fills fills)
    (hr : s.orderHistory.get (.new bookId seq) = some r) (hne : r.status ≠ .pending) :
    soldAsTaker fills seq = 0 := by
  have hwf := (hs.wired.listed bookId b hb).wf
  refine List.sum_eq_zero fun x hx => ?_
  obtain ⟨st, hst, rfl⟩ := List.mem_map.mp hx
  obtain ⟨f, hf, hnew⟩ := forall₂_mem_right hset hst
  obtain ⟨t, m, hok⟩ := hchunk.fillOk hwf hf
  refine if_neg fun hseq => ?_
  rw [(FillSettlement.of_new hnew).fill, hok.takerSeq] at hseq
  have hpend := (hchunk.processed_pending hwf hok.taker).1
  have hfind : b.find seq = some t :=
    hwf.find_eq_some.mpr ⟨OrderBook.mem_live.mpr (Or.inl hpend), hseq⟩
  obtain ⟨-, -, -, -, -, ⟨-, hpending, -⟩ | ⟨hrest, -⟩⟩ :=
    (hs.book_of_record hr hb).2.2.of_live hfind
  · exact hne hpending
  · exact hwf.not_resting_of_pending hpend hrest

/-- An order that is placed reserves no more than there is. -/
lemma Placed.sellsBounded {order : Order} {user : Principal} {placedBy : Option Principal}
    {uid : UserId} {required : Quantity}
    (hplaced : s.Placed bookId order user placedBy now b b' pair scale uid required s')
    (h : s.SellsBounded limit) (htotal : ∀ t, s.balances.total t ≤ limit) :
    s'.SellsBounded limit := by
  intro id r pair' scale' hr hside hm
  have hm' : s.Market id.bookId pair' scale' :=
    hm.of_eq (by rw [hplaced.state]) (by rw [hplaced.state])
  rw [History.get_insertOnce hplaced.history] at hr
  split_ifs at hr with he
  · cases hr
    have hsell : order.side = .sell := hside
    have hamount : required.toNat = order.remainingQuantity.toNat := by
      rw [hplaced.amount, hsell]
      rfl
    have hfree := reserve_le hplaced.reserve
    refine ⟨?_, ?_⟩
    · show order.remainingQuantity.toNat ≤ limit
      rw [← hamount]
      exact hfree.trans (htotal _)
    · show Quantity.zero.toNat * _ ≤ _
      rw [Quantity.toNat_zero, Nat.zero_mul]
      exact Nat.zero_le _
  · exact h id r pair' scale' hr hside hm'

/-- A batch pays a taker at most what the buyers have reserved. -/
lemma Matched.sellsBounded
    (hmatched : s.Matched bookId now b b' orders out pair scale fills refunds groups s')
    (h : s.SellsBounded limit) (hs : s.Sound) (hbacked : s.Backed)
    (htotal : ∀ t, s.balances.total t ≤ limit) : s'.SellsBounded limit := by
  intro id r' pair' scale' hr' hside hm
  have hm' : s.Market id.bookId pair' scale' :=
    hm.of_eq (by rw [hmatched.state]) (by rw [hmatched.state])
  by_cases hbook : id.bookId = bookId
  · subst hbook
    obtain ⟨rfl, rfl⟩ := hmatched.market.unique hm'
    obtain ⟨r, hr⟩ := Option.isSome_iff_exists.mp ((hmatched.present id).mp (by rw [hr']; rfl))
    have hold := h id r pair' scale' hr
    rw [← OrderId.new_eta id] at hr hr'
    obtain ⟨r₁, hr₁, hev, -, hfilled⟩ := hmatched.recordEffect hs hr
    obtain rfl : r' = r₁ := Option.some.inj (hr'.symm.trans hr₁)
    have hsell : r.side = .sell := hev.side.symm.trans hside
    obtain ⟨hquantity, hpaid⟩ := hold hsell hm'
    have hq : r'.filledQuantity.toNat = r.filledQuantity.toNat + shares fills id.seq .quantity :=
      hfilled .quantity
    have hn : r'.filledQuote.toNat = r.filledQuote.toNat + shares fills id.seq .quote :=
      hfilled .quote
    have hsum := (shares_bounds hmatched.settled
      (hs.fillTerms hmatched.book hm' hmatched.chunk hr)).sell hsell
    refine ⟨by rw [hev.quantity]; exact hquantity, ?_⟩
    rw [hn, hq, hev.price, Nat.add_mul, Nat.mul_add]
    -- A pending order has not been paid, and any other does not take.
    by_cases hpending : r.status = .pending
    · have hstand := (hs.book_of_record hr hmatched.book).2.2
      have hzero : r.filledQuote.toNat = 0 := hstand.filled_eq_zero (Or.inl hpending) .quote
      have htaken := (soldAsTaker_le_notionals fills id.seq).trans
        (hs.notionals_le hbacked hmatched.book hm' hmatched.chunk hmatched.settled)
      have hle := Nat.mul_le_mul_right scale'.get.toNat (htaken.trans (htotal pair'.quote))
      rw [hzero, Nat.zero_mul, Nat.zero_add]
      omega
    · have hnone := hs.soldAsTaker_eq_zero hmatched.book hmatched.chunk hmatched.settled hr hpending
      rw [hnone, Nat.zero_mul, Nat.zero_add] at hsum
      omega
  · rw [hmatched.others id hbook] at hr'
    exact h id r' pair' scale' hr' hside hm'

end Changes

end State

namespace Canister

variable {c c' : Canister} {limit : ℕ}

open State in
/-- **Every change keeps the bounds.** -/
theorem Change.sellsBounded (hchange : c.Change c') (hs : c.state.Sound) (hbacked : c.state.Backed)
    (h : c.state.SellsBounded limit) (htotal : ∀ t, c.state.balances.total t ≤ limit) :
    c'.state.SellsBounded limit := by
  obtain ⟨-, hx⟩ := hchange.sound hs
  cases hchange with
  | listed event timestamp hadmits hok =>
      obtain ⟨_, -, -, -, -, -, -, -, hstate⟩ := recordTradingPair_eq_ok hok
      exact h.of_same hs hx (by rw [hstate])
  | placed event timestamp order b b' pair scale uid required _ _ hplaced =>
      exact hplaced.sellsBounded h htotal
  | canceled event timestamp o r r' b b' pair scale refund _ hcanceled =>
      intro id r₁ pair' scale' hr₁ hside hm
      have hm' : c.state.Market id.bookId pair' scale' :=
        hm.of_eq (by rw [hcanceled.state]) (by rw [hcanceled.state])
      rw [hcanceled.history] at hr₁
      split_ifs at hr₁ with he
      · cases hr₁
        subst he
        have hev := hcanceled.evolves hs
        have hsame := hcanceled.status.2
        have hq : r'.filledQuantity.toNat = r.filledQuantity.toNat := hsame .quantity
        have hn : r'.filledQuote.toNat = r.filledQuote.toNat := hsame .quote
        obtain ⟨hquantity, hpaid⟩ := h _ r pair' scale' hcanceled.record
          (hev.side.symm.trans hside) hm'
        exact ⟨by rw [hev.quantity]; exact hquantity, by rw [hn, hq, hev.price]; exact hpaid⟩
      · exact h id r₁ pair' scale' hr₁ hside hm'
  | matched event timestamp b b' orders out pair scale fills refunds groups _ _ _ hmatched =>
      exact hmatched.sellsBounded h hs hbacked htotal
  | settled before after event _ _ _ _ _ _ _ hsettled =>
      exact h.of_same hs hx (by rw [hsettled.state])
  | credited _ _ _ _ hok =>
      obtain ⟨_, _, _, -, -, hstate⟩ := deposit_eq_ok hok
      exact h.of_same hs hx (by rw [hstate])
  | debited _ _ _ hok =>
      obtain ⟨_, _, -, -, hstate⟩ := withdraw_eq_ok hok
      exact h.of_same hs hx (by rw [hstate])
  | frame hframe => exact h.of_same hs hx hframe.orderHistory

/-- Work keeps the totals, so it keeps the bounds. -/
lemma Works.sellsBounded (hworks : c.Works c') (hc : c.Steady) (h : c.state.SellsBounded limit)
    (htotal : ∀ t, c.state.balances.total t ≤ limit) : c'.state.SellsBounded limit := by
  induction hworks with
  | refl => exact h
  | @tail c₁ c₂ hworks₁ hwork ih =>
      have hc₁ := (Works.acts hworks₁).steady hc
      refine (hwork.act.change hc₁.sound).sellsBounded hc₁.sound hc₁.backed ih fun t => ?_
      have htotal₁ : c₁.state.balances.total t = c.state.balances.total t := Works.total hworks₁ t
      rw [htotal₁]
      exact htotal t

end Canister

/-! ## Runs -/

/-- A continuation writes nothing to the orders. -/
lemma Call.Resumed.orders {call : Call} {rt : Runtime} {c c' : Canister} {reply : LedgerReply}
    {r : CallResult ⊕ Transfer} (h : call.Resumed rt c reply c' r) :
    c'.state.orderHistory = c.state.orderHistory := by
  cases h with
  | deposited hkind hreply hproc =>
      obtain ⟨s, hs, rfl⟩ := Canister.processEvent_eq_ok hproc
      obtain ⟨_, _, _, -, -, rfl⟩ := State.deposit_eq_ok hs
      rfl
  | depositRefused hkind hreply => rfl
  | @withdrawn _ fee hkind hreply => cases fee <;> rfl
  | @creditedBack _ fee state hkind hreply hok =>
      obtain ⟨_, _, _, -, -, rfl⟩ := State.deposit_eq_ok hok
      cases fee <;> rfl
  | retried => rfl

lemma Call.amountOf_le (call : Call) (kind : CallKind) (t : TokenId) :
    call.amountOf kind t ≤ call.amount.toNat := by
  rw [amountOf]
  split_ifs
  · exact le_rfl
  · exact Nat.zero_le _

lemma Call.owed_le (call : Call) (t : TokenId) : call.owed t ≤ call.amount.toNat := by
  rw [owed, uncredited, untransferred]
  cases call.succeeded with
  | true => exact call.amountOf_le .deposit t
  | false => exact (Nat.zero_add _).trans_le (call.amountOf_le .withdraw t)

namespace World

variable {w w' : World}

/-- **The ledgers hold less than `2 ^ 128`** of every token for the canister. -/
def Modest (w : World) : Prop := ∀ t, w.ledger t < 2 ^ 128

/-- What the canister accounts for, and what a waiting call may still credit, is on the ledger. -/
lemma Reachable.total_le_ledger (h : Reachable w) (t : TokenId) :
    w.canister.total t + w.overOpen (·.owed t) ≤ w.ledger t := by
  have hsolvent := h.books.solvent t
  omega

/-- A computable bound for what the ledgers hold. -/
def worth (w : World) : ℕ :=
  w.canister.state.balances.units + w.overOpen (·.amount.toNat)
    + 2 * (w.finished.map fun e => e.1.amount.toNat).sum

lemma overEnded_le (w : World) (p : CallResult → Bool) (kind : CallKind) (t : TokenId) :
    w.overEnded p kind t ≤ (w.finished.map fun e => e.1.amount.toNat).sum := by
  refine List.sum_le_sum fun e _ => ?_
  split_ifs
  · exact e.1.amountOf_le kind t
  · exact Nat.zero_le _

lemma Reachable.ledger_le_worth (h : Reachable w) (t : TokenId) : w.ledger t ≤ w.worth := by
  have hsolvent := h.books.solvent t
  have htotal : w.canister.total t ≤ w.canister.state.balances.units :=
    TokenBalance.total_le_units _ t
  have howed : w.overOpen (·.owed t) ≤ w.overOpen (·.amount.toNat) :=
    List.sum_le_sum fun call _ => call.owed_le t
  have hdeposits : w.trapped .deposit t ≤ _ := w.overEnded_le CallResult.isTrapped .deposit t
  have hwithdrawals : w.trapped .withdraw t ≤ _ := w.overEnded_le CallResult.isTrapped .withdraw t
  rw [worth]
  omega

/-- Outside of messages nothing is written to the orders. -/
lemma Step.orders (hstep : Step w w') (hs : w.canister.state.Sound) :
    w.canister.Works w'.canister ∨
      w'.canister.state.orderHistory = w.canister.state.orderHistory := by
  cases hstep with
  | message hrun => exact Or.inl (Message.run_works hrun)
  | depositStarted hrun | depositRefused hrun =>
      rcases Canister.depositStart_eq_ok hrun with ⟨_, -, rfl⟩ | ⟨_, _, -, -, -, -, -, -, rfl⟩
      · exact Or.inr rfl
      · exact Or.inr rfl
  | withdrawStarted hrun | withdrawRefused hrun =>
      rcases Canister.withdrawStart_eq_ok hrun with ⟨_, -, rfl⟩ |
        ⟨_, _, _, -, -, -, -, -, rfl, hdebit, rfl⟩
      · exact Or.inr rfl
      · obtain ⟨_, _, -, -, rfl⟩ := State.withdraw_eq_ok hdebit
        exact Or.inr rfl
  | executed => exact Or.inr rfl
  | executedAbandoned => exact Or.inr rfl
  | @delivered before after call transfer reply earlier rt hcalls hanswered =>
      have hdelivery := w.delivery before call after rt reply
      generalize w.delivered before call after rt reply = w' at hdelivery
      cases hdelivery with
      | ended hresumed => exact Or.inr hresumed.orders
      | asked hresumed => exact Or.inr hresumed.orders
      | trapped htrap => exact Or.inr rfl
  | upgraded hrun =>
      obtain ⟨c₁, rfl, rfl | ⟨arg, hproc⟩⟩ := Canister.upgrade_eq_ok hs hrun
      · exact Or.inr rfl
      · obtain ⟨s, hok, rfl⟩ := Canister.processEvent_eq_ok hproc
        obtain ⟨policy, rfl⟩ := State.applyUpgrade_eq_ok hok
        exact Or.inr rfl

/-- **While the ledgers hold little, the sell orders are bounded.** -/
theorem ReachableWhile.sellsBounded (h : ReachableWhile Modest w) :
    w.canister.state.SellsBounded (2 ^ 128 - 1) := by
  induction h with
  | init hinit =>
      obtain ⟨-, -, -, -, -, hord, -⟩ := Canister.init_eq_ok hinit
      intro id r pair scale hr
      rw [start, hord] at hr
      cases hr
  | @step w w' hreach hmodest hstep ih =>
      have hw := hreach.reachable
      have hx := ((hstep.guarded hw.guarded).1.sound hw.guarded.sound).2
      rcases hstep.orders hw.guarded.sound with hworks | hsame
      · refine hworks.sellsBounded hw.steady ih fun t => ?_
        have hledger := hw.total_le_ledger t
        have hlt := hmodest t
        rw [Canister.total] at hledger
        omega
      · exact ih.of_same hw.guarded.sound hx hsame

/-- **Room for the executor**, while the ledgers hold little and the trade history has room. -/
theorem ReachableWhile.roomy (h : ReachableWhile Modest w) (hmodest : w.Modest)
    (htrades : w.canister.state.tradeHistory.primary.size
      + 2 * (Canister.fillCount w.canister.state.pendingSettlingEvents
        + w.canister.state.liveCount) ≤ 2 ^ 64) : w.canister.Roomy := by
  have htotal : ∀ t, w.canister.state.balances.total t ≤ 2 ^ 128 - 1 := fun t => by
    have hledger := h.reachable.total_le_ledger t
    have hlt := hmodest t
    rw [Canister.total] at hledger
    omega
  refine ⟨fun t => lt_of_le_of_lt (htotal t) (by norm_num), ?_, htrades⟩
  exact h.sellsBounded.payoutFits h.reachable.guarded.sound (by norm_num) htotal

end World

end OisyTrade
