import OisyTrade.Invariant.Cancels
import OisyTrade.Script

/-!
# Canceling

Canceling a live order gives back exactly what the order still reserves, and touches nothing else,
whatever is halted and whatever waits in the queue.  It succeeds exactly when the owner's free balance
has room for the refund.  Since the refund jumps the queue, it matters that it makes no difference
whether the queue is drained before or after.
-/

namespace OisyTrade

namespace State

/-- **The effect of a cancel.** -/
structure CancelEffect (s : State) (id : OrderId) (canceledBy : Option Principal)
    (r r' : OrderRecord) (s' : State) : Prop where
  /-- The record is canceled and otherwise the same. -/
  record : s'.orderHistory.get id = some r'
  update : (OrderUpdate.cancel canceledBy).Applied r r'
  canceled : r'.status = .canceled
  /-- No other record changes. -/
  others : ∀ k, k ≠ id → s'.orderHistory.get k = s.orderHistory.get k
  /-- The order leaves its book, what its remaining quantity reserves becomes free, and no other
  order and no other balance changes. -/
  refund : ∃ b b' o pair scale uid,
    s.orderBooks.get id.bookId = some b ∧ b.find id.seq = some o ∧
    o.remainingQuantity.toNat + r.filledQuantity.toNat = r.quantity.toNat ∧
    s'.orderBooks = s.orderBooks.insert id.bookId b' ∧ b.Without id.seq b' ∧
    b'.find id.seq = none ∧
    s.Market id.bookId pair scale ∧ s.userRegistry.fundingId r.owner = some uid ∧
    ∀ t u, s'.balances.free t u = s.balances.free t u
        + (if pair.token (reserveToken r.side) = t ∧ uid = u then
            reservation r.side r.price scale o.remainingQuantity.toNat else 0) ∧
      s'.balances.reserved t u
        + (if pair.token (reserveToken r.side) = t ∧ uid = u then
            reservation r.side r.price scale o.remainingQuantity.toNat else 0)
        = s.balances.reserved t u
  pool : ∀ t, s'.balances.pool t = s.balances.pool t
  /-- The queue and everything else stay. -/
  state : s' = { s with orderBooks := s'.orderBooks, orderHistory := s'.orderHistory,
                        balances := s'.balances }

variable {s s' : State} {id : OrderId} {canceledBy : Option Principal} {now : Timestamp}

lemma Unwound.effect (hs : s.Sound) {posting : Posting} {r r' : OrderRecord}
    (h : s.Unwound id canceledBy now posting s') (hr : s.orderHistory.get id = some r)
    (hlive : r.status.isTerminal = false) (hr' : s'.orderHistory.get id = some r') :
    s.CancelEffect id canceledBy r r' s' := by
  obtain ⟨b, o, hb, hterms, hfind, ho, hid, hside, hprice, hq⟩ := hs.live_of_record hr hlive
  have hwf := (hs.wired.listed _ b hb).wf
  obtain ⟨pair, scale, b₀, removed, b', refund, hm, hb₀, hrem, href, rfl, hbooks⟩ := h.removed
  obtain rfl : b = b₀ := Option.some.inj (hb.symm.trans hb₀)
  obtain ⟨b₁, hrem', hwithout⟩ := OrderBook.removeOrder_live hwf ho
  rw [hid] at hrem' hwithout
  rw [hrem] at hrem'
  cases hrem'
  obtain ⟨r₀, r₀', hr₀, hupd, hget, -⟩ := OrderUpdate.of_applyUpdate h.history
  obtain rfl : r = r₀ := Option.some.inj (hr.symm.trans hr₀)
  have hr₀' : r₀' = r' := by
    rw [hget, if_pos rfl] at hr'
    exact Option.some.inj hr'
  subst hr₀'
  obtain ⟨-, htoken, hamount, -⟩ := RemovedOrderSettlement.of_new href
  obtain ⟨uid, hu⟩ := (hs.records id r hr).owner
  have hparty : s.party id.bookId id.seq = uid := party_eq (by rw [OrderId.new_eta]; exact hr) hu
  have hfree := h.posted.free
  have hreserved := h.posted.reserved
  rw [hparty, htoken, hside] at hfree hreserved
  rw [hside, hprice] at hamount
  refine ⟨hr', hupd, hupd.status, fun k hk => ?_, ?_, fun t => ?_, h.state⟩
  · rw [hget, if_neg (Ne.symm hk)]
  · refine ⟨b, b', o, pair, scale, uid, hb, hfind, hq, hbooks, hwithout, ?_, hm, hu,
      fun t u => ⟨?_, ?_⟩⟩
    · rw [hwithout.find hwf, if_pos rfl]
    · rw [hfree t u, ← hamount]
      rfl
    · rw [← hreserved t u, ← hamount]
      rfl
  · rw [h.posted.pool t]
    exact Nat.add_zero _

end State

namespace Canister

variable {c : Canister} {id : OrderId} {owner : Principal} {canceledBy : Option Principal}
  {rt : Runtime}

/-- Draining with no reading of the instruction counter at the budget empties the queue. -/
lemma Steady.drain_all (hc : c.Steady) (hroom : c.state.RoomFor c.state.pendingSettlingEvents)
    {budget : ℕ} (hbudget : ∀ k, rt.instructionCounter k < budget) (n : ℕ) :
    ∃ c' n', c.drainSettling rt budget n = .ok (c', n') ∧ c.Works c' ∧
      c.state.Drained c.state.pendingSettlingEvents [] rt.time c'.state := by
  have hdrains : ∃ c' n', c.drainSettling rt budget n = .ok (c', n') ∧
      c'.Steady ∧ c'.state.RoomFor c'.state.pendingSettlingEvents :=
    drainLoop_returns (fun h hqueue => h.1.settle_roomFor h.2 hqueue rt.time) ⟨hc, hroom⟩
  obtain ⟨c', n', hloop, -⟩ := hdrains
  obtain ⟨done, rest, hqueue, hdrained, -, hrest⟩ := drainLoop_drained hc hloop
  obtain rfl := hrest hbudget (Nat.le_refl _)
  rw [List.append_nil] at hqueue
  rw [← hqueue] at hdrained
  exact ⟨c', n', hloop, drainLoop_works hloop, hdrained⟩

/-- **Canceling commutes with draining**: both orders go through and end in the same state. -/
def CancelDrains (c : Canister) (owner : Principal) (canceledBy : Option Principal) (id : OrderId)
    (rt : Runtime) (budget n : ℕ) : Prop :=
  ∃ r c₁ c₂ n₂ d₁ m₁ d₂,
    c.cancelLimitOrder owner canceledBy id rt.time = .ok (.ok r, c₁) ∧
    c₁.drainSettling rt budget n = .ok (c₂, n₂) ∧
    c.drainSettling rt budget n = .ok (d₁, m₁) ∧
    d₁.cancelLimitOrder owner canceledBy id rt.time = .ok (.ok r, d₂) ∧
    c₂.state.pendingSettlingEvents = [] ∧ d₂.state = c₂.state

/-- **There is room for what an order releases and for the queue**: in every free balance, in the fee
pools and in the trade history. -/
structure CancelRoom (c : Canister) (id : OrderId) (r : OrderRecord) : Prop where
  free : ∀ t u, c.state.balances.free t u + (c.state.released id r t u
    + credits (c.state.pendingSettlingEvents.flatMap c.state.eventPostings) t u) < 2 ^ 256
  pool : ∀ t, c.state.balances.pool t
    + withheldOf (c.state.pendingSettlingEvents.flatMap c.state.eventPostings) t < 2 ^ 256
  trades : c.state.tradeHistory.primary.size + 2 * fillCount c.state.pendingSettlingEvents ≤ 2 ^ 64

lemma CancelRoom.queue {r : OrderRecord} (h : c.CancelRoom id r) :
    c.state.RoomFor c.state.pendingSettlingEvents :=
  ⟨⟨fun t u => lt_of_le_of_lt (Nat.add_le_add_left (Nat.le_add_left _ _) _) (h.free t u), h.pool⟩,
    h.trades⟩

/-- The queue has room after a cancel exactly if there is room for both. -/
lemma Steady.cancelRoom_iff (hc : c.Steady) {r : OrderRecord}
    (hr : c.state.orderHistory.get id = some r) (hlive : r.status.isTerminal = false)
    {c' : Canister} {posting : Posting} {now : Timestamp} (hacts : c.Acts c')
    (h : c.state.Unwound id canceledBy now posting c'.state) :
    c'.state.RoomFor c'.state.pendingSettlingEvents ↔ c.CancelRoom id r := by
  have hqueue : c'.state.pendingSettlingEvents = c.state.pendingSettlingEvents := by rw [h.state]
  have htrades : c'.state.tradeHistory = c.state.tradeHistory := by rw [h.state]
  have hpost : c'.state.pendingSettlingEvents.flatMap c'.state.eventPostings
      = c.state.pendingSettlingEvents.flatMap c.state.eventPostings := by
    rw [hqueue]
    exact List.flatMap_congr fun e he => (hc.same hacts now e he).2
  have hposted := h.posted.roomFor_iff
    (c.state.pendingSettlingEvents.flatMap c.state.eventPostings)
  have hsum : ∀ t u, credits ([posting]
        ++ c.state.pendingSettlingEvents.flatMap c.state.eventPostings) t u
      = c.state.released id r t u
        + credits (c.state.pendingSettlingEvents.flatMap c.state.eventPostings) t u := fun t u => by
    rw [credits_append, h.credits hc.sound hr hlive]
  have hwithheld : ∀ t, withheldOf ([posting]
        ++ c.state.pendingSettlingEvents.flatMap c.state.eventPostings) t
      = withheldOf (c.state.pendingSettlingEvents.flatMap c.state.eventPostings) t := fun t => by
    obtain ⟨_, _, _, _, _, _, -, -, -, -, rfl, -⟩ := h.removed
    rw [withheldOf_append]
    exact Nat.zero_add _
  constructor
  · rintro ⟨hbalances, hsize⟩
    rw [hpost] at hbalances
    obtain ⟨hfree, hpool⟩ := hposted.mp hbalances
    rw [htrades, hqueue] at hsize
    exact ⟨fun t u => hsum t u ▸ hfree t u, fun t => hwithheld t ▸ hpool t, hsize⟩
  · rintro ⟨hfree, hpool, hsize⟩
    refine ⟨?_, by rw [htrades, hqueue]; exact hsize⟩
    rw [hpost]
    exact hposted.mpr ⟨fun t u => (hsum t u).symm ▸ hfree t u,
      fun t => (hwithheld t).symm ▸ hpool t⟩

/-- **With room, both orders go through and end alike.** -/
theorem Steady.cancel_drains (hc : c.Steady) {r : OrderRecord}
    (hr : c.state.orderHistory.get id = some r) (howner : r.owner = owner)
    (hlive : r.status.isTerminal = false) (hroom : c.CancelRoom id r) {budget : ℕ}
    (hbudget : ∀ k, rt.instructionCounter k < budget) (canceledBy : Option Principal) (n : ℕ) :
    c.CancelDrains owner canceledBy id rt budget n := by
  -- Cancel first.
  obtain ⟨r₁, c₁, hcancel⟩ := hc.cancel_returns hr howner hlive (fun t u => lt_of_le_of_lt
    (Nat.add_le_add_left (Nat.le_add_right _ _) _) (hroom.free t u)) canceledBy rt.time
  obtain ⟨hworks, hget, -, posting, hunwound⟩ := hc.canceled hcancel
  have hc₁ := hworks.acts.steady hc
  have hqueue : c₁.state.pendingSettlingEvents = c.state.pendingSettlingEvents := by
    rw [hunwound.state]
  obtain ⟨c₂, n₂, hdrain, -, hdrained⟩ := hc₁.drain_all
    ((hc.cancelRoom_iff hr hlive hworks.acts hunwound).mpr hroom) hbudget n
  rw [hqueue] at hdrained
  -- Drain first.
  obtain ⟨d₁, m₁, hdrain', hworks', hdrained'⟩ := hc.drain_all hroom.queue hbudget n
  have hhistory : d₁.state.orderHistory = c.state.orderHistory := by rw [hdrained'.state]
  have hd₁ := hworks'.acts.steady hc
  have hroom' : ∀ t u, d₁.state.balances.free t u + d₁.state.released id r t u < 2 ^ 256 := by
    intro t u
    have hreleased : d₁.state.released id r t u = c.state.released id r t u := by
      rw [hdrained'.state]
      rfl
    rw [hreleased, hdrained'.posted.free, Nat.add_assoc, Nat.add_comm (credits _ t u)]
    exact hroom.free t u
  obtain ⟨r₂, d₂, hcancel'⟩ := hd₁.cancel_returns (by rw [hhistory]; exact hr) howner hlive hroom'
    canceledBy rt.time
  obtain ⟨-, hget', -, posting', hunwound'⟩ := hd₁.canceled hcancel'
  have hsame := hunwound.drained hdrained hdrained' hunwound' (hc.same hworks.acts rt.time)
  have hr₂ : r₂ = r₁ := by
    rw [hsame, hdrained.state] at hget'
    exact Option.some.inj (hget'.symm.trans hget)
  subst hr₂
  exact ⟨r₂, c₁, c₂, n₂, d₁, m₁, d₂, hcancel, hdrain, hdrain', hcancel', by rw [hdrained.state],
    hsame⟩

/-- Where all totals fit, there is room. -/
lemma Steady.cancelRoom_of_fits (hc : c.Steady) {r : OrderRecord}
    (hr : c.state.orderHistory.get id = some r) (hlive : r.status.isTerminal = false)
    (hfits : c.Fits (fillCount c.state.pendingSettlingEvents)) : c.CancelRoom id r := by
  obtain ⟨r', c', hcancel⟩ := hc.cancel_returns hr rfl hlive
    (hc.backed.released_fits hr hfits.balances) none .epoch
  obtain ⟨hworks, -, -, posting, hunwound⟩ := hc.canceled hcancel
  have hqueue : c'.state.pendingSettlingEvents = c.state.pendingSettlingEvents := by
    rw [hunwound.state]
  have htrades : c'.state.tradeHistory = c.state.tradeHistory := by rw [hunwound.state]
  refine (hc.cancelRoom_iff hr hlive hworks.acts hunwound).mp
    ((hworks.acts.steady hc).roomFor_of_fits ⟨fun t => ?_, ?_⟩)
  · rw [hunwound.posted.total]
    exact hfits.balances t
  · rw [htrades, hqueue]
    exact hfits.trades

/-- **Where both go through, there was room.** -/
theorem Steady.cancelRoom_of_drains (hc : c.Steady) {r : OrderRecord}
    (hr : c.state.orderHistory.get id = some r) (hlive : r.status.isTerminal = false)
    {budget n : ℕ} (h : c.CancelDrains owner canceledBy id rt budget n) : c.CancelRoom id r := by
  obtain ⟨r₁, c₁, c₂, n₂, -, -, -, hcancel, hdrain, -, -, hempty, -⟩ := h
  obtain ⟨hworks, -, -, posting, hunwound⟩ := hc.canceled hcancel
  have hc₁ := hworks.acts.steady hc
  have hc₂ := (drainLoop_works hdrain).acts.steady hc₁
  obtain ⟨done, rest, hqueue, hdrained, -, -⟩ := drainLoop_drained hc₁ hdrain
  have hrest : rest = [] := by
    rw [hdrained.state] at hempty
    exact hempty
  rw [hrest, List.append_nil] at hqueue
  have hroom := (hdrained.roomFor_iff (fun e he => hc₁.sound.queue e (hqueue ▸ he))
    fun e he => absurd he List.not_mem_nil).mp hc₂.roomFor_nil
  rw [List.append_nil, ← hqueue] at hroom
  exact (hc.cancelRoom_iff hr hlive hworks.acts hunwound).mp hroom

end Canister

namespace World

variable {w : World} {id : OrderId} {owner : Principal} {canceledBy : Option Principal}

/-- **Canceling a live order.**  In every reachable world a cancel by the owner of a live order
succeeds, with exactly the effect of `CancelEffect`, if and only if the owner's free balance has room
for what the order reserves.  Canceling and draining commute if and only if there is room for the
refund together with all that is queued.  A cancel of an unknown order, by someone else, or of an order
that is over is refused and changes nothing. -/
theorem Reachable.cancel_exact (h : w.Reachable) :
    (∀ r, w.canister.state.orderHistory.get id = some r → r.owner = owner →
      (r.status = .pending ∨ r.status = .open) →
      (∀ now, (∃ r' c', w.canister.cancelLimitOrder owner canceledBy id now = .ok (.ok r', c') ∧
          w.canister.state.CancelEffect id canceledBy r r' c'.state) ↔
        ∀ t u, w.canister.state.balances.free t u + w.canister.state.released id r t u < 2 ^ 256) ∧
      ∀ (rt : Runtime) (budget n : ℕ), (∀ k, rt.instructionCounter k < budget) →
        (w.canister.CancelDrains owner canceledBy id rt budget n ↔ w.canister.CancelRoom id r)) ∧
    (w.canister.state.orderHistory.get id = none → ∀ now,
      w.canister.cancelLimitOrder owner canceledBy id now
        = .ok (.error .orderNotFound, w.canister)) ∧
    (∀ r, w.canister.state.orderHistory.get id = some r → r.owner ≠ owner → ∀ now,
      w.canister.cancelLimitOrder owner canceledBy id now
        = .ok (.error .notOrderOwner, w.canister)) ∧
    ∀ r, w.canister.state.orderHistory.get id = some r → r.owner = owner →
      (r.status = .filled ∨ r.status = .canceled ∨ r.status = .expired) → ∀ now,
      w.canister.cancelLimitOrder owner canceledBy id now
        = .ok (.error .orderAlreadyTerminal, w.canister) := by
  have hc := h.steady
  refine ⟨fun r hr howner hstatus => ?_, fun hnone now => ?_, fun r hr hne now => ?_,
    fun r hr howner hstatus now => ?_⟩
  · have hlive : r.status.isTerminal = false := by
      rcases hstatus with hst | hst <;> rw [hst] <;> rfl
    refine ⟨fun now => ⟨?_, fun hroom => ?_⟩, fun rt budget n hbudget => ⟨?_, fun hroom => ?_⟩⟩
    · rintro ⟨r', c', hcancel, -⟩ t u
      obtain ⟨-, -, -, posting, hunwound⟩ := hc.canceled hcancel
      rw [← hunwound.credits hc.sound hr hlive]
      exact hunwound.posted.roomFor.free t u
    · obtain ⟨r', c', hcancel⟩ := hc.cancel_returns hr howner hlive hroom canceledBy now
      obtain ⟨-, hget, -, posting, hunwound⟩ := hc.canceled hcancel
      exact ⟨r', c', hcancel, hunwound.effect hc.sound hr hlive hget⟩
    · exact hc.cancelRoom_of_drains hr hlive
    · exact hc.cancel_drains hr howner hlive hroom hbudget canceledBy n
  · simp only [Canister.cancelLimitOrder, State.validateCancelLimitOrder, hnone]
  · simp only [Canister.cancelLimitOrder, State.validateCancelLimitOrder, hr, ne_eq, hne,
      not_false_eq_true, if_true]
  · rcases hstatus with hst | hst | hst <;>
      simp only [Canister.cancelLimitOrder, State.validateCancelLimitOrder, hr, howner, hst, ne_eq,
        not_true_eq_false, if_false]

/-- In the sample run the buyer can cancel although a fill of the order is still queued. -/
theorem cancel_exact_sampleWorld :
    ∃ r, sampleWorld.canister.state.orderHistory.get (.new Seq.zero Seq.zero) = some r ∧
      r.status = .open ∧
      (∃ r' c', sampleWorld.canister.cancelLimitOrder ⟨10⟩ none (.new Seq.zero Seq.zero) ⟨0⟩
          = .ok (.ok r', c') ∧
        sampleWorld.canister.state.CancelEffect (.new Seq.zero Seq.zero) none r r' c'.state) ∧
      sampleWorld.canister.CancelDrains ⟨10⟩ none (.new Seq.zero Seq.zero) (sampleRuntime 1 9)
        2000 0 := by
  have hsome : (sampleWorld.canister.state.orderHistory.get (.new Seq.zero Seq.zero)).any
      (fun r => r.status = .open ∧ r.owner = ⟨10⟩) = true := by decide +kernel
  obtain ⟨r, hr, hp⟩ := (Option.any_eq_true _ _).mp hsome
  obtain ⟨hopen, howner⟩ := of_decide_eq_true hp
  have hsize : sampleWorld.canister.state.tradeHistory.primary.size
      + 2 * Canister.fillCount sampleWorld.canister.state.pendingSettlingEvents ≤ 2 ^ 64 := by
    decide +kernel
  have hlive : r.status.isTerminal = false := by
    rw [hopen]
    rfl
  have hroom := reachable_sampleWorld.steady.cancelRoom_of_fits hr hlive ⟨sampleWorld_total, hsize⟩
  have hbudget : ∀ k, (sampleRuntime 1 9).instructionCounter k < 2000 := by
    intro k
    show (if k < 9 then 0 else 1000) < 2000
    split_ifs <;> decide
  obtain ⟨hcancel, hdrains⟩ := reachable_sampleWorld.cancel_exact.1 r hr howner (Or.inr hopen)
  exact ⟨r, hr, hopen, (hcancel ⟨0⟩).mpr
    (reachable_sampleWorld.steady.backed.released_fits hr sampleWorld_total),
    (hdrains _ _ _ hbudget).mpr hroom⟩

/-- A user who holds nearly `2 ^ 256` units cannot cancel: what the order reserves does not fit into
the free balance any more. -/
theorem not_cancel_exact_fullWorld :
    ¬ ∀ (w : World), w.Reachable → ∀ id r, w.canister.state.orderHistory.get id = some r →
      (r.status = .pending ∨ r.status = .open) → ∀ now, ∃ r' c',
        w.canister.cancelLimitOrder r.owner none id now = .ok (.ok r', c') := by
  intro hall
  have hsome : (fullWorld.canister.state.orderHistory.get (.new Seq.zero Seq.zero)).any
      (fun r => r.status = .open ∧ r.owner = ⟨11⟩) = true := by decide +kernel
  obtain ⟨r, hr, hp⟩ := (Option.any_eq_true _ _).mp hsome
  obtain ⟨hopen, howner⟩ := of_decide_eq_true hp
  obtain ⟨r', c', hcancel⟩ := hall fullWorld reachable_fullWorld _ r hr (Or.inr hopen) ⟨0⟩
  have htrap : (fullWorld.canister.cancelLimitOrder ⟨11⟩ none (.new Seq.zero Seq.zero) ⟨0⟩).trap
      = some (.bug .unreserveOverflow) := by decide +kernel
  rw [howner] at hcancel
  rw [hcancel] at htrap
  cases htrap

end World

end OisyTrade
