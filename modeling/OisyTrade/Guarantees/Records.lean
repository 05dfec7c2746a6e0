import OisyTrade.Invariant.Reach
import OisyTrade.Script

/-!
# Order records and order books

The record of an order and its book tell the same story in every reachable world, and along every
run a record only moves forward.
-/

namespace OisyTrade

/-- **What the record of an order says about its book**, and the book about the record. -/
structure RecordAgrees (b : OrderBook) (seq : OrderSeq) (r : OrderRecord) : Prop where
  pending : r.status = .pending ↔ ∃ o ∈ b.pendingOrders, o.id = seq
  resting : r.status = .open ↔ ∃ o ∈ b.restingList, o.id = seq
  live : ∀ o ∈ b.live, o.id = seq → o.side = r.side ∧ o.price = r.price ∧
    o.timeInForce = r.timeInForce ∧
    o.remainingQuantity.toNat = r.quantity.toNat - r.filledQuantity.toNat
  filledLe : r.filledQuantity.toNat ≤ r.quantity.toNat
  filled : r.status = .filled ↔ r.filledQuantity.toNat = r.quantity.toNat
  canceled : r.status = .canceled → r.filledQuantity.toNat < r.quantity.toNat
  expired : r.status = .expired → r.timeInForce = .fillOrKill ∧ r.filledQuantity.toNat = 0 ∧
    r.filledQuote.toNat = 0 ∧ r.filledFee.toNat = 0
  fillOrKill : r.timeInForce = .fillOrKill → r.status ≠ .open
  goodTilCanceled : r.timeInForce = .goodTilCanceled → r.status ≠ .expired

lemma Standing.agrees {b : OrderBook} {seq : OrderSeq} {r : OrderRecord} (h : Standing b seq r)
    (hb : b.WellFormed) (hq : 0 < r.quantity.toNat) : RecordAgrees b seq r := by
  have hlive : ∀ o ∈ b.live, o.id = seq → b.find seq = some o := fun o ho hid =>
    hb.find_eq_some.mpr ⟨ho, hid⟩
  have hgone : b.find seq = none → (¬ ∃ o ∈ b.pendingOrders, o.id = seq) ∧
      (¬ ∃ o ∈ b.restingList, o.id = seq) ∧ ∀ o ∈ b.live, o.id ≠ seq := by
    intro hnone
    have hno := OrderBook.find_eq_none.mp hnone
    exact ⟨fun ⟨o, ho, hid⟩ => hno o (OrderBook.mem_live.mpr (Or.inl ho)) hid,
      fun ⟨o, ho, hid⟩ => hno o (OrderBook.mem_live.mpr (Or.inr ho)) hid, hno⟩
  cases h with
  | pending o hfind hmem hside hprice htif hquantity hstatus hfilled =>
      obtain ⟨ho, hid⟩ := hb.find_eq_some.mp hfind
      have h0 : r.filledQuantity.toNat = 0 := hfilled .quantity
      refine ⟨⟨fun _ => ⟨o, hmem, hid⟩, fun _ => hstatus⟩, ?_, ?_, by omega, ?_, ?_, ?_, ?_, ?_⟩
      · rw [hstatus]
        refine ⟨nofun, fun ⟨o', ho', hid'⟩ => ?_⟩
        obtain rfl := hb.eq_of_id_eq ho (OrderBook.mem_live.mpr (Or.inr ho')) (hid.trans hid'.symm)
        exact absurd ho' (hb.not_resting_of_pending hmem)
      · intro o' ho' hid'
        obtain rfl := hb.eq_of_id_eq ho ho' (hid.trans hid'.symm)
        exact ⟨hside, hprice, htif, by omega⟩
      · rw [hstatus]
        exact ⟨nofun, fun hx => by omega⟩
      all_goals rw [hstatus]; simp
  | resting o hfind hmem hside hprice htif hquantity hstatus =>
      obtain ⟨ho, hid⟩ := hb.find_eq_some.mp hfind
      have hpos := (hb.valid o ho).2.2.1
      refine ⟨?_, ⟨fun _ => ⟨o, hmem, hid⟩, fun _ => hstatus⟩, ?_, by omega, ?_, ?_, ?_, ?_, ?_⟩
      · rw [hstatus]
        refine ⟨nofun, fun ⟨o', ho', hid'⟩ => ?_⟩
        obtain rfl := hb.eq_of_id_eq ho (OrderBook.mem_live.mpr (Or.inl ho')) (hid.trans hid'.symm)
        exact absurd hmem (hb.not_resting_of_pending ho')
      · intro o' ho' hid'
        obtain rfl := hb.eq_of_id_eq ho ho' (hid.trans hid'.symm)
        exact ⟨hside, hprice, htif, by omega⟩
      · rw [hstatus]
        exact ⟨nofun, fun hx => by omega⟩
      · rw [hstatus]
        simp
      · rw [hstatus]
        simp
      · intro hfok
        rw [← htif, hb.restingGtc o hmem] at hfok
        cases hfok
      · rw [hstatus]
        simp
  | filled hfind hstatus hfilled =>
      obtain ⟨hp, hr, hl⟩ := hgone hfind
      refine ⟨?_, ?_, fun o ho hid => absurd hid (hl o ho), by omega, ?_, ?_, ?_, ?_, ?_⟩ <;>
        rw [hstatus]
      · exact ⟨nofun, fun hx => absurd hx hp⟩
      · exact ⟨nofun, fun hx => absurd hx hr⟩
      · exact ⟨fun _ => hfilled, fun _ => rfl⟩
      all_goals simp
  | canceled hfind hstatus hfilled =>
      obtain ⟨hp, hr, hl⟩ := hgone hfind
      refine ⟨?_, ?_, fun o ho hid => absurd hid (hl o ho), by omega, ?_, ?_, ?_, ?_, ?_⟩ <;>
        rw [hstatus]
      · exact ⟨nofun, fun hx => absurd hx hp⟩
      · exact ⟨nofun, fun hx => absurd hx hr⟩
      · exact ⟨nofun, fun hx => by omega⟩
      · exact fun _ => hfilled
      all_goals simp
  | expired hfind hstatus htif hfilled =>
      obtain ⟨hp, hr, hl⟩ := hgone hfind
      have h0 : r.filledQuantity.toNat = 0 := hfilled .quantity
      refine ⟨?_, ?_, fun o ho hid => absurd hid (hl o ho), by omega, ?_, ?_, ?_, ?_, ?_⟩ <;>
        rw [hstatus]
      · exact ⟨nofun, fun hx => absurd hx hp⟩
      · exact ⟨nofun, fun hx => absurd hx hr⟩
      · exact ⟨nofun, fun hx => by omega⟩
      · simp
      · exact fun _ => ⟨htif, hfilled .quantity, hfilled .quote, hfilled .fee⟩
      · simp
      · intro hgtc
        rw [htif] at hgtc
        cases hgtc

namespace World

variable {w w' : World}

/-- **Records and books agree in every reachable world, and records only move forward.** -/
theorem Reachable.record_agrees (h : Reachable w) {id : OrderId} {r : OrderRecord}
    (hr : w.canister.state.orderHistory.get id = some r) :
    (∃ b, w.canister.state.orderBooks.get id.bookId = some b ∧ RecordAgrees b id.seq r) ∧
      ∀ w', Run w w' → ∃ r', w'.canister.state.orderHistory.get id = some r' ∧ r.Evolves r' := by
  refine ⟨?_, fun w' hrun => (hrun.extends h).record hr⟩
  have hs := h.guarded.sound
  obtain ⟨b, hb, -, hterms, hstand⟩ := (hs.records id r hr).book
  exact ⟨b, hb, hstand.agrees (hs.wired.listed _ b hb).wf hterms.quantity⟩

/-- The first order of the sample run rests with twelve of its twenty units traded. -/
theorem record_agrees_sampleWorld :
    ∃ r, sampleWorld.canister.state.orderHistory.get (.new Seq.zero Seq.zero) = some r ∧
      r.status = .open ∧ r.filledQuantity.toNat = 12 ∧
      (∃ b, sampleWorld.canister.state.orderBooks.get Seq.zero = some b ∧
        RecordAgrees b Seq.zero r) ∧
      ∀ w', Run sampleWorld w' →
        ∃ r', w'.canister.state.orderHistory.get (.new Seq.zero Seq.zero) = some r' ∧
          r.Evolves r' := by
  have hsome : (sampleWorld.canister.state.orderHistory.get (.new Seq.zero Seq.zero)).any
      (fun r => r.status = .open ∧ r.filledQuantity.toNat = 12) = true := by decide +kernel
  obtain ⟨r, hr, hp⟩ := (Option.any_eq_true _ _).mp hsome
  obtain ⟨hopen, hfilled⟩ := of_decide_eq_true hp
  obtain ⟨hbook, hrun⟩ := reachable_sampleWorld.record_agrees hr
  exact ⟨r, hr, hopen, hfilled, hbook, hrun⟩

end World

end OisyTrade
