import OisyTrade.Invariant.Drain
import OisyTrade.Script

/-!
# Reserved balances

What a user has reserved in a token is what the user's live orders need and what queued operations
will take, so settling never takes more than is there.
-/

namespace OisyTrade

namespace World

variable {w : World}

/-- **Reservation backing.**  In every reachable world the reserved balance of a user is the sum of
what the books hold for the user's orders and of what queued operations take from them; and no
message, at any point of its execution, settles a queued event that takes more than is reserved. -/
theorem Reachable.reservations_backed (h : Reachable w) :
    (∀ t u, w.canister.state.balances.reserved t u
      = w.canister.state.orderHistory.primary.sum fun id e =>
          if w.canister.state.Reserves t u id e.record then
            w.canister.state.liveReservation id + w.canister.state.queuedFrom id e.record else 0) ∧
    ∀ c, w.canister.Acts c → ∀ before event after,
      c.state.pendingSettlingEvents = before ++ event :: after → ∀ now e,
      State.recordSettlingEvent { c.state with pendingSettlingEvents := before ++ after } event now
        .write = .error e → e ≠ .bug .debitReservedUnderflow ∧ e ≠ .bug .unreserveUnderflow := by
  refine ⟨h.backed, fun c hacts before event after hqueue now e he => ?_⟩
  have hc := hacts.steady h.steady
  rcases (hc.sound.settle_outcome hc.backed hc.numbered hqueue now).of_error he with ⟨hover, -⟩ | ⟨rfl, -⟩
  · constructor
    · rintro rfl
      cases hover
    · rintro rfl
      cases hover
  · exact ⟨nofun, nofun⟩

/-- In the sample run the buyer has sixty units reserved: forty for what is left of the order, twenty
for the fill that waits in the queue. -/
theorem reservations_backed_sampleWorld :
    sampleWorld.canister.state.balances.reserved sampleQuote Seq.zero = 60 ∧
      sampleWorld.canister.state.liveReservation (.new Seq.zero Seq.zero) = 40 ∧
      sampleWorld.canister.state.orderHistory.primary.sum (fun id e =>
        if sampleWorld.canister.state.Reserves sampleQuote Seq.zero id e.record then
          sampleWorld.canister.state.liveReservation id
            + sampleWorld.canister.state.queuedFrom id e.record else 0) = 60 := by
  have hreserved : sampleWorld.canister.state.balances.reserved sampleQuote Seq.zero = 60 := by
    decide +kernel
  refine ⟨hreserved, by decide +kernel, ?_⟩
  rw [← reachable_sampleWorld.reservations_backed.1, hreserved]

end World

end OisyTrade
