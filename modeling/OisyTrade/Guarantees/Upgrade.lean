import OisyTrade.Invariant.Reach
import OisyTrade.Script

/-!
# Upgrades

The snapshot of a reachable state restores it: only the running task and the guards are forgotten.
-/

namespace OisyTrade

namespace World

variable {w : World}

/-- **An upgrade is the identity.**  The snapshot keeps neither the resting index nor empty levels;
both are determined by what it keeps, because the books of a reachable world are well formed. -/
theorem Reachable.snapshot_restores (h : Reachable w) :
    (StateSnapshot.ofState w.canister.state).intoState w.canister.state.orderHistory
        w.canister.state.tradeHistory w.canister.state.balances.reopen w.canister.state.userRegistry
      = .ok { w.canister.state with
          activeTasks := SortedSet.empty, inFlightUserOps := SortedSet.empty } := by
  have hs := h.guarded.sound
  refine StateSnapshot.intoState_ofState (fun id b hb => ?_) hs.wired.pairs
  have hl := hs.wired.listed id b hb
  exact ⟨hl.id, hl.wf.sound⟩

/-- The sample world has a partially filled resting order, a pending order, a queued settling event
and accrued fees. -/
theorem snapshot_restores_sampleWorld :
    sampleWorld.canister.state.pendingSettlingEvents.length = 1 ∧
      (sampleWorld.canister.state.balances.feePool.perToken.get sampleQuote).isSome = true ∧
      (StateSnapshot.ofState sampleWorld.canister.state).intoState
          sampleWorld.canister.state.orderHistory sampleWorld.canister.state.tradeHistory
          sampleWorld.canister.state.balances.reopen sampleWorld.canister.state.userRegistry
        = .ok { sampleWorld.canister.state with
            activeTasks := SortedSet.empty, inFlightUserOps := SortedSet.empty } :=
  ⟨by decide +kernel, by decide +kernel, reachable_sampleWorld.snapshot_restores⟩

end World

end OisyTrade
