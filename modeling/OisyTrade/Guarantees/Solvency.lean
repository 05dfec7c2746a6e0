import OisyTrade.Invariant.Books
import OisyTrade.Script

/-!
# Conservation and solvency

The two equations of the books, in every reachable world (`Reachable.conservation` and
`Reachable.solvency`), and when something is lost.  That happens only at the end of a call, and only
if the credit there does not fit the caller's free balance (`Reachable.delivery_traps`): a deposit is
checked against the balance when it starts and not when it is credited, and a failed withdrawal is
credited back without a check; meanwhile trades may have filled the row.
-/

namespace OisyTrade

namespace World

variable {w w' : World}

/-! ## Credits that fit -/

/-- **If the step is the end of a call of this kind with a credit, then the credit fits.** -/
def CreditFits (kind : CallKind) (w w' : World) : Prop :=
  ∀ before call after transfer reply earlier rt, w.calls = before ++ call :: after →
    call.requests = ⟨transfer, some reply⟩ :: earlier →
    w' = w.delivered before call after rt reply → call.kind = kind → call.CreditsAfter reply →
    w.canister.state.CreditFits call.caller call.token call.amount

/-- **Worlds reached by steps that satisfy `Q`.** -/
inductive ReachableBy (Q : World → World → Prop) : World → Prop
  | init {arg : Canister.OisyTradeArg} {rt : Runtime} {c : Canister}
      (hinit : Canister.init arg rt = .ok c) : ReachableBy Q (start c)
  | step {w w' : World} (hreach : ReachableBy Q w) (hQ : Q w w') (hstep : Step w w') :
      ReachableBy Q w'

lemma ReachableBy.reachable {Q : World → World → Prop} (h : ReachableBy Q w) : Reachable w := by
  induction h with
  | init hinit => exact .init hinit
  | step _ _ hstep ih => exact .step ih trivial hstep

lemma creditFits_withFee {s : Canister} {user : Principal} {token : TokenId} {amount : Quantity}
    (fee : Option ℕ) : (s.withFee token fee).state.CreditFits user token amount ↔
      s.state.CreditFits user token amount := by
  cases fee <;> exact Iff.rfl

/-- **A delivery traps exactly if the call ends with a credit that does not fit.** -/
theorem Guarded.delivery_traps (hw : w.Guarded) (ho : w.canister.state.Owned) (hb : w.Books)
    {before after : List Call} {call : Call} {transfer : Transfer} {reply : LedgerReply}
    {earlier : List LedgerRequest} (rt : Runtime) (hcalls : w.calls = before ++ call :: after)
    (hanswered : call.requests = ⟨transfer, some reply⟩ :: earlier) :
    (∃ trap, call.resume rt w.canister reply = .error trap) ↔ call.CreditsAfter reply ∧
      ¬ w.canister.state.CreditFits call.caller call.token call.amount := by
  have hmem : call ∈ w.calls := by
    rw [hcalls]
    exact List.mem_append_right _ List.mem_cons_self
  have hcall : call.Orderly := hb.orderly call (List.mem_append_left _ hmem)
  have htrading := hw.caller hmem
  constructor
  · rintro ⟨trap, htrap⟩
    obtain ⟨hcredits, fee, hdeposit⟩ := hcall.resume_eq_error hanswered htrap
    refine ⟨hcredits, fun hfits => ?_⟩
    obtain ⟨hm, -⟩ := Canister.moved_withFee w.canister call.token fee
    have ho' : (w.canister.withFee call.token fee).state.Owned := by
      cases fee with
      | none => exact ho
      | some fee => exact ⟨ho.rows, ho.grants⟩
    have htrading' : (w.canister.withFee call.token fee).state.userRegistry.tradingAccounts.get
        call.caller = none := by
      cases fee <;> exact htrading
    obtain ⟨s, hs⟩ := ((creditFits_withFee fee).mpr hfits).deposit (hm.sound hw.sound).1 ho' htrading'
    rw [hs] at hdeposit
    cases hdeposit
  · rintro ⟨hcredits, hfits⟩
    cases hresume : call.resume rt w.canister reply with
    | error trap => exact ⟨trap, rfl⟩
    | ok r =>
        obtain ⟨c, r⟩ := r
        refine absurd ?_ hfits
        rw [Call.CreditsAfter] at hcredits
        cases Call.resume_eq_ok hresume with
        | deposited hkind hreply hproc =>
            obtain ⟨s, hs, -⟩ := Canister.processEvent_eq_ok hproc
            exact State.creditFits_of_deposit htrading hs
        | depositRefused hkind hreply =>
            rw [hkind] at hcredits
            obtain ⟨blockIndex, hok⟩ := hcredits
            exact absurd hok (hreply blockIndex)
        | withdrawn hkind hreply =>
            rw [hkind] at hcredits
            exact absurd hreply (hcredits.1 _)
        | @creditedBack _ fee state hkind hreply hok =>
            refine (creditFits_withFee fee).mp (State.creditFits_of_deposit ?_ hok)
            cases fee <;> exact htrading
        | retried hkind hreply hrequests hamount hpos =>
            rw [hkind] at hcredits
            rcases Call.resume_withdraw hkind rt w.canister reply with
              ⟨-, outcome, hfinish, -⟩ | ⟨hretries, -⟩
            · rw [hfinish] at hresume
              exact absurd hresume Call.finish_inr
            · rw [hretries] at hcredits
              cases hcredits.2

/-- **In a run whose credits fit, no call of the kind traps.** -/
lemma ReachableBy.not_trapped {kind : CallKind} (h : ReachableBy (CreditFits kind) w) :
    ∀ e ∈ w.finished, e.1.kind = kind → e.2.isTrapped = false := by
  induction h with
  | init hinit => exact fun _ he => absurd he List.not_mem_nil
  | @step w w' hreach hfits hstep ih =>
      have hw := hreach.reachable
      cases hstep with
      | @delivered before after call transfer reply earlier rt hcalls hanswered =>
          have hfit := hfits before call after transfer reply earlier rt hcalls hanswered rfl
          have hdelivery := w.delivery before call after rt reply
          generalize w.delivered before call after rt reply = w' at hdelivery
          cases hdelivery with
          | @ended c result hresumed =>
              intro e he hkind
              rcases List.mem_cons.mp he with rfl | he
              · exact (ended_gain hresumed sampleBase).1
              · exact ih e he hkind
          | asked hresumed => exact ih
          | trapped htrap =>
              intro e he hkind
              rcases List.mem_cons.mp he with rfl | he
              · obtain ⟨hcredits, hnot⟩ := (hw.guarded.delivery_traps hw.owned hw.books rt hcalls
                  hanswered).mp ⟨_, htrap⟩
                exact absurd (hfit hkind hcredits) hnot
              · exact ih e he hkind
      | _ => exact ih

/-- What has ended stays ended. -/
lemma Step.finished (hstep : Step w w') : ∃ ended, w'.finished = ended ++ w.finished := by
  cases hstep with
  | @delivered before after call transfer reply earlier rt hcalls hanswered =>
      have hdelivery := w.delivery before call after rt reply
      generalize w.delivered before call after rt reply = w' at hdelivery
      cases hdelivery with
      | @ended c result hresumed => exact ⟨[(call, result)], rfl⟩
      | asked hresumed => exact ⟨[], rfl⟩
      | @trapped trap htrap => exact ⟨[(call, .trapped trap)], rfl⟩
  | _ => exact ⟨[], rfl⟩

/-- **A run in which no call of the kind trapped is a run whose credits fit.** -/
lemma Reachable.by_creditFits {kind : CallKind} (h : Reachable w)
    (hnone : ∀ e ∈ w.finished, e.1.kind = kind → e.2.isTrapped = false) :
    ReachableBy (CreditFits kind) w := by
  induction h with
  | init hinit => exact .init hinit
  | @step w w' hreach _ hstep ih =>
      have hw := ReachableWhile.reachable hreach
      obtain ⟨ended, hfinished⟩ := hstep.finished
      rw [hfinished] at hnone
      refine .step (ih fun e he => hnone e (List.mem_append_right _ he)) ?_ hstep
      intro before call after transfer reply earlier rt hcalls hanswered hw' hkind hcredits
      by_contra hnot
      obtain ⟨trap, htrap⟩ := (hw.guarded.delivery_traps hw.owned hw.books rt hcalls hanswered).mpr
        ⟨hcredits, hnot⟩
      rw [hw', World.delivered, htrap] at hfinished
      have htrapped := hnone (call, .trapped trap) (by rw [← hfinished]; exact List.mem_cons_self)
        hkind
      cases htrapped

/-- **A withdrawal takes its amount from one free balance.** -/
lemma withdrawStarted_debits {rt : Runtime} {token : TokenId} {n : ℕ} {amount : Quantity}
    {transfer : Transfer} {c : Canister}
    (hrun : w.canister.withdrawStart rt token n = .ok (.ok (amount, transfer), c)) :
    (∀ t, c.total t + (if token = t then amount.toNat else 0) = w.canister.total t) ∧
    ∃ uid, w.canister.state.userRegistry.fundingId rt.msgCaller = some uid ∧
      ∀ t u, c.state.balances.free t u + (if token = t ∧ uid = u then amount.toNat else 0)
          = w.canister.state.balances.free t u ∧
        c.state.balances.reserved t u = w.canister.state.balances.reserved t u := by
  rcases Canister.withdrawStart_eq_ok hrun with ⟨e, he, -⟩ |
    ⟨amount', c₁, state, he, -, -, -, -, rfl, hdebit, rfl⟩
  · cases he
  · cases he
    obtain ⟨uid, balances, huid, hwithdraw, rfl⟩ := State.withdraw_eq_ok hdebit
    refine ⟨fun t => ?_, uid, huid, fun t u => ⟨?_, State.reserved_of_withdraw hwithdraw t u⟩⟩
    · rw [Canister.total, Canister.total]
      exact TokenBalance.total_withdraw hwithdraw t
    · obtain ⟨b, hrow, hfree, -⟩ := TokenBalance.withdraw_eq_ok hwithdraw
      show balances.free t u + _ = w.canister.state.balances.free t u
      rw [hrow.free]
      split_ifs with hkey
      · obtain ⟨rfl, rfl⟩ := hkey
        exact hfree
      · exact Nat.add_zero _

/-- **A withdrawal that fails gives its amount back** to the same free balance. -/
lemma CallersKnown.credits_back (h : w.CallersKnown) {call : Call} (hcall : call ∈ w.calls)
    {rt : Runtime} {reply : LedgerReply} {c : Canister} {e : WithdrawError}
    (hresume : call.resume rt w.canister reply = .ok (c, .inl (.withdraw e))) :
    (∀ t, c.total t = w.canister.total t + call.amountOf .withdraw t) ∧
    ∃ uid, w.canister.state.userRegistry.fundingId call.caller = some uid ∧
      ∀ t u, c.state.balances.free t u = w.canister.state.balances.free t u
          + (if call.token = t ∧ uid = u then call.amount.toNat else 0) ∧
        c.state.balances.reserved t u = w.canister.state.balances.reserved t u := by
  have hresumed := Call.resume_eq_ok hresume
  refine ⟨hresumed.total, ?_⟩
  cases hresumed with
  | @creditedBack _ fee state hkind hreply hok =>
      obtain ⟨uid, huid⟩ := h call hcall hkind
      refine ⟨uid, huid, fun t u => ?_⟩
      have huser : (w.canister.withFee call.token fee).state.userRegistry.fundingId call.caller
          = some uid := by cases fee <;> exact huid
      have hcredited := State.credited_of_deposit hok huser t u
      cases fee <;> exact hcredited

/-! ## Main results -/

/-- **Token conservation**, in every reachable world.  What the canister accounts for, with the debits
of waiting withdrawals, what withdrawals have taken out and what was lost to credits that did not
fit, is what deposits have brought in.  No message and no upgrade changes a total, and a withdrawal
that fails gives back what it took. -/
theorem Reachable.conservation (h : Reachable w) :
    (∀ t, w.canister.total t + w.debited t + w.completed .withdraw t + w.trapped .withdraw t
      = w.completed .deposit t) ∧
    (∀ (m : Message) rt c, m.run rt w.canister = .ok c → ∀ t, c.total t = w.canister.total t) ∧
    (∀ rt arg c, w.canister.upgrade rt arg = .ok c → ∀ t, c.total t = w.canister.total t) ∧
    (∀ rt token n e c, w.canister.withdrawStart rt token n = .ok (.error e, c) → c = w.canister) ∧
    (∀ rt token n amount transfer c,
      w.canister.withdrawStart rt token n = .ok (.ok (amount, transfer), c) →
      ∀ t, c.total t + (if token = t then amount.toNat else 0) = w.canister.total t) ∧
    (∀ call ∈ w.calls, ∀ rt reply c e,
      call.resume rt w.canister reply = .ok (c, .inl (.withdraw e)) →
      ∀ t, c.total t = w.canister.total t + call.amountOf .withdraw t) := by
  refine ⟨h.books.conserved, fun m rt c hrun => Message.run_total hrun,
    fun rt arg c hrun => Canister.upgrade_total h.guarded.sound hrun, ?_, ?_, ?_⟩
  · intro rt token n e c hrun
    rcases Canister.withdrawStart_eq_ok hrun with ⟨_, -, hc⟩ | ⟨_, _, _, he, -⟩
    · exact hc
    · cases he
  · intro rt token n amount transfer c hrun
    exact (withdrawStarted_debits hrun).1
  · intro call hcall rt reply c e hresume
    exact (h.callersKnown.credits_back hcall hresume).1

/-- In the run that loses 2000 of a token, these are missing from the total. -/
theorem conservation_lostWorld : lostWorld.trapped .withdraw sampleQuote = 2000 ∧
    lostWorld.canister.total sampleQuote + lostWorld.debited sampleQuote
      + lostWorld.completed .withdraw sampleQuote + lostWorld.trapped .withdraw sampleQuote
        = lostWorld.completed .deposit sampleQuote :=
  ⟨by decide +kernel, reachable_lostWorld.conservation.1 sampleQuote⟩

/-- **Solvency**, in every reachable world.  The canister's account on each ledger holds what the
canister accounts for, the deposits that are still to be credited, the withdrawals that the ledger
has not executed, and what was lost.  No two calls of a caller on a token wait at once.  A withdrawal
makes at most two transfers, of which at most one succeeds, each of a positive amount that with its
fee is what was debited; and one that returns an error leaves every balance as if it had not been
made. -/
theorem Reachable.solvency (h : Reachable w) :
    (∀ t, w.ledger t = w.canister.total t + w.uncredited t + w.untransferred t
      + w.trapped .deposit t + w.trapped .withdraw t) ∧
    (w.calls.map fun call => (call.caller, call.token)).Nodup ∧
    (∀ call ∈ w.openCalls ++ w.finished.map Prod.fst, call.kind = .withdraw →
      call.requests.length ≤ 2 ∧ (call.requests.filter LedgerRequest.succeeded).length ≤ 1 ∧
      ∀ request ∈ call.requests, 1 ≤ request.transfer.amount ∧
        request.transfer.amount + request.transfer.fee = call.amount.toNat) ∧
    (∀ rt token n amount transfer c,
      w.canister.withdrawStart rt token n = .ok (.ok (amount, transfer), c) →
      ∃ uid, w.canister.state.userRegistry.fundingId rt.msgCaller = some uid ∧
        ∀ t u, c.state.balances.free t u + (if token = t ∧ uid = u then amount.toNat else 0)
            = w.canister.state.balances.free t u ∧
          c.state.balances.reserved t u = w.canister.state.balances.reserved t u) ∧
    (∀ call ∈ w.calls, ∀ rt reply c e,
      call.resume rt w.canister reply = .ok (c, .inl (.withdraw e)) →
      ∃ uid, w.canister.state.userRegistry.fundingId call.caller = some uid ∧
        ∀ t u, c.state.balances.free t u = w.canister.state.balances.free t u
            + (if call.token = t ∧ uid = u then call.amount.toNat else 0) ∧
          c.state.balances.reserved t u = w.canister.state.balances.reserved t u) := by
  refine ⟨fun t => ?_, ?_, ?_, ?_, ?_⟩
  · have hsolvent := h.books.solvent t
    have howed : w.overOpen (·.owed t) = w.uncredited t + w.untransferred t :=
      overOpen_add (·.uncredited t) (·.untransferred t)
    rwa [howed, ← Nat.add_assoc] at hsolvent
  · have hnodup := h.guarded.nodup
    rwa [show w.calls.map Call.key = (w.calls.map fun call => (call.caller, call.token)).map toLex
      from (List.map_map ..).symm, List.nodup_map_iff toLex.injective] at hnodup
  · intro call hcall hkind
    have horderly : call.Orderly := by
      rcases List.mem_append.mp hcall with hopen | hended
      · exact h.books.orderly call hopen
      · obtain ⟨e, he, rfl⟩ := List.mem_map.mp hended
        exact h.books.ended e he
    exact ⟨horderly.count, horderly.succeeded_once, horderly.withdraw hkind⟩
  · intro rt token n amount transfer c hrun
    exact (withdrawStarted_debits hrun).2
  · intro call hcall rt reply c e hresume
    exact (h.callersKnown.credits_back hcall hresume).2

/-- What the run has lost is still on the ledger. -/
theorem solvency_lostWorld : lostWorld.ledger sampleQuote
    = lostWorld.canister.total sampleQuote + lostWorld.uncredited sampleQuote
      + lostWorld.untransferred sampleQuote + lostWorld.trapped .deposit sampleQuote
      + lostWorld.trapped .withdraw sampleQuote :=
  reachable_lostWorld.solvency.1 sampleQuote

/-- **When a continuation traps**, in every reachable world: exactly if the call ends with a credit
that does not fit. -/
theorem Reachable.resume_traps_iff (h : Reachable w) {before after : List Call} {call : Call}
    {transfer : Transfer} {reply : LedgerReply} {earlier : List LedgerRequest} (rt : Runtime)
    (hcalls : w.calls = before ++ call :: after)
    (hanswered : call.requests = ⟨transfer, some reply⟩ :: earlier) :
    (∃ trap, call.resume rt w.canister reply = .error trap) ↔ call.CreditsAfter reply ∧
      ¬ w.canister.state.CreditFits call.caller call.token call.amount :=
  h.guarded.delivery_traps h.owned h.books rt hcalls hanswered

/-- The withdrawal that the ledger has refused traps: it ends with a credit that does not fit. -/
theorem resume_traps_refusedWorld :
    (∃ trap, refusedCall.resume (sampleRuntime 11 9) refusedWorld.canister .temporarilyUnavailable
      = .error trap) ↔ refusedCall.CreditsAfter .temporarilyUnavailable ∧
        ¬ refusedWorld.canister.state.CreditFits refusedCall.caller refusedCall.token
          refusedCall.amount :=
  @Reachable.resume_traps_iff refusedWorld reachable_refusedWorld [] [] refusedCall
    (firstTransfer refusedCall.amount 0) .temporarilyUnavailable [] (sampleRuntime 11 9)
    (by decide +kernel) (by decide +kernel)

/-- **A run loses nothing exactly if its credits fit.**  No call of the kind has trapped in a world
exactly if the world can be reached by steps whose credits fit. -/
theorem Reachable.lossless_iff (h : Reachable w) (kind : CallKind) :
    (∀ e ∈ w.finished, e.1.kind = kind → e.2.isTrapped = false) ↔
      ReachableBy (CreditFits kind) w :=
  ⟨h.by_creditFits, ReachableBy.not_trapped⟩

/-- A refused withdrawal was credited back, and nothing was lost. -/
theorem lossless_creditedWorld :
    creditedWorld.finished.map (fun e => (e.1.kind, e.2))
        = [(.withdraw, .withdraw .ledgerTemporarilyUnavailable), (.deposit, .ok 8),
          (.deposit, .ok 7)] ∧
      ReachableBy (CreditFits .withdraw) creditedWorld :=
  ⟨by decide +kernel, (reachable_creditedWorld.lossless_iff .withdraw).mp (by decide +kernel)⟩

end World

end OisyTrade
