import OisyTrade.Guarantees.Executor
import OisyTrade.Invariant.Progress

/-!
# The schedule of the executor does not matter

The timer calls `run_once` until nothing is left to do.  How often it has to, how many orders a batch
takes, which book is visited next and when a queued event is settled depends on the execution policy
and on the readings of the instruction counter.

By `runOnce_rule` a schedule of calls makes progress in the sense of `State.Progress`, and two
schedules that come to an end agree.
-/

namespace OisyTrade

namespace Canister

variable {c c' : Canister} {rt : Runtime}

/-! ## Schedules -/

/-- Another execution policy. -/
def withPolicy (c : Canister) (policy : ExecutionPolicy) : Canister :=
  { c with state := { c.state with executionPolicy := policy } }

/-- Calls of `run_once` one after the other, each under its own policy.  The result is the status of
the last call, or that of the canister if there was none. -/
def runTurns (turns : List (ExecutionPolicy × Runtime)) (c : Canister) :
    Except Trap (ExecutionStatus × Canister) :=
  turns.foldlM (fun (last : ExecutionStatus × Canister) turn =>
    (last.2.withPolicy turn.1).runOnce turn.2) (c.state.executionStatus, c)

/-- The canister has come from `s` by matching and settling. -/
def Progressed (s : State) (c : Canister) : Prop :=
  c.state.Sound ∧ ∃ work legs, s.Progress work legs c.state

variable {s : State}

lemma Progressed.settle (h : Progressed s c) {event : SettlingEvent} {rest : List SettlingEvent}
    {now : Timestamp} (hqueue : c.state.pendingSettlingEvents = event :: rest)
    (hok : (c.withQueue rest).processEvent (.settling event) now = .ok c') : Progressed s c' := by
  obtain ⟨hs, work, legs, hprogress⟩ := h
  obtain ⟨s', hs', rfl⟩ := processEvent_eq_ok hok
  obtain ⟨pair, scale, pieces, hevent, hsettled⟩ := hs.settled
    (show c.state.pendingSettlingEvents = [] ++ event :: rest from hqueue) hs'
  refine ⟨(hsettled.sound (fun e he => ?_) hs).1, work, legs,
    hprogress.drained hqueue (hsettled.drained hevent)⟩
  rw [hqueue]
  exact List.mem_cons_of_mem _ he

lemma Progressed.match (h : Progressed s c) (hs : s.Sound) {event : MatchingEvent}
    {now : Timestamp} (hadmits : c.state.Admits now (.matching event))
    (hok : c.processEvent (.matching event) now = .ok c') : Progressed s c' := by
  obtain ⟨hs₁, work, legs, hprogress⟩ := h
  obtain ⟨s', hs', rfl⟩ := processEvent_eq_ok hok
  obtain ⟨-, -, -, -, -, hhalt⟩ := id hadmits
  obtain ⟨b, b', orders, out, pair, scale, fills, refunds, groups, -, -, hmatched⟩ :=
    hs₁.matched hadmits hs'
  rw [hprogress.permissions] at hhalt
  exact ⟨(hmatched.sound hs₁).1, _, _, hprogress.matched hs hs₁ hhalt hmatched⟩

lemma Progressed.withPolicy (h : Progressed s c) (policy : ExecutionPolicy) :
    Progressed s (c.withPolicy policy) := by
  obtain ⟨hs, work, legs, hprogress⟩ := h
  exact ⟨((State.Frame.of_registry_eq rfl).sound hs).1, work, legs, hprogress.withPolicy policy⟩

/-- **Every schedule makes progress.** -/
theorem runTurns_progressed (hs : s.Sound) {turns : List (ExecutionPolicy × Runtime)}
    {status : ExecutionStatus} (h : Progressed s c)
    (hrun : c.runTurns turns = .ok (status, c')) :
    Progressed s c' ∧ status = c'.state.executionStatus := by
  induction turns generalizing c with
  | nil =>
      cases hrun
      exact ⟨h, rfl⟩
  | cons turn turns ih =>
      rw [runTurns, List.foldlM_cons, Except.bind_eq_ok] at hrun
      obtain ⟨⟨status₁, c₁⟩, hone, hrest⟩ := hrun
      obtain ⟨h₁, rfl⟩ := runOnce_rule (fun hc => hc.settle) (fun hc => hc.match hs)
        (h.withPolicy turn.1) hone
      exact ih h₁ hrest

end Canister

namespace World

variable {w : World}

/-- **Chunking, batching and budget cuts do not change the outcome.**  Two schedules of calls of
`run_once` from the same reachable world, each call with its own policy and its own readings of the
instruction counter, that both end with nothing left to do end in states with the same books, the same
balances and fees, the same records and the same trades, up to times.  If only one book had orders to
match, the trades of every user stand in the same order, too. -/
theorem Reachable.schedules_agree (h : Reachable w)
    {turns turns' : List (ExecutionPolicy × Runtime)} {c c' : Canister}
    (hrun : w.canister.runTurns turns = .ok (.complete, c))
    (hrun' : w.canister.runTurns turns' = .ok (.complete, c')) :
    c.state.SameOutcome c'.state ∧
      ∀ book, (∀ id, id ≠ book → w.canister.state.matchable id = 0) →
        ∀ user, c'.state.tradeHistory.userKeys user = c.state.tradeHistory.userKeys user := by
  have hs := h.guarded.sound
  have hstart : Canister.Progressed w.canister.state w.canister :=
    ⟨hs, _, _, State.Progress.refl _⟩
  obtain ⟨⟨-, work, legs, hprogress⟩, hstatus⟩ := Canister.runTurns_progressed hs hstart hrun
  obtain ⟨⟨-, work', legs', hprogress'⟩, hstatus'⟩ := Canister.runTurns_progressed hs hstart hrun'
  obtain ⟨hmatched, hsettled⟩ := State.executionStatus_eq_complete.mp hstatus.symm
  obtain ⟨hmatched', hsettled'⟩ := State.executionStatus_eq_complete.mp hstatus'.symm
  have hdone : c.state.Finished := ⟨hmatched, hsettled⟩
  have hdone' : c'.state.Finished := ⟨hmatched', hsettled'⟩
  refine ⟨hprogress.agree hprogress' hs hdone hdone', fun book hone user => ?_⟩
  obtain rfl := hprogress.work_eq hprogress' hdone hdone'
  have hidle : ∀ id, id ≠ book → work' id = .idle := by
    intro id hid
    have hzero := hone id hid
    rw [State.matchable, State.pendingCount] at hzero
    cases hb : w.canister.state.orderBooks.get id with
    | none => exact hprogress.idle id (Or.inl hb)
    | some b =>
        cases hhalt : w.canister.state.permissions.isHalted id with
        | true => exact hprogress.idle id (Or.inr hhalt)
        | false =>
            rw [hhalt, hb] at hzero
            have hnone : b.pendingOrders = [] := List.length_eq_zero_iff.mp hzero
            exact hprogress.idle_of_empty hdone hb hhalt hnone
  rw [hprogress.userTrades_eq hs hsettled, hprogress'.userTrades_eq hs hsettled',
    hprogress.legs_of_one hidle, hprogress'.legs_of_one hidle]

/-- One order in a batch, one unit in an event. -/
def cautiousPolicy : ExecutionPolicy :=
  { maxOrdersPerChunk := 1, instructionBudget := 1000, maxSettlementUnitsPerEvent := 1
    chunkNonzero := by decide, budgetNonzero := by decide, unitsNonzero := by decide
    budgetBounded := by decide }

/-- Calls under that policy, cut off at these readings. -/
def cautiousTurns (cuts : List ℕ) : List (ExecutionPolicy × Runtime) :=
  cuts.map fun cut => (cautiousPolicy, sampleRuntime 1 cut)

lemma exists_of_complete {c : Canister} {turns : List (ExecutionPolicy × Runtime)}
    (h : (c.runTurns turns).toOption.map Prod.fst = some .complete) :
    ∃ c', c.runTurns turns = .ok (.complete, c') := by
  cases hrun : c.runTurns turns with
  | error trap =>
      rw [hrun] at h
      cases h
  | ok result =>
      obtain ⟨status, c'⟩ := result
      rw [hrun] at h
      cases h
      exact ⟨c', rfl⟩

/-- Six orders on two books: one call that does everything, and many that are cut short. -/
theorem schedules_agree_crowdedWorld : crowdedWorld.canister.state.matchablePending = 6 ∧
    ∃ c c', crowdedWorld.canister.runTurns [(.default, sampleRuntime 1 100)] = .ok (.complete, c) ∧
      crowdedWorld.canister.runTurns (cautiousTurns [3, 2, 100, 3, 100, 3, 3, 3, 100, 100])
        = .ok (.complete, c') ∧
      c.state.SameOutcome c'.state := by
  obtain ⟨c, hrun⟩ := exists_of_complete
    (show (crowdedWorld.canister.runTurns [(.default, sampleRuntime 1 100)]).toOption.map Prod.fst
      = some .complete by decide +kernel)
  obtain ⟨c', hrun'⟩ := exists_of_complete
    (show (crowdedWorld.canister.runTurns
        (cautiousTurns [3, 2, 100, 3, 100, 3, 3, 3, 100, 100])).toOption.map Prod.fst
      = some .complete by decide +kernel)
  exact ⟨by decide +kernel, c, c', hrun, hrun',
    (reachable_crowdedWorld.schedules_agree hrun hrun').1⟩

end World

end OisyTrade
