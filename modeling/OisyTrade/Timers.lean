import OisyTrade.World

/-!
# Timers

Matching runs on timers.  An order that was placed and a resume set a timer with no delay, and a run
of the timer that leaves work behind sets the next one (`drive_matching`).  A periodic timer runs
the same function.  The entry points of `main.rs` set the timers, after the functions of `lib.rs`
have returned.

A timer may be lost: its run traps, or an upgrade clears it.  `missed` is not in the source.  It
is a history variable that tells whether a timer was lost since the executor last ran.
-/

namespace OisyTrade

/-! ## Entry points -/

/-- `drive_matching`, with the number of timers it sets. -/
def Canister.driveMatching (c : Canister) (rt : Runtime) : Except Trap (ℕ × Canister) := do
  let (status, c) ← c.processPendingOrders rt
  match status with
  | .moreWork => .ok (1, c)
  | .complete | .alreadyRunning => .ok (0, c)

/-- The entry point of a message, with the number of timers it sets. -/
def Message.entry (m : Message) (rt : Runtime) (c : Canister) : Except Trap (ℕ × Canister) := do
  match m with
  | addLimitOrder request => do
      match ← c.addLimitOrder rt request with
      | (.ok _, c) => .ok (1, c)
      | (.error _, c) => .ok (0, c)
  | setHalt pairs false => do
      match ← c.setHalt rt pairs false with
      | (.ok _, c) => .ok (1, c)
      | (.error _, c) => .ok (0, c)
  | processPendingOrders => c.driveMatching rt
  | setHalt pairs true => do
      let (_, c) ← c.setHalt rt pairs true
      .ok (0, c)
  | addTradingPair request => do
      let (_, c) ← c.addTradingPair rt request
      .ok (0, c)
  | cancelLimitOrder orderId => do
      let (_, c) ← c.cancelOrder rt orderId
      .ok (0, c)
  | addTradingAccount trading => do
      let (_, c) ← c.addTradingAccount rt trading
      .ok (0, c)
  | removeTradingAccount trading => do
      let (_, c) ← c.removeTradingAccount rt trading
      .ok (0, c)

/-! ## Worlds with timers -/

/-- The steps of a deposit or withdrawal, none of which sets a timer. -/
inductive World.LedgerStep (w w' : World) : Prop
  | depositStart {rt : Runtime} {token : TokenId} {n : ℕ} {result : Except DepositError Quantity}
      (hstep : w.Step w') (hrun : w.canister.depositStart rt token n = .ok (result, w'.canister))
  | withdrawStart {rt : Runtime} {token : TokenId} {n : ℕ}
      {result : Except WithdrawError (Quantity × Transfer)}
      (hstep : w.Step w') (hrun : w.canister.withdrawStart rt token n = .ok (result, w'.canister))
  | executed (hstep : w.Step w') (hsame : w'.canister = w.canister)
  | delivered {before after : List Call} {call : Call} {reply : LedgerReply} {rt : Runtime}
      (hstep : w.Step w') (hdelivered : w' = w.delivered before call after rt reply)

/-- A world with the number of its timers. -/
structure TimedWorld where
  world : World
  timers : ℕ
  missed : Bool

namespace TimedWorld

/-- **One step of the world, and what it does to the timers.**  The periodic timer may run at any
time. -/
inductive Step : TimedWorld → TimedWorld → Prop
  | message {t : TimedWorld} {m : Message} {rt : Runtime} {n : ℕ} {c : Canister}
      (huser : m ≠ .processPendingOrders) (hrun : m.entry rt t.world.canister = .ok (n, c)) :
      Step t { t with world := { t.world with canister := c }, timers := t.timers + n }
  | fired {t : TimedWorld} {rt : Runtime} {timers n : ℕ} {c : Canister}
      (htimers : t.timers = timers + 1)
      (hrun : t.world.canister.driveMatching rt = .ok (n, c)) :
      Step t { world := { t.world with canister := c }, timers := timers + n, missed := false }
  | periodic {t : TimedWorld} {rt : Runtime} {n : ℕ} {c : Canister}
      (hrun : t.world.canister.driveMatching rt = .ok (n, c)) :
      Step t { world := { t.world with canister := c }, timers := t.timers + n, missed := false }
  | lost {t : TimedWorld} {timers : ℕ} (htimers : t.timers = timers + 1) :
      Step t { t with timers, missed := true }
  | ledger {t : TimedWorld} {w : World} (hstep : t.world.LedgerStep w) :
      Step t { t with world := w }
  | upgraded {t : TimedWorld} {rt : Runtime} {arg : Option Canister.OisyTradeArg} {c : Canister}
      (hrun : t.world.canister.upgrade rt arg = .ok c) :
      Step t { world := { t.world with canister := c, calls := [],
                                       abandoned := t.world.calls ++ t.world.abandoned }
               timers := 0, missed := t.missed || decide (0 < t.timers) }

/-- The canister has just been installed. -/
def start (c : Canister) : TimedWorld := { world := .start c, timers := 0, missed := false }

/-- **The worlds of any run**, with their timers. -/
inductive Reachable : TimedWorld → Prop
  | init {arg : Canister.OisyTradeArg} {rt : Runtime} {c : Canister}
      (hinit : Canister.init arg rt = .ok c) : Reachable (start c)
  | step {t t' : TimedWorld} (hreach : Reachable t) (hstep : Step t t') : Reachable t'

end TimedWorld

/-- The timers run one after the other, with no other message in between, as long as there are any
and the readings last. -/
def Canister.fireTimers : List Runtime → ℕ → Canister → Except Trap (ℕ × Canister)
  | [], timers, c => .ok (timers, c)
  | _ :: _, 0, c => .ok (0, c)
  | rt :: rts, timers + 1, c => do
      let (n, c) ← c.driveMatching rt
      fireTimers rts (timers + n) c

/-! ## The worlds are those of `World` -/

variable {m : Message} {rt : Runtime} {c c' : Canister} {n : ℕ}

lemma Canister.driveMatching_of_run {status : ExecutionStatus}
    (h : c.processPendingOrders rt = .ok (status, c')) :
    c.driveMatching rt = .ok (if status = .moreWork then 1 else 0, c') := by
  rw [driveMatching, h]
  cases status <;> rfl

lemma Canister.driveMatching_eq_ok (h : c.driveMatching rt = .ok (n, c')) :
    ∃ status, c.processPendingOrders rt = .ok (status, c') ∧
      n = if status = .moreWork then 1 else 0 := by
  have hrun := h
  simp only [driveMatching, Except.bind_eq_ok, Prod.exists] at hrun
  obtain ⟨status, c₁, hrun, -⟩ := hrun
  rw [driveMatching_of_run hrun] at h
  cases h
  exact ⟨status, hrun, rfl⟩

/-- An entry point runs its message. -/
lemma Message.run_of_entry (h : m.entry rt c = .ok (n, c')) : m.run rt c = .ok c' := by
  have hdone : ∀ {α : Type} {x : Except Trap (α × Canister)},
      (do let (_, c) ← x; .ok (0, c) : Except Trap (ℕ × Canister)) = .ok (n, c') →
        (do let (_, c) ← x; .ok c : Except Trap Canister) = .ok c' := by
    intro α x hx
    simp only [Except.bind_eq_ok, Except.ok.injEq, Prod.mk.injEq, Prod.exists] at hx ⊢
    obtain ⟨a, c₁, hx, -, rfl⟩ := hx
    exact ⟨a, c₁, hx, rfl⟩
  cases m with
  | addTradingPair request => exact hdone h
  | setHalt pairs halted =>
      cases halted with
      | true => exact hdone h
      | false =>
          simp only [entry, Except.bind_eq_ok, Prod.exists] at h
          obtain ⟨result, c₁, hrun, h⟩ := h
          simp only [run, hrun, Except.bind_ok]
          cases result <;> cases h <;> rfl
  | addLimitOrder request =>
      simp only [entry, Except.bind_eq_ok, Prod.exists] at h
      obtain ⟨result, c₁, hrun, h⟩ := h
      simp only [run, hrun, Except.bind_ok]
      cases result <;> cases h <;> rfl
  | cancelLimitOrder orderId => exact hdone h
  | processPendingOrders =>
      obtain ⟨status, hrun, -⟩ := Canister.driveMatching_eq_ok h
      simp only [run, hrun, Except.bind_ok]
  | addTradingAccount trading => exact hdone h
  | removeTradingAccount trading => exact hdone h

/-- A message that returns has an entry point that returns. -/
lemma Message.entry_of_run (h : m.run rt c = .ok c') : ∃ n, m.entry rt c = .ok (n, c') := by
  cases m with
  | setHalt pairs halted =>
      simp only [run, Except.bind_eq_ok, Except.ok.injEq, Prod.exists] at h
      obtain ⟨result, _, hrun, rfl⟩ := h
      cases halted with
      | true => exact ⟨0, by simp only [entry, hrun, Except.bind_ok]⟩
      | false =>
          simp only [entry, hrun, Except.bind_ok]
          cases result <;> exact ⟨_, rfl⟩
  | addLimitOrder request =>
      simp only [run, Except.bind_eq_ok, Except.ok.injEq, Prod.exists] at h
      obtain ⟨result, _, hrun, rfl⟩ := h
      simp only [entry, hrun, Except.bind_ok]
      cases result <;> exact ⟨_, rfl⟩
  | processPendingOrders =>
      simp only [run, Except.bind_eq_ok, Except.ok.injEq, Prod.exists] at h
      obtain ⟨status, _, hrun, rfl⟩ := h
      exact ⟨_, Canister.driveMatching_of_run hrun⟩
  | _ =>
      simp only [run, Except.bind_eq_ok, Except.ok.injEq, Prod.exists] at h
      obtain ⟨result, _, hrun, rfl⟩ := h
      exact ⟨0, by simp only [entry, hrun, Except.bind_ok]⟩

namespace World

variable {w w' : World}

lemma LedgerStep.step (h : w.LedgerStep w') : w.Step w' := by
  cases h <;> assumption

end World

namespace TimedWorld

variable {t t' : TimedWorld}

/-- **A step with timers is a step of the world**, or a timer is lost. -/
theorem Step.run (h : t.Step t') : t.world.Run t'.world := by
  cases h with
  | message huser hrun =>
      exact Relation.ReflTransGen.single (.message (Message.run_of_entry hrun))
  | fired htimers hrun =>
      exact Relation.ReflTransGen.single
        (.message (Message.run_of_entry (m := .processPendingOrders) hrun))
  | periodic hrun =>
      exact Relation.ReflTransGen.single
        (.message (Message.run_of_entry (m := .processPendingOrders) hrun))
  | lost htimers => exact Relation.ReflTransGen.refl
  | ledger hstep => exact Relation.ReflTransGen.single hstep.step
  | upgraded hrun => exact Relation.ReflTransGen.single (.upgraded hrun)

lemma Reachable.world (h : t.Reachable) : t.world.Reachable := by
  induction h with
  | init hinit => exact .init hinit
  | step _ hstep ih => exact ih.run hstep.run

end TimedWorld

/-- **Every reachable world is reached with some timers.** -/
theorem World.Reachable.timed {w : World} (h : w.Reachable) :
    ∃ t : TimedWorld, t.Reachable ∧ t.world = w := by
  induction h with
  | init hinit => exact ⟨_, .init hinit, rfl⟩
  | @step w w' _ _ hstep ih =>
      obtain ⟨t, ht, rfl⟩ := ih
      have hledger : t.world.LedgerStep w' → ∃ t' : TimedWorld, t'.Reachable ∧ t'.world = w' :=
        fun hl => ⟨_, ht.step (.ledger hl), rfl⟩
      cases id hstep with
      | @message m rt c hrun =>
          obtain ⟨n, hentry⟩ := Message.entry_of_run hrun
          by_cases hm : m = .processPendingOrders
          · subst hm
            exact ⟨_, ht.step (.periodic hentry), rfl⟩
          · exact ⟨_, ht.step (.message hm hentry), rfl⟩
      | depositStarted hrun => exact hledger (.depositStart hstep hrun)
      | depositRefused hrun => exact hledger (.depositStart hstep hrun)
      | withdrawStarted hrun => exact hledger (.withdrawStart hstep hrun)
      | withdrawRefused hrun => exact hledger (.withdrawStart hstep hrun)
      | executed hcalls hwaiting hmoves => exact hledger (.executed hstep rfl)
      | executedAbandoned hcalls hwaiting hmoves => exact hledger (.executed hstep rfl)
      | delivered hcalls hanswered => exact hledger (.delivered hstep rfl)
      | upgraded hrun => exact ⟨_, ht.step (.upgraded hrun), rfl⟩

end OisyTrade
