import OisyTrade.Invariant.Halts
import OisyTrade.Guarantees.Delegation
import OisyTrade.Guarantees.Executor

/-!
# Halts

A halted book is contained: however the run goes on, nothing trades on it and no order enters it,
and until the halt is lifted its orders can only be canceled.

A halt does not lock anybody in.  What the permissions say does not matter to cancels, deposits,
withdrawals, grants and the settling of what has been matched.  And it does not touch the other
books: the executor treats them as if nothing were pending on the halted one.
-/

namespace OisyTrade

/-! ## Contained books -/

namespace World

variable {w w' : World} {book : OrderBookId}

/-- A halt of all pairs or of this book is in force. -/
def Halted (book : OrderBookId) (w : World) : Prop :=
  InForce none w.canister.events ∨ InForce (some book) w.canister.events

lemma Reachable.isHalted_iff (h : Reachable w) (book : OrderBookId) :
    w.canister.state.permissions.isHalted book = true ↔ w.Halted book := by
  rw [Permissions.isHalted_iff, h.haltsLogged, halted_haltsOf, halted_haltsOf]
  exact Iff.rfl

/-- A step from a world in which the book is halted. -/
def HaltedStep (book : OrderBookId) (w w' : World) : Prop := w.Halted book ∧ Step w w'

/-- **One step contains a halted book**, also the step that lifts the halt. -/
lemma HaltedStep.contained (hw : Reachable w) (h : HaltedStep book w w') :
    w.canister.Contained book w'.canister := by
  obtain ⟨hhalted, hstep⟩ := h
  rw [← hw.isHalted_iff] at hhalted
  rcases hstep.logs hw.guarded with hlogs | ⟨event, timestamp, hproc⟩
  · exact (hstep.guarded hw.guarded).1.contained hw.guarded.sound hhalted hlogs
  · have hadmits : w.canister.state.Admits timestamp (.setHalt event) := trivial
    have hchange := Canister.Change.of_event hw.guarded.sound hadmits hproc
    exact hchange.contained hw.guarded.sound hhalted

/-- **A halt contains its book.**  Along every run during which the book is halted no order is added
to it and no matching is logged for it, it gives out no fill, its pending and resting orders only
become fewer, those that left are canceled, and no other record of its orders changes. -/
theorem Reachable.halt_contains (h : Reachable w) (book : OrderBookId)
    (hrun : Relation.ReflTransGen (HaltedStep book) w w') :
    w.canister.Contained book w'.canister := by
  have key : Reachable w' ∧ w.canister.Contained book w'.canister := by
    induction hrun with
    | refl => exact ⟨h, .refl book w.canister⟩
    | tail _ hstep ih =>
        obtain ⟨hreach, hcontained⟩ := ih
        exact ⟨.step hreach trivial hstep.2, hcontained.trans (hstep.contained hreach)⟩
  exact key.2

/-! While the sample pair is halted, the queue is drained and the bid is canceled. -/

/-- The bid of the sample run. -/
def sampleBid : OrderId := .new Seq.zero Seq.zero

def drainedWorld : World :=
  (haltedWorld.play (.message (sampleRuntime 1 9) .processPendingOrders)).get (by decide +kernel)

def exitedWorld : World :=
  (drainedWorld.play (.message (sampleRuntime 10 9)
    (.cancelLimitOrder (some sampleBid)))).get (by decide +kernel)

theorem halt_contains_exitedWorld :
    haltedWorld.canister.Contained Seq.zero exitedWorld.canister ∧
    (exitedWorld.canister.state.orderHistory.get sampleBid).map OrderRecord.status
      = some .canceled := by
  have hdrained : Step haltedWorld drainedWorld := play_step (Option.some_get _).symm
  have hexited : Step drainedWorld exitedWorld := play_step (Option.some_get _).symm
  have hreach : Reachable drainedWorld := .step reachable_haltedWorld trivial hdrained
  refine ⟨reachable_haltedWorld.halt_contains Seq.zero (.tail (.single ⟨?_, hdrained⟩) ⟨?_, hexited⟩),
    by decide +kernel⟩
  · rw [← reachable_haltedWorld.isHalted_iff]
    decide +kernel
  · rw [← hreach.isHalted_iff]
    decide +kernel

end World

/-! ## Exits -/

namespace State

variable {s : State} {p : Permissions}

/-- The state under other permissions. -/
def withPermissions (s : State) (p : Permissions) : State := { s with permissions := p }

lemma withdraw_withPermissions (s : State) (p : Permissions) (user : Principal) (token : TokenId)
    (amount : Quantity) : Except.Agree (fun a b => b = a.map (·.withPermissions p))
      (s.withdraw user token amount) ((s.withPermissions p).withdraw user token amount) := by
  refine .andThen fun uid _ => ?_
  cases uid with
  | none => exact rfl
  | some uid =>
      refine .andThen fun r _ => ?_
      obtain ⟨result, balances⟩ := r
      cases result with
      | error e => exact rfl
      | ok u => exact rfl

lemma recordToken_withPermissions (s : State) (p : Permissions) (token : TokenId)
    (metadata : TokenMetadata) : Except.Agree (fun a b => b = a.withPermissions p)
      (s.recordToken token metadata) ((s.withPermissions p).recordToken token metadata) := by
  have htokens : (s.withPermissions p).tokens = s.tokens := rfl
  rw [recordToken, recordToken, htokens]
  cases s.tokens.get token with
  | none => exact rfl
  | some existing => exact .andThen fun _ _ => rfl

/-- **No event looks at the permissions**, and only `SetHalt` changes them. -/
lemma applyStateTransition_withPermissions (s : State) (p : Permissions) {payload : EventType}
    (hne : ∀ event, payload ≠ .setHalt event) (timestamp : Timestamp) :
    Except.Agree (fun a b => b = a.withPermissions p)
      (s.applyStateTransition payload timestamp .write)
      ((s.withPermissions p).applyStateTransition payload timestamp .write) := by
  cases payload with
  | init arg => exact rfl
  | upgrade arg =>
      simp only [applyStateTransition, applyUpgrade, withPermissions]
      split_ifs with hpolicy
      · cases ExecutionPolicy.tryNew
            (arg.maxOrdersPerChunk.getD s.executionPolicy.maxOrdersPerChunk)
            (arg.instructionBudget.getD s.executionPolicy.instructionBudget)
            (arg.maxSettlementUnitsPerEvent.getD
              s.executionPolicy.maxSettlementUnitsPerEvent) with
        | ok policy => exact rfl
        | error e => exact rfl
      · exact rfl
  | addTradingPair event =>
      refine .bind (recordToken_withPermissions s p _ _) fun s₁ _ h₁ => ?_
      subst h₁
      refine .bind (recordToken_withPermissions s₁ p _ _) fun s₂ _ h₂ => ?_
      subst h₂
      exact .andThen fun _ _ => .andThen fun _ _ => .andThen fun _ _ => .andThen fun _ _ => rfl
  | deposit event => exact .andThen fun _ _ => .andThen fun _ _ => rfl
  | withdraw event =>
      refine .bind (s.withdraw_withPermissions p _ _ _) fun r _ h => ?_
      subst h
      cases r with
      | error e => exact rfl
      | ok s₁ => exact rfl
  | addLimitOrder event =>
      refine .andThen fun _ _ => .andThen fun _ _ => .andThen fun _ _ => .andThen fun _ _ =>
        .andThen fun _ _ => .andThen fun _ _ => .andThen fun _ _ => .andThen fun _ _ =>
        .andThen fun _ _ => ?_
      refine .bind (R := fun (a b : State) => b = a.withPermissions p) rfl fun s₁ _ h₁ => ?_
      subst h₁
      exact .andThen fun _ _ => rfl
  | cancelLimitOrder event =>
      exact .andThen fun _ _ => .andThen fun _ _ => .andThen fun _ _ => .andThen fun _ _ =>
        .andThen fun _ _ => .andThen fun _ _ => rfl
  | matching event =>
      exact .andThen fun _ _ => .andThen fun _ _ => .andThen fun _ _ => .andThen fun _ _ =>
        .andThen fun _ _ => rfl
  | settling event =>
      exact .andThen fun _ _ => .andThen fun _ _ => .andThen fun _ _ => .andThen fun _ _ =>
        .andThen fun _ _ => rfl
  | addTradingAccount event => exact .andThen fun _ _ => rfl
  | removeTradingAccount event => exact .andThen fun _ _ => rfl
  | setHalt event => exact absurd rfl (hne event)

end State

namespace Canister

variable {c d : Canister} {p : Permissions} {rt : Runtime}

/-- `d` is `c` under the permissions `p`. -/
structure Under (p : Permissions) (c d : Canister) : Prop where
  state : d.state = c.state.withPermissions p
  events : d.events = c.events

/-- The same answer, and canisters that differ in the permissions only. -/
def AnsweredUnder {α : Type} (p : Permissions) (x y : α × Canister) : Prop :=
  y.1 = x.1 ∧ x.2.Under p y.2

lemma Under.processEvent (h : c.Under p d) {payload : EventType}
    (hne : ∀ event, payload ≠ .setHalt event) (timestamp : Timestamp) :
    Except.Agree (Under p) (c.processEvent payload timestamp) (d.processEvent payload timestamp) := by
  have hstate := c.state.applyStateTransition_withPermissions p hne timestamp
  rw [← h.state] at hstate
  refine (processEvent_agree hstate).with_eq ?_
  rintro a b - - ⟨hab, ha, hb⟩
  exact ⟨hab, by rw [ha, hb, h.events]⟩

lemma Under.recordEvent (h : c.Under p d) (payload : EventType) (timestamp : Timestamp) :
    (c.recordEvent payload timestamp).Under p (d.recordEvent payload timestamp) := by
  refine ⟨h.state, ?_⟩
  rw [Canister.recordEvent, h.events]
  rfl

lemma Under.withQueue (h : c.Under p d) (queue : List SettlingEvent) :
    (c.withQueue queue).Under p (d.withQueue queue) :=
  ⟨by rw [Canister.withQueue, h.state]; rfl, h.events⟩

lemma Under.dropUserOp (h : c.Under p d) (caller : Principal) (token : TokenId) :
    (c.dropUserOp caller token).Under p (d.dropUserOp caller token) :=
  ⟨by rw [Canister.dropUserOp, h.state]; rfl, h.events⟩

lemma Under.processSettling (h : c.Under p d) (events : List SettlingEvent)
    (timestamp : Timestamp) : Except.Agree (Under p) (c.processSettling events timestamp)
      (d.processSettling events timestamp) := by
  refine .foldlM h fun a b event hab => ?_
  exact hab.processEvent (fun _ => EventType.noConfusion) timestamp

lemma Under.drainLoop {budget : ℕ} (fuel : ℕ) (h : c.Under p d) (n : ℕ) :
    Except.Agree (fun x y => x.1.Under p y.1 ∧ y.2 = x.2)
      (drainLoop rt budget fuel c n) (drainLoop rt budget fuel d n) := by
  induction fuel generalizing c d n with
  | zero => exact ⟨h, rfl⟩
  | succ fuel ih =>
      have hqueue : d.state.pendingSettlingEvents = c.state.pendingSettlingEvents := by
        rw [h.state]
        rfl
      rw [Canister.drainLoop, Canister.drainLoop, hqueue]
      split_ifs
      · cases c.state.pendingSettlingEvents with
        | nil => exact ⟨h, rfl⟩
        | cons event rest =>
            refine .bind ((h.withQueue rest).processEvent (fun _ => EventType.noConfusion) rt.time) ?_
            exact fun a b hab => ih hab (n + 1)
      · exact ⟨h, rfl⟩

lemma Under.cancelOrder (h : c.Under p d) (orderId : Option OrderId) :
    Except.Agree (AnsweredUnder p) (c.cancelOrder rt orderId) (d.cancelOrder rt orderId) := by
  have hstate := h.state
  rw [Canister.cancelOrder, Canister.cancelOrder, hstate]
  refine .andThen fun _ _ => .andThen fun owner _ => ?_
  cases orderId with
  | none => exact ⟨rfl, h⟩
  | some id =>
      show Except.Agree _ (c.cancelLimitOrder _ _ id rt.time) (d.cancelLimitOrder _ _ id rt.time)
      have hvalidate : (c.state.withPermissions p).validateCancelLimitOrder owner id
          = c.state.validateCancelLimitOrder owner id := rfl
      rw [cancelLimitOrder, cancelLimitOrder, hstate, hvalidate]
      cases c.state.validateCancelLimitOrder owner id with
      | error e => exact ⟨rfl, h⟩
      | ok u =>
          refine .bind (h.processEvent (fun _ => EventType.noConfusion) rt.time) fun a b hab => ?_
          rw [show b.state.pendingSettlingEvents = a.state.pendingSettlingEvents by
            rw [hab.state]; rfl]
          refine .bind ((hab.withQueue _).processSettling _ rt.time) fun a' b' hab' => ?_
          rw [hab'.state]
          exact .andThen fun order _ => .andThen fun _ _ => ⟨rfl, hab'⟩

lemma Under.guardUserOp (h : c.Under p d) (caller : Principal) (token : TokenId) :
    (c.guardUserOp caller token = none ∧ d.guardUserOp caller token = none) ∨
    ∃ c' d', c.guardUserOp caller token = some c' ∧ d.guardUserOp caller token = some d' ∧
      c'.Under p d' := by
  by_cases hheld : c.state.inFlightUserOps.contains (toLex (caller, token)) = true
  · left
    rw [Canister.guardUserOp, Canister.guardUserOp, h.state]
    exact ⟨if_pos hheld, if_pos hheld⟩
  · right
    rw [Canister.guardUserOp, Canister.guardUserOp, h.state]
    exact ⟨_, _, if_neg hheld, if_neg hheld, ⟨rfl, h.events⟩⟩

lemma Under.depositStart (h : c.Under p d) (token : TokenId) (n : ℕ) :
    Except.Agree (AnsweredUnder p) (c.depositStart rt token n) (d.depositStart rt token n) := by
  rw [Canister.depositStart, Canister.depositStart, isTradingAccount, isTradingAccount, h.state]
  refine .andThen fun _ _ => ?_
  cases Quantity.tryFrom n with
  | none => exact ⟨rfl, h⟩
  | some amount =>
      show Except.Agree _ (if (!c.state.isKnownToken token) = true then _ else _)
        (if (!c.state.isKnownToken token) = true then _ else _)
      split_ifs
      · exact ⟨rfl, h⟩
      · refine .andThen fun trading _ => ?_
        cases Permissions.permitDeposit trading with
        | error e =>
            cases e
            exact ⟨rfl, h⟩
        | ok u =>
            rcases h.guardUserOp rt.msgCaller token with ⟨hc, hd⟩ | ⟨c', d', hc, hd, h'⟩
            · simp only [hc, hd]
              exact ⟨rfl, h⟩
            · simp only [hc, hd, h'.state]
              refine .andThen fun balance _ => ?_
              split_ifs
              · exact ⟨rfl, h'⟩
              · exact ⟨rfl, h'.dropUserOp _ _⟩

lemma Under.withdrawStart (h : c.Under p d) (token : TokenId) (n : ℕ) :
    Except.Agree (AnsweredUnder p) (c.withdrawStart rt token n) (d.withdrawStart rt token n) := by
  rw [Canister.withdrawStart, Canister.withdrawStart, isTradingAccount, isTradingAccount, h.state]
  refine .andThen fun _ _ => ?_
  cases Quantity.tryFrom n with
  | none => exact ⟨rfl, h⟩
  | some amount =>
      show Except.Agree _ (if (!c.state.isKnownToken token) = true then _ else _)
        (if (!c.state.isKnownToken token) = true then _ else _)
      split_ifs
      · exact ⟨rfl, h⟩
      · exact ⟨rfl, h⟩
      · refine .andThen fun trading _ => ?_
        cases Permissions.permitWithdraw trading with
        | error e =>
            cases e
            exact ⟨rfl, h⟩
        | ok u =>
            rcases h.guardUserOp rt.msgCaller token with ⟨hc, hd⟩ | ⟨c', d', hc, hd, h'⟩
            · simp only [hc, hd]
              exact ⟨rfl, h⟩
            · simp only [hc, hd, h'.state]
              refine .bind (c'.state.withdraw_withPermissions p _ _ _) fun r _ hr => ?_
              subst hr
              cases r with
              | error e => exact ⟨rfl, h'.dropUserOp _ _⟩
              | ok s => exact ⟨rfl, rfl, h'.events⟩

lemma Under.withFee (h : c.Under p d) (token : TokenId) (fee : Option ℕ) :
    (c.withFee token fee).Under p (d.withFee token fee) := by
  cases fee with
  | none => exact h
  | some fee =>
      refine ⟨?_, h.events⟩
      rw [Canister.withFee, h.state]
      rfl

lemma Under.withdrawFinish (h : c.Under p d) (caller : Principal) (token : TokenId)
    (amount : Quantity) (outcome : WithdrawOutcome) :
    Except.Agree (AnsweredUnder p) (c.withdrawFinish rt caller token amount outcome)
      (d.withdrawFinish rt caller token amount outcome) := by
  have hfee := h.withFee token outcome.ledgerFee
  rw [withdrawFinish_eq, withdrawFinish_eq]
  cases outcome.result with
  | ok blockIndex =>
      show Except.Agree _ (if blockIndex < 2 ^ 64 then _ else _) (if blockIndex < 2 ^ 64 then _ else _)
      split_ifs
      · exact ⟨rfl, (hfee.recordEvent _ rt.time).dropUserOp caller token⟩
      · exact rfl
  | error e =>
      rw [hfee.state]
      refine .bind (R := fun (a b : State) => b = a.withPermissions p) ?_ fun a b hab => ?_
      · exact .andThen fun _ _ => .andThen fun _ _ => rfl
      · have hcredited : Under p { c.withFee token outcome.ledgerFee with state := a }
            { d.withFee token outcome.ledgerFee with state := b } := ⟨hab, hfee.events⟩
        exact ⟨rfl, hcredited.dropUserOp caller token⟩

lemma Under.depositFinish (h : c.Under p d) (caller : Principal) (token : TokenId)
    (amount : Quantity) (reply : LedgerReply) :
    Except.Agree (AnsweredUnder p) (c.depositFinish rt caller token amount reply)
      (d.depositFinish rt caller token amount reply) := by
  rw [Canister.depositFinish, Canister.depositFinish]
  cases depositReply token reply with
  | error e => exact ⟨rfl, h.dropUserOp caller token⟩
  | ok blockIndex =>
      refine .bind (h.processEvent (fun _ => EventType.noConfusion) rt.time) fun a b hab => ?_
      exact ⟨rfl, hab.dropUserOp caller token⟩

lemma Under.resume (h : c.Under p d) (call : Call) (reply : LedgerReply) :
    Except.Agree (fun x y => y.2 = x.2 ∧ x.1.Under p y.1) (call.resume rt c reply)
      (call.resume rt d reply) := by
  have hfinish : ∀ outcome, Except.Agree (fun x y => y.2 = x.2 ∧ x.1.Under p y.1)
      (call.finish rt c outcome) (call.finish rt d outcome) := by
    intro outcome
    refine .bind (h.withdrawFinish _ _ _ outcome) ?_
    rintro ⟨_, a⟩ ⟨result, b⟩ ⟨rfl, hab⟩
    cases result with
    | ok blockIndex => exact ⟨rfl, hab⟩
    | error e => exact ⟨rfl, hab⟩
  rw [Call.resume, Call.resume]
  cases call.kind with
  | deposit =>
      refine .bind (h.depositFinish _ _ _ reply) ?_
      rintro ⟨_, a⟩ ⟨result, b⟩ ⟨rfl, hab⟩
      cases result with
      | ok blockIndex => exact ⟨rfl, hab⟩
      | error e => exact ⟨rfl, hab⟩
  | withdraw =>
      cases hreq : call.requests with
      | nil => exact hfinish _
      | cons request earlier =>
          cases earlier with
          | nil =>
              dsimp only
              cases afterFirst call.token call.amount reply with
              | inl outcome => exact hfinish outcome
              | inr transfer => exact ⟨rfl, h⟩
          | cons _ _ => exact hfinish _

lemma Under.addTradingAccount (h : c.Under p d) (trading : Principal) :
    Except.Agree (AnsweredUnder p) (c.addTradingAccount rt trading)
      (d.addTradingAccount rt trading) := by
  rw [Canister.addTradingAccount, Canister.addTradingAccount, h.state]
  refine .andThen fun _ _ => .andThen fun result _ => ?_
  cases result with
  | error e => exact ⟨rfl, h⟩
  | ok u =>
      refine .bind (h.processEvent (fun _ => EventType.noConfusion) rt.time) fun a b hab => ?_
      exact ⟨rfl, hab⟩

lemma Under.removeTradingAccount (h : c.Under p d) (trading : Principal) :
    Except.Agree (AnsweredUnder p) (c.removeTradingAccount rt trading)
      (d.removeTradingAccount rt trading) := by
  have hvalidate : (c.state.withPermissions p).validateRemoveTradingAccount ⟨rt.msgCaller⟩ ⟨trading⟩
      = c.state.validateRemoveTradingAccount ⟨rt.msgCaller⟩ ⟨trading⟩ := rfl
  rw [Canister.removeTradingAccount, Canister.removeTradingAccount, h.state, hvalidate]
  refine .andThen fun _ _ => ?_
  cases c.state.validateRemoveTradingAccount ⟨rt.msgCaller⟩ ⟨trading⟩ with
  | error e => exact ⟨rfl, h⟩
  | ok u =>
      refine .bind (h.processEvent (fun _ => EventType.noConfusion) rt.time) fun a b hab => ?_
      exact ⟨rfl, hab⟩

/-- **What the permissions do not matter to**: the ways out, the grants and the settling. -/
structure SameExits (p : Permissions) (c d : Canister) : Prop where
  cancel : ∀ rt orderId,
    Except.Agree (AnsweredUnder p) (c.cancelOrder rt orderId) (d.cancelOrder rt orderId)
  deposit : ∀ rt token n,
    Except.Agree (AnsweredUnder p) (c.depositStart rt token n) (d.depositStart rt token n)
  withdraw : ∀ rt token n,
    Except.Agree (AnsweredUnder p) (c.withdrawStart rt token n) (d.withdrawStart rt token n)
  resume : ∀ rt (call : Call) reply, Except.Agree (fun x y => y.2 = x.2 ∧ x.1.Under p y.1)
    (call.resume rt c reply) (call.resume rt d reply)
  grant : ∀ rt trading,
    Except.Agree (AnsweredUnder p) (c.addTradingAccount rt trading) (d.addTradingAccount rt trading)
  revoke : ∀ rt trading, Except.Agree (AnsweredUnder p) (c.removeTradingAccount rt trading)
    (d.removeTradingAccount rt trading)
  settle : ∀ rt budget n, Except.Agree (fun x y => x.1.Under p y.1 ∧ y.2 = x.2)
    (c.drainSettling rt budget n) (d.drainSettling rt budget n)

/-- **A halt locks nobody in.**  Whatever is halted or not, cancels, deposits, withdrawals, the
continuations after a ledger's reply, grants, revocations and the settling of the queue give the same
answer or trap alike, log the same events and leave the same state, up to the permissions. -/
theorem halts_spare_exits (c : Canister) (p : Permissions) :
    c.SameExits p { c with state := c.state.withPermissions p } := by
  have h : c.Under p { c with state := c.state.withPermissions p } := ⟨rfl, rfl⟩
  refine ⟨fun _ => h.cancelOrder, fun _ => h.depositStart, fun _ => h.withdrawStart,
    fun _ => h.resume, fun _ => h.addTradingAccount, fun _ => h.removeTradingAccount, ?_⟩
  exact fun rt budget n => h.drainLoop _ n

end Canister

/-! ## The other books -/

namespace State

/-- The state with other books. -/
def withBooks (s : State) (books : SortedMap OrderBookId OrderBook) : State :=
  { s with orderBooks := books }

/-- Settling does not look at the books. -/
lemma recordSettlingEvent_withBooks (s : State) (books : SortedMap OrderBookId OrderBook)
    (event : SettlingEvent) (timestamp : Timestamp) :
    Except.Agree (fun a b => b = a.withBooks books ∧ a.orderBooks = s.orderBooks ∧
        a.permissions = s.permissions)
      (s.recordSettlingEvent event timestamp .write)
      ((s.withBooks books).recordSettlingEvent event timestamp .write) :=
  .andThen fun _ _ => .andThen fun _ _ => .andThen fun _ _ => .andThen fun _ _ =>
    .andThen fun _ _ => ⟨rfl, rfl, rfl⟩

/-- Matching looks at one book and writes that book. -/
lemma recordMatchingEvent_withBooks (s : State) {books : SortedMap OrderBookId OrderBook}
    {event : MatchingEvent} (hbook : books.get event.bookId = s.orderBooks.get event.bookId)
    (now : Timestamp) :
    Except.Agree (fun a b => ∃ book, b = a.withBooks (books.insert event.bookId book) ∧
        a.orderBooks = s.orderBooks.insert event.bookId book ∧ a.permissions = s.permissions)
      (s.recordMatchingEvent event now .write)
      ((s.withBooks books).recordMatchingEvent event now .write) := by
  simp only [recordMatchingEvent]
  rw [show (s.withBooks books).orderBooks = books from rfl, hbook]
  exact .andThen fun _ _ => .andThen fun _ _ => .andThen fun r _ => .andThen fun _ _ =>
    .andThen fun _ _ => ⟨r.2, rfl, rfl, rfl⟩

/-- A book with pending orders that may be matched. -/
lemma hasMatchablePendingOrders_iff (s : State) : s.hasMatchablePendingOrders = true ↔
    ∃ id b, s.orderBooks.get id = some b ∧ b.pendingOrders ≠ [] ∧
      s.permissions.isHalted id = false := by
  have hpermit : ∀ id, (s.permissions.permitMatching id).isOk = true ↔
      s.permissions.isHalted id = false := by
    intro id
    rw [Permissions.permitMatching]
    cases s.permissions.isHalted id with
    | true => exact iff_of_false Bool.noConfusion Bool.noConfusion
    | false => exact iff_of_true rfl rfl
  simp only [hasMatchablePendingOrders, List.any_eq_true, Bool.and_eq_true, decide_eq_true_eq,
    hpermit, List.length_pos_iff]
  constructor
  · rintro ⟨⟨id, b⟩, hmem, hne, hopen⟩
    exact ⟨id, b, (SortedMap.mem_entries_iff _).mp hmem, hne, hopen⟩
  · rintro ⟨id, b, hb, hne, hopen⟩
    exact ⟨(id, b), (SortedMap.mem_entries_iff _).mpr hb, hne, hopen⟩

/-- The executor visits the books that have pending orders. -/
lemma mem_booksByPendingOrderCountDesc {s : State} {id : OrderBookId} :
    id ∈ s.booksByPendingOrderCountDesc ↔ 0 < s.pendingCount id := by
  rw [s.booksByPendingOrderCountDesc_perm.mem_iff, List.mem_map]
  constructor
  · rintro ⟨e, he, rfl⟩
    obtain ⟨-, hcount, hpos⟩ := mem_pendingCounts he
    omega
  · intro hpos
    refine ⟨(id, s.pendingCount id), ?_, rfl⟩
    rw [pendingCounts, List.mem_filter, List.mem_map]
    rw [pendingCount] at hpos ⊢
    cases hb : s.orderBooks.get id with
    | none =>
        rw [hb] at hpos
        exact absurd hpos (lt_irrefl 0)
    | some b =>
        rw [hb] at hpos
        exact ⟨⟨(id, b), (SortedMap.mem_entries_iff _).mpr hb, rfl⟩, decide_eq_true hpos⟩

/-- Without the pending orders of one book the others are visited in the same order. -/
lemma booksByPendingOrderCountDesc_without {s s' : State} {book : OrderBookId}
    (hnone : s'.pendingCount book = 0)
    (hothers : ∀ id, id ≠ book → s'.pendingCount id = s.pendingCount id) :
    s'.booksByPendingOrderCountDesc = s.booksByPendingOrderCountDesc.filter (· ≠ book) := by
  have hmem : ∀ id, id ∈ s'.booksByPendingOrderCountDesc ↔
      id ∈ s.booksByPendingOrderCountDesc.filter (· ≠ book) := by
    intro id
    rw [List.mem_filter, mem_booksByPendingOrderCountDesc, mem_booksByPendingOrderCountDesc,
      decide_eq_true_eq]
    by_cases hid : id = book
    · subst hid
      rw [hnone]
      exact iff_of_false (lt_irrefl 0) fun h => h.2 rfl
    · rw [hothers id hid]
      exact (and_iff_left hid).symm
  have hperm := (List.perm_ext_iff_of_nodup s'.booksByPendingOrderCountDesc_nodup
    (s.booksByPendingOrderCountDesc_nodup.filter _)).mpr hmem
  have hsorted : (s.booksByPendingOrderCountDesc.filter (· ≠ book)).Pairwise s'.Outranks := by
    refine (s.booksByPendingOrderCountDesc_pairwise.filter _).imp_of_mem fun {a b} ha hb hab => ?_
    rw [Outranks, hothers a (of_decide_eq_true (List.mem_filter.mp ha).2),
      hothers b (of_decide_eq_true (List.mem_filter.mp hb).2)]
    exact hab
  refine hperm.eq_of_pairwise (fun a b _ _ hab hba => ?_)
    s'.booksByPendingOrderCountDesc_pairwise hsorted
  -- The order of rank is strict.
  rcases hab with hab | ⟨hab, hlt⟩
  · rcases hba with hba | ⟨hba, -⟩ <;> omega
  · rcases hba with hba | ⟨-, hlt'⟩
    · omega
    · exact absurd hlt' hlt.asymm

end State

namespace Canister

variable {c d : Canister} {book : OrderBookId} {x y : Option OrderBook} {rt : Runtime}
  {budget : ℕ}

/-- `d` is `c` with the book `y` in the place of the book `x`, which is halted. -/
structure Beside (book : OrderBookId) (x y : Option OrderBook) (c d : Canister) : Prop where
  state : d.state = c.state.withBooks d.state.orderBooks
  left : c.state.orderBooks.get book = x
  right : d.state.orderBooks.get book = y
  others : ∀ id, id ≠ book → d.state.orderBooks.get id = c.state.orderBooks.get id
  halted : c.state.permissions.isHalted book = true
  events : d.events = c.events

lemma Beside.settling (h : Beside book x y c d) (event : SettlingEvent) (timestamp : Timestamp) :
    Except.Agree (Beside book x y) (c.processEvent (.settling event) timestamp)
      (d.processEvent (.settling event) timestamp) := by
  have hstate := c.state.recordSettlingEvent_withBooks d.state.orderBooks event timestamp
  rw [← h.state] at hstate
  refine (@processEvent_agree c d (.settling event) (.settling event) timestamp _ hstate).with_eq ?_
  rintro a b - - ⟨⟨hab, hsame, hrules⟩, ha, hb⟩
  have hbooks : b.state.orderBooks = d.state.orderBooks := by
    rw [hab]
    rfl
  refine ⟨by rw [hbooks]; exact hab, by rw [hsame]; exact h.left, by rw [hbooks]; exact h.right,
    fun id hid => ?_, by rw [hrules]; exact h.halted, by rw [ha, hb, h.events]⟩
  rw [hbooks, hsame]
  exact h.others id hid

lemma Beside.matching (h : Beside book x y c d) (event : MatchingEvent) (hne : event.bookId ≠ book)
    (timestamp : Timestamp) :
    Except.Agree (Beside book x y) (c.processEvent (.matching event) timestamp)
      (d.processEvent (.matching event) timestamp) := by
  have hstate := c.state.recordMatchingEvent_withBooks (h.others _ hne) timestamp
  rw [← h.state] at hstate
  refine (@processEvent_agree c d (.matching event) (.matching event) timestamp _ hstate).with_eq ?_
  rintro a b - - ⟨⟨after, hab, hinsert, hrules⟩, ha, hb⟩
  have hbooks : b.state.orderBooks = d.state.orderBooks.insert event.bookId after := by
    rw [hab]
    rfl
  refine ⟨by rw [hbooks]; exact hab, ?_, ?_, fun id hid => ?_, by rw [hrules]; exact h.halted,
    by rw [ha, hb, h.events]⟩
  · rw [hinsert, SortedMap.get_insert_of_ne _ _ hne]
    exact h.left
  · rw [hbooks, SortedMap.get_insert_of_ne _ _ hne]
    exact h.right
  · rw [hbooks, hinsert, SortedMap.get_insert, SortedMap.get_insert, h.others id hid]

lemma Beside.withQueue (h : Beside book x y c d) (queue : List SettlingEvent) :
    Beside book x y (c.withQueue queue) (d.withQueue queue) := by
  refine ⟨?_, h.left, h.right, h.others, h.halted, h.events⟩
  rw [Canister.withQueue, h.state]
  rfl

/-- The loop of `drain_settling`, when it is not cut short. -/
lemma Beside.drainLoop (hcounter : ∀ n, rt.instructionCounter n < budget) (fuel : ℕ)
    (h : Beside book x y c d) (n n' : ℕ) :
    Except.Agree (fun x₁ y₁ => Beside book x y x₁.1 y₁.1)
      (drainLoop rt budget fuel c n) (drainLoop rt budget fuel d n') := by
  induction fuel generalizing c d n n' with
  | zero => exact h
  | succ fuel ih =>
      have hqueue : d.state.pendingSettlingEvents = c.state.pendingSettlingEvents := by
        rw [h.state]
        rfl
      rw [Canister.drainLoop, Canister.drainLoop, hqueue, if_pos (hcounter n), if_pos (hcounter n')]
      cases c.state.pendingSettlingEvents with
      | nil => exact h
      | cons event rest =>
          refine .bind ((h.withQueue rest).settling event rt.time) fun a b hab => ?_
          exact ih hab (n + 1) (n' + 1)

lemma Beside.drainSettling (hcounter : ∀ n, rt.instructionCounter n < budget)
    (h : Beside book x y c d) (n n' : ℕ) :
    Except.Agree (fun x₁ y₁ => Beside book x y x₁.1 y₁.1)
      (c.drainSettling rt budget n) (d.drainSettling rt budget n') := by
  have hqueue : d.state.pendingSettlingEvents = c.state.pendingSettlingEvents := by
    rw [h.state]
    rfl
  rw [Canister.drainSettling, Canister.drainSettling, hqueue]
  exact h.drainLoop hcounter _ n n'

/-- The loop over the books, with the halted book and without it. -/
lemma Beside.runBooks (hcounter : ∀ n, rt.instructionCounter n < budget) (ids : List OrderBookId) :
    ∀ {c d : Canister}, Beside book x y c d → ∀ (k n n' : ℕ), Except.Agree (Beside book x y)
      (c.runBooks rt budget ids k n) (d.runBooks rt budget (ids.filter (· ≠ book)) k n') := by
  induction ids with
  | nil => exact fun h k n n' => h
  | cons id ids ih =>
      intro c d h k n n'
      by_cases hk : k = 0
      · subst hk
        have hc : c.runBooks rt budget (id :: ids) 0 n = .ok c := by
          rw [Canister.runBooks, if_pos rfl]
        have hd : d.runBooks rt budget ((id :: ids).filter (· ≠ book)) 0 n' = .ok d := by
          cases (id :: ids).filter (· ≠ book) with
          | nil => rfl
          | cons _ _ => rw [Canister.runBooks, if_pos rfl]
        rw [hc, hd]
        exact h
      · by_cases hid : id = book
        · subst hid
          rw [runBooks_halted hk (hcounter n) h.halted, List.filter_cons_of_neg (by simp)]
          exact ih h k (n + 1) n'
        · have hrules : d.state.permissions = c.state.permissions := by
            rw [h.state]
            rfl
          rw [List.filter_cons_of_pos (by simpa using hid), Canister.runBooks, Canister.runBooks,
            if_neg hk, if_neg hk, if_neg (Nat.not_le.mpr (hcounter n)),
            if_neg (Nat.not_le.mpr (hcounter n')), h.others id hid, hrules]
          cases c.state.permissions.permitMatching id with
          | error e => exact ih h k (n + 1) (n' + 1)
          | ok u =>
              refine .andThen fun b _ => ?_
              dsimp only
              split_ifs
              · exact ih h k (n + 1) (n' + 1)
              · refine .andThen fun _ _ => ?_
                refine .bind (h.matching ⟨id, b.pendingOrderSeqs.take k⟩ hid rt.time)
                  fun a b hab => ?_
                refine .bind (hab.drainSettling hcounter (n + 1) (n' + 1)) ?_
                rintro ⟨a', m⟩ ⟨b', m'⟩ hab'
                exact ih hab' _ m m'

/-- What the executor still has to do. -/
lemma Beside.executionStatus (h : Beside book x y c d)
    (hnone : ∀ b, y = some b → b.pendingOrders = []) :
    d.state.executionStatus = c.state.executionStatus := by
  have hmatchable : d.state.hasMatchablePendingOrders = c.state.hasMatchablePendingOrders := by
    rw [Bool.eq_iff_iff, State.hasMatchablePendingOrders_iff, State.hasMatchablePendingOrders_iff,
      h.state]
    constructor
    · rintro ⟨id, b, hb, hne, hopen⟩
      have hid : id ≠ book := by
        rintro rfl
        exact hne (hnone b (h.right.symm.trans hb))
      exact ⟨id, b, (h.others id hid).symm.trans hb, hne, hopen⟩
    · rintro ⟨id, b, hb, hne, hopen⟩
      have hid : id ≠ book := by
        rintro rfl
        rw [h.halted] at hopen
        cases hopen
      exact ⟨id, b, (h.others id hid).trans hb, hne, hopen⟩
  rw [State.executionStatus, State.executionStatus, hmatchable, h.state]
  rfl

/-- `run_once`, with the halted book and without its pending orders. -/
lemma Beside.runOnce (hcounter : ∀ n, rt.instructionCounter n
      < c.state.executionPolicy.instructionBudget.toNat) (h : Beside book x y c d)
    (hnone : ∀ b, y = some b → b.pendingOrders = []) :
    Except.Agree (fun x₁ y₁ => y₁.1 = x₁.1 ∧ Beside book x y x₁.2 y₁.2)
      (Canister.runOnce rt c) (Canister.runOnce rt d) := by
  have hpolicy : d.state.executionPolicy = c.state.executionPolicy := by
    rw [h.state]
    rfl
  simp only [Canister.runOnce, hpolicy]
  refine .bind (h.drainSettling hcounter 0 0) ?_
  rintro ⟨a, n⟩ ⟨b, n'⟩ hab
  rw [if_neg (Nat.not_le.mpr (hcounter n)), if_neg (Nat.not_le.mpr (hcounter n'))]
  have hcount : ∀ {id o}, b.state.orderBooks.get id = o → b.state.pendingCount id
      = o.elim 0 fun b => b.pendingOrders.length := by
    rintro id o rfl
    rfl
  have hbooks : b.state.booksByPendingOrderCountDesc
      = a.state.booksByPendingOrderCountDesc.filter (· ≠ book) := by
    refine State.booksByPendingOrderCountDesc_without ?_ fun id hid => hcount (hab.others id hid)
    rw [hcount hab.right]
    cases y with
    | none => rfl
    | some b₀ =>
        rw [Option.elim_some, hnone b₀ rfl]
        rfl
  rw [hbooks]
  refine .bind (hab.runBooks hcounter _ _ (n + 1) (n' + 1)) fun a' b' hab' => ?_
  exact ⟨hab'.executionStatus hnone, hab'⟩

/-- The canister with one other book. -/
def withBook (c : Canister) (book : OrderBookId) (b : OrderBook) : Canister :=
  { c with state := c.state.withBooks (c.state.orderBooks.insert book b) }

/-- **A halted book does not hold up the others.**  When no reading of the instruction counter
reaches the budget, `run_once` does the same as if nothing were pending on the halted book: both
trap, or they report the same status, log the same events and leave the same state, except that each
keeps the halted book as it had it. -/
theorem halted_book_ignored (c : Canister) {book : OrderBookId} {b : OrderBook} (rt : Runtime)
    (hbook : c.state.orderBooks.get book = some b)
    (hhalted : c.state.permissions.isHalted book = true)
    (hcounter : ∀ n, rt.instructionCounter n
      < c.state.executionPolicy.instructionBudget.toNat) :
    Except.Agree (fun x y => y.1 = x.1 ∧
        Beside book (some b) (some { b with pendingOrders := [] }) x.2 y.2)
      (runOnce rt c) (runOnce rt (c.withBook book { b with pendingOrders := [] })) := by
  refine Beside.runOnce hcounter ⟨rfl, hbook, ?_, fun id hid => ?_, hhalted, rfl⟩ ?_
  · exact SortedMap.get_insert_self _ _ _
  · exact SortedMap.get_insert_of_ne _ _ (Ne.symm hid)
  · rintro b₀ heq
    cases heq
    rfl

/-- A message that no budget cuts short. -/
def uncutRuntime : Runtime := { World.sampleRuntime 1 9 with instructionCounter := fun _ => 0 }

/-- In the halted run one order is pending.  The round settles what is queued and is complete, with
that order or without it. -/
theorem halted_book_ignored_haltedWorld : ∃ b c d,
    World.haltedWorld.canister.state.orderBooks.get Seq.zero = some b ∧
    b.pendingOrders.length = 1 ∧
    runOnce uncutRuntime World.haltedWorld.canister = .ok (.complete, c) ∧
    runOnce uncutRuntime (World.haltedWorld.canister.withBook Seq.zero
      { b with pendingOrders := [] }) = .ok (.complete, d) ∧
    Beside Seq.zero (some b) (some { b with pendingOrders := [] }) c d := by
  have hpending : (World.haltedWorld.canister.state.orderBooks.get Seq.zero).map
      (·.pendingOrders.length) = some 1 := by decide +kernel
  obtain ⟨b, hb, hlength⟩ := Option.map_eq_some_iff.mp hpending
  have hagree := halted_book_ignored World.haltedWorld.canister uncutRuntime hb (by decide +kernel)
    fun _ => (by decide +kernel : 0 < _)
  have hran : (runOnce uncutRuntime World.haltedWorld.canister).map Prod.fst = .ok .complete := by
    decide +kernel
  cases hc : runOnce uncutRuntime World.haltedWorld.canister with
  | error e =>
      rw [hc] at hran
      cases hran
  | ok r =>
      obtain ⟨status, c⟩ := r
      rw [hc] at hran hagree
      obtain rfl : status = .complete := Except.ok.inj hran
      cases hd : runOnce uncutRuntime (World.haltedWorld.canister.withBook Seq.zero
          { b with pendingOrders := [] }) with
      | error e =>
          rw [hd] at hagree
          exact hagree.elim
      | ok r' =>
          obtain ⟨status', d⟩ := r'
          rw [hd] at hagree
          obtain ⟨hstatus, hbeside⟩ := hagree
          obtain rfl : status' = .complete := hstatus
          exact ⟨b, c, d, hb, hlength, rfl, hd, hbeside⟩

end Canister

end OisyTrade
