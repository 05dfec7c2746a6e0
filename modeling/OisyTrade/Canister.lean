import Mathlib.Data.List.Sort
import OisyTrade.State.Record

/-!
# The canister: event log, executor and upgrades

`audit/mod.rs` applies an event and appends it to the log; `execute/mod.rs` drives matching and
settling in chunks; `snapshot/mod.rs` carries the heap over an upgrade.

A message runs on a `Canister`: the state, the event log, and a journal.  The journal is not in the
source.  It is a history variable that keeps every event processed so far with the state it was
applied to; theorems about whole runs are stated with it, and no function reads it.

What the system tells a message is its `Runtime`.  The instruction counter may return anything at
each reading, so a budget check may cut the work at any point.
-/

namespace OisyTrade

/-- `Runtime`: what a message can ask the system.  `instructionCounter n` is the answer to the
`n`-th reading of the instruction counter. -/
structure Runtime where
  msgCaller : Principal
  isController : Principal → Bool
  time : Timestamp
  instructionCounter : ℕ → ℕ

/-- The state with the event log. -/
structure Canister where
  state : State
  events : List Event
  journal : List (State × Event)

/-- `State::assert_caller_is_allowed`. -/
def State.assertCallerIsAllowed (s : State) (rt : Runtime) : Except Trap Unit :=
  match s.mode with
  | .generalAvailability => .ok ()
  | .restrictedTo allowed =>
      if rt.isController rt.msgCaller || allowed.contains rt.msgCaller then .ok ()
      else .error (.rejected .callerNotAllowed)

namespace Canister

/-! ## Events -/

/-- `audit::process_event`. -/
def processEvent (c : Canister) (payload : EventType) (timestamp : Timestamp) :
    Except Trap Canister := do
  let state ← c.state.applyStateTransition payload timestamp .write
  .ok { state, events := c.events ++ [{ timestamp, payload }],
        journal := c.journal ++ [(c.state, { timestamp, payload })] }

/-- `audit::record_event`, which does not touch the state. -/
def recordEvent (c : Canister) (payload : EventType) (timestamp : Timestamp) : Canister :=
  { c with events := c.events ++ [{ timestamp, payload }] }

/-- Process settling events in order. -/
def processSettling (c : Canister) (events : List SettlingEvent) (timestamp : Timestamp) :
    Except Trap Canister :=
  events.foldlM (fun (c : Canister) event => c.processEvent (.settling event) timestamp) c

/-- `State::cancel_limit_order`: the settling events of the cancel jump the backlog. -/
def cancelLimitOrder (c : Canister) (owner : Principal) (canceledBy : Option Principal)
    (orderId : OrderId) (timestamp : Timestamp) :
    Except Trap (Except CancelLimitOrderError OrderRecord × Canister) :=
  match c.state.validateCancelLimitOrder owner orderId with
  | .error e => .ok (.error e, c)
  | .ok _ => do
      let backlog := c.state.pendingSettlingEvents.length
      let c ← c.processEvent (.cancelLimitOrder { orderId, canceledBy }) timestamp
      let queue := c.state.pendingSettlingEvents
      let c := { c with state := { c.state with pendingSettlingEvents := queue.take backlog } }
      let c ← c.processSettling (queue.drop backlog) timestamp
      let order ← expectBug (c.state.orderHistory.get orderId) .orderNotFoundAfterCancel
      assertBug (order.status = .canceled) .orderNotCanceled
      .ok (.ok order, c)

end Canister

/-! ## The executor -/

/-- `ExecutionStatus`. -/
inductive ExecutionStatus
  | complete | moreWork | alreadyRunning
deriving DecidableEq

namespace State

/-- `has_matchable_pending_orders`. -/
def hasMatchablePendingOrders (s : State) : Bool :=
  s.orderBooks.entries.any fun e =>
    decide (0 < e.2.pendingOrders.length) && (s.permissions.permitMatching e.1).isOk

/-- `ExecutionStatus::from_state`. -/
def executionStatus (s : State) : ExecutionStatus :=
  if s.hasMatchablePendingOrders || !s.pendingSettlingEvents.isEmpty then .moreWork else .complete

/-- The comparison of `books_by_pending_order_count_desc`. -/
def BookBefore (a b : OrderBookId × ℕ) : Prop := b.2 < a.2 ∨ (a.2 = b.2 ∧ a.1 ≤ b.1)

instance : DecidableRel BookBefore := fun a b => by unfold BookBefore; infer_instance

/-- `books_by_pending_order_count_desc`. -/
def booksByPendingOrderCountDesc (s : State) : List OrderBookId :=
  let counts := (s.orderBooks.entries.map fun e => (e.1, e.2.pendingOrders.length)).filter
    fun e => 0 < e.2
  (counts.insertionSort BookBefore).map (·.1)

end State

namespace Canister

/-- The loop of `drain_settling`.  Every iteration takes one event off the queue and adds none, so
the length of the queue bounds their number.  The reader's position in the instruction counter is
passed along. -/
def drainLoop (rt : Runtime) (budget : ℕ) : ℕ → Canister → ℕ → Except Trap (Canister × ℕ)
  | 0, c, n => .ok (c, n + 1)
  | fuel + 1, c, n =>
      if rt.instructionCounter n < budget then
        match c.state.pendingSettlingEvents with
        | [] => .ok (c, n + 1)
        | event :: rest => do
            let c := { c with state := { c.state with pendingSettlingEvents := rest } }
            let c ← c.processEvent (.settling event) rt.time
            drainLoop rt budget fuel c (n + 1)
      else .ok (c, n + 1)

/-- `Executor::drain_settling`. -/
def drainSettling (rt : Runtime) (budget : ℕ) (c : Canister) (n : ℕ) :
    Except Trap (Canister × ℕ) :=
  drainLoop rt budget c.state.pendingSettlingEvents.length c n

/-- The book loop of `run_once`. -/
def runBooks (rt : Runtime) (budget : ℕ) :
    List OrderBookId → ℕ → Canister → ℕ → Except Trap Canister
  | [], _, c, _ => .ok c
  | bookId :: rest, orderBudget, c, n =>
      if orderBudget = 0 then .ok c
      else if budget ≤ rt.instructionCounter n then .ok c
      else
        match c.state.permissions.permitMatching bookId with
        | .error _ => runBooks rt budget rest orderBudget c (n + 1)
        | .ok _ => do
            let book ← expectBug (c.state.orderBooks.get bookId) .bookIdMissing
            let chunk := book.pendingOrderSeqs.take orderBudget
            if chunk.isEmpty then runBooks rt budget rest orderBudget c (n + 1)
            else
              assertBug (chunk.length ≤ orderBudget) .chunkExceedsBudget
              let c ← c.processEvent (.matching { bookId, orders := chunk }) rt.time
              let (c, n) ← c.drainSettling rt budget (n + 1)
              runBooks rt budget rest (orderBudget - chunk.length) c n

/-- `Executor::run_once`. -/
def runOnce (rt : Runtime) (c : Canister) : Except Trap (ExecutionStatus × Canister) := do
  let policy := c.state.executionPolicy
  let budget := policy.instructionBudget.toNat
  let (c, n) ← c.drainSettling rt budget 0
  if budget ≤ rt.instructionCounter n then .ok (c.state.executionStatus, c)
  else
    let c ← c.runBooks rt budget c.state.booksByPendingOrderCountDesc
      policy.maxOrdersPerChunk.toNat (n + 1)
    .ok (c.state.executionStatus, c)

end Canister

end OisyTrade
