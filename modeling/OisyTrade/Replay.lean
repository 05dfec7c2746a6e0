import OisyTrade.State.Record

/-!
# Replaying the event log

`replay_events` of `audit/mod.rs`: a state is built from the first event of a log, and the other
events are applied to it.  With `StableMemoryOptions.write` the stable structures start empty and
are filled again; with `StableMemoryOptions.skip` they are those that survived.
-/

namespace OisyTrade

/-- The loop of `replay_events`. -/
def State.applyEvents (state : State) (events : List Event) (persistence : StableMemoryOptions) :
    Except Trap State :=
  events.foldlM (fun (s : State) event =>
    s.applyStateTransition event.payload event.timestamp persistence) state

/-- `audit::replay_events`. -/
def replayEvents (events : List Event) (orderHistory : OrderHistory) (tradeHistory : TradeHistory)
    (userRegistry : UserRegistry) (balances : TokenBalance) (persistence : StableMemoryOptions) :
    Except Trap State :=
  match events with
  | [] => .error (.bug .emptyEventLog)
  | ⟨_, .init arg⟩ :: rest =>
      match State.new arg orderHistory tradeHistory userRegistry balances with
      | .error _ => .error (.bug .stateInitialization)
      | .ok state => do
          let state ← state.applyEvents rest persistence
          .ok { state with pendingSettlingEvents := [] }
  | _ :: _ => .error (.bug .firstEventNotInit)

end OisyTrade
