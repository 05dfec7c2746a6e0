import OisyTrade.Invariant.View
import OisyTrade.Script

/-!
# Delegation is transparent

A trading account acts for its funding account.  Every entry point resolves its caller, so the two
get the same answers, and what they leave behind differs only in who is on record as the placer or
the canceler: one record is the same up to `State.edit`, and one event up to a field.

After a revocation the trading account is a stranger: a principal without an account.  `ActsLike`
says that the canister cannot tell two strangers apart.
-/

namespace OisyTrade

namespace Runtime

/-- The same system, asked by another caller. -/
def sentBy (rt : Runtime) (caller : Principal) : Runtime := { rt with msgCaller := caller }

variable (rt : Runtime) (caller : Principal)

@[simp] lemma msgCaller_sentBy : (rt.sentBy caller).msgCaller = caller := rfl

@[simp] lemma time_sentBy : (rt.sentBy caller).time = rt.time := rfl

@[simp] lemma isController_sentBy : (rt.sentBy caller).isController = rt.isController := rfl

end Runtime

/-! ## One record rewritten -/

namespace History

variable {K V : Type} [LinearOrder K]

/-- The store with the record of one key rewritten. -/
def edit (h : History K V) (key : K) (f : V → V) : History K V :=
  match h.primary.get key with
  | none => h
  | some entry =>
      { h with primary := h.primary.insert key { entry with record := f entry.record } }

variable {h : History K V} {key : K} {f : V → V}

lemma edit_insert (entry : SeqRecord V) :
    ({ h with primary := h.primary.insert key entry } : History K V).edit key f
      = { h with primary := h.primary.insert key { entry with record := f entry.record } } := by
  rw [edit, SortedMap.get_insert_self]
  simp only [SortedMap.insert_insert_self]

lemma get_edit (h : History K V) (key k : K) (f : V → V) :
    (h.edit key f).get k = if key = k then (h.get k).map f else h.get k := by
  rw [edit]
  cases he : h.primary.get key with
  | none =>
      split_ifs with hk
      · rw [get, ← hk, he]
        rfl
      · rfl
  | some entry =>
      simp only [get, SortedMap.get_insert]
      split_ifs with hk
      · rw [← hk, he]
        rfl
      · rfl

/-- Two insertions of records that differ by a rewriting. -/
lemma insertOnce_edit (h : History K V) (user : UserId) (key : K) (record : V) (f : V → V) :
    Except.Agree (fun a b => a = b.edit key f) (h.insertOnce user key (f record))
      (h.insertOnce user key record) := by
  rw [insertOnce, insertOnce]
  refine .andThen fun seq _ => .andThen fun _ _ => .andThen fun _ _ => ?_
  exact (edit_insert (h := ⟨h.primary, h.byUser.insert (.new user seq) key⟩) ⟨seq, record⟩).symm

/-- Two changes of a record whose outcomes differ by a rewriting. -/
lemma modify_edit (h : History K V) (key : K) {change change' : V → Except Trap (V × Bool)}
    (hchange : ∀ v, h.get key = some v →
      Except.Agree (fun a b => a = (f b.1, true) ∧ b.2 = true) (change v) (change' v)) :
    Except.Agree (fun a b => a = b.edit key f) (h.modify key change) (h.modify key change') := by
  rw [modify, modify]
  refine .andThen fun entry hentry => ?_
  have hget : h.get key = some entry.record := by
    rw [get, Except.expect_eq_ok.mp hentry]
    rfl
  refine .bind (hchange _ hget) ?_
  rintro ⟨r, c⟩ ⟨r', c'⟩ ⟨hr, hc⟩
  cases hr
  cases hc
  exact (edit_insert { entry with record := r' }).symm

end History

namespace State

/-- The state with the record of one order rewritten. -/
def edit (s : State) (id : OrderId) (f : OrderRecord → OrderRecord) : State :=
  { s with orderHistory := s.orderHistory.edit id f }

/-- A rewriting that keeps what settling reads of a record. -/
structure Keeps (f : OrderRecord → OrderRecord) : Prop where
  owner : ∀ r, (f r).owner = r.owner
  side : ∀ r, (f r).side = r.side
  price : ∀ r, (f r).price = r.price

variable {s : State} {id : OrderId} {f : OrderRecord → OrderRecord}

lemma resolveOrder_edit (hf : Keeps f) (bookId : OrderBookId) (history : OrderHistory)
    (registry : UserRegistry) (seq : OrderSeq) :
    resolveOrder bookId (history.edit id f) registry seq
      = resolveOrder bookId history registry seq := by
  rw [resolveOrder, resolveOrder, History.get_edit]
  split_ifs with hid
  · cases history.get (.new bookId seq) with
    | none => rfl
    | some r =>
        simp only [Option.map_some, Except.expect_some, Except.bind_ok, hf.owner, hf.side, hf.price]
  · rfl

lemma resolveOpOrders_edit (hf : Keeps f) (bookId : OrderBookId) (ops : List BalanceOperation)
    (history : OrderHistory) (registry : UserRegistry) :
    resolveOpOrders bookId ops (history.edit id f) registry
      = resolveOpOrders bookId ops history registry := by
  have hresolve : resolveOrder bookId (history.edit id f) registry
      = resolveOrder bookId history registry := by
    funext seq
    exact resolveOrder_edit hf bookId history registry seq
  rw [resolveOpOrders, resolveOpOrders, hresolve]

/-- **Settling does not see the rewriting.** -/
lemma recordSettlingEvent_edit (hf : Keeps f) (event : SettlingEvent) (timestamp : Timestamp) :
    Except.Agree (fun a b => a = b.edit id f ∧ b.orderHistory = s.orderHistory)
      ((s.edit id f).recordSettlingEvent event timestamp .write)
      (s.recordSettlingEvent event timestamp .write) := by
  simp only [recordSettlingEvent]
  refine .andThen fun pair _ => .andThen fun scale _ => ?_
  rw [show (s.edit id f).orderHistory = s.orderHistory.edit id f from rfl,
    resolveOpOrders_edit hf]
  refine .andThen fun resolved _ => .andThen fun trades _ => .andThen fun balances _ => ?_
  exact ⟨rfl, rfl⟩

end State

/-! ## Placing and canceling -/

namespace OrderRecord

/-- The record, as if a trading account had placed the order. -/
def withPlacer (r : OrderRecord) (trader : Principal) : OrderRecord :=
  { r with placedBy := some trader }

/-- The record, as if a trading account had canceled the order. -/
def withCanceler (r : OrderRecord) (trader : Principal) : OrderRecord :=
  { r with canceledBy := some trader }

end OrderRecord

namespace State

variable {s : State} {trader : Principal}

/-- Recording an order for a trading account or for its owner. -/
lemma recordLimitOrder_edit (s : State) (user : Principal) (bookId : OrderBookId) (order : Order)
    (trader : Principal) (timestamp : Timestamp) :
    Except.Agree
      (fun a b => a = b.edit (.new bookId order.id) (·.withPlacer trader) ∧
        b.orderHistory.get (.new bookId order.id)
          = some (newRecord user order none timestamp))
      (s.recordLimitOrder user bookId order (some trader) timestamp .write)
      (s.recordLimitOrder user bookId order none timestamp .write) := by
  simp only [recordLimitOrder]
  refine .andThen fun pair _ => .andThen fun scale _ => .andThen fun book _ => ?_
  refine .andThen fun funds _ => ?_
  refine .andThen fun userId _ => .andThen fun userId _ => .andThen fun reserved _ => ?_
  refine .andThen fun _ _ => ?_
  have hinsert := (History.insertOnce_edit s.orderHistory userId (.new bookId order.id)
    (newRecord user order none timestamp) (·.withPlacer trader)).with_eq
    (Q := fun a b => a = b.edit (.new bookId order.id) (·.withPlacer trader) ∧
      b.get (.new bookId order.id) = some (newRecord user order none timestamp)) ?_
  · refine .bind hinsert ?_
    rintro a b ⟨rfl, hget⟩
    simp only [Except.bind_ok]
    refine .andThen fun book _ => ?_
    exact ⟨rfl, hget⟩
  · intro a b _ hb hedit
    exact ⟨hedit, (History.get_insertOnce hb _).trans (if_pos rfl)⟩

/-- The update of a cancel, on a record that is not canceled yet. -/
lemma applyStamped_cancel {r : OrderRecord} (hr : r.status ≠ .canceled)
    (canceledBy : Option Principal) (now : Timestamp) :
    (OrderUpdate.cancel canceledBy).applyStamped now r
      = .ok ({ r with status := .canceled, canceledBy, lastUpdatedAt := some now }, true) := by
  have hstatus : (OrderUpdate.cancel canceledBy).applyStatus r
      = ({ r with status := .canceled, canceledBy }, true) := if_neg hr.symm
  simp only [OrderUpdate.applyStamped, OrderUpdate.apply, hstatus]
  rfl

/-- Recording a cancel by a trading account or by its owner. -/
lemma recordCancelLimitOrder_edit {id : OrderId} {r : OrderRecord}
    (hr : s.orderHistory.get id = some r) (hstatus : r.status ≠ .canceled) (trader : Principal)
    (now : Timestamp) :
    Except.Agree
      (fun a b => a = b.edit id (·.withCanceler trader) ∧
        ∃ r', b.orderHistory.get id = some r' ∧ r'.canceledBy = none)
      (s.recordCancelLimitOrder id (some trader) now .write)
      (s.recordCancelLimitOrder id none now .write) := by
  have hupdate : Except.Agree
      (fun a b => a = b.edit id (·.withCanceler trader) ∧
        ∃ r', b.get id = some r' ∧ r'.canceledBy = none)
      (s.orderHistory.applyUpdate id (.cancel (some trader)) now)
      (s.orderHistory.applyUpdate id (.cancel none) now) := by
    refine (s.orderHistory.modify_edit id (f := (·.withCanceler trader)) ?_).with_eq ?_
    · intro v hv
      obtain rfl : r = v := Option.some.inj (hr.symm.trans hv)
      rw [applyStamped_cancel hstatus, applyStamped_cancel hstatus]
      exact ⟨rfl, rfl⟩
    · intro a b _ hb hedit
      obtain ⟨v, c, hv, hc, hget, -⟩ := History.modify_eq_ok hb
      obtain rfl : r = v := Option.some.inj (hr.symm.trans hv)
      rw [applyStamped_cancel hstatus, Except.ok.injEq] at hc
      subst hc
      exact ⟨hedit, _, (hget id).trans (if_pos rfl), rfl⟩
  simp only [recordCancelLimitOrder]
  refine .andThen fun scale _ => .andThen fun book _ => .andThen fun removed _ => ?_
  refine .andThen fun removed _ => .bind hupdate ?_
  rintro a b ⟨rfl, hget⟩
  refine .andThen fun refund _ => ?_
  exact ⟨rfl, hget⟩

lemma keeps_withCanceler (trader : Principal) : Keeps (·.withCanceler trader) :=
  ⟨fun _ => rfl, fun _ => rfl, fun _ => rfl⟩

end State

namespace Canister

variable {c : Canister}

/-- Two canisters that process one event each. -/
lemma processEvent_agree {c c' : Canister} {payload payload' : EventType} {timestamp : Timestamp}
    {R : State → State → Prop} (h : Except.Agree R
      (c.state.applyStateTransition payload timestamp .write)
      (c'.state.applyStateTransition payload' timestamp .write)) :
    Except.Agree (fun a b => R a.state b.state ∧ a.events = c.events ++ [⟨timestamp, payload⟩] ∧
        b.events = c'.events ++ [⟨timestamp, payload'⟩])
      (c.processEvent payload timestamp) (c'.processEvent payload' timestamp) := by
  rw [processEvent, processEvent]
  refine .bind h ?_
  intro a b hR
  exact ⟨hR, rfl, rfl⟩

/-- Settling next to a rewritten record. -/
lemma processSettling_edit {id : OrderId} {f : OrderRecord → OrderRecord} (hf : State.Keeps f)
    {c c' : Canister} (hstate : c.state = c'.state.edit id f) (events : List SettlingEvent)
    (timestamp : Timestamp) :
    Except.Agree (fun a b => a.state = b.state.edit id f ∧
        b.state.orderHistory = c'.state.orderHistory ∧
        ∃ settled, a.events = c.events ++ settled ∧ b.events = c'.events ++ settled)
      (c.processSettling events timestamp) (c'.processSettling events timestamp) := by
  refine .foldlM ⟨hstate, rfl, [], (List.append_nil _).symm, (List.append_nil _).symm⟩ ?_
  rintro a b event ⟨hab, horders, settled, ha, hb⟩
  have hsettle : Except.Agree (fun s s' => s = s'.edit id f ∧ s'.orderHistory = b.state.orderHistory)
      (a.state.applyStateTransition (.settling event) timestamp .write)
      (b.state.applyStateTransition (.settling event) timestamp .write) := by
    rw [hab]
    exact State.recordSettlingEvent_edit hf event timestamp
  refine (processEvent_agree hsettle).with_eq ?_
  rintro a' b' _ _ ⟨⟨hab', horders'⟩, ha', hb'⟩
  refine ⟨hab', horders'.trans horders, settled ++ [⟨timestamp, .settling event⟩], ?_, ?_⟩
  · rw [ha', ha, List.append_assoc]
  · rw [hb', hb, List.append_assoc]

/-- **Two placements that differ in the placer.** -/
inductive PlacedAlike (c : Canister) (trader : Principal) (time : Timestamp) :
    Except AddLimitOrderError OrderId × Canister →
    Except AddLimitOrderError OrderId × Canister → Prop
  | refused (e : AddLimitOrderError) : PlacedAlike c trader time (.error e, c) (.error e, c)
  | placed {event : AddLimitOrderEvent} {byTrader byOwner : Canister} {r : OrderRecord}
      (hevent : event.placedBy = none) (hplacer : r.placedBy = none)
      (hrecord : byOwner.state.orderHistory.get event.orderId = some r)
      (hstate : byTrader.state = byOwner.state.edit event.orderId (·.withPlacer trader))
      (hbyTrader : byTrader.events
        = c.events ++ [⟨time, .addLimitOrder { event with placedBy := some trader }⟩])
      (hbyOwner : byOwner.events = c.events ++ [⟨time, .addLimitOrder event⟩]) :
      PlacedAlike c trader time (.ok event.orderId, byTrader) (.ok event.orderId, byOwner)

/-- **Two cancels that differ in the canceler.** -/
inductive CanceledAlike (c : Canister) (trader : Principal) (time : Timestamp) :
    Except CancelLimitOrderError OrderRecord × Canister →
    Except CancelLimitOrderError OrderRecord × Canister → Prop
  | refused (e : CancelLimitOrderError) : CanceledAlike c trader time (.error e, c) (.error e, c)
  | canceled {id : OrderId} {byTrader byOwner : Canister} {r : OrderRecord} {settled : List Event}
      (hcanceler : r.canceledBy = none) (hrecord : byOwner.state.orderHistory.get id = some r)
      (hstate : byTrader.state = byOwner.state.edit id (·.withCanceler trader))
      (hbyTrader : byTrader.events
        = c.events ++ ⟨time, .cancelLimitOrder ⟨id, some trader⟩⟩ :: settled)
      (hbyOwner : byOwner.events = c.events ++ ⟨time, .cancelLimitOrder ⟨id, none⟩⟩ :: settled) :
      CanceledAlike c trader time (.ok (r.withCanceler trader), byTrader) (.ok r, byOwner)

/-- An order that may be canceled is on record and not canceled yet. -/
lemma canceled_live {owner : Principal} {id : OrderId} {u : Unit}
    (h : c.state.validateCancelLimitOrder owner id = .ok u) :
    ∃ r, c.state.orderHistory.get id = some r ∧ r.status ≠ .canceled := by
  rw [State.validateCancelLimitOrder] at h
  cases hr : c.state.orderHistory.get id with
  | none =>
      rw [hr] at h
      cases h
  | some r =>
      simp only [hr] at h
      split_ifs at h
      refine ⟨r, rfl, ?_⟩
      intro hcanceled
      rw [hcanceled] at h
      cases h

/-- The rest of a cancel: what the cancel queued is settled, and the record is returned. -/
lemma settleCanceled {id : OrderId} {a b : Canister} {r : OrderRecord} {trader : Principal}
    {time : Timestamp} (hstate : a.state = b.state.edit id (·.withCanceler trader))
    (hr : b.state.orderHistory.get id = some r) (hcanceler : r.canceledBy = none)
    (ha : a.events = c.events ++ [⟨time, .cancelLimitOrder ⟨id, some trader⟩⟩])
    (hb : b.events = c.events ++ [⟨time, .cancelLimitOrder ⟨id, none⟩⟩])
    (backlog queued : List SettlingEvent) :
    let finish (c : Canister) : Except Trap (Except CancelLimitOrderError OrderRecord × Canister) :=
      (c.withQueue backlog).processSettling queued time >>= fun c =>
      expectBug (c.state.orderHistory.get id) .orderNotFoundAfterCancel >>= fun order =>
      assertBug (order.status = .canceled) .orderNotCanceled >>= fun _ => .ok (.ok order, c)
    Except.Agree (CanceledAlike c trader time) (finish a) (finish b) := by
  have hcut : (a.withQueue backlog).state
      = (b.withQueue backlog).state.edit id (·.withCanceler trader) := by
    rw [withQueue, hstate]
    rfl
  refine .bind (processSettling_edit (State.keeps_withCanceler trader) hcut queued time) ?_
  rintro a' b' ⟨hstate', horders, settled, ha', hb'⟩
  have hrb : b'.state.orderHistory.get id = some r := by
    rw [horders]
    exact hr
  have hra : a'.state.orderHistory.get id = some (r.withCanceler trader) := by
    rw [hstate', State.edit, History.get_edit, if_pos rfl, hrb]
    rfl
  simp only [hra, hrb, Except.expect_some, Except.bind_ok]
  refine .andThen fun _ _ => ?_
  refine @CanceledAlike.canceled c trader time id a' b' r settled hcanceler hrb hstate' ?_ ?_
  · rw [ha', withQueue, ha, List.append_assoc]
    rfl
  · rw [hb', withQueue, hb, List.append_assoc]
    rfl

/-- **A trading account acts for its owner.**  What the registry and the mode say about the two. -/
structure ActsFor (c : Canister) (rt : Runtime) (trader owner : Principal) : Prop where
  traderAccount : c.state.effectiveAccount trader = .ok owner
  ownerAccount : c.state.effectiveAccount owner = .ok owner
  ne : trader ≠ owner
  traderAllowed : c.state.assertCallerIsAllowed (rt.sentBy trader) = .ok ()
  ownerAllowed : c.state.assertCallerIsAllowed (rt.sentBy owner) = .ok ()

namespace ActsFor

variable {rt : Runtime} {trader owner : Principal}

/-- **Placing**, by the trading account and by its owner. -/
lemma placedAlike (h : c.ActsFor rt trader owner) (request : LimitOrderRequest) :
    Except.Agree (PlacedAlike c trader rt.time) (c.addLimitOrder (rt.sentBy trader) request)
      (c.addLimitOrder (rt.sentBy owner) request) := by
  have hne : ¬ trader = owner := h.ne
  simp only [addLimitOrder, h.traderAllowed, h.ownerAllowed, Runtime.msgCaller_sentBy,
    Runtime.time_sentBy, h.traderAccount, h.ownerAccount, Except.bind_ok, ne_eq, hne,
    not_false_eq_true, not_true_eq_false, if_true, if_false]
  cases PendingOrder.tryFrom request with
  | none => exact PlacedAlike.refused _
  | some pending =>
      refine .andThen fun validated _ => ?_
      cases validated with
      | error e => exact PlacedAlike.refused _
      | ok placed =>
          obtain ⟨orderId, order⟩ := placed
          cases hpermit : c.state.permissions.permitTrading orderId.bookId with
          | error e =>
              simp only [hpermit]
              exact PlacedAlike.refused _
          | ok u =>
              simp only [hpermit]
              have hrecord := c.state.recordLimitOrder_edit owner orderId.bookId
                (PendingOrder.intoOrder ⟨order.side, order.price, order.remainingQuantity,
                  order.timeInForce⟩ orderId.seq) trader rt.time
              refine .bind (processEvent_agree hrecord) ?_
              rintro a b ⟨⟨hstate, hget⟩, ha, hb⟩
              exact @PlacedAlike.placed c trader rt.time ⟨owner, orderId, order.side, order.price,
                order.remainingQuantity, order.timeInForce, none⟩ a b _ rfl rfl hget hstate ha hb

/-- **Canceling**, by the trading account and by its owner. -/
lemma canceledAlike (h : c.ActsFor rt trader owner) (orderId : Option OrderId) :
    Except.Agree (CanceledAlike c trader rt.time) (c.cancelOrder (rt.sentBy trader) orderId)
      (c.cancelOrder (rt.sentBy owner) orderId) := by
  have hne : ¬ trader = owner := h.ne
  simp only [cancelOrder, h.traderAllowed, h.ownerAllowed, Runtime.msgCaller_sentBy,
    Runtime.time_sentBy, h.traderAccount, h.ownerAccount, Except.bind_ok, ne_eq, hne,
    not_false_eq_true, not_true_eq_false, if_true, if_false]
  cases orderId with
  | none => exact CanceledAlike.refused _
  | some id =>
      simp only [cancelLimitOrder]
      cases hval : c.state.validateCancelLimitOrder owner id with
      | error e => exact CanceledAlike.refused _
      | ok u =>
          obtain ⟨r, hr, hstatus⟩ := canceled_live hval
          refine .bind (processEvent_agree (R := fun a b => a = b.edit id (·.withCanceler trader) ∧
            ∃ r', b.orderHistory.get id = some r' ∧ r'.canceledBy = none)
            (State.recordCancelLimitOrder_edit hr hstatus trader rt.time)) ?_
          rintro a b ⟨⟨hab, r', hr', hnone⟩, ha, hb⟩
          have hqueue : a.state.pendingSettlingEvents = b.state.pendingSettlingEvents := by
            rw [hab]
            rfl
          rw [hqueue]
          exact settleCanceled hab hr' hnone ha hb _ _

end ActsFor

end Canister

/-! ## Strangers -/

/-- The registry with one more user. -/
def UserRegistry.joined (r : UserRegistry) (p : Principal) (id : UserId) : UserRegistry :=
  { r with users := r.users.insert p id }

/-- A principal without an account is registered by its first deposit. -/
lemma UserRegistry.getOrRegister_of_account {r : UserRegistry} {p : Principal}
    (h : r.account p = none) :
    r.getOrRegister p = Seq.ofLen r.users.size >>= fun id => .ok (id, r.joined p id) := by
  have hu : r.users.get p = none := by
    rw [UserRegistry.account] at h
    cases hg : r.tradingAccounts.get p with
    | some grant =>
        rw [hg] at h
        cases h
    | none =>
        rw [hg, Option.map_eq_none_iff] at h
        exact h
  rw [UserRegistry.getOrRegister, hu]
  rfl

namespace State

variable {s : State} {p q : Principal}

/-- The state with one more user, and with other balances. -/
def joined (s : State) (p : Principal) (id : UserId) (balances : TokenBalance) : State :=
  { s with userRegistry := s.userRegistry.joined p id, balances }

lemma Sound.effectiveAccount_eq (hs : s.Sound) (p : Principal) : s.effectiveAccount p
    = .ok (((s.userRegistry.account p).map UserAccount.effectivePrincipal).getD p) := by
  rw [State.effectiveAccount, hs.registry.lookup]
  rfl

/-- What the registry answers about a principal without an account. -/
structure Stranger (s : State) (p : Principal) : Prop where
  lookup : s.userRegistry.lookup p = .ok none
  fundingId : s.userRegistry.lookupFundingId p = .ok none
  account : s.effectiveAccount p = .ok p
  balance : ∀ token, s.getBalance p token = .ok Balance.zero
  owner : ∀ id r, s.orderHistory.get id = some r → r.owner ≠ p
  granter : ∀ trading grant, s.userRegistry.tradingAccounts.get trading = some grant →
    grant.funding ≠ p

lemma fundingId_of_account (hp : s.userRegistry.account p = none) :
    s.userRegistry.fundingId p = none := by
  rw [UserRegistry.fundingId, hp]
  rfl

lemma Sound.stranger (hs : s.Sound) (hp : s.userRegistry.account p = none) : s.Stranger p := by
  have hfunding := fundingId_of_account hp
  have hid : s.userRegistry.lookupFundingId p = .ok none := by
    rw [hs.registry.lookupFundingId, hfunding]
  refine ⟨?_, hid, ?_, ?_, ?_, ?_⟩
  · rw [hs.registry.lookup, hp]
  · rw [hs.effectiveAccount_eq, hp]
    rfl
  · intro token
    simp only [getBalance, hid, Except.bind_ok]
    rfl
  · rintro id r hr rfl
    obtain ⟨uid, huid⟩ := (hs.records id r hr).owner
    rw [hfunding] at huid
    cases huid
  · rintro trading grant hgrant rfl
    obtain ⟨id, list, hid, -⟩ := hs.registry.granted trading grant hgrant
    rw [hs.registry.fundingId_of_users hid] at hfunding
    cases hfunding

namespace Stranger

/-- A stranger has nothing to trade with. -/
lemma validateLimitOrder_eq (hp : s.Stranger p) (hq : s.Stranger q) (pair : TradingPair)
    (pending : PendingOrder) :
    s.validateLimitOrder p pair pending = s.validateLimitOrder q pair pending := by
  simp only [validateLimitOrder, hp.balance, hq.balance]

/-- An order of a stranger cannot be recorded. -/
lemma recordLimitOrder_fails (hp : s.Stranger p) (hq : s.Stranger q) (bookId : OrderBookId)
    (order : Order) (timestamp : Timestamp) :
    Except.Agree (fun _ _ => False) (s.recordLimitOrder p bookId order none timestamp .write)
      (s.recordLimitOrder q bookId order none timestamp .write) := by
  simp only [recordLimitOrder, hp.fundingId, hq.fundingId, Except.bind_ok, Except.expect_none,
    Except.bind_error]
  refine .andThen fun pair _ => .andThen fun scale _ => .andThen fun book _ => ?_
  exact .andThen fun funds _ => rfl

/-- A stranger has no order to cancel. -/
lemma validateCancelLimitOrder_eq (hp : s.Stranger p) (hq : s.Stranger q) (id : OrderId) :
    ∃ e, s.validateCancelLimitOrder p id = .error e ∧
      s.validateCancelLimitOrder q id = .error e := by
  rw [validateCancelLimitOrder, validateCancelLimitOrder]
  cases hr : s.orderHistory.get id with
  | none => exact ⟨_, rfl, rfl⟩
  | some r => exact ⟨_, if_pos (hp.owner id r hr), if_pos (hq.owner id r hr)⟩

/-- A stranger has no funds to withdraw. -/
lemma withdraw_eq (hp : s.Stranger p) (token : TokenId) (amount : Quantity) :
    s.withdraw p token amount
      = .ok (.error { available := Quantity.zero, required := amount }) := by
  simp only [withdraw, hp.fundingId, Except.bind_ok]

lemma validateRemoveTradingAccount_eq (hp : s.Stranger p) (trading : TradingAccount) :
    s.validateRemoveTradingAccount ⟨p⟩ trading = .error .notAllowed := by
  rw [validateRemoveTradingAccount, UserRegistry.validateRemoveTradingAccount]
  cases hgrant : s.userRegistry.tradingAccounts.get trading.principal with
  | none => rfl
  | some grant => exact if_neg (hp.granter _ _ hgrant)

lemma validateAddTradingAccount_eq (hp : s.Stranger p) (trading : TradingAccount)
    (now : Timestamp) :
    s.validateAddTradingAccount ⟨p⟩ trading now = .ok (.error (.grant .granterNotRegistered)) := by
  simp only [validateAddTradingAccount, UserRegistry.validateAddTradingAccount, hp.lookup,
    Except.bind_ok]

end Stranger

end State

namespace Canister

variable {c : Canister} {rt : Runtime} {p q : Principal}

/-- **Two strangers** with the same standing: neither has an account, both are controllers or
neither is, the mode admits both or neither, and they wait for the same tokens. -/
structure Strangers (c : Canister) (rt : Runtime) (p q : Principal) : Prop where
  left : c.state.userRegistry.account p = none
  right : c.state.userRegistry.account q = none
  controller : rt.isController p = rt.isController q
  allowed : c.state.assertCallerIsAllowed (rt.sentBy p) = c.state.assertCallerIsAllowed (rt.sentBy q)
  waiting : ∀ token, c.state.inFlightUserOps.contains (userOpKey p token)
    = c.state.inFlightUserOps.contains (userOpKey q token)

/-- The canister after the start of a deposit. -/
def afterDepositStart (c : Canister) (caller : Principal) (token : TokenId) :
    Except DepositError Quantity → Canister
  | .error _ => c
  | .ok _ => c.withGuards (c.state.inFlightUserOps.insert (userOpKey caller token) ())

/-- **A first deposit**: the caller is registered, its row is credited and the deposit is logged. -/
structure FirstDeposit (c : Canister) (time : Timestamp) (token : TokenId) (amount : Quantity)
    (id : UserId) (balances : TokenBalance) (caller : Principal) (c' : Canister) : Prop where
  state : c'.state = { c.state.joined caller id balances with
    inFlightUserOps := c.state.inFlightUserOps.erase (userOpKey caller token) }
  events : c'.events = c.events ++ [⟨time, .deposit ⟨caller, token, amount⟩⟩]

/-- **Two first deposits** under the same id, with the same balances. -/
inductive CreditedAlike (c : Canister) (time : Timestamp) (p q : Principal) (token : TokenId)
    (amount : Quantity) : Except DepositError ℕ × Canister → Except DepositError ℕ × Canister → Prop
  | refused (e : DepositError) : CreditedAlike c time p q token amount
      (.error e, c.dropUserOp p token) (.error e, c.dropUserOp q token)
  | credited {blockIndex : ℕ} {byP byQ : Canister} {id : UserId} {balances : TokenBalance}
      (hp : c.FirstDeposit time token amount id balances p byP)
      (hq : c.FirstDeposit time token amount id balances q byQ) :
      CreditedAlike c time p q token amount (.ok blockIndex, byP) (.ok blockIndex, byQ)

/-- **The canister cannot tell two principals apart.**  Every call of the one and of the other gets
the same answer and does the same; a deposit, the only call that goes through, does it under the
name of its caller. -/
structure ActsLike (c : Canister) (rt : Runtime) (p q : Principal) : Prop where
  addLimitOrder : ∀ request,
    c.addLimitOrder (rt.sentBy p) request = c.addLimitOrder (rt.sentBy q) request
  cancelOrder : ∀ orderId, c.cancelOrder (rt.sentBy p) orderId = c.cancelOrder (rt.sentBy q) orderId
  addTradingAccount : ∀ trading,
    c.addTradingAccount (rt.sentBy p) trading = c.addTradingAccount (rt.sentBy q) trading
  removeTradingAccount : ∀ trading,
    c.removeTradingAccount (rt.sentBy p) trading = c.removeTradingAccount (rt.sentBy q) trading
  addTradingPair : ∀ request,
    c.addTradingPair (rt.sentBy p) request = c.addTradingPair (rt.sentBy q) request
  setHalt : ∀ pairs halted, c.setHalt (rt.sentBy p) pairs halted = c.setHalt (rt.sentBy q) pairs halted
  withdrawStart : ∀ token n,
    c.withdrawStart (rt.sentBy p) token n = c.withdrawStart (rt.sentBy q) token n
  depositStart : ∀ token n, Except.Agree
    (fun a b => a.1 = b.1 ∧ a.2 = c.afterDepositStart p token a.1 ∧
      b.2 = c.afterDepositStart q token b.1)
    (c.depositStart (rt.sentBy p) token n) (c.depositStart (rt.sentBy q) token n)
  depositFinish : ∀ token amount reply, Except.Agree (CreditedAlike c rt.time p q token amount)
    (c.depositFinish rt p token amount reply) (c.depositFinish rt q token amount reply)
  getBalances : ∀ filter, c.getBalances p filter = c.getBalances q filter
  getMyOrders : ∀ args, c.getMyOrders p args = c.getMyOrders q args
  getMyTrades : ∀ args, c.getMyTrades p args = c.getMyTrades q args
  getMyTradingAccounts : c.getMyTradingAccounts p = c.getMyTradingAccounts q

/-- Guards do not matter to the registry. -/
lemma stranger_withGuards (hp : c.state.Stranger p) (ops : SortedSet UserOpKey) :
    (c.withGuards ops).state.Stranger p :=
  ⟨hp.lookup, hp.fundingId, hp.account, hp.balance, hp.owner, hp.granter⟩

namespace Strangers

lemma controller_eq (h : c.Strangers rt p q) :
    (rt.sentBy p).isController (rt.sentBy p).msgCaller
      = (rt.sentBy q).isController (rt.sentBy q).msgCaller := h.controller

lemma addLimitOrder_eq (h : c.Strangers rt p q) (hs : c.state.Sound) (request : LimitOrderRequest) :
    c.addLimitOrder (rt.sentBy p) request = c.addLimitOrder (rt.sentBy q) request := by
  have hp := hs.stranger h.left
  have hq := hs.stranger h.right
  simp only [addLimitOrder, h.allowed, Runtime.msgCaller_sentBy, Runtime.time_sentBy, hp.account,
    hq.account, Except.bind_ok, ne_eq, not_true_eq_false, if_false, hp.validateLimitOrder_eq hq]
  refine Except.agree_eq (.andThen fun _ _ => ?_)
  cases PendingOrder.tryFrom request with
  | none => rfl
  | some pending =>
      refine .andThen fun validated _ => ?_
      cases validated with
      | error e => rfl
      | ok placed =>
          obtain ⟨orderId, order⟩ := placed
          cases hpermit : c.state.permissions.permitTrading orderId.bookId with
          | error e =>
              simp only [hpermit]
              rfl
          | ok u =>
              simp only [hpermit]
              refine .bind (processEvent_agree (State.Stranger.recordLimitOrder_fails hp hq
                orderId.bookId (PendingOrder.intoOrder ⟨order.side, order.price,
                  order.remainingQuantity, order.timeInForce⟩ orderId.seq) rt.time)) ?_
              intro a b hab
              exact hab.1.elim

lemma cancelOrder_eq (h : c.Strangers rt p q) (hs : c.state.Sound) (orderId : Option OrderId) :
    c.cancelOrder (rt.sentBy p) orderId = c.cancelOrder (rt.sentBy q) orderId := by
  have hp := hs.stranger h.left
  have hq := hs.stranger h.right
  simp only [cancelOrder, h.allowed, Runtime.msgCaller_sentBy, Runtime.time_sentBy, hp.account,
    hq.account, Except.bind_ok, ne_eq, not_true_eq_false, if_false]
  refine Except.agree_eq (.andThen fun _ _ => ?_)
  cases orderId with
  | none => rfl
  | some id =>
      obtain ⟨e, hep, heq⟩ := hp.validateCancelLimitOrder_eq hq id
      simp only [cancelLimitOrder, hep, heq]
      rfl

/-- Both callers are refused the guard, or both take it. -/
lemma guardUserOp_cases (h : c.Strangers rt p q) (token : TokenId) :
    (c.guardUserOp p token = none ∧ c.guardUserOp q token = none) ∨
      (c.guardUserOp p token
          = some (c.withGuards (c.state.inFlightUserOps.insert (userOpKey p token) ())) ∧
        c.guardUserOp q token
          = some (c.withGuards (c.state.inFlightUserOps.insert (userOpKey q token) ()))) := by
  have hq := h.waiting token
  cases hp : c.state.inFlightUserOps.contains (userOpKey p token) with
  | true => exact Or.inl ⟨if_pos hp, if_pos (hq.symm.trans hp)⟩
  | false => exact Or.inr ⟨if_neg (ne_true_of_eq_false hp),
      if_neg (ne_true_of_eq_false (hq.symm.trans hp))⟩

lemma withdrawStart_eq (h : c.Strangers rt p q) (hs : c.state.Sound) (token : TokenId) (n : ℕ) :
    c.withdrawStart (rt.sentBy p) token n = c.withdrawStart (rt.sentBy q) token n := by
  have hp := hs.stranger h.left
  have hq := hs.stranger h.right
  simp only [withdrawStart, h.allowed, Runtime.msgCaller_sentBy, isTradingAccount, hp.lookup,
    hq.lookup, Except.bind_ok, Permissions.permitWithdraw, Bool.false_eq_true, if_false]
  rcases h.guardUserOp_cases token with ⟨hgp, hgq⟩ | ⟨hgp, hgq⟩
  · simp only [hgp, hgq]
  · simp only [hgp, hgq, (stranger_withGuards hp _).withdraw_eq,
      (stranger_withGuards hq _).withdraw_eq, Except.bind_ok, dropUserOp_guardUserOp hgp,
      dropUserOp_guardUserOp hgq]

/-- Two first deposits take a guard each, or both are refused. -/
lemma depositStart_agree (h : c.Strangers rt p q) (hs : c.state.Sound) (token : TokenId) (n : ℕ) :
    Except.Agree (fun a b => a.1 = b.1 ∧ a.2 = c.afterDepositStart p token a.1 ∧
        b.2 = c.afterDepositStart q token b.1)
      (c.depositStart (rt.sentBy p) token n) (c.depositStart (rt.sentBy q) token n) := by
  have hp := hs.stranger h.left
  have hq := hs.stranger h.right
  simp only [depositStart, h.allowed, Runtime.msgCaller_sentBy, isTradingAccount, hp.lookup,
    hq.lookup, Except.bind_ok, Permissions.permitDeposit, Bool.false_eq_true, if_false]
  refine .andThen fun _ _ => ?_
  cases Quantity.tryFrom n with
  | none => exact ⟨rfl, rfl, rfl⟩
  | some amount =>
      simp only
      by_cases hknown : (!c.state.isKnownToken token) = true
      · rw [if_pos hknown, if_pos hknown]
        exact ⟨rfl, rfl, rfl⟩
      · rw [if_neg hknown, if_neg hknown]
        rcases h.guardUserOp_cases token with ⟨hgp, hgq⟩ | ⟨hgp, hgq⟩
        · simp only [hgp, hgq]
          exact ⟨rfl, rfl, rfl⟩
        · simp only [hgp, hgq, (stranger_withGuards hp _).balance,
            (stranger_withGuards hq _).balance, Except.bind_ok, dropUserOp_guardUserOp hgp,
            dropUserOp_guardUserOp hgq]
          split_ifs with hfits
          · exact ⟨rfl, rfl, rfl⟩
          · exact ⟨rfl, rfl, rfl⟩

lemma depositFinish_agree (h : c.Strangers rt p q) (token : TokenId) (amount : Quantity)
    (reply : LedgerReply) : Except.Agree (CreditedAlike c rt.time p q token amount)
      (c.depositFinish rt p token amount reply) (c.depositFinish rt q token amount reply) := by
  rw [depositFinish, depositFinish]
  cases depositReply token reply with
  | error e => exact CreditedAlike.refused e
  | ok blockIndex =>
      have hcredit : Except.Agree
          (fun a b => ∃ id balances, a = c.state.joined p id balances ∧
            b = c.state.joined q id balances)
          (c.state.applyStateTransition (.deposit ⟨p, token, amount⟩) rt.time .write)
          (c.state.applyStateTransition (.deposit ⟨q, token, amount⟩) rt.time .write) := by
        simp only [State.applyStateTransition, State.deposit,
          UserRegistry.getOrRegister_of_account h.left,
          UserRegistry.getOrRegister_of_account h.right]
        refine .bind (R := fun a b => ∃ id, a = (id, c.state.userRegistry.joined p id) ∧
          b = (id, c.state.userRegistry.joined q id)) ?_ ?_
        · exact .andThen fun id _ => ⟨id, rfl, rfl⟩
        · rintro a b ⟨id, rfl, rfl⟩
          exact .andThen fun balances _ => ⟨id, balances, rfl, rfl⟩
      refine .bind (processEvent_agree hcredit) ?_
      rintro a b ⟨⟨id, balances, ha, hb⟩, hea, heb⟩
      refine @CreditedAlike.credited c rt.time p q token amount _ _ _ id balances
        ⟨?_, hea⟩ ⟨?_, heb⟩
      · rw [dropUserOp, ha]
        rfl
      · rw [dropUserOp, hb]
        rfl

/-- **Strangers act alike.** -/
theorem actsLike (h : c.Strangers rt p q) (hs : c.state.Sound) (hf : c.state.Fed) :
    c.ActsLike rt p q := by
  have hp := hs.stranger h.left
  have hq := hs.stranger h.right
  have hview : c.state.viewOf p = c.state.viewOf q := by
    rw [State.viewOf, State.viewOf, State.fundingId_of_account h.left,
      State.fundingId_of_account h.right]
  constructor
  case addLimitOrder => exact h.addLimitOrder_eq hs
  case cancelOrder => exact h.cancelOrder_eq hs
  case addTradingAccount =>
    intro trading
    simp only [Canister.addTradingAccount, h.allowed, Runtime.msgCaller_sentBy,
      hp.validateAddTradingAccount_eq, hq.validateAddTradingAccount_eq, Except.bind_ok]
  case removeTradingAccount =>
    intro trading
    simp only [Canister.removeTradingAccount, h.allowed, Runtime.msgCaller_sentBy,
      hp.validateRemoveTradingAccount_eq, hq.validateRemoveTradingAccount_eq]
  case addTradingPair =>
    intro request
    rw [Canister.addTradingPair, Canister.addTradingPair, h.controller_eq]
    rfl
  case setHalt =>
    intro pairs halted
    rw [Canister.setHalt, Canister.setHalt, h.controller_eq]
    rfl
  case withdrawStart => exact h.withdrawStart_eq hs
  case depositStart => exact h.depositStart_agree hs
  case depositFinish => exact h.depositFinish_agree
  case getBalances =>
    intro filter
    simp only [Canister.getBalances, State.getBalances, hp.account, hq.account, Except.bind_ok,
      hp.fundingId, hq.fundingId]
  case getMyOrders =>
    intro args
    rw [getMyOrders_eq hs hf hp.account, getMyOrders_eq hs hf hq.account, hview]
  case getMyTrades =>
    intro args
    rw [getMyTrades_eq hs hf hp.account, getMyTrades_eq hs hf hq.account, hview]
  case getMyTradingAccounts =>
    simp only [Canister.getMyTradingAccounts, UserRegistry.tradingAccountsOf, hp.fundingId,
      hq.fundingId]

end Strangers

/-! ## Grants and revocations -/

/-- A trading account and its owner resolve to the owner. -/
lemma resolve_of_grant (hs : c.state.Sound) {trader owner : Principal}
    (hgrant : c.state.userRegistry.tradingAccounts.get trader = some ⟨owner⟩) :
    c.state.effectiveAccount trader = .ok owner ∧ c.state.effectiveAccount owner = .ok owner ∧
      trader ≠ owner := by
  obtain ⟨id, list, hid, -⟩ := hs.registry.granted trader _ hgrant
  have howner : c.state.userRegistry.tradingAccounts.get owner = none :=
    (UserRegistry.fundingId_eq_some.mp (hs.registry.fundingId_of_users hid)).1
  refine ⟨?_, ?_, ?_⟩
  · rw [hs.effectiveAccount_eq, UserRegistry.account, hgrant]
    rfl
  · rw [hs.effectiveAccount_eq, UserRegistry.account, howner]
    cases c.state.userRegistry.users.get owner <;> rfl
  · rintro rfl
    rw [howner] at hgrant
    cases hgrant

/-- **An owner can revoke its grant.** -/
lemma revoke_returns (hs : c.state.Sound) {trader owner : Principal}
    (hgrant : c.state.userRegistry.tradingAccounts.get trader = some ⟨owner⟩)
    (hallowed : c.state.assertCallerIsAllowed (rt.sentBy owner) = .ok ()) :
    ∃ c', c.removeTradingAccount (rt.sentBy owner) trader = .ok (.ok (), c') := by
  obtain ⟨id, list, hid, hlist⟩ := hs.registry.granted trader _ hgrant
  have hlookup : c.state.userRegistry.lookupFundingId owner = .ok (some id) := by
    rw [hs.registry.lookupFundingId, hs.registry.fundingId_of_users hid]
  have hvalid : c.state.validateRemoveTradingAccount ⟨owner⟩ ⟨trader⟩ = .ok () := by
    rw [State.validateRemoveTradingAccount, UserRegistry.validateRemoveTradingAccount, hgrant]
    exact if_pos rfl
  simp only [removeTradingAccount, hallowed, Runtime.msgCaller_sentBy, Except.bind_ok, hvalid,
    processEvent, State.applyStateTransition, State.recordRemoveTradingAccount,
    UserRegistry.recordRemoveTradingAccount, hlookup, hgrant, hlist, Except.expect_some,
    decide_true, Except.assert_true, Except.ok.injEq, Prod.mk.injEq, true_and, exists_eq']

/-- **After the revocation** the trading account has no account and waits for nothing. -/
lemma revoked (hs : c.state.Sound) (hguards : c.state.GuardsDisjoint) {trader owner : Principal}
    {c' : Canister} (h : c.removeTradingAccount (rt.sentBy owner) trader = .ok (.ok (), c')) :
    c'.state.userRegistry.account trader = none ∧
      ∀ token, c'.state.inFlightUserOps.get (userOpKey trader token) = none := by
  rcases removeTradingAccount_acts h with ⟨e, he, -⟩ | ⟨-, -, hproc⟩
  · cases he
  · obtain ⟨s, hs', rfl⟩ := processEvent_eq_ok hproc
    simp only [State.applyStateTransition, State.recordRemoveTradingAccount, Except.bind_eq_ok,
      Except.ok.injEq] at hs'
    obtain ⟨registry, hrecord, rfl⟩ := hs'
    obtain ⟨id, list, -, hgrant, -, rfl⟩ := UserRegistry.recordRemoveTradingAccount_eq_ok hrecord
    refine ⟨?_, ?_⟩
    · have husers : c.state.userRegistry.users.get trader = none :=
        hs.registry.disjoint trader _ hgrant
      rw [UserRegistry.account]
      simp only [SortedMap.get_erase_self, husers, Option.map_none]
    · intro token
      show c.state.inFlightUserOps.get (userOpKey trader token) = none
      cases hheld : c.state.inFlightUserOps.get (userOpKey trader token) with
      | none => rfl
      | some u =>
          have hnone := hguards _ hheld
          rw [show (ofLex (userOpKey trader token)).1 = trader from rfl, hgrant] at hnone
          cases hnone

end Canister

namespace World

variable {w : World}

/-- **Delegation is transparent.**  A trading account places and cancels like its owner, up to who
is on record as the placer or the canceler, and asks like its owner.  Its owner can revoke the
grant; from then on, as long as it has no account again, every call of it is treated like the same
call of any other principal without an account. -/
theorem Reachable.delegation_transparent (h : Reachable w) {trader owner : Principal}
    (hgrant : w.canister.state.userRegistry.tradingAccounts.get trader = some ⟨owner⟩)
    (rt : Runtime)
    (htrader : w.canister.state.assertCallerIsAllowed (rt.sentBy trader) = .ok ())
    (howner : w.canister.state.assertCallerIsAllowed (rt.sentBy owner) = .ok ()) :
    (∀ request, Except.Agree (Canister.PlacedAlike w.canister trader rt.time)
      (w.canister.addLimitOrder (rt.sentBy trader) request)
      (w.canister.addLimitOrder (rt.sentBy owner) request)) ∧
    (∀ orderId, Except.Agree (Canister.CanceledAlike w.canister trader rt.time)
      (w.canister.cancelOrder (rt.sentBy trader) orderId)
      (w.canister.cancelOrder (rt.sentBy owner) orderId)) ∧
    (∀ filter, w.canister.getBalances trader filter = w.canister.getBalances owner filter) ∧
    (∀ args, w.canister.getMyOrders trader args = w.canister.getMyOrders owner args) ∧
    (∀ args, w.canister.getMyTrades trader args = w.canister.getMyTrades owner args) ∧
    ∃ c, w.canister.removeTradingAccount (rt.sentBy owner) trader = .ok (.ok (), c) ∧
      c.state.userRegistry.account trader = none ∧
      (∀ token, c.state.inFlightUserOps.get (userOpKey trader token) = none) ∧
      ∀ w', Run { w with canister := c } w' → ∀ rt' other,
        w'.canister.Strangers rt' trader other → w'.canister.ActsLike rt' trader other := by
  have hw := h.guarded
  obtain ⟨ht, ho, hne⟩ := Canister.resolve_of_grant hw.sound hgrant
  have hacts : w.canister.ActsFor rt trader owner := ⟨ht, ho, hne, htrader, howner⟩
  refine ⟨hacts.placedAlike, hacts.canceledAlike, ?_, ?_, ?_, ?_⟩
  · intro filter
    simp only [Canister.getBalances, ht, ho]
  · intro args
    rw [Canister.getMyOrders_eq hw.sound h.fed ht, Canister.getMyOrders_eq hw.sound h.fed ho]
  · intro args
    rw [Canister.getMyTrades_eq hw.sound h.fed ht, Canister.getMyTrades_eq hw.sound h.fed ho]
  · obtain ⟨c, hrevoke⟩ := Canister.revoke_returns hw.sound hgrant howner
    obtain ⟨haccount, hidle⟩ := Canister.revoked hw.sound hw.disjoint hrevoke
    refine ⟨c, hrevoke, haccount, hidle, ?_⟩
    intro w' hrun rt' other hstrangers
    have hstep : Step w { w with canister := c } := by
      have hmessage : (Message.removeTradingAccount trader).run (rt.sentBy owner) w.canister
          = .ok c := by
        simp only [Message.run, hrevoke, Except.bind_ok]
      exact .message hmessage
    have hw' : Reachable w' := Reachable.run (.step h trivial hstep) hrun
    exact hstrangers.actsLike hw'.guarded.sound hw'.fed

/-- The order that the trading account and its owner both place. -/
def delegatedRequest : LimitOrderRequest := ⟨samplePair, .buy, 4, 10, none⟩

/-- The second trading account of the run sees its owner's orders and places like its owner, and once
it is revoked it is treated like a principal that was never granted. -/
theorem delegation_transparent_delegatedWorld :
    delegatedWorld.canister.getMyOrders ⟨13⟩ none = delegatedWorld.canister.getMyOrders ⟨10⟩ none ∧
    (∃ id byTrader byOwner,
      delegatedWorld.canister.addLimitOrder ((laterRuntime 1).sentBy ⟨13⟩) delegatedRequest
        = .ok (.ok id, byTrader) ∧
      delegatedWorld.canister.addLimitOrder ((laterRuntime 1).sentBy ⟨10⟩) delegatedRequest
        = .ok (.ok id, byOwner) ∧
      byTrader.state = byOwner.state.edit id (·.withPlacer ⟨13⟩)) ∧
    ∃ c, delegatedWorld.canister.removeTradingAccount ((laterRuntime 1).sentBy ⟨10⟩) ⟨13⟩
        = .ok (.ok (), c) ∧ c.ActsLike (laterRuntime 1) ⟨13⟩ ⟨14⟩ := by
  obtain ⟨hplace, -, -, horders, -, c, hrevoke, haccount, hidle, hlike⟩ :=
    @Reachable.delegation_transparent delegatedWorld reachable_delegatedWorld ⟨13⟩ ⟨10⟩
      (by decide +kernel) (laterRuntime 1) (by decide +kernel) (by decide +kernel)
  refine ⟨horders none, ?_, c, hrevoke, hlike _ .refl _ _ ?_⟩
  · obtain ⟨byTrader, byOwner, htrader, howner, halike⟩ :=
      (hplace delegatedRequest).returns (by decide +kernel)
    have hplaced : (delegatedWorld.canister.addLimitOrder ((laterRuntime 1).sentBy ⟨13⟩)
        delegatedRequest).toOption.any (fun r => r.1.isOk) = true := by decide +kernel
    rw [htrader] at hplaced
    cases halike with
    | refused e => cases hplaced
    | placed _ _ _ hstate => exact ⟨_, _, _, htrader, howner, hstate⟩
  · have hafter : ((delegatedWorld.canister.removeTradingAccount ((laterRuntime 1).sentBy ⟨10⟩)
        ⟨13⟩).toOption.any fun r => r.2.state.userRegistry.account ⟨14⟩ = none ∧
          r.2.state.assertCallerIsAllowed ((laterRuntime 1).sentBy ⟨13⟩)
            = r.2.state.assertCallerIsAllowed ((laterRuntime 1).sentBy ⟨14⟩) ∧
          r.2.state.inFlightUserOps.keys = [userOpKey ⟨10⟩ sampleQuote]) = true := by
      decide +kernel
    rw [hrevoke] at hafter
    obtain ⟨hother, hallowed, hkeys⟩ := of_decide_eq_true hafter
    refine ⟨haccount, hother, by decide, hallowed, fun token => ?_⟩
    have hfree : c.state.inFlightUserOps.get (userOpKey ⟨14⟩ token) = none := by
      cases hheld : c.state.inFlightUserOps.get (userOpKey ⟨14⟩ token) with
      | none => rfl
      | some u =>
          have hmem : userOpKey ⟨14⟩ token ∈ c.state.inFlightUserOps.keys :=
            (SortedMap.mem_keys_iff _).mpr (by rw [hheld]; rfl)
          rw [hkeys] at hmem
          cases List.mem_singleton.mp hmem
    rw [SortedMap.contains, SortedMap.contains, hidle, hfree]

end World

end OisyTrade
