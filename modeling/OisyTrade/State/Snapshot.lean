import OisyTrade.Order.BookOps
import OisyTrade.State.Types

/-!
# Snapshots of the state

`state/snapshot/mod.rs`.  `StateSnapshot.ofState` is what `pre_upgrade` writes, and `intoState` what
`post_upgrade` rebuilds next to the stable structures, which survive on their own.

Restoring checks every collection for duplicates, rebuilds the index of each order book from its
levels, and starts without guards.  `intoState_ofState` says that it gives the state back.
-/

namespace OisyTrade

/-- `PermissionsSnapshot`. -/
structure PermissionsSnapshot where
  tradingHalted : Bool
  haltedPairs : List OrderBookId

/-- `From<&Permissions> for PermissionsSnapshot`. -/
def PermissionsSnapshot.ofPermissions (p : Permissions) : PermissionsSnapshot :=
  { tradingHalted := p.tradingHalted, haltedPairs := p.haltedPairs.keys }

/-- `From<PermissionsSnapshot> for Permissions`. -/
def PermissionsSnapshot.intoPermissions (s : PermissionsSnapshot) : Permissions :=
  let p := if s.tradingHalted then Permissions.default.haltTradingGlobally else Permissions.default
  s.haltedPairs.foldl Permissions.haltTrading p

/-- `StateSnapshot`.  `TokenEntry`, `TradingPairEntry` and `LedgerFeeEntry` are pairs. -/
structure StateSnapshot where
  mode : Mode
  nextBookId : OrderBookId
  tokens : List (TokenId × TokenMetadata)
  tradingPairs : List (TradingPair × OrderBookId)
  orderBooks : List OrderBookSnapshot
  ledgerFeeCache : List (TokenId × ℕ)
  pendingSettlingEvents : Option (List SettlingEvent)
  maxOrdersPerChunk : Option U32
  instructionBudget : Option U64
  feePool : Option (List FeeEntry)
  permissions : Option PermissionsSnapshot
  maxSettlementUnitsPerEvent : Option U32

/-- Insert an entry whose key must be new. -/
def insertNew {K V : Type} [LinearOrder K] (bug : Bug) (m : SortedMap K V) (entry : K × V) :
    Except Trap (SortedMap K V) := do
  assertBug (!m.contains entry.1) bug
  .ok (m.insert entry.1 entry.2)

/-- Restore one order book under its id. -/
def restoreBook (books : SortedMap OrderBookId OrderBook) (snapshot : OrderBookSnapshot) :
    Except Trap (SortedMap OrderBookId OrderBook) := do
  let book ← snapshot.intoBook
  insertNew .snapshotDuplicateOrderBook books (snapshot.id, book)

namespace StateSnapshot

/-- `StateSnapshot::from_state`. -/
def ofState (s : State) : StateSnapshot :=
  { mode := s.mode
    nextBookId := s.nextBookId
    tokens := s.tokens.entries
    tradingPairs := s.tradingPairs.byPair.entries
    orderBooks := s.orderBooks.entries.map fun e => .ofBook e.2
    ledgerFeeCache := s.ledgerFeeCache.entries
    pendingSettlingEvents :=
      if s.pendingSettlingEvents.isEmpty then none else some s.pendingSettlingEvents
    maxOrdersPerChunk := some s.executionPolicy.maxOrdersPerChunk
    instructionBudget := some s.executionPolicy.instructionBudget
    feePool := if s.balances.feePool.snapshot.isEmpty then none
      else some s.balances.feePool.snapshot
    permissions := if s.permissions = Permissions.default then none
      else some (.ofPermissions s.permissions)
    maxSettlementUnitsPerEvent := some s.executionPolicy.maxSettlementUnitsPerEvent }

/-- The policy of a snapshot: absent fields of older versions fall back to the defaults. -/
def policy (snapshot : StateSnapshot) : Except Trap ExecutionPolicy :=
  match snapshot.maxOrdersPerChunk, snapshot.instructionBudget,
      snapshot.maxSettlementUnitsPerEvent with
  | some max, some budget, some units =>
      match ExecutionPolicy.tryNew max budget units with
      | .ok policy => .ok policy
      | .error _ => .error (.bug .snapshotInvalidPolicy)
  | some max, some budget, none =>
      match ExecutionPolicy.tryNew max budget defaultMaxSettlementUnitsPerEvent with
      | .ok policy => .ok policy
      | .error _ => .error (.bug .snapshotInvalidPolicy)
  | none, none, none => .ok ExecutionPolicy.default
  | _, _, _ => .error (.bug .snapshotPartialPolicy)

/-- `StateSnapshot::into_state`.  `balances` is the stable map, reopened with an empty pool. -/
def intoState (snapshot : StateSnapshot) (orderHistory : OrderHistory) (tradeHistory : TradeHistory)
    (balances : TokenBalance) (userRegistry : UserRegistry) : Except Trap State := do
  let tokens ← snapshot.tokens.foldlM (insertNew .snapshotDuplicateToken) SortedMap.empty
  let tradingPairs ← snapshot.tradingPairs.foldlM
    (fun (m : TradingPairMap) e => m.insert e.1 e.2) TradingPairMap.empty
  let orderBooks ← snapshot.orderBooks.foldlM restoreBook SortedMap.empty
  let ledgerFeeCache ← snapshot.ledgerFeeCache.foldlM (insertNew .snapshotDuplicateLedgerFee)
    SortedMap.empty
  let feePool ← FeePool.restore (snapshot.feePool.getD [])
  let executionPolicy ← snapshot.policy
  .ok { mode := snapshot.mode, executionPolicy, nextBookId := snapshot.nextBookId, tokens,
        tradingPairs, orderBooks, userRegistry, balances := { balances with feePool },
        orderHistory, tradeHistory, ledgerFeeCache,
        pendingSettlingEvents := snapshot.pendingSettlingEvents.getD [],
        activeTasks := SortedSet.empty, inFlightUserOps := SortedSet.empty,
        permissions := (snapshot.permissions.map (·.intoPermissions)).getD Permissions.default }

end StateSnapshot

/-- Reopening the stable balance map: `TokenBalance::new` starts with an empty pool. -/
def TokenBalance.reopen (table : TokenBalance) : TokenBalance :=
  { table with feePool := FeePool.empty }

/-! ## Restoring gives the state back -/

lemma foldlM_insertNew {K V : Type} [LinearOrder K] {bug : Bug} :
    ∀ {l : List (K × V)} {m : SortedMap K V}, (l.map Prod.fst).Nodup →
      (∀ e ∈ l, m.get e.1 = none) → l.foldlM (insertNew bug) m = .ok (m.insertAll l)
  | [], m, _, _ => rfl
  | e :: l, m, hnd, hnew => by
      rw [List.map_cons, List.nodup_cons] at hnd
      have hc : (!m.contains e.1) = true := by
        rw [SortedMap.contains, hnew e List.mem_cons_self]
        rfl
      rw [List.foldlM_cons]
      simp only [insertNew, hc, Except.assert_true, Except.bind_ok]
      refine foldlM_insertNew hnd.2 fun e' he' => ?_
      rw [SortedMap.get_insert_of_ne]
      · exact hnew e' (List.mem_cons_of_mem _ he')
      · intro heq
        exact hnd.1 (heq ▸ List.mem_map_of_mem he')

lemma foldlM_insertNew_entries {K V : Type} [LinearOrder K] (bug : Bug) (m : SortedMap K V) :
    m.entries.foldlM (insertNew bug) SortedMap.empty = .ok m := by
  rw [foldlM_insertNew m.keys_nodup fun _ _ => rfl, SortedMap.insertAll_entries]

/-- The two directions of a pair map are inverse to each other. -/
def TradingPairMap.Inverse (m : TradingPairMap) : Prop :=
  ∀ pair id, m.byPair.get pair = some id ↔ m.byBook.get id = some pair

lemma TradingPairMap.foldlM_insert :
    ∀ {l : List (TradingPair × OrderBookId)} {acc : TradingPairMap}, (l.map Prod.fst).Nodup →
      (l.map Prod.snd).Nodup → (∀ e ∈ l, acc.byPair.get e.1 = none) →
      (∀ e ∈ l, acc.byBook.get e.2 = none) →
      l.foldlM (fun (m : TradingPairMap) e => m.insert e.1 e.2) acc
        = .ok ⟨acc.byPair.insertAll l, acc.byBook.insertAll (l.map fun e => (e.2, e.1))⟩
  | [], acc, _, _, _, _ => rfl
  | e :: l, acc, h1, h2, h3, h4 => by
      rw [List.map_cons, List.nodup_cons] at h1 h2
      have hc : (!acc.byPair.contains e.1 && !acc.byBook.contains e.2) = true := by
        rw [SortedMap.contains, SortedMap.contains, h3 e List.mem_cons_self,
          h4 e List.mem_cons_self]
        rfl
      rw [List.foldlM_cons]
      simp only [TradingPairMap.insert, hc, Except.assert_true, Except.bind_ok]
      refine foldlM_insert h1.2 h2.2 (fun e' he' => ?_) fun e' he' => ?_
      · have hne : e.1 ≠ e'.1 := fun heq => h1.1 (heq ▸ List.mem_map_of_mem he')
        exact (SortedMap.get_insert_of_ne _ _ hne).trans (h3 e' (List.mem_cons_of_mem _ he'))
      · have hne : e.2 ≠ e'.2 := fun heq => h2.1 (heq ▸ List.mem_map_of_mem he')
        exact (SortedMap.get_insert_of_ne _ _ hne).trans (h4 e' (List.mem_cons_of_mem _ he'))

lemma TradingPairMap.Inverse.restore {m : TradingPairMap} (h : m.Inverse) :
    m.byPair.entries.foldlM (fun (m : TradingPairMap) e => m.insert e.1 e.2) TradingPairMap.empty
      = .ok m := by
  have hinj : ∀ e ∈ m.byPair.entries, ∀ e' ∈ m.byPair.entries, e.2 = e'.2 → e = e' := by
    intro e he e' he' heq
    have h1 := (h e.1 e.2).mp (m.byPair.mem_entries_iff.mp he)
    have h2 := (h e'.1 e'.2).mp (m.byPair.mem_entries_iff.mp he')
    rw [heq, h2] at h1
    exact Prod.ext (Option.some.inj h1).symm heq
  have hnd : (m.byPair.entries.map Prod.snd).Nodup :=
    List.Nodup.map_on hinj (List.Nodup.of_map _ m.byPair.keys_nodup)
  rw [foldlM_insert m.byPair.keys_nodup hnd (fun _ _ => rfl) fun _ _ => rfl]
  have hbook : (SortedMap.empty : SortedMap OrderBookId TradingPair).insertAll
      (m.byPair.entries.map fun e => (e.2, e.1)) = m.byBook := by
    have hnd' : ((m.byPair.entries.map fun e => (e.2, e.1)).map Prod.fst).Nodup := by
      rw [List.map_map]
      exact hnd
    refine SortedMap.ext_get fun id => ?_
    cases hg : m.byBook.get id with
    | none =>
        rw [SortedMap.get_insertAll_of_notMem, SortedMap.get_empty]
        intro hmem
        rw [List.map_map] at hmem
        obtain ⟨e, he, rfl⟩ := List.mem_map.mp hmem
        have hsome := (h e.1 e.2).mp (m.byPair.mem_entries_iff.mp he)
        rw [Function.comp_apply, hsome] at hg
        cases hg
    | some pair =>
        refine SortedMap.get_insertAll_of_mem _ hnd' (List.mem_map.mpr ⟨(pair, id), ?_, rfl⟩)
        exact m.byPair.mem_entries_iff.mpr ((h pair id).mpr hg)
  have hpair : TradingPairMap.empty.byPair.insertAll m.byPair.entries = m.byPair :=
    m.byPair.insertAll_entries
  rw [hpair]
  exact congrArg (fun b => Except.ok (TradingPairMap.mk m.byPair b)) hbook

lemma foldlM_restoreBook :
    ∀ {l : List (OrderBookId × OrderBook)} {acc : SortedMap OrderBookId OrderBook},
      (∀ e ∈ l, e.2.id = e.1 ∧ e.2.Sound) →
      (l.map fun e => OrderBookSnapshot.ofBook e.2).foldlM restoreBook acc
        = l.foldlM (insertNew .snapshotDuplicateOrderBook) acc
  | [], acc, _ => rfl
  | e :: l, acc, h => by
      obtain ⟨hid, hs⟩ := h e List.mem_cons_self
      have hstep : restoreBook acc (.ofBook e.2)
          = insertNew .snapshotDuplicateOrderBook acc e := by
        simp only [restoreBook, OrderBookSnapshot.intoBook_ofBook hs, Except.bind_ok]
        have hid' : (OrderBookSnapshot.ofBook e.2).id = e.1 := hid
        rw [hid']
      rw [List.map_cons, List.foldlM_cons, List.foldlM_cons, hstep]
      refine bind_congr fun acc' => ?_
      exact foldlM_restoreBook fun e' he' => h e' (List.mem_cons_of_mem _ he')

lemma FeePool.restore_snapshot (pool : FeePool) : FeePool.restore pool.snapshot = .ok pool := by
  have h : ∀ (l : List (TokenId × Quantity)) (m : SortedMap TokenId Quantity),
      (l.map fun e => (⟨e.1, e.2⟩ : FeeEntry)).foldlM
          (fun (m : SortedMap TokenId Quantity) entry => do
            assertBug (!m.contains entry.token) .duplicateFeeEntry
            .ok (m.insert entry.token entry.amount)) m
        = l.foldlM (insertNew .duplicateFeeEntry) m := by
    intro l
    induction l with
    | nil => exact fun _ => rfl
    | cons e l ih =>
        intro m
        rw [List.map_cons, List.foldlM_cons, List.foldlM_cons]
        exact bind_congr fun m' => ih m'
  rw [FeePool.restore, FeePool.snapshot, h, foldlM_insertNew_entries]
  rfl

lemma PermissionsSnapshot.intoPermissions_ofPermissions (p : Permissions) :
    (ofPermissions p).intoPermissions = p := by
  have hfold : ∀ (l : List OrderBookId) (q : Permissions),
      l.foldl Permissions.haltTrading q
        = { q with haltedPairs := q.haltedPairs.addAll l } := by
    intro l
    induction l with
    | nil => exact fun _ => rfl
    | cons b l ih =>
        intro q
        rw [List.foldl_cons, ih]
        rfl
  have hset : (SortedSet.empty : SortedSet OrderBookId).addAll p.haltedPairs.keys
      = p.haltedPairs := by
    refine SortedMap.ext_contains fun k => ?_
    rw [SortedMap.contains_addAll, SortedMap.mem_keys_iff]
    simp [SortedMap.contains]
  rw [intoPermissions, ofPermissions]
  simp only [hfold]
  cases hp : p.tradingHalted with
  | false =>
      simp only [Bool.false_eq_true, if_false]
      show Permissions.mk false _ = p
      rw [show Permissions.default.haltedPairs = SortedSet.empty from rfl, hset, ← hp]
  | true =>
      simp only [if_true]
      show Permissions.mk true _ = p
      rw [show Permissions.default.haltTradingGlobally.haltedPairs = SortedSet.empty from rfl, hset,
        ← hp]

namespace StateSnapshot

lemma policy_ofState (s : State) : (ofState s).policy = .ok s.executionPolicy := by
  simp only [policy, ofState, ExecutionPolicy.tryNew_self]

/-- **An upgrade gives the state back**, without its guards. -/
theorem intoState_ofState {s : State}
    (hbooks : ∀ id b, s.orderBooks.get id = some b → b.id = id ∧ b.Sound)
    (hpairs : s.tradingPairs.Inverse) :
    (ofState s).intoState s.orderHistory s.tradeHistory s.balances.reopen s.userRegistry
      = .ok { s with activeTasks := SortedSet.empty, inFlightUserOps := SortedSet.empty } := by
  have h1 : (ofState s).tokens.foldlM (insertNew .snapshotDuplicateToken) SortedMap.empty
      = .ok s.tokens := foldlM_insertNew_entries _ _
  have h2 : (ofState s).tradingPairs.foldlM (fun (m : TradingPairMap) e => m.insert e.1 e.2)
      TradingPairMap.empty = .ok s.tradingPairs := hpairs.restore
  have h3 : (ofState s).orderBooks.foldlM restoreBook SortedMap.empty = .ok s.orderBooks := by
    rw [show (ofState s).orderBooks = s.orderBooks.entries.map
      fun e => OrderBookSnapshot.ofBook e.2 from rfl, foldlM_restoreBook,
      foldlM_insertNew_entries]
    exact fun e he => hbooks e.1 e.2 (s.orderBooks.mem_entries_iff.mp he)
  have h4 : (ofState s).ledgerFeeCache.foldlM (insertNew .snapshotDuplicateLedgerFee)
      SortedMap.empty = .ok s.ledgerFeeCache := foldlM_insertNew_entries _ _
  have h5 : FeePool.restore ((ofState s).feePool.getD []) = .ok s.balances.feePool := by
    have hgetD : (ofState s).feePool.getD [] = s.balances.feePool.snapshot := by
      rw [ofState]
      cases hsnap : s.balances.feePool.snapshot with
      | nil => rfl
      | cons e l => rfl
    rw [hgetD, FeePool.restore_snapshot]
  have h6 : (ofState s).pendingSettlingEvents.getD [] = s.pendingSettlingEvents := by
    rw [ofState]
    cases hq : s.pendingSettlingEvents with
    | nil => rfl
    | cons e l => rfl
  have h7 : (((ofState s).permissions.map (·.intoPermissions)).getD Permissions.default)
      = s.permissions := by
    rw [ofState]
    by_cases hp : s.permissions = Permissions.default
    · simp only [if_pos hp, Option.map_none, Option.getD_none]
      exact hp.symm
    · simp only [if_neg hp, Option.map_some, Option.getD_some]
      exact PermissionsSnapshot.intoPermissions_ofPermissions _
  simp only [intoState, h1, h2, h3, h4, h5, h6, h7, policy_ofState, Except.bind_ok]
  rfl

end StateSnapshot

end OisyTrade
