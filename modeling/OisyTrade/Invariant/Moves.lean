import OisyTrade.Invariant.Drain

/-!
# The moves of funds

Balances change in four ways: a placement reserves, a settled event posts its operations, a deposit
or the refund of a failed withdrawal pays in, and a withdrawal pays out.  A `Move` is one of these.

`Trail` follows the moves of a run, change by change, and `Trail.accounted` says that the rows and the
fee pools at its end are those at its start with all moves added up.  So what a single order does to
the balances is the sum of the moves that concern it.
-/

namespace OisyTrade

/-- **A move of funds.** -/
inductive Move
  /-- A placement reserves funds for its order. -/
  | reserved (id : OrderId) (user : UserId) (token : TokenId) (amount : ℕ)
  /-- A settled event posts an operation. -/
  | posted (bookId : OrderBookId) (op : BalanceOperation) (posting : Posting)
  /-- A deposit, or what a failed withdrawal gives back. -/
  | paidIn (user : UserId) (token : TokenId) (amount : ℕ)
  /-- The debit of a withdrawal. -/
  | paidOut (user : UserId) (token : TokenId) (amount : ℕ)

/-- An amount in one row. -/
def inRow (user : UserId) (token : TokenId) (amount : ℕ) (t : TokenId) (u : UserId) : ℕ :=
  if token = t ∧ user = u then amount else 0

/-- The operation names the order. -/
def names (id : OrderId) (entry : OrderBookId × BalanceOperation) : Bool :=
  decide (entry.1 = id.bookId ∧ id.seq ∈ entry.2.seqs)

namespace Move

/-- What arrives in the free balances. -/
def freeIn : Move → TokenId → UserId → ℕ
  | posted _ _ posting, t, u => posting.credit t u
  | paidIn user token amount, t, u => inRow user token amount t u
  | reserved .., _, _ | paidOut .., _, _ => 0

/-- What leaves the free balances. -/
def freeOut : Move → TokenId → UserId → ℕ
  | reserved _ user token amount, t, u => inRow user token amount t u
  | paidOut user token amount, t, u => inRow user token amount t u
  | posted .., _, _ | paidIn .., _, _ => 0

/-- What arrives in the reserved balances. -/
def reservedIn : Move → TokenId → UserId → ℕ
  | reserved _ user token amount, t, u => inRow user token amount t u
  | posted .., _, _ | paidIn .., _, _ | paidOut .., _, _ => 0

/-- What leaves the reserved balances. -/
def reservedOut : Move → TokenId → UserId → ℕ
  | posted _ _ posting, t, u => posting.debit t u
  | reserved .., _, _ | paidIn .., _, _ | paidOut .., _, _ => 0

/-- What arrives in the fee pools. -/
def fee : Move → TokenId → ℕ
  | posted _ _ posting, t => posting.withheld t
  | reserved .., _ | paidIn .., _ | paidOut .., _ => 0

/-- The operation that is posted. -/
def operation : Move → Option (OrderBookId × BalanceOperation)
  | posted bookId op _ => some (bookId, op)
  | reserved .. | paidIn .. | paidOut .. => none

/-- **The move concerns the order**: it reserves for it or posts an operation that names it. -/
def concerns (id : OrderId) : Move → Bool
  | reserved id' .. => decide (id' = id)
  | posted bookId op _ => names id (bookId, op)
  | paidIn .. | paidOut .. => false

/-- Of moves that reserve nothing for an order, those that concern it post its operations. -/
lemma operations_concerns {id : OrderId} {moves : List Move}
    (hno : ∀ user token amount, reserved id user token amount ∉ moves) :
    (moves.filter (concerns id)).map operation
      = ((moves.filterMap operation).filter (names id)).map some := by
  induction moves with
  | nil => rfl
  | cons m moves ih =>
      have hrest := ih fun _ _ _ hmem => hno _ _ _ (List.mem_cons_of_mem _ hmem)
      have hskip : concerns id m = false → operation m = none →
          ((m :: moves).filter (concerns id)).map operation
            = (((m :: moves).filterMap operation).filter (names id)).map some := by
        intro hconcerns hop
        rw [List.filter_cons_of_neg (by rw [hconcerns]; exact Bool.false_ne_true),
          List.filterMap_cons_none hop]
        exact hrest
      cases m with
      | reserved id' user token amount =>
          refine hskip (decide_eq_false fun he => ?_) rfl
          subst he
          exact hno user token amount List.mem_cons_self
      | paidIn user token amount => exact hskip rfl rfl
      | paidOut user token amount => exact hskip rfl rfl
      | posted bookId op posting =>
          have hop : operation (posted bookId op posting) = some (bookId, op) := rfl
          have hconcerns : concerns id (posted bookId op posting) = names id (bookId, op) := rfl
          rw [List.filterMap_cons_some hop, List.filter_cons, List.filter_cons, hconcerns]
          split_ifs
          · rw [List.map_cons, List.map_cons, hrest, hop]
          · exact hrest

lemma filter_concerns {id : OrderId} {moves : List Move} {bookId : OrderBookId}
    {op : BalanceOperation} (hno : ∀ user token amount, reserved id user token amount ∉ moves)
    (h : (moves.filterMap operation).filter (names id) = [(bookId, op)]) :
    ∃ posting, moves.filter (concerns id) = [posted bookId op posting] := by
  have hmap := operations_concerns hno
  rw [h, List.map_singleton] at hmap
  obtain ⟨m, hm, hop⟩ := List.map_eq_singleton_iff.mp hmap
  cases m with
  | posted bookId' op' posting =>
      cases hop
      exact ⟨posting, hm⟩
  | _ => cases hop

/-- Some moves are those that concern an order and those that do not. -/
lemma sum_concerns (id : OrderId) (moves : List Move) (f : Move → ℕ) :
    (moves.map f).sum = ((moves.filter (concerns id)).map f).sum
      + ((moves.filter fun m => !m.concerns id).map f).sum := by
  rw [← List.sum_append, ← List.map_append]
  exact ((List.filter_append_perm (concerns id) moves).map f).sum_eq.symm

/-- Moves that add up to nothing. -/
structure Balanced (moves : List Move) : Prop where
  free : ∀ t u, (moves.map fun m => m.freeIn t u).sum = (moves.map fun m => m.freeOut t u).sum
  reserved : ∀ t u, (moves.map fun m => m.reservedIn t u).sum
    = (moves.map fun m => m.reservedOut t u).sum
  fee : ∀ t, (moves.map fun m => m.fee t).sum = 0

/-- An `Unreserve` of all that was reserved. -/
lemma balanced_unreserve (id : OrderId) {user : UserId} {token : TokenId} {amount : ℕ}
    (bookId : OrderBookId) (op : BalanceOperation) {q : Quantity} (hq : q.toNat = amount) :
    Balanced [.reserved id user token amount, .posted bookId op (.unreserve user token q)] := by
  subst hq
  exact ⟨fun _ _ => Nat.zero_add _, fun _ _ => (Nat.zero_add _).symm, fun _ => rfl⟩

end Move

/-- **`table'` is `table` with some moves added up.** -/
structure Accounted (table : TokenBalance) (moves : List Move) (table' : TokenBalance) : Prop where
  free : ∀ t u, table'.free t u + (moves.map fun m => m.freeOut t u).sum
    = table.free t u + (moves.map fun m => m.freeIn t u).sum
  reserved : ∀ t u, table'.reserved t u + (moves.map fun m => m.reservedOut t u).sum
    = table.reserved t u + (moves.map fun m => m.reservedIn t u).sum
  pool : ∀ t, table'.pool t = table.pool t + (moves.map fun m => m.fee t).sum

namespace Accounted

variable {table table₁ table' : TokenBalance} {moves moves' : List Move}

lemma refl (table : TokenBalance) : Accounted table [] table :=
  ⟨fun _ _ => rfl, fun _ _ => rfl, fun _ => rfl⟩

lemma trans (h : Accounted table moves table₁) (h' : Accounted table₁ moves' table') :
    Accounted table (moves ++ moves') table' := by
  refine ⟨fun t u => ?_, fun t u => ?_, fun t => ?_⟩
  · have h₁ := h.free t u
    have h₂ := h'.free t u
    rw [List.map_append, List.map_append, List.sum_append, List.sum_append]
    omega
  · have h₁ := h.reserved t u
    have h₂ := h'.reserved t u
    rw [List.map_append, List.map_append, List.sum_append, List.sum_append]
    omega
  · rw [h'.pool, h.pool, List.map_append, List.sum_append, Nat.add_assoc]

/-- **What concerns an order can be left out** if it adds up to nothing. -/
lemma others (id : OrderId) (h : Accounted table moves table')
    (hid : Move.Balanced (moves.filter (Move.concerns id))) :
    Accounted table (moves.filter fun m => !m.concerns id) table' := by
  have hsum := Move.sum_concerns id moves
  refine ⟨fun t u => ?_, fun t u => ?_, fun t => ?_⟩
  · have hall := h.free t u
    have hnone := hid.free t u
    rw [hsum fun m => m.freeOut t u, hsum fun m => m.freeIn t u] at hall
    omega
  · have hall := h.reserved t u
    have hnone := hid.reserved t u
    rw [hsum fun m => m.reservedOut t u, hsum fun m => m.reservedIn t u] at hall
    omega
  · rw [h.pool t, hsum fun m => m.fee t, hid.fee t, Nat.zero_add]

/-- A move in one row: `i` units into its free balance, `o` out of it and `r` into the reserved one. -/
lemma of_rowSet {user : UserId} {token : TokenId} {b : Balance} {m : Move} {i o r : ℕ}
    (h : RowSet table token user b table')
    (hfree : b.free.toNat + o = table.free token user + i)
    (hreserved : b.reserved.toNat = table.reserved token user + r)
    (hin : m.freeIn = inRow user token i) (hout : m.freeOut = inRow user token o)
    (hrin : m.reservedIn = inRow user token r) (hrout : m.reservedOut = fun _ _ => 0)
    (hfee : m.fee = fun _ => 0) : Accounted table [m] table' := by
  refine ⟨fun t u => ?_, fun t u => ?_, fun t => ?_⟩
  · rw [List.map_singleton, List.map_singleton, List.sum_singleton, List.sum_singleton, h.free, hin,
      hout, inRow, inRow]
    split_ifs with hkey
    · obtain ⟨rfl, rfl⟩ := hkey
      exact hfree
    · rfl
  · rw [List.map_singleton, List.map_singleton, List.sum_singleton, List.sum_singleton, h.reserved,
      hrin, hrout, inRow]
    split_ifs with hkey
    · obtain ⟨rfl, rfl⟩ := hkey
      exact hreserved
    · rfl
  · rw [List.map_singleton, List.sum_singleton, hfee, TokenBalance.pool, h.feePool]
    rfl

lemma of_reserve (id : OrderId) {user : UserId} {token : TokenId} {amount : Quantity}
    (h : table.reserve user token amount = .ok (.ok (), table')) :
    Accounted table [.reserved id user token amount.toNat] table' := by
  rcases table.reserve_spec user token amount with ⟨-, e, he⟩ | ⟨he, -⟩ |
    ⟨table₁, b, he, hrow, hfree, hreserved⟩
  · rw [h] at he
    cases he
  · rw [h] at he
    cases he
  · rw [h] at he
    cases he
    exact of_rowSet (i := 0) hrow hfree hreserved (by funext t u; exact (ite_self 0).symm) rfl rfl
      rfl rfl

lemma of_deposit {user : UserId} {token : TokenId} {amount : Quantity}
    (h : table.deposit user token amount = .ok table') :
    Accounted table [.paidIn user token amount.toNat] table' := by
  obtain ⟨b, hrow, hfree, hreserved⟩ := table.deposit_spec h
  exact of_rowSet (o := 0) (r := 0) hrow hfree hreserved rfl
    (by funext t u; exact (ite_self 0).symm) (by funext t u; exact (ite_self 0).symm) rfl rfl

lemma of_withdraw {user : UserId} {token : TokenId} {amount : Quantity}
    (h : table.withdraw user token amount = .ok (.ok (), table')) :
    Accounted table [.paidOut user token amount.toNat] table' := by
  rcases table.withdraw_spec user token amount with ⟨-, e, he⟩ | ⟨table₁, b, he, hrow, hfree, hres⟩
  · rw [h] at he
    cases he
  · rw [h] at he
    cases he
    exact of_rowSet (i := 0) (r := 0) hrow hfree hres
      (by funext t u; exact (ite_self 0).symm) rfl (by funext t u; exact (ite_self 0).symm) rfl rfl

/-- The moves of some operations add up to their postings. -/
lemma sum_posted {s : State} {bookId : OrderBookId} {pair : TradingPair}
    {ops : List BalanceOperation} {f : Move → ℕ} {g : Posting → ℕ}
    (h : ∀ bookId op posting, f (.posted bookId op posting) = g posting) :
    ((ops.map fun op => Move.posted bookId op (s.posting bookId pair op)).map f).sum
      = ((s.postings bookId pair ops).map g).sum := by
  rw [State.postings, List.map_map, List.map_map]
  exact congrArg List.sum (List.map_congr_left fun op _ => h _ _ _)

lemma of_posted {s : State} {bookId : OrderBookId} {pair : TradingPair}
    {ops : List BalanceOperation} (h : Posted table (s.postings bookId pair ops) table') :
    Accounted table (ops.map fun op => .posted bookId op (s.posting bookId pair op)) table' := by
  have hzero : ∀ ps : List Posting, (ps.map fun _ => 0).sum = 0 := fun ps =>
    List.sum_eq_zero fun n hn => by
      obtain ⟨p, -, rfl⟩ := List.mem_map.mp hn
      rfl
  refine ⟨fun t u => ?_, fun t u => ?_, fun t => ?_⟩
  · rw [sum_posted (g := fun _ => 0) fun _ _ _ => rfl, hzero, Nat.add_zero,
      sum_posted (g := fun p => p.credit t u) fun _ _ _ => rfl]
    exact h.free t u
  · rw [sum_posted (g := fun p => p.debit t u) fun _ _ _ => rfl,
      sum_posted (g := fun _ => 0) fun _ _ _ => rfl, hzero, Nat.add_zero]
    exact h.reserved t u
  · rw [sum_posted (g := fun p => p.withheld t) fun _ _ _ => rfl]
    exact h.pool t

end Accounted

/-- The operations that an event applies. -/
def EventType.operations : EventType → List (OrderBookId × BalanceOperation)
  | .settling e => e.balanceOperations.map fun op => (e.bookId, op)
  | _ => []

namespace Canister

variable {c c₁ c₂ c' : Canister}

/-- All operations of the recorded settling events. -/
def applied (c : Canister) : List (OrderBookId × BalanceOperation) :=
  c.events.flatMap fun event => event.payload.operations

lemma Logged.applied {payload : EventType} {timestamp : Timestamp}
    (h : c.Logged payload timestamp c') :
    c'.applied = c.applied ++ payload.operations := by
  rw [Canister.applied, h.1, List.flatMap_append, List.flatMap_singleton]
  rfl

lemma QuietLog.applied (h : c.QuietLog c') : c'.applied = c.applied := by
  obtain ⟨⟨l, hl, hevents⟩, -⟩ := h
  have hnil : l.flatMap (fun event => event.payload.operations) = [] := by
    refine List.flatMap_eq_nil_iff.mpr fun e he => ?_
    have hq := hl e he
    cases hp : e.payload <;> rw [hp] at hq <;> first | rfl | cases hq
  rw [Canister.applied, hevents, List.flatMap_append, hnil, List.append_nil]
  rfl

/-- **What a change moves.** -/
inductive Shift (c : Canister) : List Move → Canister → Prop
  | reserved {event : AddLimitOrderEvent} {timestamp : Timestamp} {user : UserId} {token : TokenId}
      {amount : Quantity} {c' : Canister} (hlog : c.Logged (.addLimitOrder event) timestamp c')
      (hreserve : c.state.balances.reserve user token amount = .ok (.ok (), c'.state.balances)) :
      Shift c [.reserved event.orderId user token amount.toNat] c'
  | posted {event : SettlingEvent} {timestamp : Timestamp} {queue : List SettlingEvent}
      {pair : TradingPair} {scale : BaseScale} {c' : Canister}
      (hlog : (c.withQueue queue).Logged (.settling event) timestamp c')
      (hmarket : c.state.Market event.bookId pair scale)
      (hops : ∀ op ∈ event.balanceOperations, c.state.OpOk event.bookId op)
      (hposted : Posted c.state.balances
        (c.state.postings event.bookId pair event.balanceOperations) c'.state.balances) :
      Shift c (event.balanceOperations.map fun op =>
        .posted event.bookId op (c.state.posting event.bookId pair op)) c'
  | paidIn {user : UserId} {token : TokenId} {amount : Quantity} {c' : Canister}
      (hdeposit : c.state.balances.deposit user token amount = .ok c'.state.balances)
      (happlied : c'.applied = c.applied) : Shift c [.paidIn user token amount.toNat] c'
  | paidOut {user : UserId} {token : TokenId} {amount : Quantity} {c' : Canister}
      (hwithdraw : c.state.balances.withdraw user token amount = .ok (.ok (), c'.state.balances))
      (happlied : c'.applied = c.applied) : Shift c [.paidOut user token amount.toNat] c'
  | still {c' : Canister} (hbalances : c'.state.balances = c.state.balances)
      (happlied : c'.applied = c.applied) : Shift c [] c'

/-- **A change moves funds** in one of these ways, and it reserves for new orders only. -/
theorem Change.shift (hs : c.state.Sound) (h : c.Change c') :
    ∃ step, c.Shift step c' ∧ ∀ id user token amount, .reserved id user token amount ∈ step →
      c.state.orderHistory.get id = none := by
  cases h with
  | listed event timestamp hadmits hok hlog =>
      obtain ⟨_, -, -, -, -, -, -, -, hstate⟩ := State.recordTradingPair_eq_ok hok
      exact ⟨[], .still (by rw [hstate]) (hlog.applied.trans (List.append_nil _)), nofun⟩
  | placed event timestamp order b b' pair scale uid required horder hadmits h hlog =>
      refine ⟨_, .reserved hlog h.reserve, fun id user token amount hmem => ?_⟩
      have hnone := History.get_eq_none_of_insertOnce h.history
      cases List.mem_singleton.mp hmem
      rw [horder] at hnone
      exact hnone
  | canceled event timestamp _ _ _ _ _ _ _ _ _ h hlog =>
      exact ⟨[], .still (by rw [h.state]) (hlog.applied.trans (List.append_nil _)), nofun⟩
  | matched event timestamp _ _ _ _ _ _ _ _ _ _ _ _ h hlog =>
      exact ⟨[], .still (by rw [h.state]) (hlog.applied.trans (List.append_nil _)), nofun⟩
  | settled before after event timestamp pair scale pieces hqueue _ hevent h hlog =>
      have hops : event.balanceOperations = pieces.flatMap Piece.ops :=
        congrArg SettlingEvent.balanceOperations hevent
      refine ⟨_, .posted hlog h.market ?_ ?_, fun id user token amount hmem => ?_⟩
      · rw [hops]
        exact State.opOk_of_pieces hs h.agrees
      · rw [hops]
        exact h.posted
      · obtain ⟨op, -, hop⟩ := List.mem_map.mp hmem
        cases hop
  | credited user token amount _ hok hlog =>
      obtain ⟨_, _, _, -, hdeposit, hstate⟩ := State.deposit_eq_ok hok
      refine ⟨_, .paidIn (by rw [hstate]; exact hdeposit) ?_, fun id _ _ _ hmem => ?_⟩
      · rcases hlog with hlog | ⟨timestamp, hlog⟩
        · rw [applied, hlog.1]
          rfl
        · exact hlog.applied.trans (List.append_nil _)
      · cases List.mem_singleton.mp hmem
  | debited user token amount hok hlog =>
      obtain ⟨_, _, -, hwithdraw, hstate⟩ := State.withdraw_eq_ok hok
      refine ⟨_, .paidOut (by rw [hstate]; exact hwithdraw) ?_, fun id _ _ _ hmem => ?_⟩
      · rw [applied, hlog.1]
        rfl
      · cases List.mem_singleton.mp hmem
  | frame h hlog => exact ⟨[], .still h.balances hlog.applied, nofun⟩

lemma Shift.accounted {step : List Move} (h : c.Shift step c') :
    Accounted c.state.balances step c'.state.balances := by
  cases h with
  | reserved _ hreserve => exact .of_reserve _ hreserve
  | posted _ _ _ hposted => exact .of_posted hposted
  | paidIn hdeposit => exact .of_deposit hdeposit
  | paidOut hwithdraw => exact .of_withdraw hwithdraw
  | still hbalances =>
      rw [hbalances]
      exact .refl _

lemma Shift.applied {step : List Move} (h : c.Shift step c') :
    c'.applied = c.applied ++ step.filterMap Move.operation := by
  cases h with
  | reserved hlog => exact hlog.applied
  | posted hlog =>
      rw [hlog.applied, List.filterMap_map]
      congr 1
      exact (List.filterMap_eq_map' (f := fun op => (_, op))).symm ▸ rfl
  | paidIn _ happlied => rw [happlied]; exact (List.append_nil _).symm
  | paidOut _ happlied => rw [happlied]; exact (List.append_nil _).symm
  | still _ happlied => rw [happlied]; exact (List.append_nil _).symm

/-- **The moves of a run**, change by change. -/
inductive Trail (c : Canister) : List Move → Canister → Prop
  | refl : Trail c [] c
  | tail {moves step : List Move} {c₁ c₂ : Canister} (h : Trail c moves c₁)
      (hchange : c₁.Change c₂) (hshift : c₁.Shift step c₂) : Trail c (moves ++ step) c₂

namespace Trail

variable {moves : List Move}

/-- **All balances are accounted for** along a run. -/
theorem accounted (h : c.Trail moves c') :
    Accounted c.state.balances moves c'.state.balances := by
  induction h with
  | refl => exact .refl _
  | tail _ _ hshift ih => exact ih.trans hshift.accounted

/-- The operations that are posted are those of the recorded settling events. -/
theorem applied (h : c.Trail moves c') :
    c'.applied = c.applied ++ moves.filterMap Move.operation := by
  induction h with
  | refl => exact (List.append_nil _).symm
  | tail _ _ hshift ih => rw [hshift.applied, ih, List.filterMap_append, List.append_assoc]

lemma sound (h : c.Trail moves c') (hs : c.state.Sound) :
    c'.state.Sound ∧ c.state.Extends c'.state := by
  induction h with
  | refl => exact ⟨hs, .refl _⟩
  | tail _ hchange _ ih =>
      obtain ⟨hs₁, hx⟩ := ih
      obtain ⟨hs₂, hx'⟩ := hchange.sound hs₁
      exact ⟨hs₂, hx.trans hx'⟩

/-- **A posting can be read off the records**, also later on. -/
theorem posting (h : c.Trail moves c') (hs : c.state.Sound) {bookId : OrderBookId}
    {op : BalanceOperation} {posting : Posting} (hmem : .posted bookId op posting ∈ moves) :
    c'.state.OpOk bookId op ∧ ∃ pair scale, c'.state.Market bookId pair scale ∧
      posting = c'.state.posting bookId pair op := by
  induction h with
  | refl => exact absurd hmem List.not_mem_nil
  | @tail moves step c₁ c₂ htrail hchange hshift ih =>
      obtain ⟨hs₁, -⟩ := htrail.sound hs
      obtain ⟨-, hx⟩ := hchange.sound hs₁
      have hold : c₁.state.OpOk bookId op ∧ ∃ pair scale, c₁.state.Market bookId pair scale ∧
          posting = c₁.state.posting bookId pair op := by
        rcases List.mem_append.mp hmem with hmem | hmem
        · exact ih hmem
        · cases hshift with
          | posted hlog hmarket hops hposted =>
              obtain ⟨op', hop, he⟩ := List.mem_map.mp hmem
              cases he
              exact ⟨hops _ hop, _, _, hmarket, rfl⟩
          | reserved => cases List.mem_singleton.mp hmem
          | paidIn => cases List.mem_singleton.mp hmem
          | paidOut => cases List.mem_singleton.mp hmem
          | still => cases hmem
      obtain ⟨hop, pair, scale, hm, hpost⟩ := hold
      exact ⟨hop.mono hx, pair, scale, hx.market hm, hpost.trans (hop.posting_eq hx pair).symm⟩

end Trail

end Canister

end OisyTrade
