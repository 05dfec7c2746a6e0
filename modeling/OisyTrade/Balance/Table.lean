import OisyTrade.Order.Types

/-!
# Balances and the write-back buffer

`balance/mod.rs`, `balance/row.rs`, `balance/write_back.rs`, `balance/fee_pool.rs` and
`balance/token.rs`.  A batch of operations works on a buffer of rows, each read from the table at
most once and written back at most once; rows that never existed and are still empty are not
written.  Fees go straight to the pool.
-/

namespace OisyTrade

/-! ## One row -/

/-- `Balance`: funds that are free and funds locked by open orders. -/
structure Balance where
  free : Quantity
  reserved : Quantity
deriving DecidableEq

/-- `InsufficientBalanceError`. -/
structure InsufficientBalanceError where
  available : Quantity
  required : Quantity
deriving DecidableEq

namespace Balance

/-- `Balance::zero`. -/
def zero : Balance := ⟨Quantity.zero, Quantity.zero⟩

/-- `Balance::deposit`. -/
def deposit (b : Balance) (amount : Quantity) : Except Trap Balance := do
  let free ← expectBug (b.free.checkedAdd amount) .depositOverflow
  .ok { b with free }

/-- `Balance::debit_reserved`. -/
def debitReserved (b : Balance) (amount : Quantity) : Except Trap Balance := do
  let reserved ← expectBug (b.reserved.checkedSub amount) .debitReservedUnderflow
  .ok { b with reserved }

/-- `Balance::unreserve`. -/
def unreserve (b : Balance) (amount : Quantity) : Except Trap Balance := do
  let reserved ← expectBug (b.reserved.checkedSub amount) .unreserveUnderflow
  let free ← expectBug (b.free.checkedAdd amount) .unreserveOverflow
  .ok { free, reserved }

/-- `Balance::withdraw`. -/
def withdraw (b : Balance) (amount : Quantity) :
    Except Trap (Except InsufficientBalanceError Balance) :=
  match b.free.checkedSub amount with
  | none => .ok (.error ⟨b.free, amount⟩)
  | some free => .ok (.ok { b with free })

/-- `Balance::reserve`. -/
def reserve (b : Balance) (required : Quantity) :
    Except Trap (Except InsufficientBalanceError Balance) :=
  match b.free.checkedSub required with
  | none => .ok (.error ⟨b.free, required⟩)
  | some free => do
      let reserved ← expectBug (b.reserved.checkedAdd required) .reserveOverflow
      .ok (.ok { free, reserved })

/-- `Balance::is_zero`. -/
def isZero (b : Balance) : Bool := b.free.isZero && b.reserved.isZero

end Balance

/-- `BalanceKey`, ordered by token and then by user. -/
abbrev BalanceKey := TokenId ×ₗ UserId

namespace BalanceKey

/-- `BalanceKey::new`. -/
def new (token : TokenId) (user : UserId) : BalanceKey := toLex (token, user)

/-- `BalanceKey::token`. -/
def token (key : BalanceKey) : TokenId := (ofLex key).1

/-- `BalanceKey::user`. -/
def user (key : BalanceKey) : UserId := (ofLex key).2

@[simp] lemma token_new (t : TokenId) (u : UserId) : (new t u).token = t := rfl
@[simp] lemma user_new (t : TokenId) (u : UserId) : (new t u).user = u := rfl
@[simp] lemma new_eta (key : BalanceKey) : new key.token key.user = key := rfl

lemma new_inj {t t' : TokenId} {u u' : UserId} : new t u = new t' u' ↔ t = t' ∧ u = u' := by
  constructor
  · intro h
    exact ⟨congrArg token h, congrArg user h⟩
  · rintro ⟨rfl, rfl⟩; rfl

end BalanceKey

/-- `BalanceRow`: a row taken out for modification. -/
structure BalanceRow where
  balance : Balance
  existed : Bool

namespace BalanceRow

/-- `BalanceRow::load`. -/
def load (balances : SortedMap BalanceKey Balance) (key : BalanceKey) : BalanceRow :=
  { existed := (balances.get key).isSome, balance := (balances.get key).getD Balance.zero }

/-- `BalanceRow::worth_persisting`. -/
def worthPersisting (row : BalanceRow) : Bool := row.existed || !row.balance.isZero

end BalanceRow

/-! ## The fee pool -/

/-- `FeeEntry`. -/
structure FeeEntry where
  token : TokenId
  amount : Quantity
deriving DecidableEq

/-- `FeePool`. -/
structure FeePool where
  perToken : SortedMap TokenId Quantity
deriving DecidableEq

namespace FeePool

/-- `FeePool::default`. -/
def empty : FeePool := ⟨SortedMap.empty⟩

/-- `FeePool::withhold`: the net amount and the pool with the fee in it. -/
def withhold (pool : FeePool) (token : TokenId) (gross fee : Quantity) :
    Except Trap (Quantity × FeePool) := do
  let net ← expectBug (gross.checkedSub fee) .feeExceedsGross
  if fee.isZero then .ok (net, pool)
  else
    let accrued ← expectBug (((pool.perToken.get token).getD Quantity.zero).checkedAdd fee)
      .feeAccrualOverflow
    .ok (net, ⟨pool.perToken.insert token accrued⟩)

/-- `FeePool::snapshot`. -/
def snapshot (pool : FeePool) : List FeeEntry :=
  pool.perToken.entries.map fun e => ⟨e.1, e.2⟩

/-- `FeePool::restore`. -/
def restore (snapshot : List FeeEntry) : Except Trap FeePool := do
  let perToken ← snapshot.foldlM (fun (m : SortedMap TokenId Quantity) entry => do
    assertBug (!m.contains entry.token) .duplicateFeeEntry
    .ok (m.insert entry.token entry.amount)) SortedMap.empty
  .ok ⟨perToken⟩

end FeePool

/-! ## The table -/

/-- `TokenBalance`. -/
structure TokenBalance where
  balances : SortedMap BalanceKey Balance
  feePool : FeePool
deriving DecidableEq

/-- `BalanceWriteBack`. -/
structure BalanceWriteBack where
  balances : SortedMap BalanceKey Balance
  feePool : FeePool
  buffer : SortedMap BalanceKey BalanceRow

namespace BalanceWriteBack

/-- `BalanceWriteBack::new`. -/
def new (table : TokenBalance) : BalanceWriteBack :=
  { balances := table.balances, feePool := table.feePool, buffer := SortedMap.empty }

/-- The buffered row, read from the table on the first touch. -/
def load (wb : BalanceWriteBack) (key : BalanceKey) : BalanceRow :=
  (wb.buffer.get key).getD (BalanceRow.load wb.balances key)

/-- Write a modified row to the buffer. -/
def store (wb : BalanceWriteBack) (key : BalanceKey) (balance : Balance) : BalanceWriteBack :=
  { wb with buffer := wb.buffer.insert key { wb.load key with balance } }

/-- `BalanceWriteBack::load_existing`, with the modification of the row it returns. -/
def modifyExisting (wb : BalanceWriteBack) (key : BalanceKey) (bug : Bug)
    (f : Balance → Except Trap Balance) : Except Trap BalanceWriteBack := do
  assertBug (wb.load key).existed bug
  let balance ← f (wb.load key).balance
  .ok (wb.store key balance)

/-- `BalanceWriteBack::load_or_create`, with the modification of the row it returns. -/
def modifyOrCreate (wb : BalanceWriteBack) (key : BalanceKey)
    (f : Balance → Except Trap Balance) : Except Trap BalanceWriteBack := do
  let balance ← f (wb.load key).balance
  .ok (wb.store key balance)

/-- `BalanceWriteBack::try_mutate`: a failed modification leaves the buffer as it was. -/
def tryMutate (wb : BalanceWriteBack) (key : BalanceKey)
    (f : Balance → Except Trap (Except InsufficientBalanceError Balance)) :
    Except Trap (Except InsufficientBalanceError Unit × BalanceWriteBack) := do
  match ← f (wb.load key).balance with
  | .error e => .ok (.error e, wb)
  | .ok balance => .ok (.ok (), wb.store key balance)

/-- `BalanceWriteBack::transfer`. -/
def transfer (wb : BalanceWriteBack) (debtor creditor : UserId) (token : TokenId)
    (gross fee : Quantity) : Except Trap BalanceWriteBack := do
  let (net, feePool) ← wb.feePool.withhold token gross fee
  let wb := { wb with feePool }
  let wb ← wb.modifyExisting (.new token debtor) .debtorBalanceMissing (·.debitReserved gross)
  wb.modifyOrCreate (.new token creditor) (·.deposit net)

/-- `BalanceWriteBack::unreserve`. -/
def unreserve (wb : BalanceWriteBack) (user : UserId) (token : TokenId) (amount : Quantity) :
    Except Trap BalanceWriteBack :=
  wb.modifyExisting (.new token user) .unreserveBalanceMissing (·.unreserve amount)

/-- `BalanceWriteBack::deposit`. -/
def deposit (wb : BalanceWriteBack) (user : UserId) (token : TokenId) (amount : Quantity) :
    Except Trap BalanceWriteBack :=
  wb.modifyOrCreate (.new token user) (·.deposit amount)

/-- `BalanceWriteBack::withdraw`. -/
def withdraw (wb : BalanceWriteBack) (user : UserId) (token : TokenId) (amount : Quantity) :
    Except Trap (Except InsufficientBalanceError Unit × BalanceWriteBack) :=
  wb.tryMutate (.new token user) (·.withdraw amount)

/-- `BalanceWriteBack::reserve`. -/
def reserve (wb : BalanceWriteBack) (user : UserId) (token : TokenId) (amount : Quantity) :
    Except Trap (Except InsufficientBalanceError Unit × BalanceWriteBack) :=
  wb.tryMutate (.new token user) (·.reserve amount)

/-- One iteration of the loop of `flush`. -/
def flushRow (balances : SortedMap BalanceKey Balance) (entry : BalanceKey × BalanceRow) :
    SortedMap BalanceKey Balance :=
  if entry.2.worthPersisting then balances.insert entry.1 entry.2.balance else balances

/-- `BalanceWriteBack::flush`. -/
def flush (wb : BalanceWriteBack) : TokenBalance :=
  { balances := wb.buffer.entries.foldl flushRow wb.balances, feePool := wb.feePool }

end BalanceWriteBack

namespace TokenBalance

/-- `TokenBalance::new`. -/
def empty : TokenBalance := { balances := SortedMap.empty, feePool := FeePool.empty }

/-- `TokenBalance::get_balance`. -/
def getBalance (table : TokenBalance) (user : UserId) (token : TokenId) : Option Balance :=
  table.balances.get (.new token user)

/-- `TokenBalance::deposit`. -/
def deposit (table : TokenBalance) (user : UserId) (token : TokenId) (amount : Quantity) :
    Except Trap TokenBalance := do
  let wb ← (BalanceWriteBack.new table).deposit user token amount
  .ok wb.flush

/-- `TokenBalance::withdraw`. -/
def withdraw (table : TokenBalance) (user : UserId) (token : TokenId) (amount : Quantity) :
    Except Trap (Except InsufficientBalanceError Unit × TokenBalance) := do
  let (result, wb) ← (BalanceWriteBack.new table).withdraw user token amount
  .ok (result, wb.flush)

/-- `TokenBalance::reserve`. -/
def reserve (table : TokenBalance) (user : UserId) (token : TokenId) (amount : Quantity) :
    Except Trap (Except InsufficientBalanceError Unit × TokenBalance) := do
  let (result, wb) ← (BalanceWriteBack.new table).reserve user token amount
  .ok (result, wb.flush)

/-- `TokenBalance::with_write_back`, for operations that cannot fail. -/
def withWriteBack (table : TokenBalance)
    (operations : BalanceWriteBack → Except Trap BalanceWriteBack) : Except Trap TokenBalance := do
  let wb ← operations (BalanceWriteBack.new table)
  .ok wb.flush

end TokenBalance

end OisyTrade
