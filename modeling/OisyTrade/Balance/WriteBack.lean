import OisyTrade.Balance.Table

/-!
# The table seen through the buffer

`row`, `free`, `reserved`, `pool` and `total` read a table of balances as numbers, with zero for
what is not there.  A buffer is `Coherent` when it remembers which rows the table had; then
flushing it gives a table whose rows are the buffered ones (`Coherent.row_flush`), and one more
write moves the holdings by the difference of the two rows (`Coherent.userTotal_store`).

Deposits, withdrawals and reservations are batches of one write (`RowSet`).
-/

namespace OisyTrade

namespace TokenBalance

/-- The balance under a key, zero if there is no row. -/
def row (table : TokenBalance) (key : BalanceKey) : Balance :=
  (table.balances.get key).getD Balance.zero

/-- The free balance of a user. -/
def free (table : TokenBalance) (t : TokenId) (u : UserId) : ℕ := (table.row (.new t u)).free.toNat

/-- The reserved balance of a user. -/
def reserved (table : TokenBalance) (t : TokenId) (u : UserId) : ℕ :=
  (table.row (.new t u)).reserved.toNat

/-- The fees accrued in a token. -/
def pool (table : TokenBalance) (t : TokenId) : ℕ :=
  ((table.feePool.perToken.get t).getD Quantity.zero).toNat

/-- What a row adds to the holdings in a token. -/
def held (t : TokenId) (key : BalanceKey) (b : Balance) : ℕ :=
  if key.token = t then b.free.toNat + b.reserved.toNat else 0

/-- The holdings of all users in a token. -/
def userTotal (table : TokenBalance) (t : TokenId) : ℕ := table.balances.sum (held t)

/-- **What the canister accounts for in a token**: the users' holdings and the fee pool. -/
def total (table : TokenBalance) (t : TokenId) : ℕ := table.userTotal t + table.pool t

/-- The units of all tokens together. -/
def units (table : TokenBalance) : ℕ :=
  table.balances.sum (fun _ b => b.free.toNat + b.reserved.toNat)
    + table.feePool.perToken.sum fun _ q => q.toNat

/-- A computable bound for the totals of all tokens. -/
lemma total_le_units (table : TokenBalance) (t : TokenId) : table.total t ≤ table.units := by
  refine Nat.add_le_add (SortedMap.sum_le fun key b _ => ?_) ?_
  · rw [held]
    split_ifs
    · exact Nat.le_refl _
    · exact Nat.zero_le _
  · rw [pool]
    cases hget : table.feePool.perToken.get t with
    | none => exact Quantity.toNat_zero.le.trans (Nat.zero_le _)
    | some q => exact SortedMap.le_sum (fun _ q => q.toNat) hget

lemma held_zero (t : TokenId) (key : BalanceKey) : held t key Balance.zero = 0 := by
  simp [held, Balance.zero]

lemma held_new (t token : TokenId) (u : UserId) (b : Balance) :
    held t (.new token u) b = if token = t then b.free.toNat + b.reserved.toNat else 0 := rfl

lemma isSome_of_row_ne_zero {table : TokenBalance} {key : BalanceKey}
    (h : (table.row key).isZero = false) : (table.balances.get key).isSome := by
  cases hg : table.balances.get key with
  | none => simp [row, hg, Balance.isZero, Balance.zero, Quantity.isZero, Quantity.zero] at h
  | some b => rfl

lemma row_le_userTotal (table : TokenBalance) (t : TokenId) (u : UserId) :
    table.free t u + table.reserved t u ≤ table.userTotal t := by
  cases h : table.balances.get (.new t u) with
  | none => simp [free, reserved, row, h, Balance.zero]
  | some b =>
      have hle := SortedMap.le_sum (held t) h
      have hb : held t (.new t u) b = table.free t u + table.reserved t u := by
        rw [free, reserved, row, h, held, BalanceKey.token_new, if_pos rfl]
        rfl
      rw [← hb]
      exact hle

end TokenBalance

/-! ## Rows in the buffer -/

lemma Balance.isZero_iff {b : Balance} :
    b.isZero = true ↔ b.free.toNat = 0 ∧ b.reserved.toNat = 0 := by
  rw [Balance.isZero, Bool.and_eq_true, Quantity.isZero_iff, Quantity.isZero_iff]

lemma Balance.isZero_eq_false {b : Balance} :
    b.isZero = false ↔ b.free.toNat ≠ 0 ∨ b.reserved.toNat ≠ 0 := by
  rw [← Bool.not_eq_true, Balance.isZero_iff, not_and_or]

lemma Balance.ext_toNat {a b : Balance} (hf : a.free.toNat = b.free.toNat)
    (hr : a.reserved.toNat = b.reserved.toNat) : a = b := by
  cases a
  cases b
  simp only [Balance.mk.injEq]
  exact ⟨Quantity.toNat_inj hf, Quantity.toNat_inj hr⟩

/-- Options that agree on whether there is something, and on what. -/
lemma Option.eq_of_getD_eq {α : Type} {a b : Option α} {d : α} (hs : a.isSome ↔ b.isSome)
    (hd : a.getD d = b.getD d) : a = b := by
  cases a <;> cases b <;> simp_all

lemma Balance.eq_zero_of_isZero {b : Balance} (h : b.isZero = true) : b = Balance.zero := by
  obtain ⟨h1, h2⟩ := Balance.isZero_iff.mp h
  cases b
  simp only at h1 h2
  rw [Balance.zero, Quantity.eq_zero_iff.mpr h1, Quantity.eq_zero_iff.mpr h2]

namespace BalanceWriteBack

/-- The buffer remembers which rows the table had. -/
def Remembers (wb : BalanceWriteBack) : Prop :=
  ∀ key row, wb.buffer.get key = some row → row.existed = (wb.balances.get key).isSome

/-- The buffer remembers which rows the table had, and a row it did not have holds nothing in
reserve. -/
structure Coherent (wb : BalanceWriteBack) : Prop where
  existed : ∀ key row, wb.buffer.get key = some row → row.existed = (wb.balances.get key).isSome
  reserved : ∀ key row, wb.buffer.get key = some row → row.existed = false →
    row.balance.reserved = Quantity.zero

lemma coherent_new (table : TokenBalance) : (new table).Coherent :=
  ⟨fun _ _ h => (nomatch h), fun _ _ h => (nomatch h)⟩

variable {wb wb' : BalanceWriteBack}

lemma Coherent.load_existed (h : wb.Coherent) (key : BalanceKey) :
    (wb.load key).existed = (wb.balances.get key).isSome := by
  rw [load]
  cases hb : wb.buffer.get key with
  | none => rfl
  | some row => exact h.existed key row hb

lemma Coherent.load_reserved (h : wb.Coherent) {key : BalanceKey}
    (hne : (wb.load key).existed = false) : (wb.load key).balance.reserved = Quantity.zero := by
  rw [load] at hne ⊢
  cases hb : wb.buffer.get key with
  | none =>
      rw [hb, Option.getD_none] at hne
      have hn : wb.balances.get key = none := by
        cases hg : wb.balances.get key with
        | none => rfl
        | some b => simp [BalanceRow.load, hg] at hne
      simp [BalanceRow.load, hn, Balance.zero]
  | some row =>
      rw [hb, Option.getD_some] at hne
      exact h.reserved key row hb hne

lemma load_store (wb : BalanceWriteBack) (key key' : BalanceKey) (b : Balance) :
    (wb.store key b).load key' = if key = key' then { wb.load key with balance := b }
      else wb.load key' := by
  rw [load, store, SortedMap.get_insert]
  split_ifs with h
  · rfl
  · rfl

lemma Coherent.store (h : wb.Coherent) {key : BalanceKey} {b : Balance}
    (hb : (wb.load key).existed = false → b.reserved = Quantity.zero) :
    (wb.store key b).Coherent := by
  refine ⟨fun key' row hrow => ?_, fun key' row hrow hne => ?_⟩
  · rw [BalanceWriteBack.store, SortedMap.get_insert] at hrow
    split_ifs at hrow with hk
    · cases hrow
      rw [← hk]
      exact h.load_existed key
    · exact h.existed key' row hrow
  · rw [BalanceWriteBack.store, SortedMap.get_insert] at hrow
    split_ifs at hrow with hk
    · cases hrow
      exact hb hne
    · exact h.reserved key' row hrow hne

/-- The loop of `flush`, by induction on the rows it writes. -/
lemma get_foldl_flushRow {key : BalanceKey} :
    ∀ {l : List (BalanceKey × BalanceRow)} (m : SortedMap BalanceKey Balance),
      (l.Pairwise fun a b => a.1 < b.1) →
      (l.foldl flushRow m).get key = match SortedMap.lookup key l with
        | some row => if row.worthPersisting then some row.balance else m.get key
        | none => m.get key
  | [], m, _ => rfl
  | (k, row) :: l, m, hs => by
      obtain ⟨hhd, htl⟩ := List.pairwise_cons.mp hs
      rw [List.foldl_cons, get_foldl_flushRow _ htl, SortedMap.lookup]
      by_cases hk : k = key
      · subst hk
        rw [if_pos rfl, SortedMap.lookup_eq_none_of_lt hhd]
        simp only [flushRow]
        split_ifs
        · exact SortedMap.get_insert_self _ _ _
        · rfl
      · have hget : (flushRow m (k, row)).get key = m.get key := by
          rw [flushRow]
          split_ifs
          · exact SortedMap.get_insert_of_ne _ _ hk
          · rfl
        rw [if_neg hk, hget]

/-- **What `flush` writes**: the row, if the table had it or if it is not empty. -/
lemma Remembers.get_flush (h : wb.Remembers) (key : BalanceKey) :
    wb.flush.balances.get key =
      if (wb.load key).worthPersisting then some (wb.load key).balance else none := by
  rw [flush, get_foldl_flushRow _ wb.buffer.sorted]
  show (match wb.buffer.get key with | some row => _ | none => _) = _
  rw [load]
  cases hb : wb.buffer.get key with
  | none =>
      cases hg : wb.balances.get key with
      | none => simp [BalanceRow.load, BalanceRow.worthPersisting, hg, Balance.isZero, Balance.zero,
          Quantity.isZero, Quantity.zero]
      | some b => simp [BalanceRow.load, BalanceRow.worthPersisting, hg]
  | some row =>
      simp only [Option.getD_some]
      split_ifs with hw
      · rfl
      · have he : row.existed = false := by
          cases hex : row.existed with
          | false => rfl
          | true => simp [BalanceRow.worthPersisting, hex] at hw
        have := h key row hb
        rw [he] at this
        simpa using this.symm

lemma Coherent.get_flush (h : wb.Coherent) (key : BalanceKey) :
    wb.flush.balances.get key =
      if (wb.load key).worthPersisting then some (wb.load key).balance else none :=
  Remembers.get_flush h.existed key

lemma flush_new (table : TokenBalance) : (new table).flush = table := rfl

lemma Remembers.row_flush (h : wb.Remembers) (key : BalanceKey) :
    wb.flush.row key = (wb.load key).balance := by
  rw [TokenBalance.row, h.get_flush]
  split_ifs with hw
  · rfl
  · rw [BalanceRow.worthPersisting, Bool.or_eq_true, not_or, Bool.not_eq_true', Bool.not_eq_false]
      at hw
    rw [Option.getD_none, Balance.eq_zero_of_isZero hw.2]

lemma Coherent.row_flush (h : wb.Coherent) (key : BalanceKey) :
    wb.flush.row key = (wb.load key).balance := Remembers.row_flush h.existed key

/-- Flushing after one more write. -/
lemma Coherent.flush_store (h : wb.Coherent) {key : BalanceKey} {b : Balance}
    (hb : (wb.load key).existed = false → b.reserved = Quantity.zero) :
    (wb.store key b).flush.balances =
      if (wb.load key).existed || !b.isZero then wb.flush.balances.insert key b
      else wb.flush.balances.erase key := by
  refine SortedMap.ext_get fun key' => ?_
  rw [(h.store hb).get_flush, load_store]
  by_cases hk : key = key'
  · subst hk
    rw [if_pos rfl]
    by_cases hw : ((wb.load key).existed || !b.isZero) = true
    · have hw' : BalanceRow.worthPersisting { wb.load key with balance := b } = true := hw
      rw [if_pos hw', if_pos hw]
      exact (SortedMap.get_insert_self _ _ _).symm
    · have hw' : ¬ BalanceRow.worthPersisting { wb.load key with balance := b } = true := hw
      rw [if_neg hw', if_neg hw]
      exact (SortedMap.get_erase_self _ _).symm
  · rw [if_neg hk, ← h.get_flush]
    split_ifs
    · exact (SortedMap.get_insert_of_ne _ _ hk).symm
    · exact (SortedMap.get_erase_of_ne _ hk).symm

/-- **One write moves the holdings by the difference of the two rows.** -/
lemma Coherent.userTotal_store (h : wb.Coherent) {key : BalanceKey} {b : Balance}
    (hb : (wb.load key).existed = false → b.reserved = Quantity.zero) (t : TokenId) :
    (wb.store key b).flush.userTotal t + TokenBalance.held t key (wb.load key).balance
      = wb.flush.userTotal t + TokenBalance.held t key b := by
  have hold : (wb.flush.balances.get key).elim 0 (TokenBalance.held t key)
      = TokenBalance.held t key (wb.load key).balance := by
    rw [← h.row_flush, TokenBalance.row]
    cases wb.flush.balances.get key with
    | none => exact (TokenBalance.held_zero t key).symm
    | some b => rfl
  rw [TokenBalance.userTotal, TokenBalance.userTotal, h.flush_store hb, ← hold]
  split_ifs with hw
  · exact SortedMap.sum_insert _ _ _ _
  · rw [Bool.or_eq_true, not_or, Bool.not_eq_true', Bool.not_eq_false] at hw
    rw [Balance.eq_zero_of_isZero hw.2, TokenBalance.held_zero, Nat.add_zero]
    exact SortedMap.sum_erase _ _ _

end BalanceWriteBack

/-! ## The buffered operations -/

lemma Balance.deposit_eq_ok {b b' : Balance} {amount : Quantity} :
    b.deposit amount = .ok b' ↔
      b'.free.toNat = b.free.toNat + amount.toNat ∧ b'.reserved = b.reserved := by
  simp only [Balance.deposit, Except.bind_eq_ok, Except.expect_eq_ok, Quantity.checkedAdd_eq_some,
    Except.ok.injEq]
  constructor
  · rintro ⟨free, hf, rfl⟩
    exact ⟨hf, rfl⟩
  · rintro ⟨hf, hr⟩
    exact ⟨b'.free, hf, by rw [← hr]⟩

lemma Balance.debitReserved_eq_ok {b b' : Balance} {amount : Quantity} :
    b.debitReserved amount = .ok b' ↔
      b'.reserved.toNat + amount.toNat = b.reserved.toNat ∧ b'.free = b.free := by
  simp only [Balance.debitReserved, Except.bind_eq_ok, Except.expect_eq_ok,
    Quantity.checkedSub_eq_some, Except.ok.injEq]
  constructor
  · rintro ⟨reserved, hr, rfl⟩
    exact ⟨hr, rfl⟩
  · rintro ⟨hr, hf⟩
    exact ⟨b'.reserved, hr, by rw [← hf]⟩

lemma Balance.unreserve_eq_ok {b b' : Balance} {amount : Quantity} :
    b.unreserve amount = .ok b' ↔
      b'.reserved.toNat + amount.toNat = b.reserved.toNat ∧
      b'.free.toNat = b.free.toNat + amount.toNat := by
  simp only [Balance.unreserve, Except.bind_eq_ok, Except.expect_eq_ok,
    Quantity.checkedSub_eq_some, Quantity.checkedAdd_eq_some, Except.ok.injEq]
  constructor
  · rintro ⟨reserved, hr, free, hf, rfl⟩
    exact ⟨hr, hf⟩
  · rintro ⟨hr, hf⟩
    exact ⟨b'.reserved, hr, b'.free, hf, rfl⟩

lemma FeePool.of_withhold {pool pool' : FeePool} {token : TokenId} {gross fee net : Quantity}
    (h : pool.withhold token gross fee = .ok (net, pool')) :
    net.toNat + fee.toNat = gross.toNat ∧
    (∀ t, ((pool'.perToken.get t).getD Quantity.zero).toNat
      = ((pool.perToken.get t).getD Quantity.zero).toNat + if token = t then fee.toNat else 0) ∧
    ∀ t, (pool'.perToken.get t).isSome ↔
      (pool.perToken.get t).isSome ∨ (if token = t then fee.toNat else 0) ≠ 0 := by
  simp only [FeePool.withhold, Except.bind_eq_ok, Except.expect_eq_ok,
    Quantity.checkedSub_eq_some] at h
  obtain ⟨net', hnet, h⟩ := h
  by_cases hz : fee.isZero = true
  · rw [if_pos hz, Except.ok.injEq, Prod.mk.injEq] at h
    obtain ⟨rfl, rfl⟩ := h
    have hfee := Quantity.isZero_iff.mp hz
    exact ⟨hnet, fun t => by simp [hfee], fun t => by simp [hfee]⟩
  · rw [if_neg hz] at h
    simp only [Except.bind_eq_ok, Except.expect_eq_ok, Quantity.checkedAdd_eq_some,
      Except.ok.injEq, Prod.mk.injEq] at h
    obtain ⟨accrued, hacc, rfl, rfl⟩ := h
    have hfee : fee.toNat ≠ 0 := fun h0 => hz (Quantity.isZero_iff.mpr h0)
    refine ⟨hnet, fun t => ?_, fun t => ?_⟩
    · rw [SortedMap.get_insert]
      split_ifs with ht
      · subst ht
        exact hacc
      · rfl
    · rw [SortedMap.get_insert]
      split_ifs with ht
      · simp [hfee]
      · simp

namespace BalanceWriteBack

variable {wb wb' : BalanceWriteBack}

lemma Coherent.reserved_flush (h : wb.Coherent) (t : TokenId) (u : UserId) :
    wb.flush.reserved t u = (wb.load (.new t u)).balance.reserved.toNat := by
  rw [TokenBalance.reserved, h.row_flush]

lemma Coherent.free_flush (h : wb.Coherent) (t : TokenId) (u : UserId) :
    wb.flush.free t u = (wb.load (.new t u)).balance.free.toNat := by
  rw [TokenBalance.free, h.row_flush]

section Store

variable (h : wb.Coherent) {token : TokenId} {user : UserId} {b : Balance}
  (hb : (wb.load (.new token user)).existed = false → b.reserved = Quantity.zero)

include h hb

lemma Coherent.row_store (key : BalanceKey) :
    (wb.store (.new token user) b).flush.row key
      = if BalanceKey.new token user = key then b else wb.flush.row key := by
  rw [(h.store hb).row_flush, load_store, h.row_flush]
  split_ifs <;> rfl

/-- Writing a row with `d` less in reserve. -/
lemma Coherent.reserved_store {d : ℕ}
    (hd : b.reserved.toNat + d = (wb.load (.new token user)).balance.reserved.toNat)
    (t : TokenId) (u : UserId) :
    (wb.store (.new token user) b).flush.reserved t u + (if token = t ∧ user = u then d else 0)
      = wb.flush.reserved t u := by
  rw [TokenBalance.reserved, h.row_store hb]
  by_cases hk : token = t ∧ user = u
  · rw [if_pos (BalanceKey.new_inj.mpr hk), if_pos hk, h.reserved_flush, ← hk.1, ← hk.2]
    exact hd
  · rw [if_neg (fun he => hk (BalanceKey.new_inj.mp he)), if_neg hk]
    rfl

/-- Writing a row with `c` more to spend. -/
lemma Coherent.free_store {c : ℕ}
    (hc : b.free.toNat = (wb.load (.new token user)).balance.free.toNat + c)
    (t : TokenId) (u : UserId) :
    (wb.store (.new token user) b).flush.free t u
      = wb.flush.free t u + if token = t ∧ user = u then c else 0 := by
  rw [TokenBalance.free, h.row_store hb]
  by_cases hk : token = t ∧ user = u
  · rw [if_pos (BalanceKey.new_inj.mpr hk), if_pos hk, h.free_flush, ← hk.1, ← hk.2]
    exact hc
  · rw [if_neg (fun he => hk (BalanceKey.new_inj.mp he)), if_neg hk]
    rfl

/-- Both at once, in the holdings. -/
lemma Coherent.held_store {c d : ℕ}
    (hd : b.reserved.toNat + d = (wb.load (.new token user)).balance.reserved.toNat)
    (hc : b.free.toNat = (wb.load (.new token user)).balance.free.toNat + c) (t : TokenId) :
    (wb.store (.new token user) b).flush.userTotal t + (if token = t then d else 0)
      = wb.flush.userTotal t + if token = t then c else 0 := by
  have hs := h.userTotal_store hb t
  rw [TokenBalance.held_new, TokenBalance.held_new] at hs
  split_ifs at hs ⊢ <;> omega

end Store

/-- The rows of a flushed buffer. -/
lemma Coherent.rows_flush (h : wb.Coherent) (key : BalanceKey) :
    (wb.flush.balances.get key).isSome ↔
      (wb.balances.get key).isSome ∨ (wb.flush.row key).isZero = false := by
  rw [h.row_flush, h.get_flush, ← h.load_existed key]
  cases hx : (wb.load key).existed <;>
    cases hz : (wb.load key).balance.isZero <;>
      simp [BalanceRow.worthPersisting, hx, hz]

lemma Coherent.existed_of_reserved (h : wb.Coherent) {t : TokenId} {u : UserId}
    (hpos : 0 < wb.flush.reserved t u) : (wb.load (.new t u)).existed = true := by
  cases hx : (wb.load (.new t u)).existed with
  | true => rfl
  | false =>
      rw [h.reserved_flush, h.load_reserved hx, Quantity.toNat_zero] at hpos
      exact absurd hpos (lt_irrefl 0)

end BalanceWriteBack

/-! ## Deposits, withdrawals and reservations -/

/-- **`table'` is `table` with one row changed** to `b`; fees are not touched. -/
structure RowSet (table : TokenBalance) (t : TokenId) (u : UserId) (b : Balance)
    (table' : TokenBalance) : Prop where
  row : ∀ key, table'.row key = if BalanceKey.new t u = key then b else table.row key
  feePool : table'.feePool = table.feePool
  rows : ∀ key, (table'.balances.get key).isSome ↔
    (table.balances.get key).isSome ∨ (table'.row key).isZero = false
  userTotal : ∀ t', table'.userTotal t' + TokenBalance.held t' (.new t u) (table.row (.new t u))
    = table.userTotal t' + TokenBalance.held t' (.new t u) b

/-- A row that is written only if it is worth it, and that holds what it held, is as before. -/
lemma TokenBalance.get_eq_of_row {table table' : TokenBalance} {key : BalanceKey}
    (hrows : (table'.balances.get key).isSome ↔
      (table.balances.get key).isSome ∨ (table'.row key).isZero = false)
    (hrow : table'.row key = table.row key) :
    table'.balances.get key = table.balances.get key := by
  refine Option.eq_of_getD_eq (d := Balance.zero) ?_ hrow
  rw [hrows, hrow, or_iff_left_iff_imp]
  intro hzero
  cases hget : table.balances.get key with
  | some b => rfl
  | none =>
      rw [TokenBalance.row, hget, Option.getD_none,
        Balance.isZero_iff.mpr ⟨Quantity.toNat_zero, Quantity.toNat_zero⟩] at hzero
      cases hzero

/-- `table'` differs from `table` in the rows of `u` only. -/
def TokenBalance.Spares (table : TokenBalance) (u : UserId) (table' : TokenBalance) : Prop :=
  ∀ key : BalanceKey, key.user ≠ u → table'.balances.get key = table.balances.get key

namespace RowSet

variable {table table' : TokenBalance} {t : TokenId} {u : UserId} {b : Balance}

lemma spares (h : RowSet table t u b table') : table.Spares u table' := by
  intro key hkey
  refine TokenBalance.get_eq_of_row (h.rows key) ?_
  rw [h.row, if_neg]
  rintro rfl
  exact hkey rfl

lemma free (h : RowSet table t u b table') (t' : TokenId) (u' : UserId) :
    table'.free t' u' = if t = t' ∧ u = u' then b.free.toNat else table.free t' u' := by
  rw [TokenBalance.free, h.row]
  by_cases hk : t = t' ∧ u = u'
  · rw [if_pos (BalanceKey.new_inj.mpr hk), if_pos hk]
  · rw [if_neg (fun he => hk (BalanceKey.new_inj.mp he)), if_neg hk]
    rfl

lemma reserved (h : RowSet table t u b table') (t' : TokenId) (u' : UserId) :
    table'.reserved t' u' = if t = t' ∧ u = u' then b.reserved.toNat else table.reserved t' u' := by
  rw [TokenBalance.reserved, h.row]
  by_cases hk : t = t' ∧ u = u'
  · rw [if_pos (BalanceKey.new_inj.mpr hk), if_pos hk]
  · rw [if_neg (fun he => hk (BalanceKey.new_inj.mp he)), if_neg hk]
    rfl

lemma total (h : RowSet table t u b table') (t' : TokenId) :
    table'.total t' + (if t = t' then table.free t u + table.reserved t u else 0)
      = table.total t' + if t = t' then b.free.toNat + b.reserved.toNat else 0 := by
  have hu := h.userTotal t'
  rw [TokenBalance.held_new, TokenBalance.held_new] at hu
  have hp : table'.pool t' = table.pool t' := by rw [TokenBalance.pool, h.feePool]; rfl
  rw [TokenBalance.total, TokenBalance.total, hp, TokenBalance.free, TokenBalance.reserved]
  omega

end RowSet

lemma BalanceWriteBack.rowSet_store (table : TokenBalance) {t : TokenId} {u : UserId} {b : Balance}
    (hb : ((BalanceWriteBack.new table).load (.new t u)).existed = false →
      b.reserved = Quantity.zero) :
    RowSet table t u b ((BalanceWriteBack.new table).store (.new t u) b).flush := by
  have h := coherent_new table
  refine ⟨fun key => h.row_store hb key, rfl, fun key => (h.store hb).rows_flush key,
    fun t' => ?_⟩
  have hs := h.userTotal_store hb t'
  rw [← h.row_flush, flush_new] at hs
  exact hs

namespace TokenBalance

variable {table table' : TokenBalance} {u : UserId} {t : TokenId} {amount : Quantity}

lemma load_new (table : TokenBalance) (key : BalanceKey) :
    ((BalanceWriteBack.new table).load key).balance = table.row key := rfl

lemma reserved_of_not_existed {key : BalanceKey}
    (h : ((BalanceWriteBack.new table).load key).existed = false) :
    (table.row key).reserved = Quantity.zero :=
  (BalanceWriteBack.coherent_new table).load_reserved h

/-- **A deposit.** -/
theorem deposit_spec (h : table.deposit u t amount = .ok table') :
    ∃ b : Balance, RowSet table t u b table' ∧
      b.free.toNat = table.free t u + amount.toNat ∧ b.reserved.toNat = table.reserved t u := by
  simp only [deposit, BalanceWriteBack.deposit, BalanceWriteBack.modifyOrCreate,
    Except.bind_eq_ok, Balance.deposit_eq_ok, load_new, Except.ok.injEq] at h
  obtain ⟨wb, ⟨b, ⟨hf, hr⟩, rfl⟩, rfl⟩ := h
  refine ⟨b, BalanceWriteBack.rowSet_store table fun hx => ?_, hf, congrArg Quantity.toNat hr⟩
  exact hr.trans (reserved_of_not_existed hx)

/-- A deposit traps only if the free balance does not fit. -/
theorem deposit_outcome (table : TokenBalance) (u : UserId) (t : TokenId) (amount : Quantity) :
    (table.deposit u t amount).Outcome
      (fun e => e.Overflow ∧ 2 ^ 256 ≤ table.free t u + amount.toNat)
      fun table' => table.deposit u t amount = .ok table' := by
  cases hadd : (table.row (.new t u)).free.checkedAdd amount with
  | none =>
      have hbig := Quantity.checkedAdd_eq_none.mp hadd
      have hd : table.deposit u t amount = .error (.bug .depositOverflow) := by
        simp only [deposit, BalanceWriteBack.deposit, BalanceWriteBack.modifyOrCreate,
          Balance.deposit, load_new, hadd, Except.expect_none, Except.bind_error]
      rw [hd]
      exact ⟨.deposit, hbig⟩
  | some free =>
      simp only [deposit, BalanceWriteBack.deposit, BalanceWriteBack.modifyOrCreate,
        Balance.deposit, load_new, hadd, Except.expect_some, Except.bind_ok, Except.outcome_ok]

/-- **A withdrawal** never traps; it needs the free balance and takes it. -/
theorem withdraw_spec (table : TokenBalance) (u : UserId) (t : TokenId) (amount : Quantity) :
    (table.free t u < amount.toNat ∧ ∃ e, table.withdraw u t amount = .ok (.error e, table)) ∨
    ∃ table' b, table.withdraw u t amount = .ok (.ok (), table') ∧ RowSet table t u b table' ∧
      b.free.toNat + amount.toNat = table.free t u ∧ b.reserved.toNat = table.reserved t u := by
  cases hsub : (table.row (.new t u)).free.checkedSub amount with
  | none =>
      refine Or.inl ⟨Quantity.checkedSub_eq_none.mp hsub, ⟨(table.row (.new t u)).free, amount⟩, ?_⟩
      simp only [withdraw, BalanceWriteBack.withdraw, BalanceWriteBack.tryMutate,
        Balance.withdraw, load_new, hsub, Except.bind_ok]
      rfl
  | some free =>
      have hf := Quantity.checkedSub_eq_some.mp hsub
      refine Or.inr ⟨_, { table.row (.new t u) with free }, ?_,
        BalanceWriteBack.rowSet_store table fun hx => reserved_of_not_existed hx, hf, rfl⟩
      simp only [withdraw, BalanceWriteBack.withdraw, BalanceWriteBack.tryMutate,
        Balance.withdraw, load_new, hsub, Except.bind_ok]

/-- **A reservation** needs the free balance; it traps only if the two parts of the row do not fit
together. -/
theorem reserve_spec (table : TokenBalance) (u : UserId) (t : TokenId) (amount : Quantity) :
    (table.free t u < amount.toNat ∧ ∃ e, table.reserve u t amount = .ok (.error e, table)) ∨
    (table.reserve u t amount = .error (.bug .reserveOverflow) ∧ 2 ^ 256 ≤ table.total t) ∨
    ∃ table' b, table.reserve u t amount = .ok (.ok (), table') ∧ RowSet table t u b table' ∧
      b.free.toNat + amount.toNat = table.free t u ∧
      b.reserved.toNat = table.reserved t u + amount.toNat := by
  cases hsub : (table.row (.new t u)).free.checkedSub amount with
  | none =>
      refine Or.inl ⟨Quantity.checkedSub_eq_none.mp hsub, ⟨(table.row (.new t u)).free, amount⟩, ?_⟩
      simp only [reserve, BalanceWriteBack.reserve, BalanceWriteBack.tryMutate,
        Balance.reserve, load_new, hsub, Except.bind_ok]
      rfl
  | some free =>
      have hf := Quantity.checkedSub_eq_some.mp hsub
      have hrow := table.row_le_userTotal t u
      cases hadd : (table.row (.new t u)).reserved.checkedAdd amount with
      | none =>
          have hbig := Quantity.checkedAdd_eq_none.mp hadd
          have hfree : table.free t u = (table.row (.new t u)).free.toNat := rfl
          have hres : table.reserved t u = (table.row (.new t u)).reserved.toNat := rfl
          refine Or.inr (Or.inl ⟨?_, by rw [total]; omega⟩)
          simp only [reserve, BalanceWriteBack.reserve, BalanceWriteBack.tryMutate,
            Balance.reserve, load_new, hsub, hadd, Except.expect_none, Except.bind_error]
      | some reserved =>
          have hr := Quantity.checkedAdd_eq_some.mp hadd
          refine Or.inr (Or.inr ⟨_, { free, reserved }, ?_,
            BalanceWriteBack.rowSet_store table fun hx => ?_, hf, hr⟩)
          · simp only [reserve, BalanceWriteBack.reserve, BalanceWriteBack.tryMutate,
              Balance.reserve, load_new, hsub, hadd, Except.expect_some, Except.bind_ok]
          · -- A row that does not exist has nothing to reserve.
            have hz := reserved_of_not_existed hx
            have hzero : table.row (.new t u) = Balance.zero := by
              rw [row]
              cases hg : table.balances.get (.new t u) with
              | none => rfl
              | some b => simp [BalanceWriteBack.new, BalanceWriteBack.load, BalanceRow.load, hg] at hx
            refine Quantity.eq_zero_iff.mpr (show reserved.toNat = 0 from ?_)
            rw [hzero] at hf hr
            simp only [Balance.zero, Quantity.toNat_zero] at hf hr
            omega

end TokenBalance

end OisyTrade
