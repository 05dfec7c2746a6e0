import OisyTrade.Balance.Postings

/-!
# Two tables that differ by debits

A table may be *ahead* of another: every row has the same reserve, and a free balance that is larger
by what has been debited from the other one only (`Ahead`).  Both have the same rows and the same
fee pool.

An operation that goes through on the table behind goes through on the table ahead, unless the sums
there leave their range, and what is between them stays the same (`Ahead.deposit`, `Ahead.reserve`,
`Ahead.postAll`).  An operation on one of the two alone changes what is between them
(`Ahead.afterDebit`, `Ahead.creditedBack`, `Ahead.withdraw`).
-/

namespace OisyTrade

namespace TokenBalance

/-- **`ahead` is ahead of `table` by `lead`.** -/
structure Ahead (lead : TokenId → UserId → ℕ) (table ahead : TokenBalance) : Prop where
  free : ∀ t u, ahead.free t u = table.free t u + lead t u
  reserved : ∀ t u, ahead.reserved t u = table.reserved t u
  rows : ∀ key, (ahead.balances.get key).isSome ↔ (table.balances.get key).isSome
  feePool : ahead.feePool = table.feePool

variable {lead lead' : TokenId → UserId → ℕ} {table table' ahead ahead' : TokenBalance}
  {token : TokenId} {uid : UserId} {amount : Quantity}

lemma Ahead.refl (table : TokenBalance) : Ahead (fun _ _ => 0) table table :=
  ⟨fun _ _ => rfl, fun _ _ => rfl, fun _ => Iff.rfl, rfl⟩

/-- A row with a lead exists. -/
lemma Ahead.isSome_of_lead (h : Ahead lead table ahead) {key : BalanceKey}
    (hpos : 0 < lead key.token key.user) : (table.balances.get key).isSome := by
  rw [← h.rows]
  refine isSome_of_row_ne_zero (Balance.isZero_eq_false.mpr (Or.inl ?_))
  have hfree : (ahead.row key).free.toNat = _ := h.free key.token key.user
  rw [hfree]
  exact (Nat.add_pos_right _ hpos).ne'

/-- **The rule for operations.**  Each table keeps its rows and adds those that are not empty, so the
two have the same rows if only rows that exist have a lead. -/
lemma Ahead.step (h : Ahead lead table ahead)
    (hrows : ∀ key, (table'.balances.get key).isSome ↔
      (table.balances.get key).isSome ∨ (table'.row key).isZero = false)
    (hrows' : ∀ key, (ahead'.balances.get key).isSome ↔
      (ahead.balances.get key).isSome ∨ (ahead'.row key).isZero = false)
    (hfree : ∀ t u, ahead'.free t u = table'.free t u + lead' t u)
    (hreserved : ∀ t u, ahead'.reserved t u = table'.reserved t u)
    (hfeePool : ahead'.feePool = table'.feePool)
    (hkept : ∀ t u, 0 < lead' t u → (table.balances.get (.new t u)).isSome) :
    Ahead lead' table' ahead' := by
  refine ⟨hfree, hreserved, fun key => ?_, hfeePool⟩
  rw [hrows, hrows', h.rows]
  by_cases hrow : (table.balances.get key).isSome
  · exact iff_of_true (Or.inl hrow) (Or.inl hrow)
  · -- A row that does not exist has no lead, so both rows are now the same.
    have hzero : lead' key.token key.user = 0 :=
      Nat.eq_zero_of_not_pos fun hpos => hrow (hkept key.token key.user hpos)
    have hf := hfree key.token key.user
    rw [hzero] at hf
    have hsame : ahead'.row key = table'.row key :=
      Balance.ext_toNat hf (hreserved key.token key.user)
    rw [hsame]

/-- Unchanged rows. -/
lemma rows_self (table : TokenBalance) (key : BalanceKey) : (table.balances.get key).isSome ↔
    (table.balances.get key).isSome ∨ (table.row key).isZero = false :=
  ⟨Or.inl, fun h => h.elim id isSome_of_row_ne_zero⟩

lemma free_le_total (table : TokenBalance) (t : TokenId) (u : UserId) :
    table.free t u ≤ table.total t :=
  (Nat.le_add_right _ _).trans ((table.row_le_userTotal t u).trans (Nat.le_add_right _ _))

/-- Both tables change the same row in the same way. -/
lemma Ahead.rowSet (h : Ahead lead table ahead) {b b' : Balance}
    (hrow : RowSet table token uid b table') (hrow' : RowSet ahead token uid b' ahead')
    (hfree : b'.free.toNat = b.free.toNat + lead token uid)
    (hreserved : b'.reserved.toNat = b.reserved.toNat) : Ahead lead table' ahead' := by
  refine h.step hrow.rows hrow'.rows (fun t u => ?_) (fun t u => ?_) ?_
    fun t u hpos => @Ahead.isSome_of_lead _ _ _ h (.new t u) hpos
  · rw [hrow.free, hrow'.free]
    split_ifs with hkey
    · obtain ⟨rfl, rfl⟩ := hkey
      exact hfree
    · exact h.free t u
  · rw [hrow.reserved, hrow'.reserved]
    split_ifs with hkey
    · exact hreserved
    · exact h.reserved t u
  · rw [hrow.feePool, hrow'.feePool]
    exact h.feePool

/-! ## Operations on both tables -/

/-- **A deposit** goes through on the table ahead if it fits there. -/
lemma Ahead.deposit (h : Ahead lead table ahead)
    (hok : table.deposit uid token amount = .ok table')
    (hfits : ahead.total token + amount.toNat < 2 ^ 256) :
    ∃ ahead', ahead.deposit uid token amount = .ok ahead' ∧ Ahead lead table' ahead' := by
  have houtcome := ahead.deposit_outcome uid token amount
  cases hdeposit : ahead.deposit uid token amount with
  | error trap =>
      rw [hdeposit] at houtcome
      have hle := Nat.add_le_add_right (ahead.free_le_total token uid) amount.toNat
      exact absurd (houtcome.2.trans hle) (not_le.mpr hfits)
  | ok ahead' =>
      obtain ⟨b, hrow, hfree, hreserved⟩ := table.deposit_spec hok
      obtain ⟨b', hrow', hfree', hreserved'⟩ := ahead.deposit_spec hdeposit
      refine ⟨ahead', rfl, h.rowSet hrow hrow' ?_ ?_⟩
      · rw [hfree, hfree', h.free, Nat.add_right_comm]
      · rw [hreserved, hreserved', h.reserved]

/-- **A reservation** goes through on the table ahead if the total there is in range. -/
lemma Ahead.reserve (h : Ahead lead table ahead)
    (hok : table.reserve uid token amount = .ok (.ok (), table'))
    (hfits : ahead.total token < 2 ^ 256) :
    ∃ ahead', ahead.reserve uid token amount = .ok (.ok (), ahead') ∧
      Ahead lead table' ahead' := by
  rcases table.reserve_spec uid token amount with ⟨-, e, he⟩ | ⟨he, -⟩ |
    ⟨table₁, b, he, hrow, hfree, hreserved⟩
  · rw [hok] at he
    cases he
  · rw [hok] at he
    cases he
  · rw [hok] at he
    cases he
    rcases ahead.reserve_spec uid token amount with ⟨hlt, -⟩ | ⟨-, hbig⟩ |
      ⟨ahead', b', he', hrow', hfree', hreserved'⟩
    · rw [h.free, ← hfree] at hlt
      exact absurd hlt (not_lt.mpr ((Nat.le_add_left _ _).trans (Nat.le_add_right _ _)))
    · exact absurd hbig (not_le.mpr hfits)
    · refine ⟨ahead', he', h.rowSet hrow hrow' ?_ ?_⟩
      · rw [h.free, ← hfree] at hfree'
        exact Nat.add_right_cancel (hfree'.trans (Nat.add_right_comm _ _ _))
      · rw [hreserved, hreserved', h.reserved]

/-- The pool after a batch depends on the pool before it. -/
lemma feePool_of_posted {ps : List Posting} (hpool : ahead.feePool = table.feePool)
    (h : Posted table ps table') (h' : Posted ahead ps ahead') : ahead'.feePool = table'.feePool := by
  have hperToken : ahead'.feePool.perToken = table'.feePool.perToken := by
    refine SortedMap.ext_get fun t => ?_
    have hsome : (ahead'.feePool.perToken.get t).isSome ↔
        (table'.feePool.perToken.get t).isSome := by
      rw [h.poolRows, h'.poolRows, hpool]
    have hamount : ahead'.pool t = table'.pool t := by
      rw [h.pool, h'.pool, pool, pool, hpool]
    exact Option.eq_of_getD_eq hsome (Quantity.toNat_inj hamount)
  cases hf : ahead'.feePool
  cases hf' : table'.feePool
  rw [hf, hf'] at hperToken
  exact congrArg FeePool.mk hperToken

/-- **A batch** goes through on the table ahead if the totals there are in range. -/
lemma Ahead.postAll (h : Ahead lead table ahead) {ps : List Posting}
    (hposted : Posted table ps table') (hsane : ∀ p ∈ ps, p.Sane)
    (hfits : ∀ t, ahead.total t < 2 ^ 256) :
    ∃ ahead', (ahead.withWriteBack fun wb => ps.foldlM BalanceWriteBack.post wb) = .ok ahead' ∧
      Ahead lead table' ahead' := by
  have hcovered : ∀ t u, debits ps t u ≤ (BalanceWriteBack.new ahead).flush.reserved t u := by
    intro t u
    rw [BalanceWriteBack.flush_new, h.reserved, ← hposted.reserved]
    exact Nat.le_add_left _ _
  have houtcome := (BalanceWriteBack.coherent_new ahead).postAll_outcome hsane hcovered
  rw [withWriteBack]
  cases hpost : ps.foldlM BalanceWriteBack.post (BalanceWriteBack.new ahead) with
  | error trap =>
      rw [hpost, BalanceWriteBack.flush_new] at houtcome
      obtain ⟨-, -, t, hbig⟩ := houtcome
      exact absurd hbig (not_le.mpr (hfits t))
  | ok wb =>
      rw [hpost, BalanceWriteBack.flush_new] at houtcome
      have hposted' : Posted ahead ps wb.flush := houtcome
      refine ⟨wb.flush, rfl, h.step hposted.rows hposted'.rows (fun t u => ?_) (fun t u => ?_)
        (feePool_of_posted h.feePool hposted hposted') fun t u hpos =>
          @Ahead.isSome_of_lead _ _ _ h (.new t u) hpos⟩
      · rw [hposted.free, hposted'.free, h.free, Nat.add_right_comm]
      · have hr := hposted.reserved t u
        have hr' := hposted'.reserved t u
        rw [h.reserved, ← hr] at hr'
        exact Nat.add_right_cancel hr'

/-! ## Operations on one table -/

/-- The lead after one more debit from the table behind. -/
def debit (lead : TokenId → UserId → ℕ) (token : TokenId) (uid : UserId) (amount : Quantity) :
    TokenId → UserId → ℕ :=
  fun t u => lead t u + if token = t ∧ uid = u then amount.toNat else 0

lemma le_debit (t : TokenId) (u : UserId) : lead t u ≤ debit lead token uid amount t u :=
  Nat.le_add_right _ _

/-- **A debit** from the table behind. -/
lemma Ahead.afterDebit (h : Ahead lead table ahead)
    (hok : table.withdraw uid token amount = .ok (.ok (), table')) :
    Ahead (debit lead token uid amount) table' ahead := by
  rcases table.withdraw_spec uid token amount with ⟨-, e, he⟩ | ⟨table₁, b, he, hrow, hfree, hres⟩
  · rw [hok] at he
    cases he
  · rw [hok] at he
    cases he
    refine h.step hrow.rows ahead.rows_self (fun t u => ?_) (fun t u => ?_) ?_ fun t u hpos => ?_
    · rw [hrow.free, debit, h.free]
      split_ifs with hkey
      · obtain ⟨rfl, rfl⟩ := hkey
        rw [← hfree, Nat.add_assoc, Nat.add_comm amount.toNat]
      · rfl
    · rw [hrow.reserved, h.reserved]
      split_ifs with hkey
      · obtain ⟨rfl, rfl⟩ := hkey
        exact hres.symm
      · rfl
    · rw [hrow.feePool]
      exact h.feePool
    · rw [debit] at hpos
      split_ifs at hpos with hkey
      · obtain ⟨rfl, rfl⟩ := hkey
        by_cases hlead : 0 < lead token uid
        · exact h.isSome_of_lead hlead
        · refine isSome_of_row_ne_zero (Balance.isZero_eq_false.mpr (Or.inl ?_))
          have hpos' : 0 < amount.toNat := by
            rwa [Nat.eq_zero_of_not_pos hlead, Nat.zero_add] at hpos
          have hle : amount.toNat ≤ table.free token uid := hfree ▸ Nat.le_add_left _ _
          exact (lt_of_lt_of_le hpos' hle).ne'
      · exact h.isSome_of_lead hpos

/-- **A credit** to the table behind of what was debited there. -/
lemma Ahead.creditedBack (h : Ahead (debit lead token uid amount) table ahead)
    (hok : table.deposit uid token amount = .ok table') : Ahead lead table' ahead := by
  obtain ⟨b, hrow, hfree, hreserved⟩ := table.deposit_spec hok
  refine h.step hrow.rows ahead.rows_self (fun t u => ?_) (fun t u => ?_) ?_ fun t u hpos =>
    h.isSome_of_lead (lt_of_lt_of_le hpos (le_debit t u))
  · rw [hrow.free, h.free, debit]
    split_ifs with hkey
    · obtain ⟨rfl, rfl⟩ := hkey
      rw [hfree, Nat.add_comm (lead token uid), ← Nat.add_assoc]
    · rfl
  · rw [hrow.reserved, h.reserved]
    split_ifs with hkey
    · obtain ⟨rfl, rfl⟩ := hkey
      exact hreserved.symm
    · rfl
  · rw [hrow.feePool]
    exact h.feePool

/-- **A debit** from the table ahead of what was debited from the other one. -/
lemma Ahead.withdraw (h : Ahead (debit lead token uid amount) table ahead) :
    ∃ ahead', ahead.withdraw uid token amount = .ok (.ok (), ahead') ∧
      Ahead lead table ahead' := by
  have hahead : ahead.free token uid = table.free token uid + lead token uid + amount.toNat := by
    rw [h.free, debit, if_pos ⟨rfl, rfl⟩, Nat.add_assoc]
  rcases ahead.withdraw_spec uid token amount with ⟨hlt, -⟩ | ⟨ahead', b, he, hrow, hfree, hres⟩
  · rw [hahead] at hlt
    exact absurd hlt (not_lt.mpr (Nat.le_add_left _ _))
  · refine ⟨ahead', he, h.step table.rows_self hrow.rows (fun t u => ?_) (fun t u => ?_) ?_
      fun t u hpos => h.isSome_of_lead (lt_of_lt_of_le hpos (le_debit t u))⟩
    · rw [hrow.free]
      split_ifs with hkey
      · obtain ⟨rfl, rfl⟩ := hkey
        exact Nat.add_right_cancel (hfree.trans hahead)
      · rw [h.free, debit, if_neg hkey]
        rfl
    · rw [hrow.reserved]
      split_ifs with hkey
      · obtain ⟨rfl, rfl⟩ := hkey
        rw [hres, h.reserved]
      · exact h.reserved t u
    · rw [hrow.feePool]
      exact h.feePool

/-! ## Tables that are equal -/

/-- **A table is ahead of itself by nothing**, and nothing else is. -/
lemma Ahead.eq_iff (h : Ahead lead table ahead) : ahead = table ↔ ∀ t u, lead t u = 0 := by
  constructor
  · rintro rfl t u
    exact Nat.left_eq_add.mp (h.free t u)
  · intro hzero
    have hbalances : ahead.balances = table.balances := by
      refine SortedMap.ext_get fun key => Option.eq_of_getD_eq (d := Balance.zero) (h.rows key) ?_
      have hfree := h.free key.token key.user
      rw [hzero, Nat.add_zero] at hfree
      exact Balance.ext_toNat hfree (h.reserved key.token key.user)
    have hpool := h.feePool
    cases ahead
    cases table
    simp only at hbalances hpool
    rw [hbalances, hpool]

end TokenBalance

end OisyTrade
