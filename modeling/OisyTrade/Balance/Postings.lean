import OisyTrade.Balance.WriteBack

/-!
# Batches of balance operations

What a batch does to the table, said without the buffer.  A `Posting` is an operation on users; it
debits one reserved amount, credits one free amount and withholds a fee.  `Posted table ps table'`
says that `table'` is `table` with the debits, credits and fees of `ps` summed up.

Sums do not see how a run of operations is cut into batches, so `Posted` composes
(`Posted.trans`) and determines its result (`Posted.unique`).  `postAll_spec` connects it to the
buffered code, and `postAll_outcome` says when the buffered code traps.
-/

namespace OisyTrade

/-- A balance operation with its parties resolved to users. -/
inductive Posting
  | transfer (debtor creditor : UserId) (token : TokenId) (gross fee : Quantity)
  | unreserve (user : UserId) (token : TokenId) (amount : Quantity)

namespace Posting

/-- What the posting takes out of a reserved balance. -/
def debit : Posting → TokenId → UserId → ℕ
  | transfer debtor _ token gross _, t, u => if token = t ∧ debtor = u then gross.toNat else 0
  | unreserve user token amount, t, u => if token = t ∧ user = u then amount.toNat else 0

/-- What the posting puts into a free balance. -/
def credit : Posting → TokenId → UserId → ℕ
  | transfer _ creditor token gross fee, t, u =>
      if token = t ∧ creditor = u then gross.toNat - fee.toNat else 0
  | unreserve user token amount, t, u => if token = t ∧ user = u then amount.toNat else 0

/-- What the posting puts into the fee pool. -/
def withheld : Posting → TokenId → ℕ
  | transfer _ _ token _ fee, t => if token = t then fee.toNat else 0
  | unreserve _ _ _, _ => 0

/-- The amount is positive and covers the fee. -/
def Sane : Posting → Prop
  | transfer _ _ _ gross fee => 0 < gross.toNat ∧ fee.toNat ≤ gross.toNat
  | unreserve _ _ amount => 0 < amount.toNat

end Posting

/-- Apply one posting to the buffer. -/
def BalanceWriteBack.post (wb : BalanceWriteBack) : Posting → Except Trap BalanceWriteBack
  | .transfer debtor creditor token gross fee => wb.transfer debtor creditor token gross fee
  | .unreserve user token amount => wb.unreserve user token amount

/-- The debits of a batch. -/
def debits (ps : List Posting) (t : TokenId) (u : UserId) : ℕ := (ps.map (·.debit t u)).sum

/-- The credits of a batch. -/
def credits (ps : List Posting) (t : TokenId) (u : UserId) : ℕ := (ps.map (·.credit t u)).sum

/-- The fees of a batch. -/
def withheldOf (ps : List Posting) (t : TokenId) : ℕ := (ps.map (·.withheld t)).sum

lemma debits_append (ps qs : List Posting) (t : TokenId) (u : UserId) :
    debits (ps ++ qs) t u = debits ps t u + debits qs t u := by
  rw [debits, List.map_append, List.sum_append]
  rfl

lemma credits_append (ps qs : List Posting) (t : TokenId) (u : UserId) :
    credits (ps ++ qs) t u = credits ps t u + credits qs t u := by
  rw [credits, List.map_append, List.sum_append]
  rfl

lemma withheldOf_append (ps qs : List Posting) (t : TokenId) :
    withheldOf (ps ++ qs) t = withheldOf ps t + withheldOf qs t := by
  rw [withheldOf, List.map_append, List.sum_append]
  rfl

/-! ## The effect of a batch -/

/-- **`table'` is `table` after the postings `ps`**, whatever batches they were cut into. -/
structure Posted (table : TokenBalance) (ps : List Posting) (table' : TokenBalance) : Prop where
  reserved : ∀ t u, table'.reserved t u + debits ps t u = table.reserved t u
  free : ∀ t u, table'.free t u = table.free t u + credits ps t u
  pool : ∀ t, table'.pool t = table.pool t + withheldOf ps t
  rows : ∀ key, (table'.balances.get key).isSome ↔
    (table.balances.get key).isSome ∨ (table'.row key).isZero = false
  poolRows : ∀ t, (table'.feePool.perToken.get t).isSome ↔
    (table.feePool.perToken.get t).isSome ∨ withheldOf ps t ≠ 0
  total : ∀ t, table'.total t = table.total t

/-- **The table has room for the batch**: no free balance that it credits and no fee pool outgrows its
range. -/
structure TokenBalance.RoomFor (table : TokenBalance) (ps : List Posting) : Prop where
  free : ∀ t u, table.free t u + credits ps t u < 2 ^ 256
  pool : ∀ t, table.pool t + withheldOf ps t < 2 ^ 256

/-- The order of a batch does not matter. -/
lemma TokenBalance.RoomFor.perm {table : TokenBalance} {ps qs : List Posting}
    (h : table.RoomFor ps) (hperm : ps.Perm qs) : table.RoomFor qs := by
  refine ⟨fun t u => ?_, fun t => ?_⟩
  · rw [credits, ← (hperm.map _).sum_eq]
    exact h.free t u
  · rw [withheldOf, ← (hperm.map _).sum_eq]
    exact h.pool t

/-- **What a batch can run into**: there is no room for it, and then the canister holds more of a token
than fits. -/
def TokenBalance.Exceeds (table : TokenBalance) (ps : List Posting) (e : Trap) : Prop :=
  e.Overflow ∧ ¬ table.RoomFor ps ∧ ∃ t, 2 ^ 256 ≤ table.total t

lemma TokenBalance.RoomFor.of_append {table : TokenBalance} {ps qs : List Posting}
    (h : table.RoomFor (ps ++ qs)) : table.RoomFor ps := by
  refine ⟨fun t u => ?_, fun t => ?_⟩
  · have hfree := h.free t u
    rw [credits_append] at hfree
    omega
  · have hpool := h.pool t
    rw [withheldOf_append] at hpool
    omega

namespace Posted

variable {table table₁ table' : TokenBalance} {ps qs : List Posting}

lemma refl (table : TokenBalance) : Posted table [] table :=
  ⟨fun _ _ => rfl, fun _ _ => rfl, fun _ => rfl,
    fun _ => ⟨Or.inl, fun h => h.elim id TokenBalance.isSome_of_row_ne_zero⟩,
    fun _ => ⟨Or.inl, fun h => h.resolve_right fun hne => hne rfl⟩, fun _ => rfl⟩

/-- **Batches compose.** -/
lemma trans (h : Posted table ps table₁) (h' : Posted table₁ qs table') :
    Posted table (ps ++ qs) table' := by
  refine ⟨fun t u => ?_, fun t u => ?_, fun t => ?_, fun key => ?_, fun t => ?_,
    fun t => (h'.total t).trans (h.total t)⟩
  · rw [debits_append]
    have := h.reserved t u
    have := h'.reserved t u
    omega
  · rw [credits_append, h'.free, h.free]
    omega
  · rw [withheldOf_append, h'.pool, h.pool]
    omega
  · rw [h'.rows, h.rows]
    constructor
    · rintro ((hrow | hz) | hz)
      · exact Or.inl hrow
      · -- A row that the first batch left non-empty had a reserve before, or keeps its credit.
        rw [Balance.isZero_eq_false] at hz
        have hf : table'.free key.token key.user = table₁.free key.token key.user + _ :=
          h'.free key.token key.user
        have hr : table₁.reserved key.token key.user + _ = table.reserved key.token key.user :=
          h.reserved key.token key.user
        rcases hz with hz | hz
        · refine Or.inr (Balance.isZero_eq_false.mpr (Or.inl ?_))
          have hz' : table₁.free key.token key.user ≠ 0 := hz
          show table'.free key.token key.user ≠ 0
          omega
        · refine Or.inl (TokenBalance.isSome_of_row_ne_zero
            (Balance.isZero_eq_false.mpr (Or.inr ?_)))
          have hz' : table₁.reserved key.token key.user ≠ 0 := hz
          show table.reserved key.token key.user ≠ 0
          omega
      · exact Or.inr hz
    · rintro (hrow | hz)
      · exact Or.inl (Or.inl hrow)
      · exact Or.inr hz
  · rw [h'.poolRows, h.poolRows, withheldOf_append, or_assoc]
    refine or_congr_right ?_
    omega

/-- **What was posted had room**, and the rest of a batch has room afterwards if the whole of it had
room before. -/
lemma roomFor_iff (h : Posted table ps table') (qs : List Posting) :
    table'.RoomFor qs ↔ table.RoomFor (ps ++ qs) := by
  have hfree : ∀ t u, table'.free t u + credits qs t u
      = table.free t u + credits (ps ++ qs) t u := fun t u => by
    rw [h.free, credits_append, Nat.add_assoc]
  have hpool : ∀ t, table'.pool t + withheldOf qs t = table.pool t + withheldOf (ps ++ qs) t :=
    fun t => by rw [h.pool, withheldOf_append, Nat.add_assoc]
  constructor
  · exact fun hroom => ⟨fun t u => hfree t u ▸ hroom.free t u, fun t => hpool t ▸ hroom.pool t⟩
  · exact fun hroom =>
      ⟨fun t u => (hfree t u).symm ▸ hroom.free t u, fun t => (hpool t).symm ▸ hroom.pool t⟩

lemma roomFor (h : Posted table ps table') : table.RoomFor ps := by
  have hnil : table'.RoomFor [] := ⟨fun _ _ => Quantity.toNat_lt _, fun _ => Quantity.toNat_lt _⟩
  rw [h.roomFor_iff, List.append_nil] at hnil
  exact hnil

/-- Releasing a reservation touches one user. -/
lemma spares {user : UserId} {token : TokenId} {amount : Quantity}
    (h : Posted table [.unreserve user token amount] table') : table.Spares user table' := by
  intro key hkey
  have hother : ¬ (token = key.token ∧ user = key.user) := fun he => hkey he.2.symm
  have hcredit : credits [.unreserve user token amount] key.token key.user = 0 :=
    if_neg hother
  have hdebit : debits [.unreserve user token amount] key.token key.user = 0 :=
    if_neg hother
  refine TokenBalance.get_eq_of_row (h.rows key) (Balance.ext_toNat ?_ ?_)
  · have hfree := h.free key.token key.user
    rw [hcredit] at hfree
    exact hfree
  · have hreserved := h.reserved key.token key.user
    rw [hdebit] at hreserved
    exact hreserved

/-- **The batch determines the table.** -/
theorem unique {table₂ : TokenBalance} (h : Posted table ps table') (h' : Posted table qs table₂)
    (hd : ∀ t u, debits ps t u = debits qs t u) (hc : ∀ t u, credits ps t u = credits qs t u)
    (hw : ∀ t, withheldOf ps t = withheldOf qs t) : table₂ = table' := by
  have hrow : ∀ key, table₂.row key = table'.row key := by
    intro key
    refine Balance.ext_toNat ?_ ?_
    · have h1 := h.free key.token key.user
      have h2 := h'.free key.token key.user
      rw [← hc] at h2
      exact h2.trans h1.symm
    · have h1 := h.reserved key.token key.user
      have h2 := h'.reserved key.token key.user
      rw [← hd] at h2
      exact Nat.add_right_cancel (h2.trans h1.symm)
  have hbal : table₂.balances = table'.balances := by
    refine SortedMap.ext_get fun key => ?_
    have hrow' := hrow key
    have hsome : (table₂.balances.get key).isSome ↔ (table'.balances.get key).isSome := by
      rw [h.rows, h'.rows, hrow']
    rw [TokenBalance.row, TokenBalance.row] at hrow'
    exact Option.eq_of_getD_eq hsome hrow'
  have hpool : table₂.feePool.perToken = table'.feePool.perToken := by
    refine SortedMap.ext_get fun t => ?_
    have hsome : (table₂.feePool.perToken.get t).isSome ↔
        (table'.feePool.perToken.get t).isSome := by
      rw [h.poolRows, h'.poolRows, hw]
    have hp : table₂.pool t = table'.pool t := by rw [h.pool, h'.pool, hw]
    exact Option.eq_of_getD_eq hsome (Quantity.toNat_inj hp)
  obtain ⟨b₂, ⟨p₂⟩⟩ := table₂
  obtain ⟨b', ⟨p'⟩⟩ := table'
  simp only at hbal hpool
  rw [hbal, hpool]

end Posted

/-! ## The buffered operations -/

namespace BalanceWriteBack

variable {wb wb' : BalanceWriteBack}

/-- A batch is posted once its sums are right: which rows are written follows. -/
lemma Coherent.posted (h : wb.Coherent) (h' : wb'.Coherent) (hbase : wb'.balances = wb.balances)
    {ps : List Posting}
    (hres : ∀ t u, wb'.flush.reserved t u + debits ps t u = wb.flush.reserved t u)
    (hfree : ∀ t u, wb'.flush.free t u = wb.flush.free t u + credits ps t u)
    (hpool : ∀ t, wb'.flush.pool t = wb.flush.pool t + withheldOf ps t)
    (hrows : ∀ t, (wb'.feePool.perToken.get t).isSome ↔
      (wb.feePool.perToken.get t).isSome ∨ withheldOf ps t ≠ 0)
    (htotal : ∀ t, wb'.flush.total t = wb.flush.total t) : Posted wb.flush ps wb'.flush := by
  refine ⟨hres, hfree, hpool, fun key => ?_, hrows, htotal⟩
  rw [h'.rows_flush, h.rows_flush, hbase]
  constructor
  · rintro (hx | hz)
    · exact Or.inl (Or.inl hx)
    · exact Or.inr hz
  · rintro ((hx | hz) | hz)
    · exact Or.inl hx
    · rw [Balance.isZero_eq_false] at hz
      rcases hz with hz | hz
      · refine Or.inr (Balance.isZero_eq_false.mpr (Or.inl ?_))
        have hf := hfree key.token key.user
        have hz' : wb.flush.free key.token key.user ≠ 0 := hz
        show wb'.flush.free key.token key.user ≠ 0
        omega
      · left
        rw [← h.load_existed key]
        cases hx : (wb.load key).existed with
        | true => rfl
        | false =>
            rw [h.row_flush, h.load_reserved hx] at hz
            exact absurd Quantity.toNat_zero hz
    · exact Or.inr hz

/-- One unreserve. -/
lemma Coherent.unreserve_spec (h : wb.Coherent) {user : UserId} {token : TokenId}
    {amount : Quantity} (hok : wb.unreserve user token amount = .ok wb') :
    wb'.Coherent ∧ wb'.balances = wb.balances ∧
      Posted wb.flush [.unreserve user token amount] wb'.flush := by
  simp only [unreserve, modifyExisting, Except.bind_eq_ok, Except.assert_eq_ok,
    Balance.unreserve_eq_ok, Except.ok.injEq] at hok
  obtain ⟨-, hx, b, ⟨hr, hf⟩, rfl⟩ := hok
  have hb : (wb.load (.new token user)).existed = false → b.reserved = Quantity.zero := by
    intro hne
    rw [hx] at hne
    cases hne
  refine ⟨h.store hb, rfl, h.posted (h.store hb) rfl (fun t u => ?_) (fun t u => ?_)
    (fun t => rfl) (fun t => ⟨Or.inl, fun hor => hor.resolve_right fun hne => hne rfl⟩)
    (fun t => ?_)⟩
  · exact h.reserved_store hb hr t u
  · exact h.free_store hb hf t u
  · have hs := h.held_store hb hr hf t
    show _ + wb.flush.pool t = _ + wb.flush.pool t
    omega

/-- One transfer: the debit, and then the credit on what may be the same row. -/
lemma Coherent.transfer_spec (h : wb.Coherent) {debtor creditor : UserId} {token : TokenId}
    {gross fee : Quantity} (hok : wb.transfer debtor creditor token gross fee = .ok wb') :
    wb'.Coherent ∧ wb'.balances = wb.balances ∧
      Posted wb.flush [.transfer debtor creditor token gross fee] wb'.flush := by
  simp only [transfer, modifyExisting, modifyOrCreate, Except.bind_eq_ok, Except.assert_eq_ok,
    Balance.debitReserved_eq_ok, Balance.deposit_eq_ok, Except.ok.injEq] at hok
  obtain ⟨⟨net, pool⟩, hw, wb₁, ⟨-, hx, b, ⟨hr, hf⟩, rfl⟩, c, ⟨hcf, hcr⟩, rfl⟩ := hok
  replace hcf : c.free.toNat = _ + net.toNat := hcf
  obtain ⟨hnet, hpool, hrows⟩ := FeePool.of_withhold hw
  have h₀ : ({ wb with feePool := pool } : BalanceWriteBack).Coherent := ⟨h.existed, h.reserved⟩
  have hb : (({ wb with feePool := pool } : BalanceWriteBack).load (.new token debtor)).existed
      = false → b.reserved = Quantity.zero := by
    intro hne
    rw [hx] at hne
    cases hne
  have h₁ := h₀.store hb
  have hc : (BalanceWriteBack.load _ (.new token creditor)).existed = false →
      c.reserved = Quantity.zero := fun hne => hcr.trans (h₁.load_reserved hne)
  refine ⟨h₁.store hc, rfl, h.posted (h₁.store hc) rfl (fun t u => ?_) (fun t u => ?_)
    (fun t => ?_) (fun t => ?_) (fun t => ?_)⟩
  · have e₁ := h₀.reserved_store hb hr t u
    have e₂ := h₁.reserved_store hc (d := 0) (congrArg Quantity.toNat hcr) t u
    rw [ite_self, Nat.add_zero] at e₂
    rw [e₂]
    exact e₁
  · have e₁ := h₀.free_store hb (c := 0) (congrArg Quantity.toNat hf) t u
    have e₂ := h₁.free_store hc hcf t u
    rw [ite_self, Nat.add_zero] at e₁
    rw [e₂, e₁, show net.toNat = gross.toNat - fee.toNat by omega]
    rfl
  · exact hpool t
  · exact hrows t
  · have e₁ := h₀.held_store hb (c := 0) hr (congrArg Quantity.toNat hf) t
    have e₂ := h₁.held_store hc (d := 0) (congrArg Quantity.toNat hcr) hcf t
    have e₀ : ({ wb with feePool := pool } : BalanceWriteBack).flush.userTotal t
        = wb.flush.userTotal t := rfl
    have e₃ := hpool t
    show _ + ((pool.perToken.get t).getD Quantity.zero).toNat
      = _ + ((wb.feePool.perToken.get t).getD Quantity.zero).toNat
    split_ifs at e₁ e₂ e₃ <;> omega

/-! When a posting traps. -/

/-- A covered unreserve traps only if the row has no room. -/
lemma Coherent.unreserve_outcome (h : wb.Coherent) {user : UserId} {token : TokenId}
    {amount : Quantity} (hpos : 0 < amount.toNat)
    (hle : amount.toNat ≤ wb.flush.reserved token user) :
    (wb.unreserve user token amount).Outcome
      (wb.flush.Exceeds [.unreserve user token amount]) fun _ => True := by
  have hx := h.existed_of_reserved (lt_of_lt_of_le hpos hle)
  have hrow := wb.flush.row_le_userTotal token user
  rw [h.reserved_flush] at hle hrow
  rw [h.free_flush] at hrow
  obtain ⟨reserved, hsub, -⟩ := Quantity.checkedSub_of_le hle
  cases hadd : (wb.load (.new token user)).balance.free.checkedAdd amount with
  | none =>
      have hbig := Quantity.checkedAdd_eq_none.mp hadd
      simp only [unreserve, modifyExisting, hx, Except.assert_true, Except.bind_ok,
        Balance.unreserve, hsub, Except.expect_some, hadd, Except.expect_none, Except.bind_error,
        Except.outcome_error]
      refine ⟨.unreserve, fun hroom => ?_, token, ?_⟩
      · have hfree := hroom.free token user
        rw [h.free_flush, credits, List.map_singleton, List.sum_singleton, Posting.credit,
          if_pos ⟨rfl, rfl⟩] at hfree
        omega
      · rw [TokenBalance.total]
        omega
  | some free =>
      simp only [unreserve, modifyExisting, hx, Except.assert_true, Except.bind_ok,
        Balance.unreserve, hsub, Except.expect_some, hadd, Except.outcome_ok]

/-- A covered transfer traps only if the creditor's row or the fee pool has no room. -/
lemma Coherent.transfer_outcome (h : wb.Coherent) {debtor creditor : UserId} {token : TokenId}
    {gross fee : Quantity} (hpos : 0 < gross.toNat) (hfee : fee.toNat ≤ gross.toNat)
    (hle : gross.toNat ≤ wb.flush.reserved token debtor) :
    (wb.transfer debtor creditor token gross fee).Outcome
      (wb.flush.Exceeds [.transfer debtor creditor token gross fee]) fun _ => True := by
  have hrow := wb.flush.row_le_userTotal token debtor
  rw [transfer]
  -- The fee fits, or the pool has no room for it.
  have hwith : (wb.feePool.withhold token gross fee).Outcome
      (wb.flush.Exceeds [.transfer debtor creditor token gross fee])
      fun r => wb.feePool.withhold token gross fee = .ok r := by
    obtain ⟨net, hsub, -⟩ := Quantity.checkedSub_of_le hfee
    simp only [FeePool.withhold, hsub, Except.expect_some, Except.bind_ok]
    split_ifs with hz
    · exact rfl
    · cases hadd : ((wb.feePool.perToken.get token).getD Quantity.zero).checkedAdd fee with
      | none =>
          have hbig := Quantity.checkedAdd_eq_none.mp hadd
          have hp : wb.flush.pool token
              = ((wb.feePool.perToken.get token).getD Quantity.zero).toNat := rfl
          simp only [Except.expect_none, Except.bind_error, Except.outcome_error]
          refine ⟨.fee, fun hroom => ?_, token, ?_⟩
          · have hpool := hroom.pool token
            rw [withheldOf, List.map_singleton, List.sum_singleton, Posting.withheld, if_pos rfl]
              at hpool
            omega
          · rw [TokenBalance.total]
            omega
      | some accrued => simp only [Except.expect_some, Except.bind_ok, Except.outcome_ok]
  refine hwith.bind ?_
  rintro ⟨net, pool⟩ hw
  obtain ⟨hnet, -, -⟩ := FeePool.of_withhold hw
  have h₀ : ({ wb with feePool := pool } : BalanceWriteBack).Coherent := ⟨h.existed, h.reserved⟩
  have hx := h.existed_of_reserved (lt_of_lt_of_le hpos hle)
  rw [h.reserved_flush] at hle
  obtain ⟨reserved, hsub, hr⟩ := Quantity.checkedSub_of_le hle
  let b : Balance := { (wb.load (.new token debtor)).balance with reserved }
  have hb : (({ wb with feePool := pool } : BalanceWriteBack).load (.new token debtor)).existed
      = false → b.reserved = Quantity.zero := by
    intro hne
    have hx' : (wb.load (.new token debtor)).existed = false := hne
    rw [hx] at hx'
    cases hx'
  have h₁ := h₀.store hb
  have hdebit : ({ wb with feePool := pool } : BalanceWriteBack).modifyExisting
      (.new token debtor) .debtorBalanceMissing (·.debitReserved gross)
      = .ok (BalanceWriteBack.store { wb with feePool := pool } (.new token debtor) b) := by
    have hx' : (({ wb with feePool := pool } : BalanceWriteBack).load
        (.new token debtor)).existed = true := hx
    have hsub' : (({ wb with feePool := pool } : BalanceWriteBack).load
        (.new token debtor)).balance.reserved.checkedSub gross = some reserved := hsub
    simp only [modifyExisting, hx', Except.assert_true, Except.bind_ok, Balance.debitReserved,
      hsub', Except.expect_some]
    rfl
  have hheld := h₀.held_store hb (c := 0) (d := gross.toNat) hr rfl token
  rw [if_pos rfl, if_pos rfl, Nat.add_zero] at hheld
  have hkept := h₀.free_store hb (c := 0) rfl token creditor
  rw [ite_self, Nat.add_zero] at hkept
  have hkept₀ : ({ wb with feePool := pool } : BalanceWriteBack).flush.free token creditor
      = wb.flush.free token creditor := rfl
  have e₀ : ({ wb with feePool := pool } : BalanceWriteBack).flush.userTotal token
      = wb.flush.userTotal token := rfl
  simp only [hdebit, Except.bind_ok, modifyOrCreate, Balance.deposit]
  generalize BalanceWriteBack.store { wb with feePool := pool } (.new token debtor) b = wb₁
    at h₁ hheld hkept
  have hrow₁ := wb₁.flush.row_le_userTotal token creditor
  rw [h₁.free_flush] at hrow₁
  cases hadd : (wb₁.load (.new token creditor)).balance.free.checkedAdd net with
  | none =>
      have hbig := Quantity.checkedAdd_eq_none.mp hadd
      simp only [Except.expect_none, Except.bind_error, Except.outcome_error]
      refine ⟨.deposit, fun hroom => ?_, token, ?_⟩
      · have hfree := hroom.free token creditor
        rw [h₁.free_flush, hkept₀] at hkept
        rw [credits, List.map_singleton, List.sum_singleton, Posting.credit, if_pos ⟨rfl, rfl⟩]
          at hfree
        omega
      · rw [TokenBalance.total]
        omega
  | some free => simp only [Except.expect_some, Except.bind_ok, Except.outcome_ok]

/-- One posting. -/
lemma Coherent.post_spec (h : wb.Coherent) {p : Posting} (hok : wb.post p = .ok wb') :
    wb'.Coherent ∧ wb'.balances = wb.balances ∧ Posted wb.flush [p] wb'.flush := by
  cases p with
  | transfer debtor creditor token gross fee => exact h.transfer_spec hok
  | unreserve user token amount => exact h.unreserve_spec hok

/-- A batch of postings, by induction on the batch. -/
lemma Coherent.postAll_spec :
    ∀ {ps : List Posting} {wb : BalanceWriteBack}, wb.Coherent → ps.foldlM post wb = .ok wb' →
      Posted wb.flush ps wb'.flush
  | [], wb, _, hok => by
      rw [List.foldlM_nil, Except.pure_eq_ok] at hok
      rw [hok]
      exact Posted.refl _
  | p :: ps, wb, h, hok => by
      rw [List.foldlM_cons, Except.bind_eq_ok] at hok
      obtain ⟨wb₁, hp, hps⟩ := hok
      obtain ⟨h₁, -, hposted⟩ := h.post_spec hp
      exact hposted.trans (h₁.postAll_spec hps)

lemma Coherent.post_outcome (h : wb.Coherent) {p : Posting} (hsane : p.Sane)
    (hle : ∀ t u, p.debit t u ≤ wb.flush.reserved t u) :
    (wb.post p).Outcome (wb.flush.Exceeds [p]) fun wb' => wb.post p = .ok wb' := by
  have hok : ∀ {E : Trap → Prop}, (wb.post p).Outcome E (fun _ => True) →
      (wb.post p).Outcome E fun wb' => wb.post p = .ok wb' := by
    intro E hE
    cases hw : wb.post p with
    | ok wb' => exact rfl
    | error e =>
        rw [hw] at hE
        exact hE
  refine hok ?_
  cases p with
  | transfer debtor creditor token gross fee =>
      have hle' := hle token debtor
      rw [Posting.debit, if_pos ⟨rfl, rfl⟩] at hle'
      exact h.transfer_outcome hsane.1 hsane.2 hle'
  | unreserve user token amount =>
      have hle' := hle token user
      rw [Posting.debit, if_pos ⟨rfl, rfl⟩] at hle'
      exact h.unreserve_outcome hsane hle'

/-- **When a batch traps**: if every debit is covered, only when there is no room for it. -/
theorem Coherent.postAll_outcome :
    ∀ {ps : List Posting} {wb : BalanceWriteBack}, wb.Coherent → (∀ p ∈ ps, p.Sane) →
      (∀ t u, debits ps t u ≤ wb.flush.reserved t u) →
      (ps.foldlM post wb).Outcome (wb.flush.Exceeds ps)
        fun wb' => Posted wb.flush ps wb'.flush
  | [], wb, _, _, _ => by
      rw [List.foldlM_nil, Except.outcome_pure]
      exact Posted.refl _
  | p :: ps, wb, h, hsane, hle => by
      have hsum : ∀ t u, debits (p :: ps) t u = p.debit t u + debits ps t u := fun t u => by
        rw [debits, List.map_cons, List.sum_cons]
        rfl
      rw [List.foldlM_cons]
      have hone := h.post_outcome (hsane p List.mem_cons_self) fun t u => by
        have := hle t u
        rw [hsum] at this
        omega
      have hone' : (wb.post p).Outcome (wb.flush.Exceeds (p :: ps))
          fun wb' => wb.post p = .ok wb' :=
        hone.mono (fun e he => ⟨he.1, fun hroom => he.2.1 (TokenBalance.RoomFor.of_append
          (show wb.flush.RoomFor ([p] ++ ps) from hroom)), he.2.2⟩) fun _ => id
      refine hone'.bind fun wb₁ hwb₁ => ?_
      obtain ⟨h₁, -, hposted⟩ := h.post_spec hwb₁
      refine (h₁.postAll_outcome (fun q hq => hsane q (List.mem_cons_of_mem _ hq))
        fun t u => ?_).mono (fun e he => ⟨he.1, fun hroom => he.2.1 ?_, ?_⟩)
        fun wb' hps => hposted.trans hps
      · have hr := hposted.reserved t u
        have := hle t u
        rw [hsum] at this
        rw [debits, List.map_singleton, List.sum_singleton] at hr
        omega
      · exact (hposted.roomFor_iff _).mpr hroom
      · obtain ⟨t, ht⟩ := he.2.2
        exact ⟨t, hposted.total t ▸ ht⟩

end BalanceWriteBack

end OisyTrade
