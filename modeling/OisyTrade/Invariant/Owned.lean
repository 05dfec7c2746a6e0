import OisyTrade.Invariant.Settling
import OisyTrade.Invariant.Reach

/-!
# Rows and grants

`Owned s` says that every balance row belongs to a registered user and that no principal that cannot
authenticate is a trading account.  Rows come from deposits, which register the user, and from
settling, which credits the owners of orders on record.
-/

namespace OisyTrade

/-- Setting one row adds at most that row. -/
lemma RowSet.mem {table table' : TokenBalance} {t : TokenId} {u : UserId} {b : Balance}
    (h : RowSet table t u b table') {key : BalanceKey} (hkey : (table'.balances.get key).isSome) :
    (table.balances.get key).isSome ∨ key.user = u := by
  by_cases hu : key.user = u
  · exact Or.inr hu
  · rw [h.spares key hu] at hkey
    exact Or.inl hkey

namespace State

variable {s s' : State} {bookId : OrderBookId} {pair : TradingPair}

/-- Some principal is registered under the id. -/
def Registered (s : State) (u : UserId) : Prop := ∃ p, s.userRegistry.fundingId p = some u

lemma Registered.mono {u : UserId} (h : s.Registered u) (hx : s.Extends s') : s'.Registered u := by
  obtain ⟨p, hp⟩ := h
  exact ⟨p, hx.registry _ _ hp⟩

/-- **Rows belong to registered users, and grants to principals that can authenticate.** -/
structure Owned (s : State) : Prop where
  rows : ∀ key, (s.balances.balances.get key).isSome → s.Registered key.user
  grants : ∀ p grant, s.userRegistry.tradingAccounts.get p = some grant →
    p ≠ .anonymous ∧ p ≠ .managementCanister

/-- The rule for changes that keep the registry and add rows of registered users. -/
lemma Owned.of_rows (h : s.Owned) (hx : s.Extends s')
    (hregistry : s'.userRegistry.tradingAccounts = s.userRegistry.tradingAccounts)
    (hrows : ∀ key, (s'.balances.balances.get key).isSome →
      (s.balances.balances.get key).isSome ∨ s'.Registered key.user) : s'.Owned := by
  refine ⟨fun key hkey => ?_, fun p grant hp => ?_⟩
  · rcases hrows key hkey with hold | hreg
    · exact (h.rows key hold).mono hx
    · exact hreg
  · rw [hregistry] at hp
    exact h.grants p grant hp

/-- The user that an operation credits. -/
lemma credit_posting_eq_zero {op : BalanceOperation} {u : UserId}
    (h : ∀ seq ∈ op.seqs, s.party bookId seq ≠ u) (t : TokenId) :
    (s.posting bookId pair op).credit t u = 0 := by
  cases op with
  | transfer fromOrder toOrder token amount fee =>
      exact if_neg fun hx => h toOrder (by simp [BalanceOperation.seqs]) hx.2
  | unreserve order token amount =>
      exact if_neg fun hx => h order (by simp [BalanceOperation.seqs]) hx.2

lemma credits_eq_zero {ops : List BalanceOperation} {u : UserId}
    (h : ∀ op ∈ ops, ∀ seq ∈ op.seqs, s.party bookId seq ≠ u) (t : TokenId) :
    credits (s.postings bookId pair ops) t u = 0 := by
  rw [credits, List.sum_eq_zero_iff]
  intro n hn
  obtain ⟨p, hp, rfl⟩ := List.mem_map.mp hn
  obtain ⟨op, hop, rfl⟩ := List.mem_map.mp hp
  exact credit_posting_eq_zero (h op hop) t

/-- **Settling credits registered users only.** -/
lemma Settled.rows {queue : List SettlingEvent} {now : Timestamp} {scale : BaseScale}
    {pieces : List Piece} (h : s.Settled queue bookId now pair scale pieces s') (hs : s.Sound)
    {key : BalanceKey} (hkey : (s'.balances.balances.get key).isSome) :
    (s.balances.balances.get key).isSome ∨ s.Registered key.user := by
  rcases (h.posted.rows key).mp hkey with hold | hrow
  · exact Or.inl hold
  by_cases hparty : ∀ op ∈ pieces.flatMap Piece.ops, ∀ seq ∈ op.seqs,
      s.party bookId seq ≠ key.user
  · -- Nothing is credited, so the row was there before.
    refine Or.inl ?_
    cases hget : s.balances.balances.get key with
    | some b => rfl
    | none =>
        have hzero : s.balances.row key = Balance.zero := by rw [TokenBalance.row, hget]; rfl
        have hfree := h.posted.free key.token key.user
        have hres := h.posted.reserved key.token key.user
        rw [credits_eq_zero hparty] at hfree
        rw [TokenBalance.free, TokenBalance.free, BalanceKey.new_eta, hzero] at hfree
        rw [TokenBalance.reserved, TokenBalance.reserved, BalanceKey.new_eta, hzero] at hres
        have hz : (Balance.zero).free.toNat = 0 := Quantity.toNat_zero
        have hz' : (Balance.zero).reserved.toNat = 0 := Quantity.toNat_zero
        have hx : (s'.balances.row key).isZero = true := by
          rw [Balance.isZero, Bool.and_eq_true, Quantity.isZero_iff, Quantity.isZero_iff]
          omega
        rw [hx] at hrow
        cases hrow
  · push Not at hparty
    obtain ⟨op, hop, seq, hseq, hp⟩ := hparty
    obtain ⟨r, uid, hr, hu⟩ := (opOk_of_pieces hs h.agrees op hop).known seq hseq
    rw [State.party_eq hr hu] at hp
    exact Or.inr ⟨r.owner, by rw [← hp]; exact hu⟩

end State

/-- **Every change keeps rows and grants owned.** -/
theorem Canister.Change.owned {c c' : Canister} (hs : c.state.Sound) (ho : c.state.Owned)
    (h : c.Change c') : c'.state.Owned := by
  obtain ⟨-, hx⟩ := h.sound hs
  cases h with
  | listed event timestamp hadmits hok =>
      obtain ⟨_, -, -, -, -, -, -, -, hstate⟩ := State.recordTradingPair_eq_ok hok
      refine ho.of_rows hx (by rw [hstate]) fun key hkey => Or.inl ?_
      rw [hstate] at hkey
      exact hkey
  | placed event timestamp order b b' pair scale uid required _ _ h =>
      refine ho.of_rows hx (by rw [h.state]) fun key hkey => ?_
      rcases c.state.balances.reserve_spec uid (pair.token (reserveToken order.side)) required with
        ⟨-, e, he⟩ | ⟨he, -⟩ | ⟨table, b, he, hrow, -⟩
      · rw [h.reserve] at he
        cases he
      · rw [h.reserve] at he
        cases he
      · rw [h.reserve] at he
        cases he
        refine (hrow.mem hkey).imp_right fun hu => ⟨event.user, ?_⟩
        rw [hu]
        exact hx.registry _ _ h.owner
  | canceled _ _ _ _ _ _ _ _ _ _ _ h =>
      refine ho.of_rows hx (by rw [h.state]) fun key hkey => Or.inl ?_
      rw [h.state] at hkey
      exact hkey
  | matched _ _ _ _ _ _ _ _ _ _ _ _ _ _ h =>
      refine ho.of_rows hx (by rw [h.state]) fun key hkey => Or.inl ?_
      rw [h.state] at hkey
      exact hkey
  | settled before after event _ _ _ _ _ _ _ h =>
      exact ho.of_rows hx (by rw [h.state]) fun key hkey =>
        (h.rows hs hkey).imp_right fun hreg => hreg.mono hx
  | credited user token amount huser hok =>
      obtain ⟨uid, registry, balances, hreg, hdep, hstate⟩ := State.deposit_eq_ok hok
      obtain ⟨b, hrow, -⟩ := TokenBalance.deposit_spec hdep
      obtain ⟨-, -, hid⟩ := hs.registry.getOrRegister huser hreg
      refine ho.of_rows hx ?_ fun key hkey => ?_
      · rw [hstate]
        exact (UserRegistry.getOrRegister_eq_ok hreg).1
      · rw [hstate] at hkey
        refine (hrow.mem hkey).imp_right fun hu => ⟨user, ?_⟩
        rw [hstate, hu]
        exact hid
  | debited user token amount hok =>
      obtain ⟨uid, balances, hu, hwd, hstate⟩ := State.withdraw_eq_ok hok
      refine ho.of_rows hx (by rw [hstate]) fun key hkey => ?_
      rw [hstate] at hkey
      rcases c.state.balances.withdraw_spec uid token amount with ⟨-, e, he⟩ | ⟨table, b, he, hrow, -⟩
      · rw [hwd] at he
        cases he
      · rw [hwd] at he
        cases he
        refine (hrow.mem hkey).imp_right fun hk => ⟨user, ?_⟩
        rw [hk]
        exact hx.registry _ _ hu
  | frame h =>
      refine ⟨fun key hkey => ?_, fun p grant hp => ?_⟩
      · rw [h.balances] at hkey
        exact (ho.rows key hkey).mono hx
      · rcases h.grants p grant hp with hold | hnew
        · exact ho.grants p grant hold
        · exact hnew

theorem World.Reachable.owned {w : World} (h : w.Reachable) : w.canister.state.Owned := by
  refine h.invariant (P := fun c => c.state.Owned) (fun arg rt c hinit => ?_)
    fun c c' hs ho hchange => hchange.owned hs ho
  obtain ⟨-, -, -, -, hbal, -, -, hreg, -⟩ := Canister.init_eq_ok hinit
  refine ⟨fun key hkey => ?_, fun p grant hp => ?_⟩
  · rw [hbal] at hkey
    cases hkey
  · rw [hreg] at hp
    cases hp

end OisyTrade
