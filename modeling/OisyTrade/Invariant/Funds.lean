import OisyTrade.Invariant.Reserve

/-!
# What moves funds

The total of a token changes only when something is paid in or paid out.  Of the events these are
deposits and withdrawals; an order reserves, a cancel and a settlement shift what is there.  Of the
acts these are the debit and the credits around a ledger call, so work keeps every total
(`Works.total`), and so does an upgrade.
-/

namespace OisyTrade

/-! ## Rows -/

/-- What a change of one row adds to the totals. -/
lemma RowSet.total_add {table table' : TokenBalance} {t : TokenId} {u : UserId} {b : Balance}
    (h : RowSet table t u b table') {gained lost : ℕ}
    (hrow : b.free.toNat + b.reserved.toNat + lost = table.free t u + table.reserved t u + gained)
    (t' : TokenId) : table'.total t' + (if t = t' then lost else 0)
      = table.total t' + if t = t' then gained else 0 := by
  have htotal := h.total t'
  -- The totals are made opaque, so that no procedure looks into them.
  generalize table'.total t' = total' at htotal ⊢
  generalize table.total t' = total at htotal ⊢
  generalize table.free t u + table.reserved t u = held at hrow htotal
  generalize b.free.toNat + b.reserved.toNat = held' at hrow htotal
  split_ifs at htotal ⊢ <;> omega

namespace TokenBalance

variable {table table' : TokenBalance} {uid : UserId} {token : TokenId} {amount : Quantity}

lemma total_empty (t : TokenId) : TokenBalance.empty.total t = 0 :=
  (Nat.zero_add _).trans Quantity.toNat_zero

lemma total_deposit (h : table.deposit uid token amount = .ok table') (t : TokenId) :
    table'.total t = table.total t + if token = t then amount.toNat else 0 := by
  obtain ⟨b, hrow, hfree, hreserved⟩ := table.deposit_spec h
  have htotal := @RowSet.total_add _ _ _ _ _ hrow amount.toNat 0
    (by rw [hfree, hreserved, Nat.add_zero, Nat.add_right_comm]) t
  rwa [ite_self, Nat.add_zero] at htotal

/-- What a debit did to the row. -/
lemma withdraw_eq_ok (h : table.withdraw uid token amount = .ok (.ok (), table')) :
    ∃ b, RowSet table token uid b table' ∧ b.free.toNat + amount.toNat = table.free token uid ∧
      b.reserved.toNat = table.reserved token uid := by
  rcases table.withdraw_spec uid token amount with ⟨-, e, he⟩ | ⟨table₁, b, he, hrow⟩
  · rw [h] at he
    cases he
  · rw [h] at he
    cases he
    exact ⟨b, hrow⟩

lemma total_withdraw (h : table.withdraw uid token amount = .ok (.ok (), table')) (t : TokenId) :
    table'.total t + (if token = t then amount.toNat else 0) = table.total t := by
  obtain ⟨b, hrow, hfree, hreserved⟩ := withdraw_eq_ok h
  have htotal := @RowSet.total_add _ _ _ _ _ hrow 0 amount.toNat
    (by rw [← hfree, hreserved, Nat.add_right_comm, Nat.add_zero]) t
  rwa [ite_self, Nat.add_zero] at htotal

lemma total_reserve (h : table.reserve uid token amount = .ok (.ok (), table')) (t : TokenId) :
    table'.total t = table.total t := by
  rcases table.reserve_spec uid token amount with ⟨-, e, he⟩ | ⟨he, -⟩ |
    ⟨table₁, b, he, hrow, hfree, hreserved⟩
  · rw [h] at he
    cases he
  · rw [h] at he
    cases he
  · rw [h] at he
    cases he
    have htotal := @RowSet.total_add _ _ _ _ _ hrow 0 0
      (by rw [← hfree, hreserved, Nat.add_zero, Nat.add_zero, Nat.add_assoc,
        Nat.add_comm (table.reserved token uid)]) t
    rwa [ite_self, Nat.add_zero, Nat.add_zero] at htotal

end TokenBalance

/-! ## Events -/

/-- What an event pays into a token. -/
def EventType.paidIn : EventType → TokenId → ℕ
  | .deposit event, t => if event.token = t then event.amount.toNat else 0
  | _, _ => 0

/-- What an event pays out of a token. -/
def EventType.paidOut : EventType → TokenId → ℕ
  | .withdraw event, t => if event.token = t then event.amount.toNat else 0
  | _, _ => 0

/-- **An event changes the totals by what it pays in and out.** -/
theorem State.total_transition {s s' : State} {payload : EventType} {timestamp : Timestamp}
    (h : s.applyStateTransition payload timestamp .write = .ok s') (t : TokenId) :
    s'.balances.total t + payload.paidOut t = s.balances.total t + payload.paidIn t := by
  cases payload with
  | init arg => cases h
  | upgrade arg =>
      obtain ⟨policy, rfl⟩ := applyUpgrade_eq_ok h
      rfl
  | addTradingPair event =>
      obtain ⟨_, -, -, -, -, -, -, -, rfl⟩ := recordTradingPair_eq_ok h
      rfl
  | deposit event =>
      obtain ⟨_, _, balances, -, hdeposit, rfl⟩ := deposit_eq_ok h
      show balances.total t + 0 = s.balances.total t + if event.token = t then _ else 0
      rw [Nat.add_zero]
      exact TokenBalance.total_deposit hdeposit t
  | addLimitOrder event =>
      obtain ⟨_, _, _, _, _, balances, _, _, -, -, -, -, hreserve, -, -, rfl⟩ :=
        recordLimitOrder_eq_ok h
      show balances.total t + 0 = s.balances.total t + 0
      rw [Nat.add_zero, Nat.add_zero]
      exact TokenBalance.total_reserve hreserve t
  | settling event =>
      obtain ⟨_, _, _, _, balances, -, -, -, hposted, rfl⟩ := recordSettlingEvent_eq_ok h
      show balances.total t + 0 = s.balances.total t + 0
      rw [Nat.add_zero, Nat.add_zero]
      exact hposted.total t
  | matching event =>
      obtain ⟨_, _, _, _, _, _, _, -, -, -, -, -, rfl⟩ := recordMatchingEvent_eq_ok h
      rfl
  | withdraw event =>
      simp only [applyStateTransition, Except.bind_eq_ok] at h
      obtain ⟨r, hr, h⟩ := h
      cases r with
      | error e => cases h
      | ok s₁ =>
          cases h
          obtain ⟨_, balances, -, hwithdraw, rfl⟩ := State.withdraw_eq_ok hr
          show balances.total t + (if event.token = t then _ else 0) = s.balances.total t + 0
          rw [Nat.add_zero]
          exact TokenBalance.total_withdraw hwithdraw t
  | cancelLimitOrder event =>
      obtain ⟨_, _, _, _, _, _, _, -, -, -, -, -, rfl⟩ := recordCancelLimitOrder_eq_ok h
      rfl
  | setHalt event =>
      cases h
      rfl
  | addTradingAccount event =>
      simp only [applyStateTransition, recordAddTradingAccount, Except.bind_eq_ok,
        Except.ok.injEq] at h
      obtain ⟨_, -, rfl⟩ := h
      rfl
  | removeTradingAccount event =>
      simp only [applyStateTransition, recordRemoveTradingAccount, Except.bind_eq_ok,
        Except.ok.injEq] at h
      obtain ⟨_, -, rfl⟩ := h
      rfl

/-! ## Messages -/

namespace Canister

variable {c c' : Canister} {rt : Runtime}

/-- The total of a token. -/
def total (c : Canister) (t : TokenId) : ℕ := c.state.balances.total t

lemma total_withGuards (c : Canister) (ops : SortedSet UserOpKey) (t : TokenId) :
    (c.withGuards ops).total t = c.total t := by
  rw [total, total]
  rfl

lemma total_dropUserOp (c : Canister) (caller : Principal) (token : TokenId) (t : TokenId) :
    (c.dropUserOp caller token).total t = c.total t := c.total_withGuards _ t

lemma total_processEvent {payload : EventType} {timestamp : Timestamp}
    (h : c.processEvent payload timestamp = .ok c') (t : TokenId) :
    c'.total t + payload.paidOut t = c.total t + payload.paidIn t := by
  obtain ⟨s, hs, rfl⟩ := processEvent_eq_ok h
  exact State.total_transition hs t

/-- **Work keeps every total.** -/
lemma Work.total (h : c.Work c') (t : TokenId) : c'.total t = c.total t := by
  cases h with
  | @event payload timestamp _ hadmits hinner hok =>
      have htotal := total_processEvent hok t
      have hin : payload.paidIn t = 0 := by
        cases payload with
        | deposit event => exact absurd rfl (hinner event)
        | _ => rfl
      have hout : payload.paidOut t = 0 := by
        cases payload with
        | withdraw event => exact hadmits.elim
        | _ => rfl
      rwa [hin, hout, Nat.add_zero, Nat.add_zero] at htotal
  | settle hqueue hfront hok =>
      have htotal : c'.total t + 0 = (c.withQueue _).total t + 0 := total_processEvent hok t
      rw [Nat.add_zero, Nat.add_zero] at htotal
      exact htotal
  | note hsame => rw [Canister.total, hsame.eq, Canister.total]

lemma Works.total (h : c.Works c') (t : TokenId) : c'.total t = c.total t := by
  induction h with
  | refl => rfl
  | tail _ hwork ih => exact (hwork.total t).trans ih

lemma upgrade_total {arg : Option OisyTradeArg} (hs : c.state.Sound)
    (h : c.upgrade rt arg = .ok c') (t : TokenId) : c'.total t = c.total t := by
  obtain ⟨c₁, rfl, rfl | ⟨arg, hproc⟩⟩ := upgrade_eq_ok hs h
  · rfl
  · have htotal : c'.total t + 0 = Canister.total _ t + 0 := total_processEvent hproc t
    rw [Nat.add_zero, Nat.add_zero] at htotal
    exact htotal

end Canister

/-- **No message moves funds into or out of the canister.** -/
theorem Message.run_total {m : Message} {rt : Runtime} {c c' : Canister} (h : m.run rt c = .ok c')
    (t : TokenId) : c'.total t = c.total t := (Message.run_works h).total t

end OisyTrade
