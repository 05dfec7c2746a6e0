import OisyTrade.World

/-!
# What the steps of a deposit or withdrawal did

For each synchronous part of `deposit` and `withdraw`, what is known once it has returned.  A start
that is refused leaves the canister as it was, the guard it may have taken included.  A start that
goes on has taken the guard, and a withdrawal has debited its amount.  A continuation logs, credits
or does nothing, and releases the guard.
-/

namespace OisyTrade

/-- The key that guards the operations of a caller on a token. -/
def userOpKey (caller : Principal) (token : TokenId) : UserOpKey := toLex (caller, token)

namespace Canister

variable {c c' : Canister} {rt : Runtime} {caller : Principal} {token : TokenId}

/-- The canister with another set of guards. -/
def withGuards (c : Canister) (ops : SortedSet UserOpKey) : Canister :=
  { c with state := { c.state with inFlightUserOps := ops } }

lemma guardUserOp_eq_some (h : c.guardUserOp caller token = some c') :
    c.state.inFlightUserOps.get (userOpKey caller token) = none ∧
      c' = c.withGuards (c.state.inFlightUserOps.insert (userOpKey caller token) ()) := by
  rw [guardUserOp] at h
  simp only at h
  split_ifs at h with hc
  cases h
  refine ⟨?_, rfl⟩
  rw [Bool.not_eq_true, SortedMap.contains, Option.isSome_eq_false_iff,
    Option.isNone_iff_eq_none] at hc
  exact hc

lemma dropUserOp_eq (c : Canister) (caller : Principal) (token : TokenId) :
    c.dropUserOp caller token
      = c.withGuards (c.state.inFlightUserOps.erase (userOpKey caller token)) := rfl

/-- Taking a guard and releasing it again. -/
lemma dropUserOp_guardUserOp (h : c.guardUserOp caller token = some c') :
    c'.dropUserOp caller token = c := by
  obtain ⟨hnone, rfl⟩ := guardUserOp_eq_some h
  rw [dropUserOp_eq, withGuards, withGuards]
  simp only [SortedMap.erase_insert_self _ _ hnone]

lemma isTradingAccount_eq_false (h : c.isTradingAccount caller = .ok false) :
    c.state.userRegistry.tradingAccounts.get caller = none := by
  simp only [isTradingAccount, Except.bind_eq_ok] at h
  obtain ⟨a, ha, h⟩ := h
  have haccount := UserRegistry.lookup_eq_ok ha
  cases hg : c.state.userRegistry.tradingAccounts.get caller with
  | none => rfl
  | some grant =>
      rw [UserRegistry.account, hg] at haccount
      subst haccount
      cases h

/-! ## Deposits -/

/-- **The start of a deposit** refuses and does nothing, or it goes on to the ledger: then the caller
is no trading account, its balance can take the amount, and it holds the guard. -/
lemma depositStart_eq_ok {n : ℕ} {result : Except DepositError Quantity}
    (h : c.depositStart rt token n = .ok (result, c')) :
    (∃ e, result = .error e ∧ c' = c) ∨
    (∃ amount balance, result = .ok amount ∧ Quantity.tryFrom n = some amount ∧
      c.state.userRegistry.tradingAccounts.get rt.msgCaller = none ∧
      c.state.inFlightUserOps.get (userOpKey rt.msgCaller token) = none ∧
      c.state.getBalance rt.msgCaller token = .ok balance ∧ fitsBalance balance amount = true ∧
      c' = c.withGuards (c.state.inFlightUserOps.insert (userOpKey rt.msgCaller token) ())) := by
  have hdone : ∀ {e : DepositError}, (Except.ok (.error e, c) :
      Except Trap (Except DepositError Quantity × Canister)) = .ok (result, c') →
      ∃ e, result = .error e ∧ c' = c := by
    intro e he
    simp only [Except.ok.injEq, Prod.mk.injEq] at he
    exact ⟨e, he.1.symm, he.2.symm⟩
  simp only [depositStart, Except.bind_eq_ok] at h
  obtain ⟨-, -, h⟩ := h
  cases hq : Quantity.tryFrom n with
  | none =>
      rw [hq] at h
      exact Or.inl (hdone h)
  | some amount =>
      simp only [hq] at h
      by_cases hk : (!c.state.isKnownToken token) = true
      · rw [if_pos hk] at h
        exact Or.inl (hdone h)
      · simp only [if_neg hk, Except.bind_eq_ok] at h
        obtain ⟨trading, htrading, h⟩ := h
        cases trading with
        | true =>
            simp only [Permissions.permitDeposit, if_true] at h
            exact Or.inl (hdone h)
        | false =>
            simp only [Permissions.permitDeposit, Bool.false_eq_true, if_false] at h
            cases hg : c.guardUserOp rt.msgCaller token with
            | none =>
                rw [hg] at h
                exact Or.inl (hdone h)
            | some guarded =>
                simp only [hg, Except.bind_eq_ok] at h
                obtain ⟨balance, hbal, h⟩ := h
                obtain ⟨hnone, hguarded⟩ := guardUserOp_eq_some hg
                split_ifs at h with hfits
                · simp only [Except.ok.injEq, Prod.mk.injEq] at h
                  obtain ⟨rfl, rfl⟩ := h
                  subst hguarded
                  exact Or.inr ⟨amount, balance, rfl, rfl, isTradingAccount_eq_false htrading, hnone,
                    hbal, hfits, rfl⟩
                · rw [dropUserOp_guardUserOp hg] at h
                  exact Or.inl (hdone h)

/-- **The end of a deposit** releases the guard, and logs and credits what the ledger moved. -/
lemma depositFinish_eq_ok {amount : Quantity} {reply : LedgerReply} {result : Except DepositError ℕ}
    (h : c.depositFinish rt caller token amount reply = .ok (result, c')) :
    (∃ e, depositReply token reply = .error e ∧ result = .error e ∧
      c' = c.dropUserOp caller token) ∨
    (∃ blockIndex c₁, reply = .ok blockIndex ∧ result = .ok blockIndex ∧
      c.processEvent (.deposit { user := caller, token, amount }) rt.time = .ok c₁ ∧
      c' = c₁.dropUserOp caller token) := by
  rw [depositFinish] at h
  cases hr : depositReply token reply with
  | error e =>
      simp only [hr, Except.ok.injEq, Prod.mk.injEq] at h
      exact Or.inl ⟨e, rfl, h.1.symm, h.2.symm⟩
  | ok blockIndex =>
      simp only [hr, Except.bind_eq_ok, Except.ok.injEq, Prod.mk.injEq] at h
      obtain ⟨c₁, hproc, hres, hc⟩ := h
      have hreply : reply = .ok blockIndex := by
        cases reply <;> simp only [depositReply] at hr <;> cases hr
        rfl
      exact Or.inr ⟨blockIndex, c₁, hreply, hres.symm, hproc, hc.symm⟩

/-! ## Withdrawals -/

/-- **The start of a withdrawal** refuses and does nothing, or it goes on to the ledger: then the
caller is no trading account, it holds the guard, and the amount is debited. -/
lemma withdrawStart_eq_ok {n : ℕ} {result : Except WithdrawError (Quantity × Transfer)}
    (h : c.withdrawStart rt token n = .ok (result, c')) :
    (∃ e, result = .error e ∧ c' = c) ∨
    (∃ amount c₁ state,
      result = .ok (amount, firstTransfer amount (c.state.getCachedLedgerFee token)) ∧
      Quantity.tryFrom n = some amount ∧ amount.isZero = false ∧
      c.state.userRegistry.tradingAccounts.get rt.msgCaller = none ∧
      c.state.inFlightUserOps.get (userOpKey rt.msgCaller token) = none ∧
      c₁ = c.withGuards (c.state.inFlightUserOps.insert (userOpKey rt.msgCaller token) ()) ∧
      c₁.state.withdraw rt.msgCaller token amount = .ok (.ok state) ∧
      c' = { c₁ with state }) := by
  have hdone : ∀ {e : WithdrawError}, (Except.ok (.error e, c) :
      Except Trap (Except WithdrawError (Quantity × Transfer) × Canister)) = .ok (result, c') →
      ∃ e, result = .error e ∧ c' = c := by
    intro e he
    simp only [Except.ok.injEq, Prod.mk.injEq] at he
    exact ⟨e, he.1.symm, he.2.symm⟩
  simp only [withdrawStart, Except.bind_eq_ok] at h
  obtain ⟨-, -, h⟩ := h
  cases hq : Quantity.tryFrom n with
  | none =>
      rw [hq] at h
      exact Or.inl (hdone h)
  | some amount =>
      simp only [hq] at h
      by_cases hk : (!c.state.isKnownToken token) = true
      · rw [if_pos hk] at h
        exact Or.inl (hdone h)
      · rw [if_neg hk] at h
        cases hz : amount.isZero with
        | true =>
            rw [hz, if_pos rfl] at h
            exact Or.inl (hdone h)
        | false =>
            simp only [hz, Bool.false_eq_true, if_false, Except.bind_eq_ok] at h
            obtain ⟨trading, htrading, h⟩ := h
            cases trading with
            | true =>
                simp only [Permissions.permitWithdraw, if_true] at h
                exact Or.inl (hdone h)
            | false =>
                simp only [Permissions.permitWithdraw, Bool.false_eq_true, if_false] at h
                cases hg : c.guardUserOp rt.msgCaller token with
                | none =>
                    rw [hg] at h
                    exact Or.inl (hdone h)
                | some guarded =>
                    simp only [hg, Except.bind_eq_ok] at h
                    obtain ⟨debited, hdebit, h⟩ := h
                    obtain ⟨hnone, hguarded⟩ := guardUserOp_eq_some hg
                    cases debited with
                    | error e =>
                        rw [dropUserOp_guardUserOp hg] at h
                        exact Or.inl (hdone h)
                    | ok state =>
                        simp only [Except.ok.injEq, Prod.mk.injEq] at h
                        exact Or.inr ⟨amount, guarded, state, h.1.symm, rfl, hz,
                          isTradingAccount_eq_false htrading, hnone, hguarded, hdebit, h.2.symm⟩

/-- The canister after the fee cache took a new fee. -/
def withFee (c : Canister) (token : TokenId) : Option ℕ → Canister
  | none => c
  | some fee => { c with state := c.state.setCachedLedgerFee token fee }

lemma withdrawFinish_eq (c : Canister) (rt : Runtime) (caller : Principal) (token : TokenId)
    (amount : Quantity) (outcome : WithdrawOutcome) :
    c.withdrawFinish rt caller token amount outcome = match outcome.result with
      | .ok blockIndex =>
          if blockIndex < 2 ^ 64 then
            .ok (.ok blockIndex, ((c.withFee token outcome.ledgerFee).recordEvent (.withdraw
              ⟨BitVec.ofNat 64 blockIndex, caller, token, amount⟩) rt.time).dropUserOp caller token)
          else .error (.bug .blockIndexOverflow)
      | .error e =>
          (c.withFee token outcome.ledgerFee).state.deposit caller token amount .write >>= fun state =>
            .ok (.error e,
              ({ c.withFee token outcome.ledgerFee with state } : Canister).dropUserOp caller
                token) := by
  obtain ⟨result, ledgerFee⟩ := outcome
  cases ledgerFee <;> cases result <;> rfl

/-- **The end of a withdrawal** releases the guard, and it logs the withdrawal or credits the amount
back. -/
lemma withdrawFinish_eq_ok {amount : Quantity} {outcome : WithdrawOutcome}
    {result : Except WithdrawError ℕ}
    (h : c.withdrawFinish rt caller token amount outcome = .ok (result, c')) :
    (∃ blockIndex event, outcome.result = .ok blockIndex ∧ result = .ok blockIndex ∧
      event = (⟨BitVec.ofNat 64 blockIndex, caller, token, amount⟩ : WithdrawEvent) ∧
      c' = (((c.withFee token outcome.ledgerFee).recordEvent (.withdraw event)
        rt.time).dropUserOp caller token)) ∨
    (∃ e state, outcome.result = .error e ∧ result = .error e ∧
      (c.withFee token outcome.ledgerFee).state.deposit caller token amount .write = .ok state ∧
      c' = ({ c.withFee token outcome.ledgerFee with state } : Canister).dropUserOp caller
        token) := by
  rw [withdrawFinish_eq] at h
  cases hr : outcome.result with
  | ok blockIndex =>
      simp only [hr] at h
      split_ifs at h with hlt
      simp only [Except.ok.injEq, Prod.mk.injEq] at h
      exact Or.inl ⟨blockIndex, _, rfl, h.1.symm, rfl, h.2.symm⟩
  | error e =>
      simp only [hr, Except.bind_eq_ok, Except.ok.injEq, Prod.mk.injEq] at h
      obtain ⟨state, hdep, hres, hc⟩ := h
      exact Or.inr ⟨e, state, rfl, hres.symm, hdep, hc.symm⟩

end Canister

/-! ## Continuations -/

/-- **How a continuation ends.**  `fee` is what the fee cache took. -/
inductive Call.Resumed (call : Call) (rt : Runtime) (c : Canister) (reply : LedgerReply) :
    Canister → CallResult ⊕ Transfer → Prop
  | deposited {blockIndex : ℕ} {c₁ : Canister} (hkind : call.kind = .deposit)
      (hreply : reply = .ok blockIndex)
      (hproc : c.processEvent (.deposit ⟨call.caller, call.token, call.amount⟩) rt.time = .ok c₁) :
      Resumed call rt c reply (c₁.dropUserOp call.caller call.token) (.inl (.ok blockIndex))
  | depositRefused {e : DepositError} (hkind : call.kind = .deposit)
      (hreply : ∀ blockIndex, reply ≠ .ok blockIndex) :
      Resumed call rt c reply (c.dropUserOp call.caller call.token) (.inl (.deposit e))
  | withdrawn {blockIndex : ℕ} {fee : Option ℕ} (hkind : call.kind = .withdraw)
      (hreply : reply = .ok blockIndex) :
      Resumed call rt c reply
        (((c.withFee call.token fee).recordEvent (.withdraw
          ⟨BitVec.ofNat 64 blockIndex, call.caller, call.token, call.amount⟩) rt.time).dropUserOp
            call.caller call.token) (.inl (.ok blockIndex))
  | creditedBack {e : WithdrawError} {fee : Option ℕ} {state : State}
      (hkind : call.kind = .withdraw) (hreply : ∀ blockIndex, reply ≠ .ok blockIndex)
      (hok : (c.withFee call.token fee).state.deposit call.caller call.token call.amount .write
        = .ok state) :
      Resumed call rt c reply
        (({ c.withFee call.token fee with state } : Canister).dropUserOp call.caller call.token)
        (.inl (.withdraw e))
  | retried {first : LedgerRequest} {transfer : Transfer} (hkind : call.kind = .withdraw)
      (hreply : ∀ blockIndex, reply ≠ .ok blockIndex) (hrequests : call.requests = [first])
      (hamount : transfer.amount + transfer.fee = call.amount.toNat)
      (hpos : 0 < transfer.amount) : Resumed call rt c reply c (.inr transfer)

lemma transferReply_eq_ok {token : TokenId} {reply : LedgerReply} {blockIndex : ℕ}
    (h : transferReply token reply = .ok blockIndex) : reply = .ok blockIndex := by
  cases reply <;> simp only [transferReply] at h <;> cases h
  rfl

lemma not_ok_of_transferReply {token : TokenId} {reply : LedgerReply} {e : Icrc1TransferError}
    (h : transferReply token reply = .error e) : ∀ blockIndex, reply ≠ .ok blockIndex := by
  rintro blockIndex rfl
  cases h

/-- What the ledger client makes of the first reply. -/
lemma afterFirst_cases (token : TokenId) (amount : Quantity) (reply : LedgerReply) :
    (∃ blockIndex outcome, reply = .ok blockIndex ∧ afterFirst token amount reply = .inl outcome ∧
      outcome.result = .ok blockIndex) ∨
    ((∀ blockIndex, reply ≠ .ok blockIndex) ∧
      ((∃ e outcome, afterFirst token amount reply = .inl outcome ∧ outcome.result = .error e) ∨
        ∃ transfer, afterFirst token amount reply = .inr transfer ∧
          transfer.amount + transfer.fee = amount.toNat ∧ 0 < transfer.amount)) := by
  rw [afterFirst]
  cases hr : transferReply token reply with
  | ok blockIndex => exact Or.inl ⟨blockIndex, _, transferReply_eq_ok hr, rfl, rfl⟩
  | error e =>
      refine Or.inr ⟨not_ok_of_transferReply hr, ?_⟩
      cases e with
      | other e => exact Or.inl ⟨e, _, rfl, rfl⟩
      | badFee fee =>
          by_cases hle : amount.toNat ≤ fee
          · exact Or.inl ⟨_, _, if_pos hle, rfl⟩
          · refine Or.inr ⟨_, if_neg hle, ?_, ?_⟩
            · show amount.toNat - fee + fee = amount.toNat
              omega
            · show 0 < amount.toNat - fee
              omega

lemma afterRetry_cases (token : TokenId) (fee : ℕ) (reply : LedgerReply) :
    (∃ blockIndex, reply = .ok blockIndex ∧ (afterRetry token fee reply).result = .ok blockIndex) ∨
    ((∀ blockIndex, reply ≠ .ok blockIndex) ∧ ∃ e, (afterRetry token fee reply).result = .error e) := by
  rw [afterRetry]
  cases hr : transferReply token reply with
  | ok blockIndex => exact Or.inl ⟨blockIndex, transferReply_eq_ok hr, rfl⟩
  | error e =>
      refine Or.inr ⟨not_ok_of_transferReply hr, ?_⟩
      cases e with
      | other e => exact ⟨_, rfl⟩
      | badFee fee => exact ⟨_, rfl⟩

namespace Call

variable {call : Call} {rt : Runtime} {c c' : Canister} {reply : LedgerReply}

/-- The end of a withdrawal, as `resume` wraps it. -/
def finish (call : Call) (rt : Runtime) (c : Canister) (outcome : WithdrawOutcome) :
    Except Trap (Canister × (CallResult ⊕ Transfer)) := do
  match ← c.withdrawFinish rt call.caller call.token call.amount outcome with
  | (.ok blockIndex, c) => .ok (c, .inl (.ok blockIndex))
  | (.error e, c) => .ok (c, .inl (.withdraw e))

lemma Resumed.of_finish {outcome : WithdrawOutcome} {r : CallResult ⊕ Transfer}
    (hkind : call.kind = .withdraw)
    (houtcome : (∃ blockIndex, reply = .ok blockIndex ∧ outcome.result = .ok blockIndex) ∨
      ((∀ blockIndex, reply ≠ .ok blockIndex) ∧ ∃ e, outcome.result = .error e))
    (h : call.finish rt c outcome = .ok (c', r)) : call.Resumed rt c reply c' r := by
  simp only [finish, Except.bind_eq_ok, Prod.exists] at h
  obtain ⟨result, c₁, hfin, h⟩ := h
  rcases Canister.withdrawFinish_eq_ok hfin with
    ⟨blockIndex, event, hres, rfl, rfl, rfl⟩ | ⟨e, state, hres, rfl, hdep, rfl⟩
  · cases h
    rcases houtcome with ⟨b, hreply, hb⟩ | ⟨-, e, he⟩
    · rw [hres] at hb
      cases hb
      exact .withdrawn hkind hreply
    · rw [hres] at he
      cases he
  · cases h
    rcases houtcome with ⟨b, -, hb⟩ | ⟨hreply, -⟩
    · rw [hres] at hb
      cases hb
    · exact .creditedBack hkind hreply hdep

/-- **What a continuation did.** -/
theorem resume_eq_ok {r : CallResult ⊕ Transfer} (h : call.resume rt c reply = .ok (c', r)) :
    call.Resumed rt c reply c' r := by
  rw [resume] at h
  cases hkind : call.kind with
  | deposit =>
      simp only [hkind, Except.bind_eq_ok, Prod.exists] at h
      obtain ⟨result, c₁, hfin, h⟩ := h
      rcases Canister.depositFinish_eq_ok hfin with ⟨e, hreply, rfl, rfl⟩ |
        ⟨blockIndex, c₂, hreply, rfl, hproc, rfl⟩
      · cases h
        refine .depositRefused hkind ?_
        rintro b rfl
        cases hreply
      · cases h
        exact .deposited hkind hreply hproc
  | withdraw =>
      have hretry : ∀ {outcome}, outcome = afterRetry call.token
          ((call.requests.head?.map (·.transfer.fee)).getD 0) reply →
          call.finish rt c outcome = .ok (c', r) → call.Resumed rt c reply c' r := by
        rintro _ rfl hf
        exact Resumed.of_finish hkind (afterRetry_cases _ _ _) hf
      match hreq : call.requests with
      | [first] =>
          simp only [hkind, hreq] at h
          rcases afterFirst_cases call.token call.amount reply with
            ⟨b, outcome, hreply, hafter, hres⟩ | ⟨hreply, ⟨e, outcome, hafter, hres⟩ |
              ⟨transfer, hafter, hamount, hpos⟩⟩
          · rw [hafter] at h
            exact Resumed.of_finish hkind (Or.inl ⟨b, hreply, hres⟩) h
          · rw [hafter] at h
            exact Resumed.of_finish hkind (Or.inr ⟨hreply, e, hres⟩) h
          · simp only [hafter, Except.ok.injEq, Prod.mk.injEq] at h
            obtain ⟨rfl, rfl⟩ := h
            exact .retried hkind hreply hreq hamount hpos
      | [] =>
          simp only [hkind, hreq] at h
          exact hretry (by rw [hreq]) h
      | first :: second :: rest =>
          simp only [hkind, hreq] at h
          exact hretry (by rw [hreq]) h

end Call

end OisyTrade
