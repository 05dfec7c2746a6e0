import OisyTrade.Invariant.Funds
import OisyTrade.Invariant.Owned

/-!
# Calls and what they owe

A call that waits owes the canister's users something or holds something for them.  A deposit whose
transfer succeeded is not credited yet; a withdrawal whose transfer did not succeed is debited
already.  `Call.owed` is that amount.  A step moves it: the ledger's answer changes the ledger and
what is owed together, and the end of a call changes the total and what is owed together.

What is needed of the calls for this is `Orderly`: a deposit asks once for its amount, a withdrawal
asks at most twice, each time for an amount and a fee that add up to what was debited, and it asks a
second time only if the first request was refused.

Two things can go wrong at the end of a call, and both are credits that do not fit the free balance.
Then the continuation traps, and the amount is on the ledger but in nobody's balance (`trapped`).
-/

namespace OisyTrade

/-! ## Requests -/

lemma LedgerMoves.index {kind : CallKind} {token : TokenId} {transfer : Transfer}
    {ledger ledger' : TokenId → ℕ} {reply : LedgerReply}
    (h : LedgerMoves kind token transfer ledger reply ledger') (blockIndex : ℕ)
    (hreply : reply = .ok blockIndex) : blockIndex < 2 ^ 64 := by
  cases h with
  | pulled hkind hindex =>
      cases hreply
      exact hindex
  | pushed hkind hindex hfunds =>
      cases hreply
      exact hindex
  | refused hnone => exact absurd hreply (hnone blockIndex)

namespace LedgerRequest

/-- Whether the ledger has executed the request with success. -/
def succeeded (request : LedgerRequest) : Bool :=
  match request.reply with
  | some (.ok _) => true
  | _ => false

end LedgerRequest

namespace Call

/-- The amount of a call of one kind in one token. -/
def amountOf (call : Call) (kind : CallKind) (t : TokenId) : ℕ :=
  if call.kind = kind ∧ call.token = t then call.amount.toNat else 0

/-- Whether a transfer of the call succeeded. -/
def succeeded (call : Call) : Bool := call.requests.any LedgerRequest.succeeded

/-- A deposit that the ledger has executed and that is still to be credited. -/
def uncredited (call : Call) (t : TokenId) : ℕ :=
  if call.succeeded then call.amountOf .deposit t else 0

/-- A withdrawal that is debited and that the ledger has not executed. -/
def untransferred (call : Call) (t : TokenId) : ℕ :=
  if call.succeeded then 0 else call.amountOf .withdraw t

/-- What the canister's account holds for the call. -/
def owed (call : Call) (t : TokenId) : ℕ := call.uncredited t + call.untransferred t

/-- **The requests of a call.** -/
structure Orderly (call : Call) : Prop where
  deposit : call.kind = .deposit → ∃ reply, call.requests = [⟨⟨call.amount.toNat, 0⟩, reply⟩]
  withdraw : call.kind = .withdraw → ∀ request ∈ call.requests, 1 ≤ request.transfer.amount ∧
    request.transfer.amount + request.transfer.fee = call.amount.toNat
  count : call.requests.length ≤ 2
  refused : ∀ request ∈ call.requests.tail, request.succeeded = false
  index : ∀ request ∈ call.requests, ∀ blockIndex, request.reply = some (.ok blockIndex) →
    blockIndex < 2 ^ 64

variable {call : Call} {transfer : Transfer} {earlier : List LedgerRequest} {reply : LedgerReply}

lemma amountOf_of_ne {kind : CallKind} (h : call.kind ≠ kind) (t : TokenId) :
    call.amountOf kind t = 0 := if_neg fun hx => h hx.1

lemma amountOf_of_eq {kind : CallKind} (h : call.kind = kind) (t : TokenId) :
    call.amountOf kind t = if call.token = t then call.amount.toNat else 0 :=
  if_congr (and_iff_right h) rfl rfl

lemma requests_answered (hwaiting : call.requests = ⟨transfer, none⟩ :: earlier) :
    (call.answered reply).requests = ⟨transfer, some reply⟩ :: earlier := by
  rw [answered, hwaiting]

lemma amountOf_answered (kind : CallKind) (t : TokenId) :
    (call.answered reply).amountOf kind t = call.amountOf kind t := by
  rw [answered]
  cases call.requests <;> rfl

lemma Orderly.earlier_refused (h : call.Orderly) {request : LedgerRequest}
    (hrequests : call.requests = request :: earlier) : earlier.any LedgerRequest.succeeded = false := by
  have hrefused := h.refused
  rw [hrequests, List.tail_cons] at hrefused
  rw [List.any_eq_false]
  intro r hr
  rw [hrefused r hr]
  exact Bool.false_ne_true

/-- Only the newest request can have succeeded. -/
lemma Orderly.succeeded_eq (h : call.Orderly) {request : LedgerRequest}
    (hrequests : call.requests = request :: earlier) : call.succeeded = request.succeeded := by
  rw [succeeded, hrequests, List.any_cons, h.earlier_refused hrequests, Bool.or_false]

/-- At most one transfer succeeds. -/
lemma Orderly.succeeded_once (h : call.Orderly) :
    (call.requests.filter LedgerRequest.succeeded).length ≤ 1 := by
  cases hrequests : call.requests with
  | nil => exact Nat.zero_le 1
  | cons request earlier =>
      have hnil : earlier.filter LedgerRequest.succeeded = [] := by
        rw [List.filter_eq_nil_iff]
        exact List.any_eq_false.mp (h.earlier_refused hrequests)
      rw [List.filter_cons, hnil]
      split_ifs
      · exact le_rfl
      · exact Nat.zero_le 1

/-! ## Steps of a call -/

lemma orderly_deposit (caller : Principal) (token : TokenId) (amount : Quantity) :
    Orderly ⟨.deposit, caller, token, amount, [⟨⟨amount.toNat, 0⟩, none⟩]⟩ := by
  refine ⟨fun _ => ⟨none, rfl⟩, CallKind.noConfusion, Nat.le_succ 1,
    fun _ hrequest => absurd hrequest List.not_mem_nil, ?_⟩
  intro request hrequest blockIndex hreply
  rw [List.mem_singleton.mp hrequest] at hreply
  cases hreply

/-- The first transfer asks for the debited amount, and it leaves something. -/
lemma firstTransfer_sum {amount : Quantity} (hpos : amount.isZero = false) (cachedFee : ℕ) :
    1 ≤ (firstTransfer amount cachedFee).amount ∧
      (firstTransfer amount cachedFee).amount + (firstTransfer amount cachedFee).fee
        = amount.toNat := by
  have hne : amount.toNat ≠ 0 := by
    intro hz
    rw [Quantity.isZero_iff.mpr hz] at hpos
    cases hpos
  rw [firstTransfer]
  generalize amount.toNat = n at hne ⊢
  show 1 ≤ n - min cachedFee (n - 1) ∧ n - min cachedFee (n - 1) + min cachedFee (n - 1) = n
  omega

lemma orderly_withdraw (caller : Principal) (token : TokenId) {amount : Quantity}
    (hpos : amount.isZero = false) (cachedFee : ℕ) :
    Orderly ⟨.withdraw, caller, token, amount, [⟨firstTransfer amount cachedFee, none⟩]⟩ := by
  refine ⟨CallKind.noConfusion, ?_, Nat.le_succ 1,
    fun _ hrequest => absurd hrequest List.not_mem_nil, ?_⟩
  · intro _ request hrequest
    rw [List.mem_singleton.mp hrequest]
    exact firstTransfer_sum hpos cachedFee
  · intro request hrequest blockIndex hreply
    rw [List.mem_singleton.mp hrequest] at hreply
    cases hreply

/-- **An answer keeps a call orderly.** -/
lemma Orderly.answered (h : call.Orderly) (hwaiting : call.requests = ⟨transfer, none⟩ :: earlier)
    (hindex : ∀ blockIndex, reply = .ok blockIndex → blockIndex < 2 ^ 64) :
    (call.answered reply).Orderly := by
  have hcall : call.answered reply = { call with requests := ⟨transfer, some reply⟩ :: earlier } := by
    rw [Call.answered, hwaiting]
  rw [hcall]
  obtain ⟨hdeposit, hwithdraw, hcount, hrefused, hold⟩ := h
  rw [hwaiting] at hwithdraw hcount hrefused hold
  refine ⟨?_, ?_, hcount, hrefused, ?_⟩
  · intro hkind
    obtain ⟨reply', hrequests⟩ := hdeposit hkind
    rw [hwaiting, List.cons.injEq, LedgerRequest.mk.injEq] at hrequests
    obtain ⟨⟨rfl, -⟩, rfl⟩ := hrequests
    exact ⟨some reply, rfl⟩
  · intro hkind request hrequest
    rcases List.mem_cons.mp hrequest with rfl | hearlier
    · exact hwithdraw hkind ⟨transfer, none⟩ List.mem_cons_self
    · exact hwithdraw hkind request (List.mem_cons_of_mem _ hearlier)
  · intro request hrequest blockIndex hreply
    rcases List.mem_cons.mp hrequest with rfl | hearlier
    · exact hindex blockIndex (Option.some.inj hreply)
    · exact hold request (List.mem_cons_of_mem _ hearlier) blockIndex hreply

/-- **A second request keeps a call orderly.** -/
lemma Orderly.retried (h : call.Orderly) (hkind : call.kind = .withdraw) {first : LedgerRequest}
    (hrequests : call.requests = [first]) (hfirst : first.succeeded = false)
    (hpos : 1 ≤ transfer.amount) (hsum : transfer.amount + transfer.fee = call.amount.toNat) :
    Orderly { call with requests := ⟨transfer, none⟩ :: call.requests } := by
  refine ⟨?_, ?_, ?_, ?_, ?_⟩
  · intro hdeposit
    have hkind' : call.kind = .deposit := hdeposit
    rw [hkind] at hkind'
    cases hkind'
  · intro _ request hrequest
    rcases List.mem_cons.mp hrequest with rfl | hearlier
    · exact ⟨hpos, hsum⟩
    · exact h.withdraw hkind request hearlier
  · show (⟨transfer, none⟩ :: call.requests).length ≤ 2
    rw [hrequests]
    exact le_rfl
  · intro request hrequest
    have hmem : request ∈ call.requests := hrequest
    rw [hrequests] at hmem
    rw [List.mem_singleton.mp hmem]
    exact hfirst
  · intro request hrequest blockIndex hreply
    rcases List.mem_cons.mp hrequest with rfl | hearlier
    · cases hreply
    · exact h.index request hearlier blockIndex hreply

/-- **The ledger's answer** moves the ledger and what is owed alike. -/
lemma Orderly.executed (h : call.Orderly) (hwaiting : call.requests = ⟨transfer, none⟩ :: earlier)
    {ledger ledger' : TokenId → ℕ}
    (hmoves : LedgerMoves call.kind call.token transfer ledger reply ledger') (t : TokenId) :
    ledger' t + call.owed t = ledger t + (call.answered reply).owed t := by
  have hbefore : call.succeeded = false := by
    rw [h.succeeded_eq hwaiting]
    rfl
  have hearlier := h.earlier_refused hwaiting
  have hafter : (call.answered reply).succeeded = LedgerRequest.succeeded ⟨transfer, some reply⟩ := by
    rw [succeeded, requests_answered hwaiting, List.any_cons, hearlier, Bool.or_false]
  simp only [owed, uncredited, untransferred, amountOf_answered, hbefore, hafter,
    Bool.false_eq_true, if_false, Nat.zero_add]
  cases hmoves with
  | pulled hkind hindex =>
      obtain ⟨reply', hrequests⟩ := h.deposit hkind
      rw [hwaiting, List.cons.injEq, LedgerRequest.mk.injEq] at hrequests
      obtain ⟨⟨rfl, -⟩, -⟩ := hrequests
      have hwithdraw : call.kind ≠ .withdraw := by
        rw [hkind]
        exact CallKind.noConfusion
      rw [amountOf_of_ne hwithdraw]
      simp only [LedgerRequest.succeeded, if_true, amountOf, hkind, true_and, Function.update_apply,
        eq_comm (a := t)]
      split_ifs with ht
      · rw [ht, Nat.add_zero, Nat.add_zero]
      · rfl
  | pushed hkind hindex hfunds =>
      obtain ⟨-, hsum⟩ := h.withdraw hkind _ (hwaiting ▸ List.mem_cons_self)
      have hdeposit : call.kind ≠ .deposit := by
        rw [hkind]
        exact CallKind.noConfusion
      rw [amountOf_of_ne hdeposit]
      simp only [LedgerRequest.succeeded, if_true, amountOf, hkind, true_and, Function.update_apply,
        eq_comm (a := t), Nat.add_zero]
      split_ifs with ht
      · rw [← ht]
        simp only at hsum
        rw [hsum] at hfunds ⊢
        exact Nat.sub_add_cancel hfunds
      · rfl
  | refused hreply =>
      have hfailed : LedgerRequest.succeeded ⟨transfer, some reply⟩ = false := by
        cases reply with
        | ok blockIndex => exact absurd rfl (hreply blockIndex)
        | _ => rfl
      simp only [hfailed, Bool.false_eq_true, if_false, Nat.zero_add]

/-! ## The end of a call -/

/-- Whether a withdrawal answers the reply with a second request. -/
def retries (call : Call) (reply : LedgerReply) : Bool :=
  match call.requests with
  | [_] => (afterFirst call.token call.amount reply).isRight
  | _ => false

/-- **The reply ends the call with a credit**: of what a deposit brought in, or of what a withdrawal
had debited. -/
def CreditsAfter (call : Call) (reply : LedgerReply) : Prop :=
  match call.kind with
  | .deposit => ∃ blockIndex, reply = .ok blockIndex
  | .withdraw => (∀ blockIndex, reply ≠ .ok blockIndex) ∧ call.retries reply = false

/-- What the end of a call adds to the caller's balance. -/
def gain (call : Call) : CallResult → TokenId → ℕ
  | .ok _, t => call.amountOf .deposit t
  | .withdraw _, t => call.amountOf .withdraw t
  | .deposit _, _ => 0
  | .trapped _, _ => 0

variable {rt : Runtime} {c c' : Canister} {result : CallResult} {trap : Trap}

/-- The end of a call changes the total by its gain. -/
lemma Resumed.total (h : call.Resumed rt c reply c' (.inl result)) (t : TokenId) :
    c'.total t = c.total t + call.gain result t := by
  cases h with
  | deposited hkind hreply hproc =>
      have htotal : Canister.total _ t + 0
          = c.total t + if call.token = t then call.amount.toNat else 0 :=
        Canister.total_processEvent hproc t
      rw [Nat.add_zero] at htotal
      rw [gain, amountOf_of_eq hkind, ← htotal, Canister.total_dropUserOp]
  | depositRefused hkind hreply => rw [gain, Nat.add_zero, Canister.total_dropUserOp]
  | @withdrawn _ fee hkind hreply =>
      have hdeposit : call.kind ≠ .deposit := by
        rw [hkind]
        exact CallKind.noConfusion
      rw [gain, amountOf_of_ne hdeposit, Nat.add_zero, Canister.total_dropUserOp, Canister.total,
        Canister.total]
      cases fee <;> rfl
  | @creditedBack _ fee state hkind hreply hok =>
      obtain ⟨_, _, balances, -, hdeposit, rfl⟩ := State.deposit_eq_ok hok
      have hfee : (c.withFee call.token fee).state.balances = c.state.balances := by
        cases fee <;> rfl
      rw [hfee] at hdeposit
      rw [gain, amountOf_of_eq hkind, Canister.total_dropUserOp, Canister.total, Canister.total]
      exact TokenBalance.total_deposit hdeposit t

lemma succeeded_of_reply (h : call.Orderly)
    (hanswered : call.requests = ⟨transfer, some reply⟩ :: earlier) :
    (∀ blockIndex, reply = .ok blockIndex → call.succeeded = true) ∧
      ((∀ blockIndex, reply ≠ .ok blockIndex) → call.succeeded = false) := by
  rw [h.succeeded_eq hanswered]
  refine ⟨?_, fun hreply => ?_⟩
  · rintro blockIndex rfl
    rfl
  · cases reply with
    | ok blockIndex => exact absurd rfl (hreply blockIndex)
    | _ => rfl

/-- **What is owed is what the end of the call gives.** -/
lemma Orderly.owed_ended (h : call.Orderly)
    (hanswered : call.requests = ⟨transfer, some reply⟩ :: earlier)
    (hresumed : call.Resumed rt c reply c' (.inl result)) (t : TokenId) :
    call.owed t = call.gain result t := by
  obtain ⟨hok, hfailed⟩ := succeeded_of_reply h hanswered
  cases hresumed with
  | deposited hkind hreply hproc =>
      rw [owed, uncredited, untransferred, hok _ hreply]
      rfl
  | depositRefused hkind hreply =>
      have hwithdraw : call.kind ≠ .withdraw := by
        rw [hkind]
        exact CallKind.noConfusion
      rw [owed, uncredited, untransferred, hfailed hreply, amountOf_of_ne hwithdraw]
      rfl
  | withdrawn hkind hreply =>
      rw [owed, uncredited, untransferred, hok _ hreply]
      rfl
  | creditedBack hkind hreply hdeposit =>
      rw [owed, uncredited, untransferred, hfailed hreply]
      exact Nat.zero_add _

/-- A second request leaves what is owed. -/
lemma Orderly.owed_retried (h : call.Orderly)
    (hanswered : call.requests = ⟨transfer, some reply⟩ :: earlier)
    (hreply : ∀ blockIndex, reply ≠ .ok blockIndex) (transfer' : Transfer) (t : TokenId) :
    owed { call with requests := ⟨transfer', none⟩ :: call.requests } t = call.owed t := by
  have hfailed := (succeeded_of_reply h hanswered).2 hreply
  have hfailed' : succeeded { call with requests := ⟨transfer', none⟩ :: call.requests } = false :=
    hfailed
  rw [owed, owed, uncredited, uncredited, untransferred, untransferred, hfailed, hfailed']
  rfl

/-! ## Traps -/

/-- A withdrawal that traps at its end could not credit back. -/
lemma withdrawFinish_eq_error {caller : Principal} {token : TokenId} {amount : Quantity}
    {outcome : WithdrawOutcome}
    (hindex : ∀ blockIndex, outcome.result = .ok blockIndex → blockIndex < 2 ^ 64)
    (h : c.withdrawFinish rt caller token amount outcome = .error trap) :
    (∃ e, outcome.result = .error e) ∧ ∃ fee,
      (c.withFee token fee).state.deposit caller token amount .write = .error trap := by
  rw [Canister.withdrawFinish_eq] at h
  cases hresult : outcome.result with
  | ok blockIndex =>
      simp only [hresult, if_pos (hindex blockIndex hresult)] at h
      cases h
  | error e =>
      simp only [hresult] at h
      refine ⟨⟨e, rfl⟩, outcome.ledgerFee, ?_⟩
      cases hdeposit : (c.withFee token outcome.ledgerFee).state.deposit caller token amount .write with
      | ok state =>
          rw [hdeposit] at h
          cases h
      | error trap' =>
          rw [hdeposit] at h
          cases h
          rfl

/-- A finished withdrawal asks for nothing more. -/
lemma finish_inr {outcome : WithdrawOutcome} :
    call.finish rt c outcome ≠ .ok (c', .inr transfer) := by
  intro h
  simp only [finish, Except.bind_eq_ok, Prod.exists] at h
  obtain ⟨result', c₁, -, h⟩ := h
  cases result' <;> cases h

lemma finish_eq_error {outcome : WithdrawOutcome} (h : call.finish rt c outcome = .error trap) :
    c.withdrawFinish rt call.caller call.token call.amount outcome = .error trap := by
  rw [finish] at h
  cases hfin : c.withdrawFinish rt call.caller call.token call.amount outcome with
  | error trap' =>
      rw [hfin] at h
      cases h
      rfl
  | ok r =>
      obtain ⟨result', c₁⟩ := r
      rw [hfin] at h
      cases result' <;> cases h

/-- How the continuation of a withdrawal ends, or that it asks again. -/
lemma resume_withdraw (hkind : call.kind = .withdraw) (rt : Runtime) (c : Canister)
    (reply : LedgerReply) :
    (call.retries reply = false ∧ ∃ outcome, call.resume rt c reply = call.finish rt c outcome ∧
      ((∃ blockIndex, reply = .ok blockIndex ∧ outcome.result = .ok blockIndex) ∨
        ((∀ blockIndex, reply ≠ .ok blockIndex) ∧ ∃ e, outcome.result = .error e))) ∨
    (call.retries reply = true ∧ ∃ transfer, call.resume rt c reply = .ok (c, .inr transfer)) := by
  obtain ⟨kind, caller, token, amount, requests⟩ := call
  cases hkind
  match requests with
  | [first] =>
      simp only [resume, retries]
      rcases afterFirst_cases token amount reply with
        ⟨b, outcome, hreply, hafter, hres⟩ | ⟨hreply, ⟨e, outcome, hafter, hres⟩ |
          ⟨transfer, hafter, -, -⟩⟩
      · rw [hafter]
        exact Or.inl ⟨rfl, outcome, rfl, Or.inl ⟨b, hreply, hres⟩⟩
      · rw [hafter]
        exact Or.inl ⟨rfl, outcome, rfl, Or.inr ⟨hreply, e, hres⟩⟩
      · rw [hafter]
        exact Or.inr ⟨rfl, transfer, rfl⟩
  | [] => exact Or.inl ⟨rfl, _, rfl, afterRetry_cases _ _ _⟩
  | first :: second :: rest => exact Or.inl ⟨rfl, _, rfl, afterRetry_cases _ _ _⟩

/-- **A continuation that traps could not credit.** -/
lemma Orderly.resume_eq_error (hcall : call.Orderly)
    (hanswered : call.requests = ⟨transfer, some reply⟩ :: earlier)
    (h : call.resume rt c reply = .error trap) :
    call.CreditsAfter reply ∧ ∃ fee, (c.withFee call.token fee).state.deposit call.caller
      call.token call.amount .write = .error trap := by
  rw [CreditsAfter]
  cases hkind : call.kind with
  | deposit =>
      rw [resume, hkind] at h
      cases reply with
      | ok blockIndex =>
          refine ⟨⟨blockIndex, rfl⟩, none, ?_⟩
          cases hdeposit : c.state.deposit call.caller call.token call.amount .write with
          | ok state =>
              simp only [Canister.depositFinish, depositReply, Canister.processEvent,
                State.applyStateTransition, hdeposit, Except.bind_ok] at h
              cases h
          | error trap' =>
              simp only [Canister.depositFinish, depositReply, Canister.processEvent,
                State.applyStateTransition, hdeposit, Except.bind_error] at h
              cases h
              exact hdeposit
      | _ => cases h
  | withdraw =>
      rcases resume_withdraw hkind rt c reply with
        ⟨hretries, outcome, hresume, houtcome⟩ | ⟨-, transfer', hresume⟩
      · rw [hresume] at h
        have hindex : ∀ blockIndex, outcome.result = .ok blockIndex → blockIndex < 2 ^ 64 := by
          rcases houtcome with ⟨b, rfl, hb⟩ | ⟨-, e, he⟩
          · intro blockIndex hblock
            rw [hb] at hblock
            cases hblock
            exact hcall.index ⟨transfer, some (.ok b)⟩ (hanswered ▸ List.mem_cons_self) b rfl
          · intro blockIndex hblock
            rw [he] at hblock
            cases hblock
        obtain ⟨⟨e, he⟩, hdeposit⟩ := withdrawFinish_eq_error hindex (finish_eq_error h)
        rcases houtcome with ⟨b, -, hb⟩ | ⟨hreply, -⟩
        · rw [he] at hb
          cases hb
        · exact ⟨⟨hreply, hretries⟩, hdeposit⟩
      · rw [hresume] at h
        cases h

/-- A call that traps had everything left to do. -/
lemma Orderly.owed_trapped (h : call.Orderly)
    (hanswered : call.requests = ⟨transfer, some reply⟩ :: earlier)
    (hcredits : call.CreditsAfter reply) (t : TokenId) :
    call.owed t = call.amountOf .deposit t + call.amountOf .withdraw t := by
  obtain ⟨hok, hfailed⟩ := succeeded_of_reply h hanswered
  rw [CreditsAfter] at hcredits
  cases hkind : call.kind with
  | deposit =>
      rw [hkind] at hcredits
      obtain ⟨blockIndex, hreply⟩ := hcredits
      have hwithdraw : call.kind ≠ .withdraw := by
        rw [hkind]
        exact CallKind.noConfusion
      rw [owed, uncredited, untransferred, hok _ hreply, amountOf_of_ne hwithdraw]
      rfl
  | withdraw =>
      rw [hkind] at hcredits
      have hdeposit : call.kind ≠ .deposit := by
        rw [hkind]
        exact CallKind.noConfusion
      rw [owed, uncredited, untransferred, hfailed hcredits.1, amountOf_of_ne hdeposit]
      rfl

end Call

/-! ## Credits that fit -/

namespace State

variable {s s' : State} {user : Principal} {token : TokenId} {amount : Quantity}

/-- **The credit fits**: the caller's free balance can take it, or the caller, who has no balance
yet, can be registered. -/
def CreditFits (s : State) (user : Principal) (token : TokenId) (amount : Quantity) : Prop :=
  match s.userRegistry.fundingId user with
  | some uid => s.balances.free token uid + amount.toNat < 2 ^ 256
  | none => s.userRegistry.users.size < 2 ^ 64

/-- **A credit changes one free balance.** -/
lemma credited_of_deposit (h : s.deposit user token amount .write = .ok s') {uid : UserId}
    (huid : s.userRegistry.fundingId user = some uid) (t : TokenId) (u : UserId) :
    s'.balances.free t u
        = s.balances.free t u + (if token = t ∧ uid = u then amount.toNat else 0) ∧
      s'.balances.reserved t u = s.balances.reserved t u := by
  obtain ⟨uid', registry, balances, hregister, hdeposit, rfl⟩ := deposit_eq_ok h
  obtain ⟨-, huser⟩ := UserRegistry.fundingId_eq_some.mp huid
  obtain ⟨-, -, hget, -, hcase⟩ := UserRegistry.getOrRegister_eq_ok hregister
  have hsame : uid' = uid := by
    rcases hcase with rfl | ⟨hnone, -⟩
    · exact Option.some.inj (hget.symm.trans huser)
    · rw [huser] at hnone
      cases hnone
  subst hsame
  obtain ⟨b, hrow, hfree, hreserved⟩ := s.balances.deposit_spec hdeposit
  refine ⟨?_, reserved_of_deposit hdeposit t u⟩
  rw [hrow.free]
  split_ifs with hkey
  · obtain ⟨rfl, rfl⟩ := hkey
    exact hfree
  · rfl

lemma creditFits_of_deposit (htrading : s.userRegistry.tradingAccounts.get user = none)
    (h : s.deposit user token amount .write = .ok s') : s.CreditFits user token amount := by
  obtain ⟨uid, registry, balances, hregister, hdeposit, -⟩ := deposit_eq_ok h
  obtain ⟨-, -, hget, -, hcase⟩ := UserRegistry.getOrRegister_eq_ok hregister
  rw [CreditFits]
  cases hid : s.userRegistry.fundingId user with
  | some uid' =>
      obtain ⟨-, huser⟩ := UserRegistry.fundingId_eq_some.mp hid
      rcases hcase with rfl | ⟨hnone, -⟩
      · rw [huser] at hget
        cases hget
        obtain ⟨b, -, hfree, -⟩ := s.balances.deposit_spec hdeposit
        show s.balances.free token uid + amount.toNat < 2 ^ 256
        rw [← hfree]
        exact b.free.toNat_lt
      · rw [huser] at hnone
        cases hnone
  | none =>
      rcases hcase with rfl | ⟨-, hval, -⟩
      · rw [UserRegistry.fundingId_eq_some.mpr ⟨htrading, hget⟩] at hid
        cases hid
      · show s.userRegistry.users.size < 2 ^ 64
        rw [← hval]
        exact uid.isLt

/-- **A credit that fits goes through.** -/
lemma CreditFits.deposit (h : s.CreditFits user token amount) (hs : s.Sound) (ho : s.Owned)
    (htrading : s.userRegistry.tradingAccounts.get user = none) :
    ∃ s', s.deposit user token amount .write = .ok s' := by
  -- The id of a new user has no row yet, so the amount fits.
  have hregister : ∃ uid registry, s.userRegistry.getOrRegister user = .ok (uid, registry) ∧
      s.balances.free token uid + amount.toNat < 2 ^ 256 := by
    rw [CreditFits] at h
    rw [UserRegistry.getOrRegister]
    cases hget : s.userRegistry.users.get user with
    | some uid =>
        rw [UserRegistry.fundingId_eq_some.mpr ⟨htrading, hget⟩] at h
        exact ⟨uid, _, rfl, h⟩
    | none =>
        have hid : s.userRegistry.fundingId user = none := by
          cases hid : s.userRegistry.fundingId user with
          | none => rfl
          | some uid =>
              rw [(UserRegistry.fundingId_eq_some.mp hid).2] at hget
              cases hget
        rw [hid] at h
        obtain ⟨uid, hlen⟩ : ∃ uid : UserId, Seq.ofLen s.userRegistry.users.size = .ok uid :=
          ⟨⟨_, h⟩, Seq.ofLen_eq_ok.mpr rfl⟩
        refine ⟨uid, { s.userRegistry with users := s.userRegistry.users.insert user uid }, ?_, ?_⟩
        · simp only [hlen, Except.bind_ok]
        · have hrow : s.balances.balances.get (.new token uid) = none := by
            cases hrow : s.balances.balances.get (.new token uid) with
            | none => rfl
            | some b =>
                obtain ⟨p, hp⟩ := ho.rows (.new token uid) (by rw [hrow]; rfl)
                have hbelow := hs.registry.below p uid (UserRegistry.fundingId_eq_some.mp hp).2
                rw [← Seq.ofLen_eq_ok.mp hlen] at hbelow
                exact absurd hbelow (lt_irrefl _)
          have hfree : s.balances.free token uid = 0 := by
            rw [TokenBalance.free, TokenBalance.row, hrow]
            exact Quantity.toNat_zero
          rw [hfree, Nat.zero_add]
          exact amount.toNat_lt
  obtain ⟨uid, registry, hreg, hfree⟩ := hregister
  have houtcome := s.balances.deposit_outcome uid token amount
  cases hdeposit : s.balances.deposit uid token amount with
  | ok balances =>
      refine ⟨{ s with userRegistry := registry, balances }, ?_⟩
      simp only [State.deposit, hreg, hdeposit, Except.bind_ok]
  | error trap =>
      rw [hdeposit] at houtcome
      exact absurd houtcome.2 (not_le.mpr hfree)

end State

end OisyTrade
