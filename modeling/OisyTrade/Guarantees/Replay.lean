import OisyTrade.Guarantees.Solvency
import OisyTrade.Invariant.Payouts
import OisyTrade.Invariant.Replays

/-!
# Replaying into empty stable structures

`replay_events` in write mode over the whole log, in any reachable world in which the deposits of
each token fit a balance.  It does not trap, and what it builds is the live state without the fee
cache, the tasks, the guards and the queue, and with the debits of open withdrawals put back
(`Reachable.writeReplay_ahead`).  So it is that state exactly if no withdrawal is open
(`Reachable.writeReplay_iff`).

A withdrawal is open from its debit to the end of its call, and for good if an upgrade discarded the
call.  What `Rebuildable` says of a world is kept by every step; a step is looked at through what it
does to the open calls.
-/

namespace OisyTrade

namespace Call

/-- What an open withdrawal has been debited from a user, who is found in the registry. -/
def debitOf (call : Call) (registry : UserRegistry) (t : TokenId) (u : UserId) : ℕ :=
  if call.kind = .withdraw ∧ call.token = t ∧ registry.fundingId call.caller = some u then
    call.amount.toNat
  else 0

/-- A withdrawal is of a registered user and of a positive amount. -/
def Debited (call : Call) (registry : UserRegistry) : Prop :=
  call.kind = .withdraw → 0 < call.amount.toNat ∧ ∃ uid, registry.fundingId call.caller = some uid

/-- The calls debit the same. -/
structure SameDebit (call call' : Call) : Prop where
  kind : call'.kind = call.kind
  caller : call'.caller = call.caller
  token : call'.token = call.token
  amount : call'.amount = call.amount

variable {call call' : Call} {registry registry' : UserRegistry} {uid : UserId} {t : TokenId}
  {u : UserId}

lemma debitOf_deposit (hkind : call.kind = .deposit) : call.debitOf registry t u = 0 := by
  rw [debitOf, hkind]
  exact if_neg fun h => CallKind.noConfusion h.1

lemma debitOf_withdraw (hkind : call.kind = .withdraw)
    (huid : registry.fundingId call.caller = some uid) :
    call.debitOf registry t u = if call.token = t ∧ uid = u then call.amount.toNat else 0 := by
  rw [debitOf, hkind, huid]
  exact if_congr ((and_iff_right rfl).trans (and_congr_right' Option.some_inj)) rfl rfl

lemma SameDebit.debitOf (h : call.SameDebit call') :
    call'.debitOf registry t u = call.debitOf registry t u := by
  rw [Call.debitOf, Call.debitOf, h.kind, h.caller, h.token, h.amount]

lemma SameDebit.debited (h : call.SameDebit call') (hdebited : call.Debited registry) :
    call'.Debited registry := by
  rw [Debited, h.kind, h.caller, h.amount]
  exact hdebited

lemma sameDebit_answered (call : Call) (reply : LedgerReply) :
    call.SameDebit (call.answered reply) := by
  rw [answered]
  cases call.requests <;> exact ⟨rfl, rfl, rfl, rfl⟩

lemma Debited.extends (h : call.Debited registry) (hx : registry.Extends registry') :
    call.Debited registry' := by
  intro hkind
  obtain ⟨hpos, uid, huid⟩ := h hkind
  exact ⟨hpos, uid, hx _ _ huid⟩

/-- Registering others does not change whom a withdrawal debits. -/
lemma Debited.debitOf_extends (h : call.Debited registry) (hx : registry.Extends registry') :
    call.debitOf registry' t u = call.debitOf registry t u := by
  cases hkind : call.kind with
  | deposit => rw [debitOf_deposit hkind, debitOf_deposit hkind]
  | withdraw =>
      obtain ⟨-, uid, huid⟩ := h hkind
      rw [debitOf_withdraw hkind huid, debitOf_withdraw hkind (hx _ _ huid)]

end Call

namespace World

variable {w w' : World} {users : UserRegistry}

/-- The registry of a world. -/
def registry (w : World) : UserRegistry := w.canister.state.userRegistry

/-- What open withdrawals have been debited from each user. -/
def debitedFrom (w : World) (registry : UserRegistry) (t : TokenId) (u : UserId) : ℕ :=
  w.overOpen (·.debitOf registry t u)

/-- **The log gives the live state with the debits of open withdrawals put back.** -/
structure Rebuildable (w : World) : Prop where
  debited : ∀ call ∈ w.openCalls, call.Debited w.registry
  replays : w.canister.Replays (w.debitedFrom w.registry) (w.completed .deposit)

/-! ## Open calls -/

lemma overOpen_replaced {before after rest : List Call} {call call' : Call} {f : Call → ℕ}
    (hopen : w.openCalls = before ++ call :: after ++ rest)
    (hopen' : w'.openCalls = before ++ call' :: after ++ rest) (hf : f call' = f call) :
    w'.overOpen f = w.overOpen f := by
  rw [overOpen, overOpen, hopen, hopen', sum_calls_middle, sum_calls_middle, hf]

/-- One more withdrawal, or one less. -/
lemma debitedFrom_add {call : Call} (hkind : call.kind = .withdraw) {uid : UserId}
    (huid : users.fundingId call.caller = some uid)
    (hsum : ∀ f : Call → ℕ, w'.overOpen f = f call + w.overOpen f) :
    w'.debitedFrom users
      = TokenBalance.debit (w.debitedFrom users) call.token uid call.amount := by
  funext t u
  rw [debitedFrom, hsum, Call.debitOf_withdraw hkind huid, Nat.add_comm]
  rfl

lemma debitedFrom_deposit {call : Call} (hkind : call.kind = .deposit)
    (hsum : ∀ f : Call → ℕ, w'.overOpen f = f call + w.overOpen f) :
    w'.debitedFrom users = w.debitedFrom users := by
  funext t u
  rw [debitedFrom, hsum, Call.debitOf_deposit hkind, Nat.zero_add]
  rfl

lemma debitedFrom_sameDebit {before after rest : List Call} {call call' : Call}
    (hopen : w.openCalls = before ++ call :: after ++ rest)
    (hopen' : w'.openCalls = before ++ call' :: after ++ rest) (hsame : call.SameDebit call') :
    w'.debitedFrom users = w.debitedFrom users := by
  funext t u
  exact overOpen_replaced hopen hopen' hsame.debitOf

/-- **The rule for steps.**  The open calls are those before, up to their requests, and new ones that
debit registered users; and the log follows the canister. -/
lemma Rebuildable.of_calls (h : w.Rebuildable) (hx : w.registry.Extends w'.registry)
    (hcalls : ∀ call' ∈ w'.openCalls, (∃ call ∈ w.openCalls, call.SameDebit call') ∨
      call'.Debited w'.registry)
    (hreplays : w.canister.Replays (w.debitedFrom w'.registry) (w.completed .deposit) →
      w'.canister.Replays (w'.debitedFrom w'.registry) (w'.completed .deposit)) :
    w'.Rebuildable := by
  have hsame : w.debitedFrom w'.registry = w.debitedFrom w.registry := by
    funext t u
    refine congrArg List.sum (List.map_congr_left fun call hcall => ?_)
    exact (h.debited call hcall).debitOf_extends hx
  refine ⟨fun call' hcall' => ?_, hreplays (by rw [hsame]; exact h.replays)⟩
  rcases hcalls call' hcall' with ⟨call, hcall, hdebit⟩ | hnew
  · exact hdebit.debited ((h.debited call hcall).extends hx)
  · exact hnew

lemma sameDebit_refl {call : Call} (hcall : call ∈ w.openCalls) :
    ∃ call' ∈ w.openCalls, call'.SameDebit call := ⟨call, hcall, rfl, rfl, rfl, rfl⟩

/-- The calls after one was replaced by one that debits the same. -/
lemma openCalls_replaced {before after rest : List Call} {call call' : Call}
    (hopen : w.openCalls = before ++ call :: after ++ rest)
    (hopen' : w'.openCalls = before ++ call' :: after ++ rest) (hsame : call.SameDebit call') :
    ∀ x ∈ w'.openCalls, ∃ y ∈ w.openCalls, y.SameDebit x := by
  intro x hx
  rw [hopen', List.append_assoc, List.cons_append] at hx
  rw [hopen, List.append_assoc, List.cons_append]
  rcases List.mem_append.mp hx with hx | hx
  · exact ⟨x, List.mem_append_left _ hx, rfl, rfl, rfl, rfl⟩
  · rcases List.mem_cons.mp hx with rfl | hx
    · exact ⟨call, List.mem_append_right _ List.mem_cons_self, hsame⟩
    · exact ⟨x, List.mem_append_right _ (List.mem_cons_of_mem _ hx), rfl, rfl, rfl, rfl⟩

/-- The calls after one has ended. -/
lemma openCalls_closed {before after rest : List Call} {call : Call}
    (hopen : w.openCalls = before ++ call :: after ++ rest)
    (hopen' : w'.openCalls = before ++ after ++ rest) :
    ∀ x ∈ w'.openCalls, ∃ y ∈ w.openCalls, y.SameDebit x := by
  intro x hx
  refine ⟨x, ?_, rfl, rfl, rfl, rfl⟩
  rw [hopen', List.append_assoc] at hx
  rw [hopen, List.append_assoc, List.cons_append]
  rcases List.mem_append.mp hx with hx | hx
  · exact List.mem_append_left _ hx
  · exact List.mem_append_right _ (List.mem_cons_of_mem _ hx)

/-! ## Steps -/

/-- Deposits only accumulate. -/
lemma Step.completed_le (hstep : Step w w') (kind : CallKind) (t : TokenId) :
    w.completed kind t ≤ w'.completed kind t := by
  obtain ⟨ended, hfinished⟩ := hstep.finished
  rw [completed, completed, overEnded, overEnded, hfinished, List.map_append, List.sum_append]
  exact Nat.le_add_left _ _

/-- **While deposits fit a balance, every withdrawal can be credited back.** -/
lemma Reachable.withdrawal_fits (h : Reachable w) (hfits : ∀ t, w.completed .deposit t < 2 ^ 256)
    {call : Call} (hcall : call ∈ w.calls) (hkind : call.kind = .withdraw) :
    w.canister.state.CreditFits call.caller call.token call.amount := by
  obtain ⟨uid, huid⟩ := h.callersKnown call hcall hkind
  rw [State.CreditFits, huid]
  have hamount : call.amountOf .withdraw call.token = call.amount.toNat := by
    rw [Call.amountOf_of_eq hkind, if_pos rfl]
  have hdebited : call.amountOf .withdraw call.token ≤ w.debited call.token :=
    List.single_le_sum (fun _ _ => Nat.zero_le _) _
      (List.mem_map_of_mem (List.mem_append_left _ hcall))
  have hfree : w.canister.state.balances.free call.token uid ≤ w.canister.total call.token :=
    TokenBalance.free_le_total _ _ _
  have hconserved := h.books.conserved call.token
  have hfit := hfits call.token
  rw [hamount] at hdebited
  show w.canister.state.balances.free call.token uid + call.amount.toNat < 2 ^ 256
  linarith

/-- The end of a call, in the log. -/
lemma Rebuildable.ended {before after rest : List Call} {call : Call} {rt : Runtime}
    {reply : LedgerReply} {c : Canister} {result : CallResult}
    (hs : w.canister.state.Sound) (hopen : w.openCalls = before ++ call :: after ++ rest)
    (hopen' : w'.openCalls = before ++ after ++ rest)
    (hended : w'.finished = (call, result) :: w.finished) (hcanister : w'.canister = c)
    (hdebited : call.Debited w.registry) (hx : w.registry.Extends w'.registry)
    (hfits : ∀ t, w'.completed .deposit t < 2 ^ 256)
    (hresumed : call.Resumed rt w.canister reply c (.inl result))
    (h : w.canister.Replays (w.debitedFrom w'.registry) (w.completed .deposit)) :
    w'.canister.Replays (w'.debitedFrom w'.registry) (w'.completed .deposit) := by
  have hsum : ∀ f : Call → ℕ, w.overOpen f = f call + w'.overOpen f := by
    intro f
    rw [overOpen, overOpen, hopen, hopen', sum_calls_middle]
  have hcompleted : ∀ t, w'.completed .deposit t
      = w.completed .deposit t + if result.isOk then call.amountOf .deposit t else 0 := by
    intro t
    rw [completed, overEnded, hended, List.map_cons, List.sum_cons, Nat.add_comm]
    rfl
  have hwithdraw : call.kind = .withdraw → w'.completed .deposit = w.completed .deposit := by
    intro hkind
    have hne : call.kind ≠ .deposit := by
      rw [hkind]
      exact CallKind.noConfusion
    funext t
    rw [hcompleted, Call.amountOf_of_ne hne, ite_self, Nat.add_zero]
  cases hresumed with
  | deposited hkind hreply hproc =>
      have hpaid : w'.completed .deposit = fun t => w.completed .deposit t
          + EventType.paidIn (.deposit ⟨call.caller, call.token, call.amount⟩) t := by
        funext t
        rw [hcompleted, Call.amountOf_of_eq hkind]
        rfl
      rw [hpaid] at hfits ⊢
      rw [debitedFrom_deposit hkind hsum] at h
      rw [hcanister]
      exact (h.processEvent hfits (fun _ => EventType.noConfusion)
        (fun _ => EventType.noConfusion) hproc).dropUserOp _ _
  | depositRefused hkind hreply =>
      have hpaid : w'.completed .deposit = w.completed .deposit := by
        funext t
        rw [hcompleted]
        rfl
      rw [debitedFrom_deposit hkind hsum] at h
      rw [hpaid, hcanister]
      exact h.dropUserOp _ _
  | @withdrawn _ fee hkind hreply =>
      obtain ⟨-, uid, huid⟩ := hdebited hkind
      rw [debitedFrom_add hkind (hx _ _ huid) hsum] at h
      rw [hwithdraw hkind, hcanister]
      refine Canister.Replays.dropUserOp (Canister.Replays.logged uid rt.time
        (h.withFee call.token fee) ?_ ?_) _ _
      · cases fee <;> exact hs.registry
      · cases fee <;> exact huid
  | @creditedBack _ fee state hkind hreply hok =>
      obtain ⟨-, uid, huid⟩ := hdebited hkind
      rw [debitedFrom_add hkind (hx _ _ huid) hsum] at h
      rw [hwithdraw hkind, hcanister]
      refine Canister.Replays.dropUserOp (Canister.Replays.creditedBack (h.withFee call.token fee)
        ?_ hok) _ _
      cases fee <;> exact huid

/-- **Every step keeps a world rebuildable**, while deposits fit a balance. -/
theorem Step.rebuildable (hw : Reachable w) (hstep : Step w w')
    (hfits : ∀ t, w'.completed .deposit t < 2 ^ 256) (h : w.Rebuildable) : w'.Rebuildable := by
  have hs := hw.guarded.sound
  have hfits' : ∀ t, w.completed .deposit t < 2 ^ 256 := fun t =>
    lt_of_le_of_lt (hstep.completed_le .deposit t) (hfits t)
  have hx : w.registry.Extends w'.registry :=
    ((hstep.guarded hw.guarded).1.sound hs).2.registry
  cases hstep with
  | message hrun =>
      exact h.of_calls hx (fun call hcall => Or.inl (sameDebit_refl hcall)) fun hreplays =>
        (Message.run_works hrun).replays hs hfits' hreplays
  | depositStarted hrun =>
      rcases Canister.depositStart_eq_ok hrun with ⟨e, he, -⟩ | ⟨_, _, -, -, -, -, -, -, rfl⟩
      · cases he
      · refine h.of_calls hx (fun call hcall => ?_) fun hreplays => ?_
        · rcases List.mem_cons.mp hcall with rfl | hmem
          · exact Or.inr CallKind.noConfusion
          · exact Or.inl (sameDebit_refl hmem)
        · rw [debitedFrom_deposit (w := w) rfl fun f => rfl]
          exact hreplays.withGuards _
  | depositRefused hrun =>
      rcases Canister.depositStart_eq_ok hrun with ⟨e, -, rfl⟩ | ⟨_, _, he, -⟩
      · exact h
      · cases he
  | @withdrawStarted rt token n amount transfer c hrun =>
      rcases Canister.withdrawStart_eq_ok hrun with ⟨e, he, -⟩ |
        ⟨amount', c₁, state, he, -, hpos, -, -, rfl, hdebit, rfl⟩
      · cases he
      · cases he
        have hpositive : 0 < amount.toNat := by
          rw [Nat.pos_iff_ne_zero]
          intro hzero
          rw [Quantity.isZero_iff.mpr hzero] at hpos
          cases hpos
        obtain ⟨uid, table, huid, hwithdraw, rfl⟩ := State.withdraw_eq_ok hdebit
        refine h.of_calls hx (fun call hcall => ?_) fun hreplays => ?_
        · rcases List.mem_cons.mp hcall with rfl | hmem
          · exact Or.inr fun _ => ⟨hpositive, uid, huid⟩
          · exact Or.inl (sameDebit_refl hmem)
        · rw [@debitedFrom_add w _ _ ⟨.withdraw, rt.msgCaller, token, amount, _⟩ rfl uid]
          · exact (hreplays.withGuards _).debited huid hdebit
          · exact huid
          · exact fun f => rfl
  | withdrawRefused hrun =>
      rcases Canister.withdrawStart_eq_ok hrun with ⟨e, -, rfl⟩ | ⟨_, _, _, he, -⟩
      · exact h
      · cases he
  | @executed before after call transfer earlier reply ledger hcalls hwaiting hmoves =>
      have hopen : w.openCalls = before ++ call :: after ++ w.abandoned := by
        rw [openCalls, hcalls]
      have hsame := call.sameDebit_answered reply
      refine h.of_calls hx (fun x hmem => Or.inl (openCalls_replaced hopen rfl hsame x hmem))
        fun hreplays => ?_
      rw [debitedFrom_sameDebit hopen rfl hsame]
      exact hreplays
  | @executedAbandoned before after call transfer earlier reply ledger hcalls hwaiting hmoves =>
      have hopen : w.openCalls = (w.calls ++ before) ++ call :: after ++ [] := by
        rw [openCalls, hcalls, List.append_nil, List.append_assoc]
      have hopen' : openCalls { w with abandoned := before ++ call.answered reply :: after, ledger }
          = (w.calls ++ before) ++ call.answered reply :: after ++ [] := by
        rw [openCalls, List.append_nil, List.append_assoc]
      have hsame := call.sameDebit_answered reply
      refine h.of_calls hx (fun x hmem => Or.inl (openCalls_replaced hopen hopen' hsame x hmem))
        fun hreplays => ?_
      rw [debitedFrom_sameDebit hopen hopen' hsame]
      exact hreplays
  | @delivered before after call transfer reply earlier rt hcalls hanswered =>
      have hmem : call ∈ w.calls := by
        rw [hcalls]
        exact List.mem_append_right _ List.mem_cons_self
      have hopen : w.openCalls = before ++ call :: after ++ w.abandoned := by
        rw [openCalls, hcalls]
      have hdelivery := w.delivery before call after rt reply
      generalize w.delivered before call after rt reply = w' at hdelivery hx hfits
      cases hdelivery with
      | @ended c result hresumed =>
          exact h.of_calls hx (fun x hmem => Or.inl (openCalls_closed hopen rfl x hmem))
            (Rebuildable.ended hs hopen rfl rfl rfl
              (h.debited call (List.mem_append_left _ hmem)) hx hfits hresumed)
      | @asked transfer' c hresumed =>
          cases hresumed with
          | retried hkind hreply hrequests hamount hpos =>
              have hsame : call.SameDebit { call with
                  requests := ⟨transfer', none⟩ :: call.requests } := ⟨rfl, rfl, rfl, rfl⟩
              refine h.of_calls hx
                (fun x hmem => Or.inl (openCalls_replaced hopen rfl hsame x hmem))
                fun hreplays => ?_
              rw [debitedFrom_sameDebit hopen rfl hsame]
              exact hreplays
      | @trapped trap htrap =>
          -- A withdrawal can be credited back, so the call was a deposit.
          obtain ⟨hcredits, hnot⟩ := (hw.guarded.delivery_traps hw.owned hw.books rt hcalls
            hanswered).mp ⟨trap, htrap⟩
          have hkind : call.kind = .deposit := by
            cases hkind : call.kind with
            | deposit => rfl
            | withdraw => exact absurd (hw.withdrawal_fits hfits' hmem hkind) hnot
          refine h.of_calls hx (fun x hmem => Or.inl (openCalls_closed hopen rfl x hmem))
            fun hreplays => ?_
          have hsum : ∀ f : Call → ℕ, w.overOpen f = f call + ((before ++ after ++ w.abandoned).map
              f).sum := by
            intro f
            rw [overOpen, hopen, sum_calls_middle]
          have hdebited := @debitedFrom_deposit { w with
            canister := w.canister.dropUserOp call.caller call.token, calls := before ++ after
            finished := (call, .trapped trap) :: w.finished } w w.registry call hkind hsum
          have hcompleted : completed { w with
              canister := w.canister.dropUserOp call.caller call.token, calls := before ++ after
              finished := (call, .trapped trap) :: w.finished } .deposit
              = w.completed .deposit := funext fun t => Nat.zero_add _
          rw [hcompleted]
          exact Canister.Replays.dropUserOp (hdebited ▸ hreplays) _ _
  | upgraded hrun =>
      exact h.of_calls hx (fun call hcall => Or.inl (sameDebit_refl hcall)) fun hreplays =>
        hreplays.upgrade hs hfits' hrun

/-- **While deposits fit a balance, a world is rebuildable.** -/
lemma Reachable.rebuildable (h : Reachable w) (hfits : ∀ t, w.completed .deposit t < 2 ^ 256) :
    w.Rebuildable := by
  induction h with
  | init hinit =>
      exact ⟨fun _ hcall => absurd hcall List.not_mem_nil, Canister.replays_init hinit⟩
  | @step w w' hreach _ hstep ih =>
      have hw := ReachableWhile.reachable hreach
      exact hstep.rebuildable hw hfits (ih fun t =>
        lt_of_le_of_lt (hstep.completed_le .deposit t) (hfits t))

/-! ## Main results -/

/-- **The replay of the log never traps** while the deposits of each token fit a balance.  It gives
the live state with empty bookkeeping and an empty queue.  Reserves and the fee pool are the live
ones, and the free balance of each user is larger by what open withdrawals have debited. -/
theorem Reachable.writeReplay_ahead (h : Reachable w)
    (hfits : ∀ t, w.completed .deposit t < 2 ^ 256) :
    ∃ balances, w.canister.writeReplay = .ok (w.canister.state.replayed balances []) ∧
      balances.feePool = w.canister.state.balances.feePool ∧ ∀ t u,
        balances.reserved t u = w.canister.state.balances.reserved t u ∧
        balances.free t u = w.canister.state.balances.free t u + w.debitedFrom w.registry t u := by
  obtain ⟨balances, queue, hgives, hahead, -⟩ := (h.rebuildable hfits).replays
  exact ⟨balances, hgives.writeReplay_eq, hahead.feePool, fun t u =>
    ⟨hahead.reserved t u, hahead.free t u⟩⟩

lemma withdrawingWorld_fits (t : TokenId) : withdrawingWorld.completed .deposit t < 2 ^ 256 :=
  lt_of_le_of_lt (withdrawingWorld.overEnded_le CallResult.isOk .deposit t) (by decide +kernel)

/-- The replay does not know of the 100 that the waiting withdrawal has debited. -/
theorem writeReplay_ahead_withdrawingWorld : ∃ balances,
    withdrawingWorld.canister.writeReplay
        = .ok (withdrawingWorld.canister.state.replayed balances []) ∧
      balances.free sampleQuote Seq.zero
        = withdrawingWorld.canister.state.balances.free sampleQuote Seq.zero + 100 := by
  obtain ⟨balances, hreplay, -, hrows⟩ :=
    reachable_withdrawingWorld.writeReplay_ahead withdrawingWorld_fits
  have hdebited : withdrawingWorld.debitedFrom withdrawingWorld.registry sampleQuote Seq.zero = 100 :=
    by decide +kernel
  refine ⟨balances, hreplay, ?_⟩
  rw [(hrows sampleQuote Seq.zero).2, hdebited]

/-- **The replay of the log is the live state exactly if no withdrawal is open.** -/
theorem Reachable.writeReplay_iff (h : Reachable w)
    (hfits : ∀ t, w.completed .deposit t < 2 ^ 256) :
    w.canister.writeReplay = .ok (w.canister.state.replayed w.canister.state.balances []) ↔
      ∀ call ∈ w.openCalls, call.kind = .deposit := by
  have hr := h.rebuildable hfits
  obtain ⟨balances, queue, hgives, hahead, -⟩ := hr.replays
  have heq : w.canister.writeReplay = .ok (w.canister.state.replayed w.canister.state.balances [])
      ↔ balances = w.canister.state.balances := by
    rw [hgives.writeReplay_eq]
    constructor
    · intro hsame
      exact congrArg State.balances (Except.ok.inj hsame)
    · rintro hsame
      rw [hsame]
      rfl
  rw [heq, hahead.eq_iff]
  constructor
  · intro hzero call hcall
    cases hkind : call.kind with
    | deposit => rfl
    | withdraw =>
        -- An open withdrawal has debited a positive amount from its caller.
        obtain ⟨hpos, uid, huid⟩ := hr.debited call hcall hkind
        have hle : call.debitOf w.registry call.token uid
            ≤ w.debitedFrom w.registry call.token uid :=
          List.single_le_sum (fun _ _ => Nat.zero_le _) _ (List.mem_map_of_mem hcall)
        rw [hzero, Call.debitOf_withdraw hkind huid, if_pos ⟨rfl, rfl⟩] at hle
        exact absurd hpos (not_lt.mpr hle)
  · intro hdeposits t u
    rw [debitedFrom, overOpen, List.sum_eq_zero_iff]
    intro n hn
    obtain ⟨call, hcall, rfl⟩ := List.mem_map.mp hn
    exact Call.debitOf_deposit (hdeposits call hcall)

/-- After the trade no call waits, so the log gives the live state. -/
theorem writeReplay_iff_settledWorld : settledWorld.canister.writeReplay
    = .ok (settledWorld.canister.state.replayed settledWorld.canister.state.balances []) :=
  (reachable_settledWorld.writeReplay_iff fun t =>
    lt_of_le_of_lt (settledWorld.overEnded_le CallResult.isOk .deposit t)
      (by decide +kernel)).mpr (by decide +kernel)

end World

end OisyTrade
