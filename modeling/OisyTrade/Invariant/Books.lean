import OisyTrade.Invariant.Ledgers

/-!
# The books of a world

Two equations hold for every token in every reachable world.  What the canister accounts for, with
what waiting withdrawals have been debited and what successful ones have taken out, is what deposits
have brought in (`Books.conserved`).  And what the canister has on the ledger is what it accounts for
and what it owes to calls that wait (`Books.solvent`).  Both equations carry what was lost to credits
that trapped.

The proof looks at a step only through what it does to the calls: it leaves them alone, starts one,
replaces one or closes one.
-/

namespace OisyTrade

/-! ## The calls of a world -/

namespace CallResult

/-- The call returned `Ok`. -/
def isOk : CallResult → Bool
  | ok _ => true
  | _ => false

/-- The continuation of the call trapped. -/
def isTrapped : CallResult → Bool
  | trapped _ => true
  | _ => false

end CallResult

namespace World

/-- The calls that have not ended, those that an upgrade discarded included. -/
def openCalls (w : World) : List Call := w.calls ++ w.abandoned

/-- What the calls that have not ended add up to. -/
def overOpen (w : World) (f : Call → ℕ) : ℕ := (w.openCalls.map f).sum

/-- What waiting withdrawals have been debited. -/
def debited (w : World) (t : TokenId) : ℕ := w.overOpen (·.amountOf .withdraw t)

/-- Deposits that the ledger has executed and that are still to be credited. -/
def uncredited (w : World) (t : TokenId) : ℕ := w.overOpen (·.uncredited t)

/-- Withdrawals that are debited and that the ledger has not executed. -/
def untransferred (w : World) (t : TokenId) : ℕ := w.overOpen (·.untransferred t)

/-- The amount that ended calls of one kind and one kind of result add up to. -/
def overEnded (w : World) (p : CallResult → Bool) (kind : CallKind) (t : TokenId) : ℕ :=
  (w.finished.map fun e => if p e.2 then e.1.amountOf kind t else 0).sum

/-- What deposits have been credited, or what withdrawals have taken out. -/
def completed (w : World) (kind : CallKind) (t : TokenId) : ℕ := w.overEnded CallResult.isOk kind t

/-- What was lost to credits that trapped. -/
def trapped (w : World) (kind : CallKind) (t : TokenId) : ℕ :=
  w.overEnded CallResult.isTrapped kind t

variable {w w' : World}

lemma overOpen_add (f g : Call → ℕ) :
    w.overOpen (fun call => f call + g call) = w.overOpen f + w.overOpen g :=
  List.sum_map_add

/-- **How a delivery ends.** -/
inductive Delivery (w : World) (before : List Call) (call : Call) (after : List Call) (rt : Runtime)
    (reply : LedgerReply) : World → Prop
  | ended {c : Canister} {result : CallResult}
      (hresumed : call.Resumed rt w.canister reply c (.inl result)) :
      Delivery w before call after rt reply
        { w with canister := c, calls := before ++ after, finished := (call, result) :: w.finished }
  | asked {transfer : Transfer} {c : Canister}
      (hresumed : call.Resumed rt w.canister reply c (.inr transfer)) :
      Delivery w before call after rt reply
        { w with canister := c,
                 calls := before ++ { call with requests := ⟨transfer, none⟩ :: call.requests } ::
                   after }
  | trapped {trap : Trap} (htrap : call.resume rt w.canister reply = .error trap) :
      Delivery w before call after rt reply
        { w with canister := w.canister.dropUserOp call.caller call.token, calls := before ++ after,
                 finished := (call, .trapped trap) :: w.finished }

lemma delivery (w : World) (before : List Call) (call : Call) (after : List Call) (rt : Runtime)
    (reply : LedgerReply) :
    w.Delivery before call after rt reply (w.delivered before call after rt reply) := by
  rw [World.delivered]
  cases hresume : call.resume rt w.canister reply with
  | error trap => exact .trapped hresume
  | ok r =>
      obtain ⟨c, result | transfer⟩ := r
      · exact .ended (Call.resume_eq_ok hresume)
      · exact .asked (Call.resume_eq_ok hresume)

/-! ## The books -/

/-- **The books of a world.** -/
structure Books (w : World) : Prop where
  orderly : ∀ call ∈ w.openCalls, call.Orderly
  ended : ∀ e ∈ w.finished, e.1.Orderly
  conserved : ∀ t, w.canister.total t + w.debited t + w.completed .withdraw t + w.trapped .withdraw t
    = w.completed .deposit t
  solvent : ∀ t, w.ledger t = w.canister.total t + w.overOpen (·.owed t) + w.trapped .deposit t
    + w.trapped .withdraw t

/-- A step that leaves totals and calls alone. -/
lemma Books.frame (h : w.Books) {c : Canister} (htotal : ∀ t, c.total t = w.canister.total t) :
    Books { w with canister := c } := by
  refine ⟨h.orderly, h.ended, fun t => ?_, fun t => ?_⟩
  · have hc := h.conserved t
    rw [← htotal t] at hc
    exact hc
  · have hl := h.solvent t
    rw [← htotal t] at hl
    exact hl

/-- A call starts. -/
lemma Books.started (h : w.Books) {call : Call} {c : Canister} (horderly : call.Orderly)
    (hfresh : call.succeeded = false)
    (htotal : ∀ t, c.total t + call.amountOf .withdraw t = w.canister.total t) :
    Books { w with canister := c, calls := call :: w.calls } := by
  refine ⟨?_, h.ended, fun t => ?_, fun t => ?_⟩
  · intro call' hcall'
    rcases List.mem_cons.mp hcall' with rfl | hmem
    · exact horderly
    · exact h.orderly call' hmem
  · have hc := h.conserved t
    rw [← htotal t, Nat.add_assoc (c.total t)] at hc
    exact hc
  · have hl := h.solvent t
    have howed : call.owed t = call.amountOf .withdraw t := by
      rw [Call.owed, Call.uncredited, Call.untransferred, hfresh]
      exact Nat.zero_add _
    rw [← htotal t, ← howed, Nat.add_assoc (c.total t)] at hl
    exact hl

lemma sum_calls_middle (f : Call → ℕ) (before after rest : List Call) (call : Call) :
    ((before ++ call :: after ++ rest).map f).sum
      = f call + ((before ++ after ++ rest).map f).sum := by
  simp only [List.map_append, List.map_cons, List.sum_append, List.sum_cons, List.append_assoc,
    List.cons_append]
  exact Nat.add_left_comm _ _ _

/-- A call gets an answer, or asks again. -/
lemma Books.replaced (h : w.Books) {before after rest : List Call} {call call' : Call}
    (hopen : w.openCalls = before ++ call :: after ++ rest)
    (hopen' : w'.openCalls = before ++ call' :: after ++ rest) (hended : w'.finished = w.finished)
    (horderly : call'.Orderly) (htotal : ∀ t, w'.canister.total t = w.canister.total t)
    (hamount : ∀ t, call'.amountOf .withdraw t = call.amountOf .withdraw t)
    (hledger : ∀ t, w'.ledger t + call.owed t = w.ledger t + call'.owed t) : w'.Books := by
  have hsum : ∀ f : Call → ℕ, w'.overOpen f + f call = w.overOpen f + f call' := by
    intro f
    rw [overOpen, overOpen, hopen, hopen', sum_calls_middle, sum_calls_middle]
    omega
  refine ⟨?_, ?_, fun t => ?_, fun t => ?_⟩
  · intro x hx
    rw [hopen', List.append_assoc, List.cons_append] at hx
    rcases List.mem_append.mp hx with hx | hx
    · exact h.orderly x (by rw [hopen, List.append_assoc]; exact List.mem_append_left _ hx)
    · rcases List.mem_cons.mp hx with rfl | hx
      · exact horderly
      · refine h.orderly x ?_
        rw [hopen, List.append_assoc, List.cons_append]
        exact List.mem_append_right _ (List.mem_cons_of_mem _ hx)
  · rw [hended]
    exact h.ended
  · have hc := h.conserved t
    have hd := hsum (·.amountOf .withdraw t)
    simp only [hamount t] at hd
    rw [htotal t, debited, Nat.add_right_cancel hd, completed, trapped, completed, overEnded,
      overEnded, overEnded, hended]
    exact hc
  · have hl := h.solvent t
    have ho := hsum (·.owed t)
    have hlt := hledger t
    rw [htotal t, trapped, trapped, overEnded, overEnded, hended]
    rw [trapped, trapped, overEnded, overEnded] at hl
    linarith

/-- **A call ends.**  Its gain goes into the total, or what it had left to do is lost. -/
lemma Books.closed (h : w.Books) {before after rest : List Call} {call : Call}
    {result : CallResult} (hopen : w.openCalls = before ++ call :: after ++ rest)
    (hopen' : w'.openCalls = before ++ after ++ rest)
    (hended : w'.finished = (call, result) :: w.finished) (hledger : w'.ledger = w.ledger)
    (htotal : ∀ t, w'.canister.total t = w.canister.total t + call.gain result t)
    (hgain : ∀ t, call.gain result t
        + (if result.isOk then call.amountOf .withdraw t else 0)
        + (if result.isTrapped then call.amountOf .withdraw t else 0)
      = call.amountOf .withdraw t + if result.isOk then call.amountOf .deposit t else 0)
    (howed : ∀ t, call.owed t = call.gain result t
      + (if result.isTrapped then call.amountOf .deposit t else 0)
      + if result.isTrapped then call.amountOf .withdraw t else 0) : w'.Books := by
  have hsum : ∀ f : Call → ℕ, w.overOpen f = f call + w'.overOpen f := by
    intro f
    rw [overOpen, overOpen, hopen, hopen', sum_calls_middle]
  have hends : ∀ p kind t, w'.overEnded p kind t
      = (if p result then call.amountOf kind t else 0) + w.overEnded p kind t := by
    intro p kind t
    rw [overEnded, overEnded, hended, List.map_cons, List.sum_cons]
  refine ⟨?_, ?_, fun t => ?_, fun t => ?_⟩
  · intro x hx
    refine h.orderly x ?_
    rw [hopen', List.append_assoc] at hx
    rw [hopen, List.append_assoc, List.cons_append]
    rcases List.mem_append.mp hx with hx | hx
    · exact List.mem_append_left _ hx
    · exact List.mem_append_right _ (List.mem_cons_of_mem _ hx)
  · intro e he
    rw [hended] at he
    rcases List.mem_cons.mp he with rfl | he
    · refine h.orderly call ?_
      rw [hopen, List.append_assoc]
      exact List.mem_append_right _ List.mem_cons_self
    · exact h.ended e he
  · have hc := h.conserved t
    have hg := hgain t
    rw [debited, hsum, completed, trapped, completed] at hc
    rw [htotal t, debited, completed, trapped, completed, hends, hends, hends]
    linarith
  · have hl := h.solvent t
    have ho := howed t
    rw [hsum, trapped, trapped] at hl
    rw [hledger, htotal t, trapped, trapped, hends, hends]
    linarith

/-- The end of a call that does not trap. -/
lemma ended_gain {call : Call} {rt : Runtime} {c c' : Canister} {reply : LedgerReply}
    {result : CallResult} (h : call.Resumed rt c reply c' (.inl result)) (t : TokenId) :
    result.isTrapped = false ∧ call.gain result t
      + (if result.isOk then call.amountOf .withdraw t else 0)
      = call.amountOf .withdraw t + if result.isOk then call.amountOf .deposit t else 0 := by
  cases h with
  | deposited hkind hreply hproc => exact ⟨rfl, Nat.add_comm _ _⟩
  | depositRefused hkind hreply =>
      have hwithdraw : call.kind ≠ .withdraw := by
        rw [hkind]
        exact CallKind.noConfusion
      refine ⟨rfl, ?_⟩
      rw [Call.amountOf_of_ne hwithdraw]
      rfl
  | withdrawn hkind hreply => exact ⟨rfl, Nat.add_comm _ _⟩
  | creditedBack hkind hreply hok => exact ⟨rfl, rfl⟩

/-- **Every step keeps the books.** -/
theorem Step.books (hw : w.Guarded) (h : w.Books) (hstep : Step w w') : w'.Books := by
  cases hstep with
  | message hrun => exact h.frame (Message.run_total hrun)
  | @depositStarted rt token n amount c hrun =>
      rcases Canister.depositStart_eq_ok hrun with ⟨e, he, -⟩ |
        ⟨amount', balance, -, -, -, -, -, -, rfl⟩
      · cases he
      · refine h.started (Call.orderly_deposit rt.msgCaller token amount) rfl fun t => ?_
        have hkind : Call.kind ⟨.deposit, rt.msgCaller, token, amount,
            [⟨⟨amount.toNat, 0⟩, none⟩]⟩ ≠ .withdraw := CallKind.noConfusion
        rw [Call.amountOf_of_ne hkind, Nat.add_zero, Canister.total_withGuards]
  | depositRefused hrun =>
      rcases Canister.depositStart_eq_ok hrun with ⟨e, -, rfl⟩ | ⟨amount, balance, he, -⟩
      · exact h.frame fun _ => rfl
      · cases he
  | @withdrawStarted rt token n amount transfer c hrun =>
      rcases Canister.withdrawStart_eq_ok hrun with ⟨e, he, -⟩ |
        ⟨amount', c₁, state, he, -, hpos, -, -, rfl, hdebit, rfl⟩
      · cases he
      · cases he
        refine h.started (Call.orderly_withdraw rt.msgCaller token hpos _) rfl fun t => ?_
        obtain ⟨_, balances, -, hwithdraw, rfl⟩ := State.withdraw_eq_ok hdebit
        rw [Call.amountOf_of_eq rfl, Canister.total, Canister.total]
        exact TokenBalance.total_withdraw hwithdraw t
  | withdrawRefused hrun =>
      rcases Canister.withdrawStart_eq_ok hrun with ⟨e, -, rfl⟩ | ⟨amount, c₁, state, he, -⟩
      · exact h.frame fun _ => rfl
      · cases he
  | @executed before after call transfer earlier reply ledger hcalls hwaiting hmoves =>
      have hopen : w.openCalls = before ++ call :: after ++ w.abandoned := by
        rw [openCalls, hcalls]
      have hcall : call.Orderly := by
        refine h.orderly call ?_
        rw [hopen, List.append_assoc]
        exact List.mem_append_right _ List.mem_cons_self
      exact h.replaced hopen rfl rfl (hcall.answered hwaiting hmoves.index) (fun _ => rfl)
        (Call.amountOf_answered .withdraw) (hcall.executed hwaiting hmoves)
  | @executedAbandoned before after call transfer earlier reply ledger hcalls hwaiting hmoves =>
      have hopen : w.openCalls = (w.calls ++ before) ++ call :: after ++ [] := by
        rw [openCalls, hcalls, List.append_nil, List.append_assoc]
      have hopen' : (w.calls ++ (before ++ call.answered reply :: after))
          = (w.calls ++ before) ++ call.answered reply :: after ++ [] := by
        rw [List.append_nil, List.append_assoc]
      have hcall : call.Orderly := by
        refine h.orderly call ?_
        rw [hopen, List.append_assoc]
        exact List.mem_append_right _ List.mem_cons_self
      exact h.replaced hopen hopen' rfl (hcall.answered hwaiting hmoves.index) (fun _ => rfl)
        (Call.amountOf_answered .withdraw) (hcall.executed hwaiting hmoves)
  | @delivered before after call transfer reply earlier rt hcalls hanswered =>
      have hopen : w.openCalls = before ++ call :: after ++ w.abandoned := by
        rw [openCalls, hcalls]
      have hcall : call.Orderly := by
        refine h.orderly call ?_
        rw [hopen, List.append_assoc]
        exact List.mem_append_right _ List.mem_cons_self
      have hdelivery := w.delivery before call after rt reply
      generalize w.delivered before call after rt reply = w' at hdelivery
      cases hdelivery with
      | @ended c result hresumed =>
          refine h.closed hopen rfl rfl rfl hresumed.total (fun t => ?_) fun t => ?_
          · obtain ⟨htrapped, hgain⟩ := ended_gain hresumed t
            rw [htrapped]
            exact hgain
          · rw [(ended_gain hresumed t).1]
            exact hcall.owed_ended hanswered hresumed t
      | @asked transfer' c hresumed =>
          cases hresumed with
          | @retried first _ hkind hreply hrequests hamount hpos =>
              have hfirst : first.succeeded = false := by
                rw [← hcall.succeeded_eq hrequests]
                exact (Call.succeeded_of_reply hcall hanswered).2 hreply
              refine h.replaced hopen rfl rfl
                (hcall.retried hkind hrequests hfirst hpos hamount) (fun _ => rfl)
                (fun _ => rfl) fun t => ?_
              rw [hcall.owed_retried hanswered hreply]
      | @trapped trap htrap =>
          obtain ⟨hcredits, -⟩ := hcall.resume_eq_error hanswered htrap
          refine h.closed hopen rfl rfl rfl (fun t => ?_) (fun t => ?_) fun t => ?_
          · rw [Call.gain, Nat.add_zero, Canister.total_dropUserOp]
          · exact Nat.zero_add _
          · rw [hcall.owed_trapped hanswered hcredits]
            exact (congrArg (· + _) (Nat.zero_add _)).symm
  | @upgraded rt arg c hrun =>
      have hframe := h.frame (Canister.upgrade_total hw.sound hrun)
      exact ⟨hframe.orderly, hframe.ended, hframe.conserved, hframe.solvent⟩

lemma Reachable.books (h : Reachable w) : w.Books := by
  induction h with
  | @init arg rt c hinit =>
      obtain ⟨-, -, -, -, hbalances, -⟩ := Canister.init_eq_ok hinit
      have htotal : ∀ t, c.total t = 0 := fun t => by
        rw [Canister.total, hbalances, TokenBalance.total_empty]
      refine ⟨fun _ hx => absurd hx List.not_mem_nil, fun _ hx => absurd hx List.not_mem_nil,
        fun t => ?_, fun t => ?_⟩
      · show c.total t + _ + _ + _ = 0
        rw [htotal]
        rfl
      · show 0 = c.total t + _ + _ + _
        rw [htotal]
        rfl
  | step hreach _ hstep ih => exact hstep.books (ReachableWhile.reachable hreach).guarded ih

/-! ## Callers -/

/-- The caller of a withdrawal is registered. -/
def CallersKnown (w : World) : Prop := ∀ call ∈ w.calls, call.kind = .withdraw →
  ∃ uid, w.canister.state.userRegistry.fundingId call.caller = some uid

lemma Step.callersKnown (hw : w.Guarded) (h : w.CallersKnown) (hstep : Step w w') :
    w'.CallersKnown := by
  obtain ⟨-, hextends⟩ := (hstep.guarded hw).1.sound hw.sound
  have hold : ∀ call ∈ w.calls, call.kind = .withdraw →
      ∃ uid, w'.canister.state.userRegistry.fundingId call.caller = some uid := by
    intro call hcall hkind
    obtain ⟨uid, huid⟩ := h call hcall hkind
    exact ⟨uid, hextends.registry _ _ huid⟩
  cases hstep with
  | message _ => exact hold
  | depositStarted hrun =>
      intro call hcall hkind
      rcases List.mem_cons.mp hcall with rfl | hmem
      · cases hkind
      · exact hold call hmem hkind
  | depositRefused _ => exact hold
  | @withdrawStarted rt token n amount transfer c hrun =>
      rcases Canister.withdrawStart_eq_ok hrun with ⟨e, he, -⟩ |
        ⟨_, c₁, state, -, -, -, -, -, rfl, hdebit, rfl⟩
      · cases he
      · intro call hcall hkind
        rcases List.mem_cons.mp hcall with rfl | hmem
        · obtain ⟨uid, balances, huid, -, rfl⟩ := State.withdraw_eq_ok hdebit
          exact ⟨uid, huid⟩
        · exact hold call hmem hkind
  | withdrawRefused _ => exact hold
  | @executed before after call transfer earlier reply ledger hcalls hwaiting hmoves =>
      intro x hx hkind
      rw [hcalls] at hold
      rcases List.mem_append.mp hx with hx | hx
      · exact hold x (List.mem_append_left _ hx) hkind
      · rcases List.mem_cons.mp hx with rfl | hx
        · have hanswered : call.answered reply
              = { call with requests := ⟨transfer, some reply⟩ :: earlier } := by
            rw [Call.answered, hwaiting]
          rw [hanswered] at hkind ⊢
          exact hold call (List.mem_append_right _ List.mem_cons_self) hkind
        · exact hold x (List.mem_append_right _ (List.mem_cons_of_mem _ hx)) hkind
  | executedAbandoned _ _ _ => exact hold
  | @delivered before after call transfer reply earlier rt hcalls hanswered =>
      rw [hcalls] at hold
      have hrest : ∀ x ∈ before ++ after, x ∈ before ++ call :: after := by
        intro x hx
        rcases List.mem_append.mp hx with hx | hx
        · exact List.mem_append_left _ hx
        · exact List.mem_append_right _ (List.mem_cons_of_mem _ hx)
      have hdelivery := w.delivery before call after rt reply
      generalize w.delivered before call after rt reply = w' at hdelivery hold
      cases hdelivery with
      | ended hresumed => exact fun x hx => hold x (hrest x hx)
      | asked hresumed =>
          intro x hx hkind
          rcases List.mem_append.mp hx with hx | hx
          · exact hold x (List.mem_append_left _ hx) hkind
          · rcases List.mem_cons.mp hx with rfl | hx
            · exact hold call (List.mem_append_right _ List.mem_cons_self) hkind
            · exact hold x (List.mem_append_right _ (List.mem_cons_of_mem _ hx)) hkind
      | trapped htrap => exact fun x hx => hold x (hrest x hx)
  | upgraded _ => exact fun _ hx => absurd hx List.not_mem_nil

lemma Reachable.callersKnown (h : Reachable w) : w.CallersKnown := by
  induction h with
  | init hinit => exact fun _ hx => absurd hx List.not_mem_nil
  | step hreach _ hstep ih => exact hstep.callersKnown (ReachableWhile.reachable hreach).guarded ih

end World

end OisyTrade
