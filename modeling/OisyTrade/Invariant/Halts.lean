import OisyTrade.Invariant.Reach

/-!
# Halts

`permissions/mod.rs` keeps one flag for all pairs and a set of halted books.  Both follow from the
log: a halt is in force if it was logged and nothing that lifts it was logged since (`InForce`).

What a step logs is either one change of the halts or none at all (`Step.logs`), so the halts do not
move in the middle of a step.  While a book is halted a change of the canister can only take orders
out of it (`State.Contained`).
-/

namespace OisyTrade

/-! ## The halts of a log -/

/-- An event that halts: all pairs, or one book. -/
inductive EventType.Halts : Option OrderBookId → EventType → Prop
  | globally : Halts none (.setHalt ⟨none, true⟩)
  | pair {book : OrderBookId} {ids : List OrderBookId} (h : book ∈ ids) :
      Halts (some book) (.setHalt ⟨some ids, true⟩)

/-- An event that lifts a halt.  Resuming globally also lifts the halts of single books. -/
inductive EventType.Lifts : Option OrderBookId → EventType → Prop
  | globally (scope : Option OrderBookId) : Lifts scope (.setHalt ⟨none, false⟩)
  | pair {book : OrderBookId} {ids : List OrderBookId} (h : book ∈ ids) :
      Lifts (some book) (.setHalt ⟨some ids, false⟩)

/-- **A halt in force**: it was logged, and nothing that lifts it since. -/
def InForce (scope : Option OrderBookId) (events : List Event) : Prop :=
  ∃ before event after, events = before ++ event :: after ∧ event.payload.Halts scope ∧
    ∀ e ∈ after, ¬ e.payload.Lifts scope

lemma not_inForce_nil (scope : Option OrderBookId) : ¬ InForce scope [] := by
  rintro ⟨before, event, after, heq, -, -⟩
  exact absurd heq.symm (by simp)

/-- One more event. -/
lemma inForce_append {scope : Option OrderBookId} {events : List Event} {e : Event} :
    InForce scope (events ++ [e]) ↔
      e.payload.Halts scope ∨ (InForce scope events ∧ ¬ e.payload.Lifts scope) := by
  constructor
  · rintro ⟨before, event, after, heq, hhalts, hlifts⟩
    rcases List.eq_nil_or_concat' after with rfl | ⟨after, last, rfl⟩
    · obtain ⟨-, heq⟩ := List.append_inj' heq rfl
      cases heq
      exact Or.inl hhalts
    · rw [← List.cons_append, ← List.append_assoc] at heq
      obtain ⟨rfl, hlast⟩ := List.append_inj' heq rfl
      cases hlast
      refine Or.inr ⟨⟨before, event, after, rfl, hhalts, fun e' he' => ?_⟩, ?_⟩
      · exact hlifts e' (List.mem_append_left _ he')
      · exact hlifts e (List.mem_append_right _ List.mem_cons_self)
  · rintro (hhalts | ⟨⟨before, event, after, rfl, hhalts, hlifts⟩, hlast⟩)
    · exact ⟨events, e, [], rfl, hhalts, by simp⟩
    · refine ⟨before, event, after ++ [e], by simp, hhalts, fun e' he' => ?_⟩
      rcases List.mem_append.mp he' with he' | he'
      · exact hlifts e' he'
      · rw [List.mem_singleton.mp he']
        exact hlast

namespace Permissions

variable {p : Permissions} {book : OrderBookId}

/-- What an event does to the permissions. -/
def after (p : Permissions) (payload : EventType) : Permissions :=
  match payload with
  | .setHalt event => p.setHalt event.bookIds event.halted
  | _ => p

lemma after_of_ne {payload : EventType} (h : ∀ event, payload ≠ .setHalt event) :
    p.after payload = p := by
  cases payload with
  | setHalt event => exact absurd rfl (h event)
  | _ => rfl

/-- Some scope is halted. -/
def Halted (p : Permissions) : Option OrderBookId → Prop
  | none => p.tradingHalted = true
  | some book => p.haltedPairs.contains book = true

lemma isHalted_iff : p.isHalted book = true ↔ p.Halted none ∨ p.Halted (some book) := by
  rw [isHalted, Bool.or_eq_true]
  rfl

/-- One pair of a `SetHalt` event. -/
lemma halted_pair (p : Permissions) (id : OrderBookId) (halted : Bool) :
    ((if halted then p.haltTrading id else p.resumeTrading id).Halted none ↔ p.Halted none) ∧
    ∀ book, (if halted then p.haltTrading id else p.resumeTrading id).Halted (some book) ↔
      if id = book then halted = true else p.Halted (some book) := by
  cases halted with
  | true =>
      refine ⟨Iff.rfl, fun book => ?_⟩
      simp only [if_true, Halted, haltTrading, SortedMap.contains, SortedMap.get_insert]
      by_cases hid : id = book
      · rw [if_pos hid, if_pos hid]
        exact iff_of_true rfl trivial
      · rw [if_neg hid, if_neg hid]
  | false =>
      refine ⟨Iff.rfl, fun book => ?_⟩
      simp only [Bool.false_eq_true, if_false, Halted, resumeTrading, SortedMap.contains,
        SortedMap.get_erase]
      by_cases hid : id = book
      · rw [if_pos hid, if_pos hid]
        exact iff_of_false Bool.false_ne_true not_false
      · rw [if_neg hid, if_neg hid]

/-- The pairs of a `SetHalt` event. -/
lemma halted_pairs (ids : List OrderBookId) (halted : Bool) (p : Permissions) :
    ((p.setHalt (some ids) halted).Halted none ↔ p.Halted none) ∧
    ∀ book, (p.setHalt (some ids) halted).Halted (some book) ↔
      if book ∈ ids then halted = true else p.Halted (some book) := by
  induction ids generalizing p with
  | nil => exact ⟨Iff.rfl, fun book => Iff.rfl⟩
  | cons id ids ih =>
      obtain ⟨hnone, hsome⟩ := ih (if halted then p.haltTrading id else p.resumeTrading id)
      obtain ⟨hnone', hsome'⟩ := p.halted_pair id halted
      refine ⟨hnone.trans hnone', fun book => (hsome book).trans ?_⟩
      by_cases hids : book ∈ ids
      · rw [if_pos hids, if_pos (List.mem_cons_of_mem _ hids)]
      · rw [if_neg hids, hsome']
        by_cases hid : id = book
        · rw [if_pos hid, if_pos (by rw [hid]; exact List.mem_cons_self)]
        · rw [if_neg hid, if_neg (List.not_mem_cons_of_ne_of_not_mem (Ne.symm hid) hids)]

/-- **One event and one scope.** -/
lemma halted_after (p : Permissions) (payload : EventType) (scope : Option OrderBookId) :
    (p.after payload).Halted scope ↔
      payload.Halts scope ∨ (p.Halted scope ∧ ¬ payload.Lifts scope) := by
  have hquiet : (∀ event, payload ≠ .setHalt event) → (p.Halted scope ↔
      payload.Halts scope ∨ (p.Halted scope ∧ ¬ payload.Lifts scope)) := by
    intro hne
    have h1 : ¬ payload.Halts scope := by
      intro h
      cases h <;> exact hne _ rfl
    have h2 : ¬ payload.Lifts scope := by
      intro h
      cases h <;> exact hne _ rfl
    rw [or_iff_right h1, and_iff_left h2]
  cases payload with
  | setHalt event =>
      obtain ⟨bookIds, halted⟩ := event
      cases bookIds with
      | none =>
          cases halted with
          | true =>
              have hlifts : ¬ (EventType.setHalt ⟨none, true⟩).Lifts scope := by rintro ⟨⟩
              rw [and_iff_left hlifts]
              cases scope with
              | none => exact iff_of_true rfl (Or.inl .globally)
              | some book =>
                  have hhalts : ¬ (EventType.setHalt ⟨none, true⟩).Halts (some book) := by rintro ⟨⟩
                  exact (or_iff_right hhalts).symm
          | false =>
              have hhalts : ¬ (EventType.setHalt ⟨none, false⟩).Halts scope := by rintro ⟨⟩
              refine iff_of_false ?_ (not_or.mpr ⟨hhalts, fun h => h.2 (.globally scope)⟩)
              cases scope <;> exact Bool.false_ne_true
      | some ids =>
          obtain ⟨hnone, hsome⟩ := p.halted_pairs ids halted
          cases scope with
          | none =>
              have hhalts : ¬ (EventType.setHalt ⟨some ids, halted⟩).Halts none := by rintro ⟨⟩
              have hlifts : ¬ (EventType.setHalt ⟨some ids, halted⟩).Lifts none := by rintro ⟨⟩
              rw [or_iff_right hhalts, and_iff_left hlifts]
              exact hnone
          | some book =>
              refine (hsome book).trans ?_
              by_cases hids : book ∈ ids
              · rw [if_pos hids]
                cases halted with
                | true => exact iff_of_true rfl (Or.inl (.pair hids))
                | false =>
                    refine iff_of_false Bool.false_ne_true (not_or.mpr ⟨?_, fun h => h.2 (.pair hids)⟩)
                    rintro ⟨⟩
              · rw [if_neg hids]
                have hhalts : ¬ (EventType.setHalt ⟨some ids, halted⟩).Halts (some book) := by
                  rintro ⟨⟩
                  contradiction
                have hlifts : ¬ (EventType.setHalt ⟨some ids, halted⟩).Lifts (some book) := by
                  rintro ⟨⟩
                  contradiction
                rw [or_iff_right hhalts, and_iff_left hlifts]
  | _ => exact hquiet (fun _ => EventType.noConfusion)

end Permissions

/-- The permissions that a log leads to. -/
def haltsOf (events : List Event) : Permissions :=
  events.foldl (fun p e => p.after e.payload) Permissions.default

lemma haltsOf_append (events new : List Event) :
    haltsOf (events ++ new) = new.foldl (fun p e => p.after e.payload) (haltsOf events) := by
  rw [haltsOf, List.foldl_append, ← haltsOf]

/-- **A scope is halted exactly if a halt of it is in force.** -/
theorem halted_haltsOf (events : List Event) (scope : Option OrderBookId) :
    (haltsOf events).Halted scope ↔ InForce scope events := by
  induction events using List.reverseRecOn with
  | nil =>
      refine iff_of_false ?_ (not_inForce_nil scope)
      cases scope <;> exact Bool.false_ne_true
  | append_singleton events e ih =>
      rw [haltsOf_append, inForce_append, ← ih]
      exact (haltsOf events).halted_after e.payload scope

/-! ## The permissions follow the log -/

/-- An event changes the permissions as its halts say. -/
lemma State.permissions_after {s s' : State} {payload : EventType} {timestamp : Timestamp}
    (h : s.applyStateTransition payload timestamp .write = .ok s') :
    s'.permissions = s.permissions.after payload := by
  cases payload with
  | init arg => cases h
  | upgrade arg =>
      obtain ⟨policy, rfl⟩ := applyUpgrade_eq_ok h
      rfl
  | addTradingPair event =>
      obtain ⟨next, -, -, -, -, -, -, -, rfl⟩ := recordTradingPair_eq_ok h
      rfl
  | deposit event =>
      obtain ⟨uid, registry, balances, -, -, rfl⟩ := deposit_eq_ok h
      rfl
  | addLimitOrder event =>
      obtain ⟨_, _, _, _, _, _, _, _, -, -, -, -, -, -, -, rfl⟩ := recordLimitOrder_eq_ok h
      rfl
  | settling event =>
      obtain ⟨_, _, _, _, _, -, -, -, -, rfl⟩ := recordSettlingEvent_eq_ok h
      rfl
  | matching event =>
      obtain ⟨_, _, _, _, _, _, _, -, -, -, -, -, rfl⟩ := recordMatchingEvent_eq_ok h
      rfl
  | withdraw event =>
      simp only [applyStateTransition, Except.bind_eq_ok] at h
      obtain ⟨r, hr, h⟩ := h
      cases r with
      | error e => cases h
      | ok s₁ =>
          cases h
          obtain ⟨_, _, -, -, rfl⟩ := withdraw_eq_ok hr
          rfl
  | cancelLimitOrder event =>
      obtain ⟨_, _, _, _, _, _, _, -, -, -, -, -, rfl⟩ := recordCancelLimitOrder_eq_ok h
      rfl
  | setHalt event =>
      cases h
      rfl
  | addTradingAccount event =>
      simp only [applyStateTransition, recordAddTradingAccount, Except.bind_eq_ok,
        Except.ok.injEq] at h
      obtain ⟨_, -, rfl⟩ := h
      rfl
  | removeTradingAccount event =>
      simp only [applyStateTransition, recordRemoveTradingAccount, Except.bind_eq_ok,
        Except.ok.injEq] at h
      obtain ⟨_, -, rfl⟩ := h
      rfl

namespace Canister

variable {c c' : Canister} {rt : Runtime}

/-- The permissions of the canister are those of its log. -/
def HaltsLogged (c : Canister) : Prop := c.state.permissions = haltsOf c.events

/-- A new canister has nothing halted and nothing listed. -/
lemma init_fresh {arg : OisyTradeArg} (h : init arg rt = .ok c) :
    c.state.permissions = Permissions.default ∧ c.state.tradingPairs = TradingPairMap.empty ∧
      c.state.tokens = SortedMap.empty ∧ ∃ arg, c.events = [⟨rt.time, .init arg⟩] := by
  cases arg with
  | upgrade arg => cases h
  | init arg =>
      rw [init] at h
      cases hs : State.new arg History.empty History.empty UserRegistry.empty TokenBalance.empty with
      | error e =>
          simp only [hs] at h
          cases h
      | ok s =>
          simp only [hs, Except.ok.injEq] at h
          subst h
          simp only [State.new, Except.bind_eq_ok, Except.ok.injEq] at hs
          obtain ⟨policy, -, rfl⟩ := hs
          exact ⟨rfl, rfl, rfl, arg, rfl⟩

lemma HaltsLogged.init {arg : OisyTradeArg} (h : Canister.init arg rt = .ok c) :
    c.HaltsLogged := by
  obtain ⟨hperm, -, -, initArg, hevents⟩ := init_fresh h
  rw [HaltsLogged, hperm, hevents]
  rfl

/-- What a move adds to the log accounts for the permissions. -/
lemma Moves.permissions (h : c.Moves c') : ∃ new, c'.events = c.events ++ new ∧
    c'.state.permissions = new.foldl (fun p e => p.after e.payload) c.state.permissions := by
  have hquiet : c'.events = c.events → c'.state.permissions = c.state.permissions →
      ∃ new, c'.events = c.events ++ new ∧
        c'.state.permissions = new.foldl (fun p e => p.after e.payload) c.state.permissions :=
    fun hevents hperm => ⟨[], by rw [hevents, List.append_nil], hperm⟩
  rcases h with hact | ⟨ops, rfl⟩
  · cases hact with
    | event hadmits hok =>
        obtain ⟨s, hs, rfl⟩ := processEvent_eq_ok hok
        exact ⟨[_], rfl, State.permissions_after hs⟩
    | settle hqueue hfront hok =>
        obtain ⟨s, hs, rfl⟩ := processEvent_eq_ok hok
        exact ⟨[_], rfl, State.permissions_after hs⟩
    | debit hok =>
        obtain ⟨_, _, -, -, rfl⟩ := State.withdraw_eq_ok hok
        exact hquiet rfl rfl
    | credit huser hok =>
        obtain ⟨_, _, _, -, -, rfl⟩ := State.deposit_eq_ok hok
        exact hquiet rfl rfl
    | logged event timestamp => exact ⟨[_], rfl, rfl⟩
    | note hsame => exact hquiet rfl (by rw [hsame.eq])
  · exact hquiet rfl rfl

lemma HaltsLogged.moves (h : c.HaltsLogged) (hmove : c.Moves c') : c'.HaltsLogged := by
  obtain ⟨new, hevents, hperm⟩ := hmove.permissions
  rw [HaltsLogged, hperm, h, hevents, haltsOf_append]

lemma HaltsLogged.moved (h : c.HaltsLogged) (hmoved : c.Moved c') : c'.HaltsLogged := by
  induction hmoved with
  | refl => exact h
  | tail _ hmove ih => exact ih.moves hmove

/-! ## What a step logs -/

/-- The events of `c'` that `c` does not have, none of which changes the halts. -/
def Logs (c c' : Canister) : Prop :=
  ∃ new, c'.events = c.events ++ new ∧ ∀ e ∈ new, ∀ event, e.payload ≠ .setHalt event

lemma Logs.of_eq (h : c'.events = c.events) : c.Logs c' :=
  ⟨[], by rw [h, List.append_nil], fun _ hx => absurd hx List.not_mem_nil⟩

lemma Logs.trans {c'' : Canister} (h : c.Logs c') (h' : c'.Logs c'') : c.Logs c'' := by
  obtain ⟨new, hnew, hall⟩ := h
  obtain ⟨new', hnew', hall'⟩ := h'
  refine ⟨new ++ new', by rw [hnew', hnew, List.append_assoc], fun e he => ?_⟩
  rcases List.mem_append.mp he with he | he
  · exact hall e he
  · exact hall' e he

/-- Changes before that log nothing. -/
lemma Logs.of_quiet {c₁ : Canister} (h : c₁.Logs c') (heq : c₁.events = c.events) : c.Logs c' := by
  rw [Logs, ← heq]
  exact h

lemma Logs.of_processEvent {payload : EventType} {timestamp : Timestamp}
    (h : c.processEvent payload timestamp = .ok c') (hne : ∀ event, payload ≠ .setHalt event) :
    c.Logs c' := by
  obtain ⟨s, -, rfl⟩ := processEvent_eq_ok h
  refine ⟨_, rfl, fun e he => ?_⟩
  rw [List.mem_singleton.mp he]
  exact hne

lemma drainLoop_logs {budget : ℕ} :
    ∀ {fuel : ℕ} {c c' : Canister} {n n' : ℕ}, drainLoop rt budget fuel c n = .ok (c', n') →
      c.Logs c'
  | 0, c, c', n, n', h => by
      cases h
      exact .of_eq rfl
  | fuel + 1, c, c', n, n', h => by
      rw [drainLoop] at h
      split_ifs at h with hbudget
      · cases hq : c.state.pendingSettlingEvents with
        | nil =>
            rw [hq] at h
            cases h
            exact .of_eq rfl
        | cons event rest =>
            simp only [hq, Except.bind_eq_ok] at h
            obtain ⟨c₁, hproc, hloop⟩ := h
            have hone := Logs.of_processEvent hproc fun _ => EventType.noConfusion
            exact (hone.of_quiet rfl).trans (drainLoop_logs hloop)
      · cases h
        exact .of_eq rfl

lemma runBooks_logs {budget : ℕ} :
    ∀ {books : List OrderBookId} {orderBudget : ℕ} {c c' : Canister} {n : ℕ},
      c.runBooks rt budget books orderBudget n = .ok c' → c.Logs c'
  | [], orderBudget, c, c', n, h => by
      cases h
      exact .of_eq rfl
  | bookId :: books, orderBudget, c, c', n, h => by
      rw [runBooks] at h
      split_ifs at h with h0 hb
      · cases h
        exact .of_eq rfl
      · cases h
        exact .of_eq rfl
      · cases hpermit : c.state.permissions.permitMatching bookId with
        | error e =>
            rw [hpermit] at h
            exact runBooks_logs h
        | ok u =>
            simp only [hpermit, Except.bind_eq_ok, Except.expect_eq_ok] at h
            obtain ⟨book, hbook, h⟩ := h
            split_ifs at h with hempty
            · exact runBooks_logs h
            · simp only [Except.bind_eq_ok, Prod.exists] at h
              obtain ⟨-, -, c₁, hproc, c₂, n₂, hdrain, hrest⟩ := h
              have hone : c.Logs c₁ := .of_processEvent hproc fun _ => EventType.noConfusion
              exact (hone.trans (drainLoop_logs hdrain)).trans (runBooks_logs hrest)

lemma processPendingOrders_logs {status : ExecutionStatus}
    (h : c.processPendingOrders rt = .ok (status, c')) : c.Logs c' := by
  rw [processPendingOrders] at h
  split_ifs at h with hrun
  · cases h
    exact .of_eq rfl
  · simp only [Except.bind_eq_ok, Except.ok.injEq, Prod.mk.injEq, Prod.exists] at h
    obtain ⟨st, c₁, hrunOnce, -, rfl⟩ := h
    simp only [runOnce, Except.bind_eq_ok, Prod.exists] at hrunOnce
    obtain ⟨c₂, n, hdrain, hbooks⟩ := hrunOnce
    have hround : c₂.Logs c₁ := by
      split_ifs at hbooks with hb
      · simp only [Except.ok.injEq, Prod.mk.injEq] at hbooks
        obtain ⟨-, rfl⟩ := hbooks
        exact .of_eq rfl
      · simp only [Except.bind_eq_ok, Except.ok.injEq, Prod.mk.injEq] at hbooks
        obtain ⟨c₃, hbooks, -, rfl⟩ := hbooks
        exact runBooks_logs hbooks
    exact (((drainLoop_logs hdrain).of_quiet rfl).trans hround).trans (.of_eq rfl)

lemma cancelLimitOrder_logs {owner : Principal} {canceledBy : Option Principal} {orderId : OrderId}
    {timestamp : Timestamp} {result : Except CancelLimitOrderError OrderRecord}
    (h : c.cancelLimitOrder owner canceledBy orderId timestamp = .ok (result, c')) :
    c.Logs c' := by
  rcases cancelLimitOrder_acts h with ⟨_, -, -, rfl⟩ | ⟨-, c₁, event, r, hproc, -, -, hsettle, -⟩
  · exact .of_eq rfl
  · have hcancel : c.Logs c₁ := .of_processEvent hproc fun _ => EventType.noConfusion
    have hsettled := Logs.of_processEvent hsettle fun _ => EventType.noConfusion
    exact hcancel.trans (hsettled.of_quiet rfl)

end Canister

/-- **A message changes the halts with one event, or not at all.** -/
theorem Message.run_logs {m : Message} {rt : Runtime} {c c' : Canister}
    (h : m.run rt c = .ok c') : c.Logs c' ∨
      ∃ event, c.processEvent (.setHalt event) rt.time = .ok c' := by
  cases m with
  | addTradingPair request =>
      simp only [Message.run, Except.bind_eq_ok, Except.ok.injEq, Prod.exists] at h
      obtain ⟨_, _, hrun, rfl⟩ := h
      left
      rcases Canister.addTradingPair_acts hrun with ⟨_, -, rfl⟩ | ⟨event, -, -, hproc⟩
      · exact .of_eq rfl
      · exact .of_processEvent hproc fun _ => EventType.noConfusion
  | setHalt pairs halted =>
      simp only [Message.run, Except.bind_eq_ok, Except.ok.injEq, Prod.exists] at h
      obtain ⟨_, _, hrun, rfl⟩ := h
      rcases Canister.setHalt_acts hrun with ⟨_, -, rfl⟩ | ⟨event, -, -, hproc⟩
      · exact Or.inl (.of_eq rfl)
      · exact Or.inr ⟨event, hproc⟩
  | addLimitOrder request =>
      simp only [Message.run, Except.bind_eq_ok, Except.ok.injEq, Prod.exists] at h
      obtain ⟨_, _, hrun, rfl⟩ := h
      left
      rcases Canister.addLimitOrder_acts hrun with ⟨_, -, rfl⟩ | ⟨event, -, -, -, hproc⟩
      · exact .of_eq rfl
      · exact .of_processEvent hproc fun _ => EventType.noConfusion
  | cancelLimitOrder orderId =>
      simp only [Message.run, Canister.cancelOrder, Except.bind_eq_ok, Except.ok.injEq,
        Prod.exists] at h
      obtain ⟨_, _, ⟨-, -, owner, -, hrun⟩, rfl⟩ := h
      left
      cases orderId with
      | none =>
          cases hrun
          exact .of_eq rfl
      | some id => exact Canister.cancelLimitOrder_logs hrun
  | processPendingOrders =>
      simp only [Message.run, Except.bind_eq_ok, Except.ok.injEq, Prod.exists] at h
      obtain ⟨_, _, hrun, rfl⟩ := h
      exact Or.inl (Canister.processPendingOrders_logs hrun)
  | addTradingAccount trading =>
      simp only [Message.run, Except.bind_eq_ok, Except.ok.injEq, Prod.exists] at h
      obtain ⟨_, _, hrun, rfl⟩ := h
      left
      rcases Canister.addTradingAccount_acts hrun with ⟨_, -, rfl⟩ | ⟨-, -, hproc⟩
      · exact .of_eq rfl
      · exact .of_processEvent hproc fun _ => EventType.noConfusion
  | removeTradingAccount trading =>
      simp only [Message.run, Except.bind_eq_ok, Except.ok.injEq, Prod.exists] at h
      obtain ⟨_, _, hrun, rfl⟩ := h
      left
      rcases Canister.removeTradingAccount_acts hrun with ⟨_, -, rfl⟩ | ⟨-, -, hproc⟩
      · exact .of_eq rfl
      · exact .of_processEvent hproc fun _ => EventType.noConfusion

lemma Call.Resumed.logs {call : Call} {rt : Runtime} {c c' : Canister} {reply : LedgerReply}
    {r : CallResult ⊕ Transfer} (h : call.Resumed rt c reply c' r) : c.Logs c' := by
  have hfee : ∀ fee, (c.withFee call.token fee).events = c.events := by
    intro fee
    cases fee <;> rfl
  cases h with
  | deposited _ _ hproc =>
      exact Canister.Logs.trans (.of_processEvent hproc fun _ => EventType.noConfusion) (.of_eq rfl)
  | depositRefused => exact .of_eq rfl
  | @withdrawn blockIndex fee =>
      refine ⟨[⟨rt.time, .withdraw
        ⟨BitVec.ofNat 64 blockIndex, call.caller, call.token, call.amount⟩⟩], ?_, fun e he => ?_⟩
      · show (c.withFee call.token fee).events ++ _ = _
        rw [hfee]
      · rw [List.mem_singleton.mp he]
        exact fun _ => EventType.noConfusion
  | @creditedBack _ fee => exact .of_eq (hfee fee)
  | retried => exact .of_eq rfl

namespace World

variable {w w' : World}

/-- **So does a step.** -/
theorem Step.logs (hw : w.Guarded) (h : Step w w') : w.canister.Logs w'.canister ∨
    ∃ event timestamp, w.canister.processEvent (.setHalt event) timestamp = .ok w'.canister := by
  cases h with
  | message hrun =>
      rcases Message.run_logs hrun with hlogs | ⟨event, hproc⟩
      · exact Or.inl hlogs
      · exact Or.inr ⟨event, _, hproc⟩
  | depositStarted hrun =>
      left
      rcases Canister.depositStart_eq_ok hrun with ⟨e, he, -⟩ | ⟨_, _, -, -, -, -, -, -, rfl⟩
      · cases he
      · exact .of_eq rfl
  | depositRefused hrun =>
      left
      rcases Canister.depositStart_eq_ok hrun with ⟨e, -, rfl⟩ | ⟨_, _, he, -⟩
      · exact .of_eq rfl
      · cases he
  | withdrawStarted hrun =>
      left
      rcases Canister.withdrawStart_eq_ok hrun with ⟨e, he, -⟩ |
        ⟨_, _, _, he, -, -, -, -, rfl, -, rfl⟩
      · cases he
      · exact .of_eq rfl
  | withdrawRefused hrun =>
      left
      rcases Canister.withdrawStart_eq_ok hrun with ⟨e, -, rfl⟩ | ⟨_, _, _, he, -⟩
      · exact .of_eq rfl
      · cases he
  | executed hcalls hwaiting hmoves => exact Or.inl (.of_eq rfl)
  | executedAbandoned hcalls hwaiting hmoves => exact Or.inl (.of_eq rfl)
  | @delivered before after call transfer reply earlier rt hcalls hanswered =>
      left
      rw [World.delivered]
      cases hres : call.resume rt w.canister reply with
      | error trap => exact .of_eq rfl
      | ok r =>
          obtain ⟨c, r⟩ := r
          have hlogs := (Call.resume_eq_ok hres).logs
          cases r <;> exact hlogs
  | upgraded hrun =>
      left
      obtain ⟨c₁, rfl, rfl | ⟨arg, hproc⟩⟩ := Canister.upgrade_eq_ok hw.sound hrun
      · exact .of_eq rfl
      · have hlogs := Canister.Logs.of_processEvent hproc fun _ => EventType.noConfusion
        exact hlogs.of_quiet rfl

/-- **The permissions of a reachable world are those of its log.** -/
lemma Reachable.haltsLogged (h : Reachable w) : w.canister.HaltsLogged := by
  induction h with
  | init hinit => exact .init hinit
  | step hreach _ hstep ih =>
      exact ih.moved (hstep.guarded (ReachableWhile.reachable hreach).guarded).1

end World

/-! ## A halted book -/

namespace OrderBook

/-- Orders may have left the book; everything else is as it was. -/
structure Shrunk (b b' : OrderBook) : Prop where
  config : b.SameConfig b'
  nextFill : b'.nextFill = b.nextFill
  pending : b'.pendingOrders.Sublist b.pendingOrders
  resting : ∀ side, (b'.resting side).Sublist (b.resting side)

lemma Shrunk.refl (b : OrderBook) : b.Shrunk b :=
  ⟨.refl b, rfl, List.Sublist.refl _, fun _ => List.Sublist.refl _⟩

lemma Shrunk.trans {b b' b'' : OrderBook} (h : b.Shrunk b') (h' : b'.Shrunk b'') : b.Shrunk b'' :=
  ⟨h.config.trans h'.config, h'.nextFill.trans h.nextFill, h'.pending.trans h.pending,
    fun side => (h'.resting side).trans (h.resting side)⟩

lemma Without.shrunk {b b' : OrderBook} {seq : OrderSeq} (h : b.Without seq b') : b.Shrunk b' := by
  refine ⟨h.config, h.nextFill, ?_, fun side => ?_⟩
  · rw [h.pending]
    exact List.filter_sublist
  · rw [h.resting]
    exact List.filter_sublist

end OrderBook

/-- **A record that was left alone or canceled.** -/
inductive OrderRecord.LeftOrCanceled (r : OrderRecord) : OrderRecord → Prop
  | left : LeftOrCanceled r r
  | canceled {r' : OrderRecord} (hlive : r.status.isTerminal = false)
      (hstatus : r'.status = .canceled) (hfilled : ∀ c, r'.filled c = r.filled c)
      (hevolves : r.Evolves r') : LeftOrCanceled r r'

lemma OrderRecord.LeftOrCanceled.trans {r r' r'' : OrderRecord} (h : r.LeftOrCanceled r')
    (h' : r'.LeftOrCanceled r'') : r.LeftOrCanceled r'' := by
  cases h with
  | left => exact h'
  | canceled hlive hstatus hfilled hevolves =>
      cases h' with
      | left => exact .canceled hlive hstatus hfilled hevolves
      | canceled hlive' =>
          rw [hstatus] at hlive'
          cases hlive'

namespace State

variable {s s' s'' : State} {book : OrderBookId}

/-- **What a halt of a book allows.**  Its orders can be canceled, and that is all: the book only
loses orders, those that are gone are canceled, the records of the others do not change, and no
order is added. -/
structure Contained (book : OrderBookId) (s s' : State) : Prop where
  orderBook : ∀ b, s.orderBooks.get book = some b → ∃ b', s'.orderBooks.get book = some b' ∧
    b.Shrunk b' ∧ ∀ o ∈ b.live, o ∈ b'.live ∨
      ∃ r, s'.orderHistory.get (.new book o.id) = some r ∧ r.status = .canceled
  records : ∀ id r, id.bookId = book → s.orderHistory.get id = some r →
    ∃ r', s'.orderHistory.get id = some r' ∧ r.LeftOrCanceled r'
  noOrders : ∀ id, id.bookId = book → s.orderHistory.get id = none →
    s'.orderHistory.get id = none

lemma Contained.refl (book : OrderBookId) (s : State) : s.Contained book s :=
  ⟨fun b hb => ⟨b, hb, .refl b, fun _ ho => Or.inl ho⟩, fun _ r _ hr => ⟨r, hr, .left⟩,
    fun _ _ hnone => hnone⟩

lemma Contained.trans (h : s.Contained book s') (h' : s'.Contained book s'') :
    s.Contained book s'' := by
  refine ⟨fun b hb => ?_, fun id r hid hr => ?_, fun id hid hnone => ?_⟩
  · obtain ⟨b', hb', hshrunk, hlive⟩ := h.orderBook b hb
    obtain ⟨b'', hb'', hshrunk', hlive'⟩ := h'.orderBook b' hb'
    refine ⟨b'', hb'', hshrunk.trans hshrunk', fun o ho => ?_⟩
    rcases hlive o ho with ho' | ⟨r, hr, hcanceled⟩
    · exact hlive' o ho'
    · obtain ⟨r', hr', hleft⟩ := h'.records _ r rfl hr
      refine Or.inr ⟨r', hr', ?_⟩
      cases hleft with
      | left => exact hcanceled
      | canceled _ hstatus => exact hstatus
  · obtain ⟨r', hr', hleft⟩ := h.records id r hid hr
    obtain ⟨r'', hr'', hleft'⟩ := h'.records id r' hid hr'
    exact ⟨r'', hr'', hleft.trans hleft'⟩
  · exact h'.noOrders id hid (h.noOrders id hid hnone)

/-- Changes that leave the book and the records of its orders alone. -/
lemma Contained.of_same (hbook : ∀ b, s.orderBooks.get book = some b →
      s'.orderBooks.get book = some b)
    (horders : ∀ id, id.bookId = book → s'.orderHistory.get id = s.orderHistory.get id) :
    s.Contained book s' :=
  ⟨fun b hb => ⟨b, hbook b hb, .refl b, fun _ ho => Or.inl ho⟩,
    fun id r hid hr => ⟨r, (horders id hid).trans hr, .left⟩,
    fun id hid hnone => (horders id hid).trans hnone⟩

end State

/-- The book an event trades on: it takes an order in or matches some. -/
def EventType.tradesOn : EventType → Option OrderBookId
  | .addLimitOrder event => some event.orderId.bookId
  | .matching event => some event.bookId
  | _ => none

lemma EventType.tradesOn_of_quiet {payload : EventType} (h : payload.quiet = true) :
    payload.tradesOn = none := by
  cases payload with
  | addLimitOrder event => cases h
  | matching event => cases h
  | _ => rfl

namespace Canister

variable {c c' : Canister} {book : OrderBookId}

/-- The halt of a book is kept: only what it allows happens, and no trading event of the book is
logged. -/
structure Contained (book : OrderBookId) (c c' : Canister) : Prop where
  state : c.state.Contained book c'.state
  log : ∃ new, c'.events = c.events ++ new ∧ ∀ e ∈ new, e.payload.tradesOn ≠ some book

lemma Contained.refl (book : OrderBookId) (c : Canister) : c.Contained book c :=
  ⟨.refl book c.state, [], (List.append_nil _).symm, fun _ hx => absurd hx List.not_mem_nil⟩

lemma Contained.trans {c'' : Canister} (h : c.Contained book c') (h' : c'.Contained book c'') :
    c.Contained book c'' := by
  obtain ⟨new, hnew, hall⟩ := h.log
  obtain ⟨new', hnew', hall'⟩ := h'.log
  refine ⟨h.state.trans h'.state, new ++ new', by rw [hnew', hnew, List.append_assoc],
    fun e he => ?_⟩
  rcases List.mem_append.mp he with he | he
  · exact hall e he
  · exact hall' e he

lemma Contained.of_logged {payload : EventType} {timestamp : Timestamp}
    (h : c.state.Contained book c'.state) (hlog : c.Logged payload timestamp c')
    (hne : payload.tradesOn ≠ some book) : c.Contained book c' := by
  refine ⟨h, [_], hlog.1, fun e he => ?_⟩
  rw [List.mem_singleton.mp he]
  exact hne

/-- **What a change does to a halted book.** -/
theorem Change.contained (h : c.Change c') (hs : c.state.Sound)
    (hhalted : c.state.permissions.isHalted book = true) : c.Contained book c' := by
  cases h with
  | listed event timestamp hadmits hok hlog =>
      refine .of_logged ?_ hlog (by rintro ⟨⟩)
      obtain ⟨_, -, hid, -, -, hnone, -, -, hstate⟩ := State.recordTradingPair_eq_ok hok
      rw [hstate]
      refine .of_same (fun b hb => ?_) fun _ _ => rfl
      have hne : event.bookId ≠ book := by
        rintro rfl
        rw [hnone] at hb
        cases hb
      show (SortedMap.insert _ _ _).get book = some b
      rw [SortedMap.get_insert_of_ne _ _ hne]
      exact hb
  | placed event timestamp order b b' pair scale uid required horder hadmits hplaced hlog =>
      have hne : event.orderId.bookId ≠ book := by
        rintro rfl
        obtain ⟨_, _, -, hopen⟩ := hadmits
        rw [hhalted] at hopen
        cases hopen
      refine .of_logged ?_ hlog fun heq => hne (Option.some.inj heq)
      refine .of_same (fun b₁ hb₁ => ?_) fun id hid => ?_
      · rw [hplaced.state]
        show (SortedMap.insert _ _ _).get book = some b₁
        rw [SortedMap.get_insert_of_ne _ _ hne]
        exact hb₁
      · rw [History.get_insertOnce hplaced.history, if_neg]
        rintro rfl
        exact hne hid
  | canceled event timestamp o r r' b b' pair scale refund hadmits hcanceled hlog =>
      refine .of_logged ?_ hlog (by rintro ⟨⟩)
      have hbooks : c'.state.orderBooks = c.state.orderBooks.insert event.orderId.bookId b' := by
        rw [hcanceled.state]
      refine ⟨fun b₁ hb₁ => ?_, fun id r₁ hid hr₁ => ?_, fun id hid hnone => ?_⟩
      · rw [hbooks]
        by_cases hbook : event.orderId.bookId = book
        · subst hbook
          rw [hcanceled.book] at hb₁
          cases hb₁
          refine ⟨b', SortedMap.get_insert_self _ _ _, hcanceled.removed.shrunk, fun o' ho' => ?_⟩
          by_cases hseq : o'.id = event.orderId.seq
          · right
            rw [hseq, OrderId.new_eta, hcanceled.history, if_pos rfl]
            exact ⟨r', rfl, hcanceled.status.1⟩
          · exact Or.inl (hcanceled.removed.mem_live.mpr ⟨ho', hseq⟩)
        · rw [SortedMap.get_insert_of_ne _ _ hbook]
          exact ⟨b₁, hb₁, .refl b₁, fun _ ho => Or.inl ho⟩
      · rw [hcanceled.history]
        by_cases heq : event.orderId = id
        · subst heq
          rw [hcanceled.record] at hr₁
          cases hr₁
          rw [if_pos rfl]
          obtain ⟨-, -, -, -, -, hlive, -⟩ := hcanceled.standing hs
          exact ⟨r', rfl, .canceled hlive hcanceled.status.1 hcanceled.status.2
            (hcanceled.evolves hs)⟩
        · rw [if_neg heq]
          exact ⟨r₁, hr₁, .left⟩
      · rw [hcanceled.history, if_neg]
        · exact hnone
        · rintro rfl
          rw [hcanceled.record] at hnone
          cases hnone
  | matched event timestamp b b' orders out pair scale fills refunds groups hadmits horders hne
      hmatched hlog =>
      have hne : event.bookId ≠ book := by
        rintro rfl
        obtain ⟨_, _, -, -, -, hopen⟩ := hadmits
        rw [hhalted] at hopen
        cases hopen
      refine .of_logged ?_ hlog fun heq => hne (Option.some.inj heq)
      refine .of_same (fun b₁ hb₁ => ?_) fun id hid => ?_
      · rw [hmatched.state]
        show (SortedMap.insert _ _ _).get book = some b₁
        rw [SortedMap.get_insert_of_ne _ _ hne]
        exact hb₁
      · exact hmatched.others id fun hx => hne (hx.symm.trans hid)
  | settled before after event timestamp pair scale pieces hqueue hfront hevent hsettled hlog =>
      refine ⟨.of_same (fun b hb => ?_) fun id _ => ?_, [_], hlog.1, fun e he => ?_⟩
      · rw [hsettled.state]
        exact hb
      · rw [hsettled.state]
      · rw [List.mem_singleton.mp he]
        rintro ⟨⟩
  | credited user token amount huser hok hlog =>
      have hstate : c.state.Contained book c'.state := by
        obtain ⟨_, _, _, -, -, hstate⟩ := State.deposit_eq_ok hok
        rw [hstate]
        exact .of_same (fun _ hb => hb) fun _ _ => rfl
      rcases hlog with hlog | ⟨timestamp, hlog⟩
      · refine ⟨hstate, [], by rw [hlog.1, List.append_nil], fun _ hx => ?_⟩
        exact absurd hx List.not_mem_nil
      · exact .of_logged hstate hlog (by rintro ⟨⟩)
  | debited user token amount hok hlog =>
      obtain ⟨_, _, -, -, hstate⟩ := State.withdraw_eq_ok hok
      refine ⟨?_, [], by rw [hlog.1, List.append_nil], fun _ hx => absurd hx List.not_mem_nil⟩
      rw [hstate]
      exact .of_same (fun _ hb => hb) fun _ _ => rfl
  | frame hframe hlog =>
      obtain ⟨new, hquiet, hnew⟩ := hlog.1
      refine ⟨.of_same (fun b hb => ?_) fun id _ => ?_, new, hnew, fun e he => ?_⟩
      · rw [hframe.orderBooks]
        exact hb
      · rw [hframe.orderHistory]
      · rw [EventType.tradesOn_of_quiet (hquiet e he)]
        rintro ⟨⟩

/-- **A move of the canister that does not touch the halts contains a halted book.** -/
theorem Moved.contained (h : c.Moved c') (hs : c.state.Sound)
    (hhalted : c.state.permissions.isHalted book = true) (hlogs : c.Logs c') :
    c.Contained book c' := by
  -- The halts cannot move in between, because the log tells all their changes.
  have key : ∀ {c'}, c.Moved c' → ∃ new, c'.events = c.events ++ new ∧ c'.state.Sound ∧
      ((∀ e ∈ new, ∀ event, e.payload ≠ .setHalt event) →
        c'.state.permissions = c.state.permissions ∧ c.Contained book c') := by
    intro c' h
    induction h with
    | refl => exact ⟨[], (List.append_nil _).symm, hs, fun _ => ⟨rfl, .refl book c⟩⟩
    | tail _ hmove ih =>
        obtain ⟨new, hnew, hs₁, hkept⟩ := ih
        obtain ⟨new', hnew', hperm⟩ := hmove.permissions
        have hchange := hmove.change hs₁
        refine ⟨new ++ new', by rw [hnew', hnew, List.append_assoc], (hchange.sound hs₁).1,
          fun hall => ?_⟩
        obtain ⟨hsame, hcontained⟩ := hkept fun e he => hall e (List.mem_append_left _ he)
        have hquiet : ∀ (l : List Event) (p : Permissions),
            (∀ e ∈ l, ∀ event, e.payload ≠ .setHalt event) →
            l.foldl (fun p e => p.after e.payload) p = p := by
          intro l
          induction l with
          | nil => exact fun _ _ => rfl
          | cons e l ih =>
              intro p hl
              rw [List.foldl_cons, Permissions.after_of_ne (hl e List.mem_cons_self)]
              exact ih p fun e' he' => hl e' (List.mem_cons_of_mem _ he')
        rw [hquiet new' _ fun e he => hall e (List.mem_append_right _ he), hsame] at hperm
        exact ⟨hperm, hcontained.trans (hchange.contained hs₁ (by rw [hsame]; exact hhalted))⟩
  obtain ⟨new, hnew, -, hkept⟩ := key h
  obtain ⟨new', hnew', hall⟩ := hlogs
  obtain rfl : new = new' := List.append_cancel_left (hnew.symm.trans hnew')
  exact (hkept hall).2

end Canister

end OisyTrade
