import OisyTrade.Calls
import OisyTrade.Invariant.Preserve

/-!
# Reachable worlds

Every step of the world moves the canister by acts and by changes of the guard set
(`Step.moved`), so what every change keeps holds in every reachable world (`Reachable.invariant`)
and along every run (`Run.extends`).

A continuation credits its caller without asking again whether the caller may hold funds.  That this
is right is the invariant `Guarded`: a call that waits holds its guard, no two calls hold the same
one, and a principal with a guard is no trading account.  The start of a call refuses trading
accounts, and a grant refuses principals with a guard.
-/

namespace OisyTrade

/-- A principal with a guard is no trading account. -/
def State.GuardsDisjoint (s : State) : Prop :=
  ∀ key, s.inFlightUserOps.get key = some () →
    s.userRegistry.tradingAccounts.get (ofLex key).1 = none

namespace Canister

variable {c c' : Canister}

/-- An act, or a change of the guards. -/
def Moves (c c' : Canister) : Prop := c.Act c' ∨ ∃ ops, c' = c.withGuards ops

/-- A sequence of moves. -/
def Moved (c c' : Canister) : Prop := Relation.ReflTransGen Moves c c'

lemma Moved.refl (c : Canister) : c.Moved c := Relation.ReflTransGen.refl

lemma Moved.trans {c'' : Canister} (h : c.Moved c') (h' : c'.Moved c'') : c.Moved c'' :=
  Relation.ReflTransGen.trans h h'

lemma Act.moved (h : c.Act c') : c.Moved c' := Relation.ReflTransGen.single (Or.inl h)

lemma Acts.moved (h : c.Acts c') : c.Moved c' := by
  refine h.induction (P := fun c' => c.Moved c') (Moved.refl c) fun c₁ c₂ h₁ hact => ?_
  exact h₁.trans hact.moved

lemma moved_withGuards (c : Canister) (ops : SortedSet UserOpKey) : c.Moved (c.withGuards ops) :=
  Relation.ReflTransGen.single (Or.inr ⟨ops, rfl⟩)

lemma moved_dropUserOp (c : Canister) (caller : Principal) (token : TokenId) :
    c.Moved (c.dropUserOp caller token) := moved_withGuards c _

lemma QuietLog.refl (c : Canister) : c.QuietLog c :=
  ⟨⟨[], fun _ hx => absurd hx List.not_mem_nil, (List.append_nil _).symm⟩,
    ⟨[], fun _ hx => absurd hx List.not_mem_nil, (List.append_nil _).symm⟩⟩

lemma Moves.change (hs : c.state.Sound) (h : c.Moves c') : c.Change c' := by
  rcases h with h | ⟨ops, rfl⟩
  · exact h.change hs
  · exact .frame (State.Frame.of_registry_eq rfl) (QuietLog.refl c)

/-- **Invariant rule for moves.** -/
lemma Moved.invariant {P : Canister → Prop} (h : c.Moved c') (hs : c.state.Sound) (hc : P c)
    (hstep : ∀ c c', c.state.Sound → P c → c.Change c' → P c') : c'.state.Sound ∧ P c' := by
  induction h with
  | refl => exact ⟨hs, hc⟩
  | tail _ hmove ih =>
      have hchange := hmove.change ih.1
      exact ⟨(hchange.sound ih.1).1, hstep _ _ ih.1 ih.2 hchange⟩

lemma Moved.sound (h : c.Moved c') (hs : c.state.Sound) :
    c'.state.Sound ∧ c.state.Extends c'.state :=
  h.invariant (P := fun c' => c.state.Extends c'.state) hs (State.Extends.refl _)
    fun _ _ hs hx hchange => hx.trans (hchange.sound hs).2

/-! ## Guards and grants -/

/-- Processing an event leaves the guards alone, and no grant goes to a principal with a guard. -/
lemma event_guards {payload : EventType} {timestamp : Timestamp} {s s' : State}
    (hadmits : s.Admits timestamp payload)
    (hok : s.applyStateTransition payload timestamp .write = .ok s') :
    s'.inFlightUserOps = s.inFlightUserOps ∧ (s.userRegistry.Sound → s.GuardsDisjoint →
      s'.GuardsDisjoint) := by
  have hsame : ∀ {s' : State}, s'.inFlightUserOps = s.inFlightUserOps →
      s'.userRegistry = s.userRegistry → s'.inFlightUserOps = s.inFlightUserOps ∧
        (s.userRegistry.Sound → s.GuardsDisjoint → s'.GuardsDisjoint) := by
    intro s' h1 h2
    exact ⟨h1, fun _ hd key hkey => by rw [h2]; exact hd key (h1 ▸ hkey)⟩
  cases payload with
  | init arg => exact hadmits.elim
  | upgrade arg =>
      obtain ⟨policy, rfl⟩ := State.applyUpgrade_eq_ok hok
      exact hsame rfl rfl
  | addTradingPair event =>
      obtain ⟨next, -, -, -, -, -, -, -, rfl⟩ := State.recordTradingPair_eq_ok hok
      exact hsame rfl rfl
  | deposit event =>
      obtain ⟨uid, registry, balances, hreg, -, rfl⟩ := State.deposit_eq_ok hok
      refine ⟨rfl, fun _ hd key hkey => ?_⟩
      show registry.tradingAccounts.get _ = none
      rw [(UserRegistry.getOrRegister_eq_ok hreg).1]
      exact hd key hkey
  | addLimitOrder event =>
      obtain ⟨_, _, _, _, _, _, _, _, -, -, -, -, -, -, -, rfl⟩ := State.recordLimitOrder_eq_ok hok
      exact hsame rfl rfl
  | settling event => exact hadmits.elim
  | matching event =>
      obtain ⟨_, _, _, _, _, _, _, -, -, -, -, -, rfl⟩ := State.recordMatchingEvent_eq_ok hok
      exact hsame rfl rfl
  | withdraw event => exact hadmits.elim
  | cancelLimitOrder event =>
      obtain ⟨_, _, _, _, _, _, _, -, -, -, -, -, rfl⟩ := State.recordCancelLimitOrder_eq_ok hok
      exact hsame rfl rfl
  | setHalt event =>
      cases hok
      exact hsame rfl rfl
  | addTradingAccount event =>
      simp only [State.applyStateTransition, State.recordAddTradingAccount, Except.bind_eq_ok,
        Except.ok.injEq] at hok
      obtain ⟨registry, hreg, rfl⟩ := hok
      refine ⟨rfl, fun _ hd key hkey => ?_⟩
      have hkeys := (State.validate_registry hadmits).2 key
        (SortedMap.mem_keys_iff _ |>.mpr (by rw [hkey]; rfl))
      show registry.tradingAccounts.get _ = none
      rw [UserRegistry.grants_recordAddTradingAccount hreg,
        SortedMap.get_insert_of_ne _ _ (Ne.symm hkeys)]
      exact hd key hkey
  | removeTradingAccount event =>
      simp only [State.applyStateTransition, State.recordRemoveTradingAccount, Except.bind_eq_ok,
        Except.ok.injEq] at hok
      obtain ⟨registry, hreg, rfl⟩ := hok
      refine ⟨rfl, fun hr hd key hkey => ?_⟩
      exact (hr.recordRemoveTradingAccount hreg).2.2.2 _ (hd key hkey)

/-- Acts leave the guards alone, and no grant goes to a principal with a guard. -/
lemma Act.guards (h : c.Act c') :
    c'.state.inFlightUserOps = c.state.inFlightUserOps ∧ (c.state.userRegistry.Sound →
      c.state.GuardsDisjoint → c'.state.GuardsDisjoint) := by
  cases h with
  | event hadmits hok =>
      obtain ⟨s, hs, rfl⟩ := processEvent_eq_ok hok
      exact event_guards hadmits hs
  | settle hqueue hfront hok =>
      obtain ⟨s, hs, rfl⟩ := processEvent_eq_ok hok
      obtain ⟨_, _, _, _, _, -, -, -, -, rfl⟩ := State.recordSettlingEvent_eq_ok hs
      exact ⟨rfl, fun _ hd => hd⟩
  | debit hok =>
      obtain ⟨_, _, -, -, rfl⟩ := State.withdraw_eq_ok hok
      exact ⟨rfl, fun _ hd => hd⟩
  | credit huser hok =>
      obtain ⟨uid, registry, balances, hreg, -, rfl⟩ := State.deposit_eq_ok hok
      refine ⟨rfl, fun _ hd key hkey => ?_⟩
      show registry.tradingAccounts.get _ = none
      rw [(UserRegistry.getOrRegister_eq_ok hreg).1]
      exact hd key hkey
  | logged event timestamp => exact ⟨rfl, fun _ hd => hd⟩
  | note hsame =>
      refine ⟨by rw [hsame.eq], fun _ hd => ?_⟩
      rw [hsame.eq]
      exact hd

lemma Acts.guards (h : c.Acts c') (hs : c.state.Sound) :
    c'.state.inFlightUserOps = c.state.inFlightUserOps ∧
      (c.state.GuardsDisjoint → c'.state.GuardsDisjoint) := by
  have key := h.induction (P := fun c' => c'.state.Sound ∧
      c'.state.inFlightUserOps = c.state.inFlightUserOps ∧
      (c.state.GuardsDisjoint → c'.state.GuardsDisjoint)) ⟨hs, rfl, id⟩
    fun c₁ c₂ ⟨hs₁, h1, h2⟩ hact => ⟨(hact.sound hs₁).1, hact.guards.1.trans h1,
      fun hd => hact.guards.2 hs₁.registry (h2 hd)⟩
  exact key.2

end Canister

/-! ## The world -/

/-- The guard of a call. -/
def Call.key (call : Call) : UserOpKey := userOpKey call.caller call.token

@[simp] lemma Call.key_answered (call : Call) (reply : LedgerReply) :
    (call.answered reply).key = call.key := by
  rw [answered]
  cases call.requests <;> rfl

namespace Canister

variable {c c' : Canister} {rt : Runtime}

lemma init_eq_ok {arg : OisyTradeArg} (h : init arg rt = .ok c) :
    c.state.Sound ∧ c.state.inFlightUserOps = SortedSet.empty ∧ c.journal = [] ∧
      c.state.orderBooks = SortedMap.empty ∧ c.state.balances = TokenBalance.empty ∧
      c.state.orderHistory = History.empty ∧ c.state.tradeHistory = History.empty ∧
      c.state.userRegistry = UserRegistry.empty ∧ c.state.pendingSettlingEvents = [] ∧
      ∃ arg, c.events = [⟨rt.time, .init arg⟩] := by
  cases arg with
  | upgrade arg => cases h
  | init arg =>
      rw [init] at h
      cases hs : State.new arg History.empty History.empty UserRegistry.empty TokenBalance.empty with
      | error e =>
          simp only [hs] at h
          cases h
      | ok s =>
          simp only [hs, Except.ok.injEq] at h
          subst h
          simp only [State.new, Except.bind_eq_ok, Except.ok.injEq] at hs
          obtain ⟨policy, -, rfl⟩ := hs
          refine ⟨⟨⟨fun pair id => ⟨fun h => (nomatch h), fun h => (nomatch h)⟩, ?_, ?_⟩,
            UserRegistry.sound_empty, ?_, ?_, ?_,
            History.indexed_empty, History.indexed_empty⟩, rfl, rfl, rfl, rfl, rfl, rfl, rfl, rfl,
            arg, rfl⟩
          · intro id b hb
            cases hb
          · intro id pair hp
            cases hp
          · intro id r hr
            cases hr
          · intro id b hb
            cases hb
          · intro event hev
            cases hev

/-- **An upgrade** forgets the running task and the guards, and may process one event. -/
lemma upgrade_eq_ok {arg : Option OisyTradeArg} (hs : c.state.Sound)
    (h : c.upgrade rt arg = .ok c') :
    ∃ c₁ : Canister, c₁ = { c with state := { c.state with
        activeTasks := SortedSet.empty, inFlightUserOps := SortedSet.empty } } ∧
      (c' = c₁ ∨ ∃ arg, c₁.processEvent (.upgrade arg) rt.time = .ok c') := by
  have hrestore := StateSnapshot.intoState_ofState (s := c.state)
    (fun id b hb => ⟨(hs.wired.listed id b hb).id, (hs.wired.listed id b hb).wf.sound⟩)
    hs.wired.pairs
  simp only [upgrade, hrestore, Except.bind_ok] at h
  refine ⟨_, rfl, ?_⟩
  cases arg with
  | none =>
      cases h
      exact Or.inl rfl
  | some arg =>
      cases arg with
      | init _ => cases h
      | upgrade arg =>
          cases arg with
          | none =>
              cases h
              exact Or.inl rfl
          | some arg => exact Or.inr ⟨arg, h⟩

lemma upgrade_moved {arg : Option OisyTradeArg} (hs : c.state.Sound)
    (h : c.upgrade rt arg = .ok c') :
    c.Moved c' ∧ c'.state.inFlightUserOps = SortedSet.empty := by
  obtain ⟨c₁, rfl, hc⟩ := upgrade_eq_ok hs h
  have h₁ : c.Moved { c with state := { c.state with
      activeTasks := SortedSet.empty, inFlightUserOps := SortedSet.empty } } := by
    have hsame : c.state.SameButNotes { c.state with activeTasks := SortedSet.empty } := ⟨rfl⟩
    refine (Act.moved (Act.note hsame)).trans ?_
    exact moved_withGuards _ SortedSet.empty
  rcases hc with rfl | ⟨arg, hproc⟩
  · exact ⟨h₁, rfl⟩
  · have hadmits : ∀ s : State, s.Admits rt.time (.upgrade arg) := fun _ => trivial
    have hact := Act.event (hadmits _) hproc
    exact ⟨h₁.trans hact.moved, hact.guards.1⟩

lemma moved_withFee (c : Canister) (token : TokenId) (fee : Option ℕ) :
    c.Moved (c.withFee token fee) ∧
      (c.withFee token fee).state.inFlightUserOps = c.state.inFlightUserOps := by
  cases fee with
  | none => exact ⟨Moved.refl c, rfl⟩
  | some fee => exact ⟨(Act.note ⟨rfl⟩).moved, rfl⟩

end Canister

/-- **A continuation moves the canister**, and it releases the guard of its call or asks again. -/
lemma Call.Resumed.moved {call : Call} {rt : Runtime} {c c' : Canister} {reply : LedgerReply}
    {r : CallResult ⊕ Transfer} (h : call.Resumed rt c reply c' r)
    (hcaller : c.state.userRegistry.tradingAccounts.get call.caller = none) :
    c.Moved c' ∧ c'.state.userRegistry.tradingAccounts = c.state.userRegistry.tradingAccounts ∧
      ((∃ result, r = .inl result ∧
        c'.state.inFlightUserOps = c.state.inFlightUserOps.erase call.key) ∨
      (∃ transfer, r = .inr transfer ∧ c' = c)) := by
  cases h with
  | deposited hkind hreply hproc =>
      have hadmits : c.state.Admits rt.time (.deposit ⟨call.caller, call.token, call.amount⟩) :=
        hcaller
      have hact : c.Act _ := Canister.Act.event hadmits hproc
      obtain ⟨s, hs, rfl⟩ := Canister.processEvent_eq_ok hproc
      obtain ⟨uid, registry, balances, hreg, -, rfl⟩ := State.deposit_eq_ok hs
      exact ⟨hact.moved.trans (Canister.moved_dropUserOp _ _ _),
        (UserRegistry.getOrRegister_eq_ok hreg).1, Or.inl ⟨_, rfl, rfl⟩⟩
  | depositRefused hkind hreply =>
      exact ⟨Canister.moved_dropUserOp _ _ _, rfl, Or.inl ⟨_, rfl, rfl⟩⟩
  | @withdrawn _ fee hkind hreply =>
      obtain ⟨hm, hg⟩ := Canister.moved_withFee c call.token fee
      refine ⟨hm.trans ((Canister.Act.logged _ _).moved.trans (Canister.moved_dropUserOp _ _ _)), ?_,
        Or.inl ⟨_, rfl, ?_⟩⟩
      · cases fee <;> rfl
      · cases fee <;> rfl
  | @creditedBack _ fee state hkind hreply hok =>
      obtain ⟨hm, hg⟩ := Canister.moved_withFee c call.token fee
      have htrading : (c.withFee call.token fee).state.userRegistry = c.state.userRegistry := by
        cases fee <;> rfl
      have hact := Canister.Act.credit (by rw [htrading]; exact hcaller) hok
      obtain ⟨uid, registry, balances, hreg, -, rfl⟩ := State.deposit_eq_ok hok
      refine ⟨hm.trans (hact.moved.trans (Canister.moved_dropUserOp _ _ _)), ?_,
        Or.inl ⟨_, rfl, ?_⟩⟩
      · rw [← htrading]
        exact (UserRegistry.getOrRegister_eq_ok hreg).1
      · show (c.withFee call.token fee).state.inFlightUserOps.erase call.key = _
        rw [hg]
  | retried => exact ⟨Canister.Moved.refl c, rfl, Or.inr ⟨_, rfl, rfl⟩⟩

namespace World

/-- **The guards protect the calls.** -/
structure Guarded (w : World) : Prop where
  sound : w.canister.state.Sound
  disjoint : w.canister.state.GuardsDisjoint
  held : ∀ call ∈ w.calls, w.canister.state.inFlightUserOps.get call.key = some ()
  nodup : (w.calls.map Call.key).Nodup

variable {w w' : World}

/-- The caller of a waiting call is no trading account. -/
lemma Guarded.caller (h : w.Guarded) {call : Call} (hcall : call ∈ w.calls) :
    w.canister.state.userRegistry.tradingAccounts.get call.caller = none :=
  h.disjoint call.key (h.held call hcall)

/-- The guards after a call has ended. -/
lemma Guarded.ended (h : w.Guarded) {before after : List Call} {call : Call} {c : Canister}
    (hcalls : w.calls = before ++ call :: after) (hs : c.state.Sound)
    (htrading : c.state.userRegistry.tradingAccounts
      = w.canister.state.userRegistry.tradingAccounts)
    (hguards : c.state.inFlightUserOps = w.canister.state.inFlightUserOps.erase call.key)
    {finished : List (Call × CallResult)} :
    Guarded { w with canister := c, calls := before ++ after, finished } := by
  have hnd := h.nodup
  rw [hcalls, List.map_append, List.map_cons, List.nodup_middle, List.nodup_cons] at hnd
  refine ⟨hs, fun key hkey => ?_, fun call' hcall' => ?_, ?_⟩
  · rw [htrading]
    rw [hguards, SortedMap.get_erase] at hkey
    split_ifs at hkey
    exact h.disjoint key hkey
  · have hmem : call' ∈ w.calls := by
      rw [hcalls]
      rcases List.mem_append.mp hcall' with hx | hx
      · exact List.mem_append_left _ hx
      · exact List.mem_append_right _ (List.mem_cons_of_mem _ hx)
    rw [hguards, SortedMap.get_erase_of_ne]
    · exact h.held call' hmem
    · intro he
      refine hnd.1 ?_
      rw [he, ← List.map_append]
      exact List.mem_map_of_mem hcall'
  · rw [← List.map_append] at hnd
    exact hnd.2

/-- The guards when one call is replaced by a call with the same key. -/
lemma Guarded.replaced (h : w.Guarded) {before after : List Call} {call : Call} (call' : Call)
    (hcalls : w.calls = before ++ call :: after) (hkey : call'.key = call.key)
    {ledger : TokenId → ℕ} :
    Guarded { w with calls := before ++ call' :: after, ledger } := by
  have hkeys : (before ++ call' :: after).map Call.key = w.calls.map Call.key := by
    rw [hcalls, List.map_append, List.map_append, List.map_cons, List.map_cons, hkey]
  refine ⟨h.sound, h.disjoint, fun x hx => ?_, ?_⟩
  · have hmem : x.key ∈ w.calls.map Call.key := hkeys ▸ List.mem_map_of_mem hx
    obtain ⟨y, hy, he⟩ := List.mem_map.mp hmem
    rw [← he]
    exact h.held y hy
  · show ((before ++ call' :: after).map Call.key).Nodup
    rw [hkeys]
    exact h.nodup

/-- The guards when a call starts. -/
lemma Guarded.started (h : w.Guarded) {call : Call} {c : Canister} (hs : c.state.Sound)
    (hregistry : c.state.userRegistry = w.canister.state.userRegistry)
    (hguards : c.state.inFlightUserOps = w.canister.state.inFlightUserOps.insert call.key ())
    (hfree : w.canister.state.inFlightUserOps.get call.key = none)
    (hcaller : w.canister.state.userRegistry.tradingAccounts.get call.caller = none) :
    Guarded { w with canister := c, calls := call :: w.calls } := by
  refine ⟨hs, fun key hkey => ?_, fun call' hcall' => ?_, ?_⟩
  · rw [hregistry]
    rw [hguards, SortedMap.get_insert] at hkey
    split_ifs at hkey with he
    · rw [← he]
      exact hcaller
    · exact h.disjoint key hkey
  · rw [hguards, SortedMap.get_insert]
    split_ifs with he
    · rfl
    · rcases List.mem_cons.mp hcall' with rfl | hmem
      · exact absurd rfl he
      · exact h.held call' hmem
  · rw [List.map_cons, List.nodup_cons]
    refine ⟨fun hmem => ?_, h.nodup⟩
    obtain ⟨y, hy, he⟩ := List.mem_map.mp hmem
    have := h.held y hy
    rw [he, hfree] at this
    cases this

/-- **Every step moves the canister and keeps the calls guarded.** -/
theorem Step.guarded (hw : w.Guarded) (h : Step w w') :
    w.canister.Moved w'.canister ∧ w'.Guarded := by
  cases h with
  | message hrun =>
      have hacts := Message.run_acts hrun
      obtain ⟨hguards, hdisjoint⟩ := hacts.guards hw.sound
      refine ⟨hacts.moved, (hacts.sound hw.sound).1, hdisjoint hw.disjoint, fun call hcall => ?_,
        hw.nodup⟩
      rw [hguards]
      exact hw.held call hcall
  | @depositStarted rt token n amount c hrun =>
      rcases Canister.depositStart_eq_ok hrun with ⟨e, he, -⟩ |
        ⟨amount', balance, -, -, htrading, hfree, -, -, rfl⟩
      · cases he
      · have hm := Canister.moved_withGuards w.canister
          (w.canister.state.inFlightUserOps.insert (userOpKey rt.msgCaller token) ())
        exact ⟨hm, hw.started (hm.sound hw.sound).1 rfl rfl hfree htrading⟩
  | depositRefused hrun =>
      rcases Canister.depositStart_eq_ok hrun with ⟨e, -, rfl⟩ | ⟨amount, balance, he, -⟩
      · exact ⟨Canister.Moved.refl _, hw⟩
      · cases he
  | withdrawStarted hrun =>
      rcases Canister.withdrawStart_eq_ok hrun with ⟨e, he, -⟩ |
        ⟨amount, c₁, state, he, -, -, htrading, hfree, rfl, hdebit, rfl⟩
      · cases he
      · have hm := (Canister.moved_withGuards w.canister _).trans (Canister.Act.debit hdebit).moved
        obtain ⟨uid, balances, -, -, rfl⟩ := State.withdraw_eq_ok hdebit
        exact ⟨hm, hw.started (hm.sound hw.sound).1 rfl rfl hfree htrading⟩
  | withdrawRefused hrun =>
      rcases Canister.withdrawStart_eq_ok hrun with ⟨e, -, rfl⟩ | ⟨amount, c₁, state, he, -⟩
      · exact ⟨Canister.Moved.refl _, hw⟩
      · cases he
  | executed hcalls hwaiting hmoves =>
      exact ⟨Canister.Moved.refl _, hw.replaced _ hcalls (Call.key_answered _ _)⟩
  | executedAbandoned hcalls hwaiting hmoves =>
      exact ⟨Canister.Moved.refl _, hw.sound, hw.disjoint, hw.held, hw.nodup⟩
  | @delivered before after call transfer reply earlier rt hcalls hanswered =>
      have hmem : call ∈ w.calls := by
        rw [hcalls]
        exact List.mem_append_right _ List.mem_cons_self
      have hcaller := hw.caller hmem
      rw [World.delivered]
      cases hres : call.resume rt w.canister reply with
      | error trap =>
          have hm := Canister.moved_dropUserOp w.canister call.caller call.token
          exact ⟨hm, hw.ended hcalls (hm.sound hw.sound).1 rfl rfl⟩
      | ok r =>
          obtain ⟨c, r⟩ := r
          obtain ⟨hm, htrading, hcase⟩ := (Call.resume_eq_ok hres).moved hcaller
          rcases hcase with ⟨result, rfl, hguards⟩ | ⟨transfer', rfl, rfl⟩
          · exact ⟨hm, hw.ended hcalls (hm.sound hw.sound).1 htrading hguards⟩
          · exact ⟨hm, hw.replaced { call with requests := ⟨transfer', none⟩ ::
              call.requests } hcalls rfl⟩
  | upgraded hrun =>
      obtain ⟨hm, hguards⟩ := Canister.upgrade_moved hw.sound hrun
      refine ⟨hm, (hm.sound hw.sound).1, fun key hkey => ?_,
        fun _ hx => absurd hx List.not_mem_nil, List.nodup_nil⟩
      rw [hguards] at hkey
      cases hkey

/-- **Reachable worlds are guarded.** -/
theorem Reachable.guarded (h : Reachable w) : w.Guarded := by
  induction h with
  | init hinit =>
      obtain ⟨hs, hguards, -⟩ := Canister.init_eq_ok hinit
      refine ⟨hs, fun key hkey => ?_, fun _ hx => absurd hx List.not_mem_nil, List.nodup_nil⟩
      rw [show (start _).canister.state.inFlightUserOps = SortedSet.empty from hguards] at hkey
      cases hkey
  | step _ _ hstep ih => exact (hstep.guarded ih).2

/-- **Invariant rule.**  What holds after `init` and is kept by every change holds in every reachable
world. -/
theorem Reachable.invariant {P : Canister → Prop} (h : Reachable w)
    (hinit : ∀ arg rt c, Canister.init arg rt = .ok c → P c)
    (hstep : ∀ c c', c.state.Sound → P c → c.Change c' → P c') : P w.canister := by
  induction h with
  | init hi => exact hinit _ _ _ hi
  | step hreach _ hs ih =>
      have hg := Reachable.guarded (w := _) (ReachableWhile.reachable hreach)
      exact ((hs.guarded hg).1.invariant hg.sound ih hstep).2

/-- **Along every run nothing known is lost and records only move forward.** -/
theorem Run.extends (h : Run w w') (hw : Reachable w) :
    w.canister.state.Extends w'.canister.state := by
  induction h with
  | refl => exact State.Extends.refl _
  | @tail w₁ w₂ hrun hstep ih =>
      have hg := (hw.run hrun).guarded
      exact ih.trans ((hstep.guarded hg).1.sound hg.sound).2

end World

end OisyTrade
