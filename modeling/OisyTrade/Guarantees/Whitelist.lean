import OisyTrade.Invariant.Reach
import OisyTrade.Script

/-!
# The whitelist of trading accounts

The registry keeps delegation twice: `trading_accounts` maps a trading account to the account it
acts for, and `trading_accounts_by_funding` lists the trading accounts under the id of a funding
account, with the time of the last grant.  `Whitelist` says that the two agree.

The time of the last grant is the anchor of the cooldown.  A revocation rewrites the entry that
holds it but keeps the entry and the time, so every grant in the event log is at most as recent as
the anchor of its granter (`Spaced`), and the check of the next grant puts it an hour later.
-/

namespace OisyTrade

namespace UserRegistry

/-- The trading accounts listed under an id. -/
def accountsUnder (r : UserRegistry) (id : UserId) : List Principal :=
  ((r.tradingAccountsByFunding.get id).map (·.accounts)).getD []

/-- **The two maps of delegation agree.** -/
structure Whitelist (r : UserRegistry) : Prop where
  registered : ∀ id list, r.tradingAccountsByFunding.get id = some list →
    ∃ p, r.users.get p = some id
  nodup : ∀ id, (r.accountsUnder id).Nodup
  capped : ∀ id, (r.accountsUnder id).length ≤ maxTradingAccountsPerUser
  listed : ∀ p id, r.users.get p = some id →
    ∀ t, t ∈ r.accountsUnder id ↔ r.tradingAccounts.get t = some ⟨p⟩

/-- **The grants are spaced.**  Two grants of one granter are an hour apart, and the granter's entry
remembers a time that is at least as late as each of them. -/
structure Spaced (r : UserRegistry) (grants : List (Timestamp × AddTradingAccountEvent)) : Prop where
  apart : grants.Pairwise fun g g' => g.2.funding = g'.2.funding →
    g.1.nanos.toNat + tradingAccountGrantCooldown ≤ g'.1.nanos.toNat
  anchored : ∀ g ∈ grants, ∃ id list, r.users.get g.2.funding.principal = some id ∧
    r.tradingAccountsByFunding.get id = some list ∧
    g.1.nanos.toNat ≤ list.lastGrantedAt.nanos.toNat

/-- **What can happen to a registry**, with the grant it logs. -/
inductive Changed (r r' : UserRegistry) : Option (Timestamp × AddTradingAccountEvent) → Prop
  | same (hsame : r' = r) : Changed r r' none
  | registered (user : Principal) (id : UserId) (hok : r.getOrRegister user = .ok (id, r')) :
      Changed r r' none
  | granted (funding : FundingAccount) (trading : TradingAccount) (now : Timestamp)
      (hval : r.validateAddTradingAccount funding trading now = .ok (.ok ()))
      (hok : r.recordAddTradingAccount funding trading now = .ok r') :
      Changed r r' (some (now, ⟨funding, trading⟩))
  | revoked (funding : FundingAccount) (trading : TradingAccount)
      (hok : r.recordRemoveTradingAccount funding trading = .ok r') : Changed r r' none

variable {r r' : UserRegistry}

lemma whitelist_empty : empty.Whitelist :=
  ⟨fun _ _ h => (nomatch h), fun _ => List.nodup_nil, fun _ => Nat.zero_le _,
    fun _ _ h => (nomatch h)⟩

lemma accountsUnder_of_get {id : UserId} {list : TradingAccountList}
    (h : r.tradingAccountsByFunding.get id = some list) : r.accountsUnder id = list.accounts := by
  rw [accountsUnder, h]
  rfl

lemma getD_accounts (r : UserRegistry) (id : UserId) :
    ((r.tradingAccountsByFunding.get id).getD .empty).accounts = r.accountsUnder id := by
  rw [accountsUnder]
  cases r.tradingAccountsByFunding.get id <;> rfl

/-! ## What each operation keeps -/

/-- A principal that registers has no list yet. -/
lemma Whitelist.getOrRegister (hw : r.Whitelist) (hs : r.Sound) {user : Principal} {id : UserId}
    (h : r.getOrRegister user = .ok (id, r')) : r'.Whitelist := by
  obtain ⟨ht, hf, hu, hother, hcase⟩ := getOrRegister_eq_ok h
  rcases hcase with rfl | ⟨hnone, hid, -⟩
  · exact hw
  have hunder : ∀ id, r'.accountsUnder id = r.accountsUnder id := by
    intro id
    rw [accountsUnder, accountsUnder, hf]
  refine ⟨?_, ?_, ?_, ?_⟩
  · intro id' list hlist
    rw [hf] at hlist
    obtain ⟨p, hp⟩ := hw.registered id' list hlist
    refine ⟨p, ?_⟩
    rw [hother p (fun he => by rw [he, hnone] at hp; cases hp)]
    exact hp
  · intro id'
    rw [hunder]
    exact hw.nodup id'
  · intro id'
    rw [hunder]
    exact hw.capped id'
  · intro p id' hp t
    rw [hunder, ht]
    by_cases hpu : p = user
    · subst hpu
      rw [hu] at hp
      cases hp
      -- the id is new, so neither map has heard of it
      have hlist : r.tradingAccountsByFunding.get id = none := by
        cases hl : r.tradingAccountsByFunding.get id with
        | none => rfl
        | some list =>
            obtain ⟨q, hq⟩ := hw.registered id list hl
            exact absurd (hs.below q id hq) (by omega)
      constructor
      · intro hmem
        rw [accountsUnder, hlist] at hmem
        cases hmem
      · intro hg
        obtain ⟨id', list, hp', -⟩ := hs.granted t ⟨p⟩ hg
        rw [hnone] at hp'
        cases hp'
    · rw [hother p hpu] at hp
      exact hw.listed p id' hp t

lemma checkGrantLimits_eq_ok {list : Option TradingAccountList} {now : Timestamp}
    (h : checkGrantLimits list now = .ok ()) : ∀ l, list = some l →
      l.accounts.length < maxTradingAccountsPerUser ∧
      l.lastGrantedAt.nanos.toNat + tradingAccountGrantCooldown ≤ now.nanos.toNat := by
  rintro l rfl
  simp only [checkGrantLimits] at h
  split_ifs at h with hcap hcool
  have hpos : 0 < tradingAccountGrantCooldown := by decide
  omega

lemma Whitelist.recordAddTradingAccount (hw : r.Whitelist) (hs : r.Sound)
    {funding : FundingAccount} {trading : TradingAccount} {now : Timestamp}
    (hval : r.validateAddTradingAccount funding trading now = .ok (.ok ()))
    (h : r.recordAddTradingAccount funding trading now = .ok r') : r'.Whitelist := by
  obtain ⟨-, -, ⟨fid, hfid, hlimits⟩, -⟩ := State.validateAddTradingAccount_eq_ok hval
  obtain ⟨id, hid, hnew, rfl⟩ := recordAddTradingAccount_eq_ok h
  obtain rfl : id = fid := Option.some.inj (hid.symm.trans hfid)
  have hfund := (fundingId_eq_some.mp hid).2
  have hfresh : trading.principal ∉ r.accountsUnder id := by
    intro hmem
    rw [hw.listed funding.principal id hfund, hnew] at hmem
    cases hmem
  have hcap : (r.accountsUnder id).length < maxTradingAccountsPerUser := by
    cases hl : r.tradingAccountsByFunding.get id with
    | none =>
        rw [accountsUnder, hl]
        decide
    | some list =>
        rw [accountsUnder_of_get hl]
        exact (checkGrantLimits_eq_ok hlimits list hl).1
  have hunder : ∀ id', UserRegistry.accountsUnder { r with
      tradingAccounts := r.tradingAccounts.insert trading.principal ⟨funding.principal⟩
      tradingAccountsByFunding := r.tradingAccountsByFunding.insert id
        { accounts := ((r.tradingAccountsByFunding.get id).getD .empty).accounts
            ++ [trading.principal], lastGrantedAt := now } } id'
      = if id = id' then r.accountsUnder id ++ [trading.principal] else r.accountsUnder id' := by
    intro id'
    rw [accountsUnder, getD_accounts]
    show ((SortedMap.get (SortedMap.insert _ _ _) id').map _).getD _ = _
    rw [SortedMap.get_insert]
    split_ifs <;> rfl
  refine ⟨?_, ?_, ?_, ?_⟩
  · intro id' list hlist
    by_cases hii : id = id'
    · exact ⟨funding.principal, hii ▸ hfund⟩
    · rw [SortedMap.get_insert_of_ne _ _ hii] at hlist
      exact hw.registered id' list hlist
  · intro id'
    rw [hunder]
    split_ifs with hii
    · rw [← List.concat_eq_append]
      exact (hw.nodup id).concat hfresh
    · exact hw.nodup id'
  · intro id'
    rw [hunder]
    split_ifs with hii
    · rw [List.length_append, List.length_singleton]
      exact hcap
    · exact hw.capped id'
  · intro p id' hp t
    rw [hunder, SortedMap.get_insert]
    have hp' : r.users.get p = some id' := hp
    split_ifs with hii ht ht
    · subst hii
      cases hs.injective p funding.principal id hp' hfund
      simp [ht]
    · subst hii
      cases hs.injective p funding.principal id hp' hfund
      rw [List.mem_append, List.mem_singleton, hw.listed _ id hp']
      simp [Ne.symm ht]
    · subst ht
      rw [hw.listed p id' hp', hnew]
      refine ⟨nofun, fun he => ?_⟩
      cases he
      rw [hfund] at hp'
      exact absurd (Option.some.inj hp') hii
    · exact hw.listed p id' hp' t

lemma Whitelist.recordRemoveTradingAccount (hw : r.Whitelist)
    {funding : FundingAccount} {trading : TradingAccount}
    (h : r.recordRemoveTradingAccount funding trading = .ok r') : r'.Whitelist := by
  obtain ⟨id, list, hid, hgrant, hlist, rfl⟩ := recordRemoveTradingAccount_eq_ok h
  have hfund := (fundingId_eq_some.mp hid).2
  have hunder : ∀ id', UserRegistry.accountsUnder { r with
      tradingAccounts := r.tradingAccounts.erase trading.principal
      tradingAccountsByFunding := r.tradingAccountsByFunding.insert id
        { list with accounts := list.accounts.filter (· ≠ trading.principal) } } id'
      = if id = id' then (r.accountsUnder id).filter (· ≠ trading.principal)
        else r.accountsUnder id' := by
    intro id'
    rw [accountsUnder, accountsUnder_of_get hlist]
    show ((SortedMap.get (SortedMap.insert _ _ _) id').map _).getD _ = _
    rw [SortedMap.get_insert]
    split_ifs <;> rfl
  refine ⟨?_, ?_, ?_, ?_⟩
  · intro id' list' hlist'
    by_cases hii : id = id'
    · exact ⟨funding.principal, hii ▸ hfund⟩
    · rw [SortedMap.get_insert_of_ne _ _ hii] at hlist'
      exact hw.registered id' list' hlist'
  · intro id'
    rw [hunder]
    split_ifs with hii
    · exact (hw.nodup id).filter _
    · exact hw.nodup id'
  · intro id'
    rw [hunder]
    split_ifs with hii
    · exact (List.length_filter_le _ _).trans (hw.capped id)
    · exact hw.capped id'
  · intro p id' hp t
    rw [hunder, SortedMap.get_erase]
    have hp' : r.users.get p = some id' := hp
    split_ifs with hii ht ht
    · subst hii
      simp [ht]
    · subst hii
      rw [List.mem_filter, hw.listed p id hp']
      simp [Ne.symm ht]
    · subst ht
      rw [hw.listed p id' hp', hgrant]
      refine ⟨fun he => ?_, nofun⟩
      cases he
      rw [hfund] at hp'
      exact absurd (Option.some.inj hp') hii
    · exact hw.listed p id' hp' t

lemma Changed.whitelist {g : Option (Timestamp × AddTradingAccountEvent)} (h : Changed r r' g)
    (hs : r.Sound) (hw : r.Whitelist) : r'.Whitelist := by
  cases h with
  | same hsame => exact hsame ▸ hw
  | registered user id hok => exact hw.getOrRegister hs hok
  | granted funding trading now hval hok => exact hw.recordAddTradingAccount hs hval hok
  | revoked funding trading hok => exact hw.recordRemoveTradingAccount hok

/-! ## The cooldown -/

/-- Anchors move forward when users and entries are kept and no anchor moves back. -/
lemma Spaced.of_anchors {grants : List (Timestamp × AddTradingAccountEvent)}
    (hsp : r.Spaced grants) (husers : ∀ p id, r.users.get p = some id → r'.users.get p = some id)
    (hlists : ∀ id list, r.tradingAccountsByFunding.get id = some list →
      ∃ list', r'.tradingAccountsByFunding.get id = some list' ∧
        list.lastGrantedAt.nanos.toNat ≤ list'.lastGrantedAt.nanos.toNat) :
    r'.Spaced grants := by
  refine ⟨hsp.apart, ?_⟩
  intro g hg
  obtain ⟨id, list, hid, hlist, hle⟩ := hsp.anchored g hg
  obtain ⟨list', hlist', hle'⟩ := hlists id list hlist
  exact ⟨id, list', husers _ id hid, hlist', hle.trans hle'⟩

/-- A grant is logged an hour after the anchor, and becomes the anchor. -/
lemma Spaced.recordAddTradingAccount {grants : List (Timestamp × AddTradingAccountEvent)}
    (hsp : r.Spaced grants) {funding : FundingAccount} {trading : TradingAccount}
    {now : Timestamp} (hval : r.validateAddTradingAccount funding trading now = .ok (.ok ()))
    (h : r.recordAddTradingAccount funding trading now = .ok r') :
    r'.Spaced (grants ++ [(now, ⟨funding, trading⟩)]) := by
  obtain ⟨-, -, ⟨fid, hfid, hlimits⟩, -⟩ := State.validateAddTradingAccount_eq_ok hval
  obtain ⟨id, hid, -, rfl⟩ := recordAddTradingAccount_eq_ok h
  obtain rfl : id = fid := Option.some.inj (hid.symm.trans hfid)
  have hfund := (fundingId_eq_some.mp hid).2
  have hlater := checkGrantLimits_eq_ok hlimits
  constructor
  · refine List.pairwise_append.mpr ⟨hsp.apart, List.pairwise_singleton _ _, ?_⟩
    intro g hg g' hg' hsame
    rw [List.mem_singleton] at hg'
    subst hg'
    obtain ⟨id', list, hid', hlist, hle⟩ := hsp.anchored g hg
    rw [hsame, hfund] at hid'
    cases hid'
    have hcool := (hlater list hlist).2
    show g.1.nanos.toNat + _ ≤ now.nanos.toNat
    omega
  · intro g hg
    by_cases hsame : g.2.funding = funding
    · refine ⟨id, _, by rw [hsame]; exact hfund, SortedMap.get_insert_self _ _ _, ?_⟩
      rcases List.mem_append.mp hg with hg | hg
      · obtain ⟨id', list, hid', hlist, hle⟩ := hsp.anchored g hg
        rw [hsame, hfund] at hid'
        cases hid'
        have hcool := (hlater list hlist).2
        show g.1.nanos.toNat ≤ now.nanos.toNat
        omega
      · rw [List.mem_singleton] at hg
        rw [hg]
    · rcases List.mem_append.mp hg with hg | hg
      · obtain ⟨id', list, hid', hlist, hle⟩ := hsp.anchored g hg
        by_cases hii : id = id'
        · subst hii
          refine ⟨id, _, hid', SortedMap.get_insert_self _ _ _, ?_⟩
          have hcool := (hlater list hlist).2
          show g.1.nanos.toNat ≤ now.nanos.toNat
          omega
        · exact ⟨id', list, hid', (SortedMap.get_insert_of_ne _ _ hii).trans hlist, hle⟩
      · rw [List.mem_singleton] at hg
        rw [hg] at hsame
        exact absurd rfl hsame

lemma Changed.spaced {g : Option (Timestamp × AddTradingAccountEvent)} (h : Changed r r' g)
    {grants : List (Timestamp × AddTradingAccountEvent)} (hsp : r.Spaced grants) :
    r'.Spaced (grants ++ g.toList) := by
  cases h with
  | same hsame =>
      rw [hsame, Option.toList_none, List.append_nil]
      exact hsp
  | registered user id hok =>
      obtain ⟨-, hf, hu, hother, hcase⟩ := getOrRegister_eq_ok hok
      rw [Option.toList_none, List.append_nil]
      refine hsp.of_anchors ?_ ?_
      · intro p id' hp
        rcases hcase with rfl | ⟨hnone, -, -⟩
        · exact hp
        · rw [hother p (fun he => by rw [he, hnone] at hp; cases hp)]
          exact hp
      · intro id' list hlist
        exact ⟨list, by rw [hf]; exact hlist, le_rfl⟩
  | granted funding trading now hval hok => exact hsp.recordAddTradingAccount hval hok
  | revoked funding trading hok =>
      obtain ⟨id, list, -, -, hlist, rfl⟩ := recordRemoveTradingAccount_eq_ok hok
      rw [Option.toList_none, List.append_nil]
      refine hsp.of_anchors (fun _ _ hp => hp) ?_
      intro id' list' hlist'
      -- the rewritten entry keeps its time, also when it becomes empty
      by_cases hii : id = id'
      · subst hii
        rw [hlist] at hlist'
        cases hlist'
        exact ⟨_, SortedMap.get_insert_self _ _ _, le_rfl⟩
      · exact ⟨list', (SortedMap.get_insert_of_ne _ _ hii).trans hlist', le_rfl⟩

end UserRegistry

/-! ## Runs -/

/-- The grant an event records. -/
def Event.grant (e : Event) : Option (Timestamp × AddTradingAccountEvent) :=
  match e.payload with
  | .addTradingAccount grant => some (e.timestamp, grant)
  | _ => none

namespace Canister

variable {c c' : Canister} {rt : Runtime}

/-- The accepted grants of the event log, with their times, the oldest first. -/
def grants (c : Canister) : List (Timestamp × AddTradingAccountEvent) :=
  c.events.filterMap Event.grant

/-- **What the canister knows about delegation.** -/
structure Delegates (c : Canister) : Prop where
  whitelist : c.state.userRegistry.Whitelist
  spaced : c.state.userRegistry.Spaced c.grants

lemma grants_append {events : List Event} {state : State} {journal : List (State × Event)} :
    grants ⟨state, c.events ++ events, journal⟩ = c.grants ++ events.filterMap Event.grant :=
  List.filterMap_append

/-- The registry and the log after an event. -/
lemma processEvent_changed {payload : EventType} {timestamp : Timestamp}
    (hadmits : c.state.Admits timestamp payload)
    (h : c.processEvent payload timestamp = .ok c') :
    ∃ g, c.state.userRegistry.Changed c'.state.userRegistry g ∧
      c'.grants = c.grants ++ g.toList := by
  obtain ⟨s, hs, rfl⟩ := processEvent_eq_ok h
  rw [grants_append]
  have hsame : s.userRegistry = c.state.userRegistry →
      List.filterMap Event.grant [⟨timestamp, payload⟩] = [] → ∃ g,
        c.state.userRegistry.Changed s.userRegistry g ∧
        c.grants ++ List.filterMap Event.grant [⟨timestamp, payload⟩] = c.grants ++ g.toList :=
    fun hr hg => ⟨none, .same hr, by rw [hg]; rfl⟩
  cases payload with
  | init arg => exact hadmits.elim
  | upgrade arg =>
      obtain ⟨policy, rfl⟩ := State.applyUpgrade_eq_ok hs
      exact hsame rfl rfl
  | addTradingPair event =>
      obtain ⟨next, -, -, -, -, -, -, -, rfl⟩ := State.recordTradingPair_eq_ok hs
      exact hsame rfl rfl
  | deposit event =>
      obtain ⟨uid, registry, balances, hreg, -, rfl⟩ := State.deposit_eq_ok hs
      exact ⟨none, .registered _ _ hreg, rfl⟩
  | addLimitOrder event =>
      obtain ⟨_, _, _, _, _, _, _, _, -, -, -, -, -, -, -, rfl⟩ := State.recordLimitOrder_eq_ok hs
      exact hsame rfl rfl
  | settling event => exact hadmits.elim
  | matching event =>
      obtain ⟨_, _, _, _, _, _, _, -, -, -, -, -, rfl⟩ := State.recordMatchingEvent_eq_ok hs
      exact hsame rfl rfl
  | withdraw event => exact hadmits.elim
  | cancelLimitOrder event =>
      obtain ⟨_, _, _, _, _, _, _, -, -, -, -, -, rfl⟩ := State.recordCancelLimitOrder_eq_ok hs
      exact hsame rfl rfl
  | setHalt event =>
      cases hs
      exact hsame rfl rfl
  | addTradingAccount event =>
      simp only [State.applyStateTransition, State.recordAddTradingAccount, Except.bind_eq_ok,
        Except.ok.injEq] at hs
      obtain ⟨registry, hreg, rfl⟩ := hs
      exact ⟨_, .granted _ _ _ (State.validate_registry hadmits).1 hreg, rfl⟩
  | removeTradingAccount event =>
      simp only [State.applyStateTransition, State.recordRemoveTradingAccount, Except.bind_eq_ok,
        Except.ok.injEq] at hs
      obtain ⟨registry, hreg, rfl⟩ := hs
      exact ⟨none, .revoked _ _ hreg, rfl⟩

/-- **The registry and the log after an act.** -/
lemma Act.changed (h : c.Act c') :
    ∃ g, c.state.userRegistry.Changed c'.state.userRegistry g ∧
      c'.grants = c.grants ++ g.toList := by
  cases h with
  | event hadmits hok => exact processEvent_changed hadmits hok
  | settle hqueue hfront hok =>
      obtain ⟨s, hs, rfl⟩ := processEvent_eq_ok hok
      obtain ⟨_, _, _, _, _, -, -, -, -, rfl⟩ := State.recordSettlingEvent_eq_ok hs
      exact ⟨none, .same rfl, grants_append⟩
  | debit hok =>
      obtain ⟨_, _, -, -, rfl⟩ := State.withdraw_eq_ok hok
      exact ⟨none, .same rfl, (List.append_nil _).symm⟩
  | credit huser hok =>
      obtain ⟨uid, registry, balances, hreg, -, rfl⟩ := State.deposit_eq_ok hok
      exact ⟨none, .registered _ _ hreg, (List.append_nil _).symm⟩
  | logged event timestamp => exact ⟨none, .same rfl, grants_append⟩
  | note hsame => exact ⟨none, .same (by rw [hsame.eq]), (List.append_nil _).symm⟩

lemma Moves.delegates (hs : c.state.Sound) (hc : c.Delegates) (h : c.Moves c') :
    c'.Delegates := by
  rcases h with h | ⟨ops, rfl⟩
  · obtain ⟨g, hchanged, hgrants⟩ := h.changed
    exact ⟨hchanged.whitelist hs.registry hc.whitelist, hgrants ▸ hchanged.spaced hc.spaced⟩
  · exact ⟨hc.whitelist, hc.spaced⟩

/-- The log of grants only grows. -/
lemma Moved.grants (h : c.Moved c') : c.grants <+: c'.grants := by
  induction h with
  | refl => exact List.prefix_rfl
  | tail _ hmove ih =>
      rcases hmove with hact | ⟨ops, rfl⟩
      · obtain ⟨g, -, hgrants⟩ := hact.changed
        rw [hgrants]
        exact ih.trans (List.prefix_append _ _)
      · exact ih

/-- An accepted grant is logged. -/
lemma grants_addTradingAccount {trading : Principal}
    (h : c.addTradingAccount rt trading = .ok (.ok (), c')) :
    c'.grants = c.grants ++ [(rt.time, ⟨⟨rt.msgCaller⟩, ⟨trading⟩⟩)] := by
  rcases addTradingAccount_acts h with ⟨e, he, -⟩ | ⟨-, -, hproc⟩
  · cases he
  · obtain ⟨s, -, rfl⟩ := processEvent_eq_ok hproc
    exact grants_append

end Canister

/-- A revocation of a grant returns. -/
lemma UserRegistry.Sound.recordRemove_returns {r : UserRegistry} (hs : r.Sound)
    {funding trading : Principal} (h : r.tradingAccounts.get trading = some ⟨funding⟩) :
    ∃ r', r.recordRemoveTradingAccount ⟨funding⟩ ⟨trading⟩ = .ok r' := by
  obtain ⟨id, list, hid, hlist⟩ := hs.granted trading ⟨funding⟩ h
  simp only [UserRegistry.recordRemoveTradingAccount, hs.lookupFundingId,
    hs.fundingId_of_users hid, h, hlist, Except.bind_ok, Except.expect_some, decide_true, Except.assert_true]
  exact ⟨_, rfl⟩

/-- **A revocation succeeds** exactly when the mode admits the caller and the account is the
caller's. -/
lemma State.Sound.removeTradingAccount_iff {c : Canister} (hs : c.state.Sound) (rt : Runtime)
    (trading : Principal) :
    (∃ c', c.removeTradingAccount rt trading = .ok (.ok (), c')) ↔
      c.state.assertCallerIsAllowed rt = .ok () ∧
        c.state.userRegistry.tradingAccounts.get trading = some ⟨rt.msgCaller⟩ := by
  constructor
  · rintro ⟨c', h⟩
    have hallowed : c.state.assertCallerIsAllowed rt = .ok () := by
      simp only [Canister.removeTradingAccount, Except.bind_eq_ok] at h
      obtain ⟨u, hu, -⟩ := h
      exact hu
    rcases Canister.removeTradingAccount_acts h with ⟨e, he, -⟩ | ⟨-, -, hproc⟩
    · cases he
    · obtain ⟨s, hs', -⟩ := Canister.processEvent_eq_ok hproc
      simp only [applyStateTransition, recordRemoveTradingAccount, Except.bind_eq_ok] at hs'
      obtain ⟨r', hr', -⟩ := hs'
      obtain ⟨_, _, -, hgrant, -⟩ := UserRegistry.recordRemoveTradingAccount_eq_ok hr'
      exact ⟨hallowed, hgrant⟩
  · rintro ⟨hallowed, hgrant⟩
    obtain ⟨r', hr'⟩ := hs.registry.recordRemove_returns hgrant
    simp only [Canister.removeTradingAccount, hallowed, validateRemoveTradingAccount,
      UserRegistry.validateRemoveTradingAccount, hgrant, if_true, Except.bind_ok,
      Canister.processEvent, applyStateTransition, recordRemoveTradingAccount, hr']
    exact ⟨_, rfl⟩

namespace World

variable {w w' : World}

lemma Reachable.delegates (h : Reachable w) : w.canister.Delegates := by
  induction h with
  | @init arg rt c hinit =>
      obtain ⟨-, -, -, -, -, -, -, hreg, -, arg, hevents⟩ := Canister.init_eq_ok hinit
      refine ⟨?_, ?_⟩
      · show c.state.userRegistry.Whitelist
        rw [hreg]
        exact UserRegistry.whitelist_empty
      · have hnone : c.grants = [] := by
          rw [Canister.grants, hevents]
          rfl
        show c.state.userRegistry.Spaced c.grants
        rw [hnone]
        exact ⟨List.Pairwise.nil, fun _ hg => absurd hg List.not_mem_nil⟩
  | @step w₀ w₁ hreach _ hstep ih =>
      have hg := Reachable.guarded (ReachableWhile.reachable hreach)
      have key : ∀ c', w₀.canister.Moved c' → c'.state.Sound ∧ c'.Delegates := by
        intro c' hmoved
        induction hmoved with
        | refl => exact ⟨hg.sound, ih⟩
        | tail _ hmove ih' =>
            exact ⟨((hmove.change ih'.1).sound ih'.1).1, hmove.delegates ih'.1 ih'.2⟩
      exact (key _ (hstep.guarded hg).1).2

lemma Run.grants (h : Run w w') (hw : Reachable w) : w.canister.grants <+: w'.canister.grants := by
  induction h with
  | refl => exact List.prefix_rfl
  | tail hrun hstep ih => exact ih.trans (hstep.guarded (hw.run hrun).guarded).1.grants

/-- **The grants of one granter are an hour apart**, whatever happens between them. -/
lemma Reachable.grants_apart (h : Reachable w) {rt rt' : Runtime} {t t' : Principal}
    {c c' : Canister} (hfirst : w.canister.addTradingAccount rt t = .ok (.ok (), c))
    (hrun : Run { w with canister := c } w')
    (hsecond : w'.canister.addTradingAccount rt' t' = .ok (.ok (), c'))
    (hsame : rt.msgCaller = rt'.msgCaller) :
    rt.time.nanos.toNat + tradingAccountGrantCooldown ≤ rt'.time.nanos.toNat := by
  have hmessage : ∀ {w : World} {rt : Runtime} {t : Principal} {c : Canister},
      w.canister.addTradingAccount rt t = .ok (.ok (), c) → Step w { w with canister := c } := by
    intro w rt t c hc
    have hmessage : (Message.addTradingAccount t).run rt w.canister = .ok c := by
      simp only [Message.run, hc, Except.bind_ok]
    exact Step.message hmessage
  have h₁ : Reachable { w with canister := c } := h.run (.single (hmessage hfirst))
  have h₂ : Reachable { w' with canister := c' } := (h₁.run hrun).run (.single (hmessage hsecond))
  have hmem : (rt.time, (⟨⟨rt.msgCaller⟩, ⟨t⟩⟩ : AddTradingAccountEvent)) ∈ w'.canister.grants := by
    refine (hrun.grants h₁).subset ?_
    show _ ∈ c.grants
    rw [Canister.grants_addTradingAccount hfirst]
    exact List.mem_append_right _ List.mem_cons_self
  have hapart := h₂.delegates.spaced.apart
  have hlog : Canister.grants c' = _ := Canister.grants_addTradingAccount hsecond
  rw [show (World.canister { w' with canister := c' }).grants = c'.grants from rfl, hlog] at hapart
  exact (List.pairwise_append.mp hapart).2.2 _ hmem _ List.mem_cons_self (by rw [hsame])

/-- **The whitelist is consistent and the cooldown cannot be bypassed.**  In every reachable world
the list under the id of a registered principal has no duplicates, at most four entries, and holds
exactly the accounts that trade for the principal; every trading account is on one list; accepted
grants of one granter are an hour apart in the log and along every run; a revocation succeeds exactly
for the accounts of the caller, if the mode admits the caller at all; and a call that is refused
changes nothing. -/
theorem Reachable.whitelist_consistent (h : Reachable w) :
    (∀ funding id, w.canister.state.userRegistry.users.get funding = some id →
      (w.canister.state.userRegistry.accountsUnder id).Nodup ∧
      (w.canister.state.userRegistry.accountsUnder id).length ≤ 4 ∧
      ∀ t, t ∈ w.canister.state.userRegistry.accountsUnder id ↔
        w.canister.state.userRegistry.tradingAccounts.get t = some ⟨funding⟩) ∧
    (∀ t grant, w.canister.state.userRegistry.tradingAccounts.get t = some grant →
      ∃! id, t ∈ w.canister.state.userRegistry.accountsUnder id) ∧
    (w.canister.grants.Pairwise fun g g' => g.2.funding = g'.2.funding →
      g.1.nanos.toNat + tradingAccountGrantCooldown ≤ g'.1.nanos.toNat) ∧
    (∀ rt t c rt' t' c' w', w.canister.addTradingAccount rt t = .ok (.ok (), c) →
      Run { w with canister := c } w' →
      w'.canister.addTradingAccount rt' t' = .ok (.ok (), c') → rt.msgCaller = rt'.msgCaller →
      rt.time.nanos.toNat + tradingAccountGrantCooldown ≤ rt'.time.nanos.toNat) ∧
    (∀ rt t, (∃ c', w.canister.removeTradingAccount rt t = .ok (.ok (), c')) ↔
      w.canister.state.assertCallerIsAllowed rt = .ok () ∧
        w.canister.state.userRegistry.tradingAccounts.get t = some ⟨rt.msgCaller⟩) ∧
    (∀ rt t e c', w.canister.addTradingAccount rt t = .ok (.error e, c') → c' = w.canister) ∧
    (∀ rt t e c', w.canister.removeTradingAccount rt t = .ok (.error e, c') →
      c' = w.canister) := by
  have hd := h.delegates
  have hs := h.guarded.sound
  refine ⟨?_, ?_, hd.spaced.apart, ?_, hs.removeTradingAccount_iff, ?_, ?_⟩
  · intro funding id hid
    exact ⟨hd.whitelist.nodup id, hd.whitelist.capped id, hd.whitelist.listed funding id hid⟩
  · intro t grant hgrant
    obtain ⟨id, list, hid, -⟩ := hs.registry.granted t grant hgrant
    refine ⟨id, (hd.whitelist.listed _ id hid t).mpr hgrant, ?_⟩
    intro id' hmem
    -- an id with a list belongs to a principal, and that principal is the granter
    cases hl : w.canister.state.userRegistry.tradingAccountsByFunding.get id' with
    | none =>
        rw [UserRegistry.accountsUnder, hl] at hmem
        cases hmem
    | some list' =>
        obtain ⟨p, hp⟩ := hd.whitelist.registered id' list' hl
        have hp' := (hd.whitelist.listed p id' hp t).mp hmem
        rw [hgrant] at hp'
        cases hp'
        exact Option.some.inj (hp.symm.trans hid)
  · intro rt t c rt' t' c' w' hfirst hrun hsecond hsame
    exact h.grants_apart hfirst hrun hsecond hsame
  · intro rt t e c' hcall
    rcases Canister.addTradingAccount_acts hcall with ⟨_, -, rfl⟩ | ⟨he, -⟩
    · rfl
    · cases he
  · intro rt t e c' hcall
    rcases Canister.removeTradingAccount_acts hcall with ⟨_, -, rfl⟩ | ⟨he, -⟩
    · rfl
    · cases he

/-- Two grants an hour apart and a revocation: the list holds the second account, which its owner
may revoke and nobody else, and the first account cannot be revoked again. -/
theorem whitelist_consistent_delegatedWorld :
    (∃ id, delegatedWorld.canister.state.userRegistry.users.get ⟨10⟩ = some id ∧
      delegatedWorld.canister.state.userRegistry.accountsUnder id = [⟨13⟩] ∧
      (delegatedWorld.canister.state.userRegistry.accountsUnder id).length ≤ 4 ∧
      delegatedWorld.canister.state.userRegistry.tradingAccounts.get ⟨13⟩ = some ⟨⟨10⟩⟩) ∧
    delegatedWorld.canister.grants.map (fun g => g.2.trading) = [⟨⟨12⟩⟩, ⟨⟨13⟩⟩] ∧
    (delegatedWorld.canister.grants.Pairwise fun g g' => g.2.funding = g'.2.funding →
      g.1.nanos.toNat + tradingAccountGrantCooldown ≤ g'.1.nanos.toNat) ∧
    (∃ c, delegatedWorld.canister.removeTradingAccount (laterRuntime 10) ⟨13⟩ = .ok (.ok (), c)) ∧
    (¬ ∃ c, delegatedWorld.canister.removeTradingAccount (laterRuntime 11) ⟨13⟩ = .ok (.ok (), c)) ∧
    ¬ ∃ c, delegatedWorld.canister.removeTradingAccount (laterRuntime 10) ⟨12⟩ = .ok (.ok (), c) := by
  have hid : ((delegatedWorld.canister.state.userRegistry.users.get ⟨10⟩).any fun id =>
      delegatedWorld.canister.state.userRegistry.accountsUnder id = [⟨13⟩]) = true := by
    decide +kernel
  obtain ⟨id, hget, hlist⟩ := (Option.any_eq_true _ _).mp hid
  have hlist := of_decide_eq_true hlist
  obtain ⟨hlists, -, hapart, -, hrevoke, -⟩ := reachable_delegatedWorld.whitelist_consistent
  obtain ⟨-, hlen, hiff⟩ := hlists ⟨10⟩ id hget
  refine ⟨⟨id, hget, hlist, hlen, (hiff ⟨13⟩).mp ?_⟩, by decide +kernel, hapart, ?_, ?_, ?_⟩
  · rw [hlist]
    exact List.mem_singleton_self _
  · exact (hrevoke _ _).mpr ⟨by decide +kernel, by decide +kernel⟩
  · rw [hrevoke]
    decide +kernel
  · rw [hrevoke]
    decide +kernel

end World

end OisyTrade
