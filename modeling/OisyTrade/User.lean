import OisyTrade.Order.Types

/-!
# The user registry

`user/mod.rs`: principals are interned as dense `UserId`s on their first deposit, and a registered
user (a funding account) may whitelist up to four trading accounts, which act for it and are never
registered themselves.

`Sound` is the invariant of the three maps.  `fundingId` is the id a principal trades under; it
never changes once it is there (`Extends`).
-/

namespace OisyTrade

/-- `MAX_TRADING_ACCOUNTS_PER_USER`. -/
def maxTradingAccountsPerUser : ℕ := 4

/-- `TRADING_ACCOUNT_GRANT_COOLDOWN`, one hour, in nanoseconds. -/
def tradingAccountGrantCooldown : ℕ := 60 * 60 * 1000000000

/-- `TradingGrant`. -/
structure TradingGrant where
  funding : Principal
deriving DecidableEq

/-- `TradingAccountList`. -/
structure TradingAccountList where
  accounts : List Principal
  lastGrantedAt : Timestamp
deriving DecidableEq

/-- `TradingAccountList::default`. -/
def TradingAccountList.empty : TradingAccountList := { accounts := [], lastGrantedAt := .epoch }

/-- `FundingAccount`. -/
structure FundingAccount where
  principal : Principal
deriving DecidableEq

/-- `TradingAccount`. -/
structure TradingAccount where
  principal : Principal
deriving DecidableEq

/-- `GrantError`. -/
inductive GrantError
  | granterNotRegistered | selfGrant | nonAuthenticatingTradingAccount | alreadyTradingAccount
  | alreadyRegisteredUser | granterIsTradingAccount | tooManyTradingAccounts
  | cooldownActive (retryAfterNs : ℕ)
deriving DecidableEq

/-- `RevokeError`. -/
inductive RevokeError
  | notAllowed
deriving DecidableEq

/-- `UserAccount`. -/
inductive UserAccount
  | funding (id : UserId) (principal : Principal)
  | trading (principal : Principal) (grant : TradingGrant)
deriving DecidableEq

namespace UserAccount

/-- `UserAccount::effective_principal`. -/
def effectivePrincipal : UserAccount → Principal
  | funding _ principal => principal
  | trading _ grant => grant.funding

/-- `UserAccount::funding_id`. -/
def fundingId : UserAccount → Option UserId
  | funding id _ => some id
  | trading _ _ => none

end UserAccount

/-- `UserRegistry`. -/
structure UserRegistry where
  users : SortedMap Principal UserId
  tradingAccounts : SortedMap Principal TradingGrant
  tradingAccountsByFunding : SortedMap UserId TradingAccountList
deriving DecidableEq

namespace UserRegistry

/-- `UserRegistry::new`, over empty memory. -/
def empty : UserRegistry :=
  { users := SortedMap.empty, tradingAccounts := SortedMap.empty,
    tradingAccountsByFunding := SortedMap.empty }

/-- `UserRegistry::get_or_register`. -/
def getOrRegister (r : UserRegistry) (principal : Principal) : Except Trap (UserId × UserRegistry) :=
  match r.users.get principal with
  | some id => .ok (id, r)
  | none => do
      let id ← Seq.ofLen r.users.size
      .ok (id, { r with users := r.users.insert principal id })

/-- `UserRegistry::lookup`. -/
def lookup (r : UserRegistry) (principal : Principal) : Except Trap (Option UserAccount) :=
  match r.tradingAccounts.get principal with
  | some grant => do
      assertBug (!r.users.contains principal) .fundingAndTradingAccount
      .ok (some (.trading principal grant))
  | none => .ok ((r.users.get principal).map fun id => .funding id principal)

/-- `lookup(principal).and_then(|account| account.funding_id())`. -/
def lookupFundingId (r : UserRegistry) (principal : Principal) : Except Trap (Option UserId) := do
  let account ← r.lookup principal
  .ok (account.bind UserAccount.fundingId)

/-- The cap and the cooldown of a grant. -/
def checkGrantLimits (list : Option TradingAccountList) (now : Timestamp) :
    Except GrantError Unit :=
  match list with
  | none => .ok ()
  | some list =>
      if maxTradingAccountsPerUser ≤ list.accounts.length then .error .tooManyTradingAccounts
      else
        let elapsed := now.nanos.toNat - list.lastGrantedAt.nanos.toNat
        if elapsed < tradingAccountGrantCooldown then
          .error (.cooldownActive (tradingAccountGrantCooldown - elapsed))
        else .ok ()

/-- `UserRegistry::validate_add_trading_account`. -/
def validateAddTradingAccount (r : UserRegistry) (funding : FundingAccount)
    (trading : TradingAccount) (now : Timestamp) : Except Trap (Except GrantError Unit) := do
  match ← r.lookup funding.principal with
  | some (.trading _ _) => .ok (.error .granterIsTradingAccount)
  | none => .ok (.error .granterNotRegistered)
  | some (.funding fundingId _) =>
      if trading.principal = funding.principal then .ok (.error .selfGrant)
      else if trading.principal = .anonymous ∨ trading.principal = .managementCanister then
        .ok (.error .nonAuthenticatingTradingAccount)
      else
        match ← r.lookup trading.principal with
        | some (.trading _ _) => .ok (.error .alreadyTradingAccount)
        | some (.funding _ _) => .ok (.error .alreadyRegisteredUser)
        | none => .ok (checkGrantLimits (r.tradingAccountsByFunding.get fundingId) now)

/-- `UserRegistry::validate_remove_trading_account`. -/
def validateRemoveTradingAccount (r : UserRegistry) (funding : FundingAccount)
    (trading : TradingAccount) : Except RevokeError Unit :=
  match r.tradingAccounts.get trading.principal with
  | some grant => if grant.funding = funding.principal then .ok () else .error .notAllowed
  | none => .error .notAllowed

/-- `UserRegistry::record_add_trading_account`. -/
def recordAddTradingAccount (r : UserRegistry) (funding : FundingAccount)
    (trading : TradingAccount) (now : Timestamp) : Except Trap UserRegistry := do
  let fundingId ← r.lookupFundingId funding.principal
  let fundingId ← expectBug fundingId .grantUnregisteredFunding
  assertBug (!r.tradingAccounts.contains trading.principal) .grantOverwroteTrading
  let list := (r.tradingAccountsByFunding.get fundingId).getD .empty
  .ok { r with
    tradingAccounts := r.tradingAccounts.insert trading.principal ⟨funding.principal⟩
    tradingAccountsByFunding := r.tradingAccountsByFunding.insert fundingId
      { accounts := list.accounts ++ [trading.principal], lastGrantedAt := now } }

/-- `UserRegistry::record_remove_trading_account`. -/
def recordRemoveTradingAccount (r : UserRegistry) (funding : FundingAccount)
    (trading : TradingAccount) : Except Trap UserRegistry := do
  let fundingId ← r.lookupFundingId funding.principal
  let fundingId ← expectBug fundingId .revokeUnregisteredFunding
  let removed ← expectBug (r.tradingAccounts.get trading.principal) .revokeNoGrant
  assertBug (removed.funding = funding.principal) .revokeOtherFunding
  let list ← expectBug (r.tradingAccountsByFunding.get fundingId) .revokeNoList
  .ok { r with
    tradingAccounts := r.tradingAccounts.erase trading.principal
    tradingAccountsByFunding := r.tradingAccountsByFunding.insert fundingId
      { list with accounts := list.accounts.filter (· ≠ trading.principal) } }

/-- `UserRegistry::trading_accounts_of`. -/
def tradingAccountsOf (r : UserRegistry) (funding : Principal) : Except Trap (List Principal) := do
  let fundingId ← r.lookupFundingId funding
  .ok (((fundingId.bind r.tradingAccountsByFunding.get).map (·.accounts)).getD [])

/-! ## The invariant -/

/-- The account of a principal. -/
def account (r : UserRegistry) (principal : Principal) : Option UserAccount :=
  match r.tradingAccounts.get principal with
  | some grant => some (.trading principal grant)
  | none => (r.users.get principal).map fun id => .funding id principal

/-- The id a principal trades under. -/
def fundingId (r : UserRegistry) (principal : Principal) : Option UserId :=
  (r.account principal).bind UserAccount.fundingId

/-- The invariant of the registry. -/
structure Sound (r : UserRegistry) : Prop where
  disjoint : ∀ p grant, r.tradingAccounts.get p = some grant → r.users.get p = none
  below : ∀ p id, r.users.get p = some id → id.val < r.users.size
  injective : ∀ p q id, r.users.get p = some id → r.users.get q = some id → p = q
  granted : ∀ p grant, r.tradingAccounts.get p = some grant → ∃ id list,
    r.users.get grant.funding = some id ∧ r.tradingAccountsByFunding.get id = some list

/-- `r'` knows every funding account of `r`, under the same id. -/
def Extends (r r' : UserRegistry) : Prop :=
  ∀ p id, r.fundingId p = some id → r'.fundingId p = some id

lemma Extends.refl (r : UserRegistry) : r.Extends r := fun _ _ => id

lemma Extends.trans {r r' r'' : UserRegistry} (h : r.Extends r') (h' : r'.Extends r'') :
    r.Extends r'' := fun p id hp => h' p id (h p id hp)

lemma sound_empty : empty.Sound :=
  ⟨fun _ _ h => (nomatch h), fun _ _ h => (nomatch h), fun _ _ _ h => (nomatch h),
    fun _ _ h => (nomatch h)⟩

variable {r r' : UserRegistry} {p : Principal}

lemma lookup_eq_ok {a : Option UserAccount} (h : r.lookup p = .ok a) : a = r.account p := by
  rw [lookup] at h
  rw [account]
  cases ht : r.tradingAccounts.get p with
  | none =>
      rw [ht] at h
      exact (Except.ok.inj h).symm
  | some grant =>
      simp only [ht, Except.bind_eq_ok, Except.ok.injEq] at h
      obtain ⟨-, -, rfl⟩ := h
      rfl

lemma Sound.lookup (hs : r.Sound) (p : Principal) : r.lookup p = .ok (r.account p) := by
  rw [UserRegistry.lookup, account]
  cases ht : r.tradingAccounts.get p with
  | none => rfl
  | some grant =>
      have hu : r.users.contains p = false := by
        rw [SortedMap.contains, hs.disjoint p grant ht]
        rfl
      simp only [hu, Bool.not_false, Except.assert_true, Except.bind_ok]

lemma lookupFundingId_eq_ok {a : Option UserId} (h : r.lookupFundingId p = .ok a) :
    a = r.fundingId p := by
  simp only [lookupFundingId, Except.bind_eq_ok, Except.ok.injEq] at h
  obtain ⟨acc, hacc, rfl⟩ := h
  rw [lookup_eq_ok hacc]
  rfl

lemma Sound.lookupFundingId (hs : r.Sound) (p : Principal) :
    r.lookupFundingId p = .ok (r.fundingId p) := by
  simp only [UserRegistry.lookupFundingId, hs.lookup, Except.bind_ok]
  rfl

lemma fundingId_eq_some {id : UserId} :
    r.fundingId p = some id ↔ r.tradingAccounts.get p = none ∧ r.users.get p = some id := by
  rw [fundingId, account]
  cases ht : r.tradingAccounts.get p with
  | none =>
      cases hu : r.users.get p with
      | none => simp
      | some id' => simp [UserAccount.fundingId]
  | some grant => simp [UserAccount.fundingId]

lemma Sound.fundingId_of_users (hs : r.Sound) {id : UserId} (h : r.users.get p = some id) :
    r.fundingId p = some id := by
  refine fundingId_eq_some.mpr ⟨?_, h⟩
  cases ht : r.tradingAccounts.get p with
  | none => rfl
  | some grant =>
      have := hs.disjoint p grant ht
      rw [h] at this
      cases this

/-- Two principals that trade under one id are one principal. -/
lemma Sound.fundingId_inj (hs : r.Sound) {q : Principal} {id : UserId}
    (hp : r.fundingId p = some id) (hq : r.fundingId q = some id) : p = q :=
  hs.injective p q id (fundingId_eq_some.mp hp).2 (fundingId_eq_some.mp hq).2

/-- What a registration did. -/
lemma getOrRegister_eq_ok {id : UserId} (h : r.getOrRegister p = .ok (id, r')) :
    r'.tradingAccounts = r.tradingAccounts ∧
      r'.tradingAccountsByFunding = r.tradingAccountsByFunding ∧
      r'.users.get p = some id ∧ (∀ q, q ≠ p → r'.users.get q = r.users.get q) ∧
      (r' = r ∨ (r.users.get p = none ∧ id.val = r.users.size ∧
        r'.users.size = r.users.size + 1)) := by
  rw [getOrRegister] at h
  cases hu : r.users.get p with
  | some id' =>
      rw [hu] at h
      simp only [Except.ok.injEq, Prod.mk.injEq] at h
      obtain ⟨rfl, rfl⟩ := h
      exact ⟨rfl, rfl, hu, fun _ _ => rfl, Or.inl rfl⟩
  | none =>
      rw [hu] at h
      simp only [Except.bind_eq_ok, Seq.ofLen_eq_ok, Except.ok.injEq, Prod.mk.injEq] at h
      obtain ⟨id', hid, rfl, rfl⟩ := h
      exact ⟨rfl, rfl, SortedMap.get_insert_self _ _ _,
        fun q hq => SortedMap.get_insert_of_ne _ _ (Ne.symm hq),
        Or.inr ⟨rfl, hid, SortedMap.size_insert_of_none _ _ hu⟩⟩

/-- **Registering a principal that is not a trading account.** -/
lemma Sound.getOrRegister (hs : r.Sound) {id : UserId} (hp : r.tradingAccounts.get p = none)
    (h : r.getOrRegister p = .ok (id, r')) :
    r'.Sound ∧ r.Extends r' ∧ r'.fundingId p = some id := by
  obtain ⟨ht, hf, hu, hother, hcase⟩ := getOrRegister_eq_ok h
  have hs' : r'.Sound := by
    rcases hcase with rfl | ⟨hnone, hid, hsize⟩
    · exact hs
    have hold : ∀ q id', r'.users.get q = some id' → q = p ∧ id' = id ∨
        q ≠ p ∧ r.users.get q = some id' := by
      intro q id' hq
      by_cases hqp : q = p
      · subst hqp
        rw [hu] at hq
        exact Or.inl ⟨rfl, (Option.some.inj hq).symm⟩
      · rw [hother q hqp] at hq
        exact Or.inr ⟨hqp, hq⟩
    refine ⟨fun q grant hq => ?_, fun q id' hq => ?_, fun q q' id' hq hq' => ?_,
      fun q grant hq => ?_⟩
    · rw [ht] at hq
      have hqp : q ≠ p := by
        rintro rfl
        rw [hp] at hq
        cases hq
      rw [hother q hqp]
      exact hs.disjoint q grant hq
    · rw [hsize]
      rcases hold q id' hq with ⟨-, rfl⟩ | ⟨-, hq⟩
      · omega
      · exact Nat.lt_succ_of_lt (hs.below q id' hq)
    · rcases hold q id' hq with ⟨rfl, rfl⟩ | ⟨-, hq⟩
      · rcases hold q' id' hq' with ⟨rfl, -⟩ | ⟨-, hq'⟩
        · rfl
        · exact absurd (hs.below q' id' hq') (by omega)
      · rcases hold q' id' hq' with ⟨rfl, rfl⟩ | ⟨-, hq'⟩
        · exact absurd (hs.below q id' hq) (by omega)
        · exact hs.injective q q' id' hq hq'
    · rw [ht] at hq
      obtain ⟨id', list, h1, h2⟩ := hs.granted q grant hq
      have hne : grant.funding ≠ p := by
        intro he
        rw [he, hnone] at h1
        cases h1
      exact ⟨id', list, (hother _ hne).trans h1, hf ▸ h2⟩
  refine ⟨hs', fun q id' hq => ?_, hs'.fundingId_of_users hu⟩
  obtain ⟨h1, h2⟩ := fundingId_eq_some.mp hq
  refine hs'.fundingId_of_users ?_
  by_cases hqp : q = p
  · rcases hcase with rfl | ⟨hnone, -, -⟩
    · exact h2
    · rw [hqp, hnone] at h2
      cases h2
  · rw [hother q hqp]
    exact h2

/-- What a grant did. -/
lemma recordAddTradingAccount_eq_ok {funding : FundingAccount} {trading : TradingAccount}
    {now : Timestamp} (h : r.recordAddTradingAccount funding trading now = .ok r') :
    ∃ id, r.fundingId funding.principal = some id ∧
      r.tradingAccounts.get trading.principal = none ∧
      r' = { r with
        tradingAccounts := r.tradingAccounts.insert trading.principal ⟨funding.principal⟩
        tradingAccountsByFunding := r.tradingAccountsByFunding.insert id
          { accounts := ((r.tradingAccountsByFunding.get id).getD .empty).accounts
              ++ [trading.principal], lastGrantedAt := now } } := by
  simp only [recordAddTradingAccount, Except.bind_eq_ok, Except.expect_eq_ok, Except.assert_eq_ok,
    Except.ok.injEq] at h
  obtain ⟨fid, hfid, id, hid, -, hnew, rfl⟩ := h
  rw [lookupFundingId_eq_ok hfid] at hid
  rw [Bool.not_eq_true', SortedMap.contains, Option.isSome_eq_false_iff,
    Option.isNone_iff_eq_none] at hnew
  exact ⟨id, hid, hnew, rfl⟩

/-- What a revocation did. -/
lemma recordRemoveTradingAccount_eq_ok {funding : FundingAccount} {trading : TradingAccount}
    (h : r.recordRemoveTradingAccount funding trading = .ok r') :
    ∃ id list, r.fundingId funding.principal = some id ∧
      r.tradingAccounts.get trading.principal = some ⟨funding.principal⟩ ∧
      r.tradingAccountsByFunding.get id = some list ∧
      r' = { r with
        tradingAccounts := r.tradingAccounts.erase trading.principal
        tradingAccountsByFunding := r.tradingAccountsByFunding.insert id
          { list with accounts := list.accounts.filter (· ≠ trading.principal) } } := by
  simp only [recordRemoveTradingAccount, Except.bind_eq_ok, Except.expect_eq_ok,
    Except.assert_eq_ok, Except.ok.injEq, decide_eq_true_eq] at h
  obtain ⟨fid, hfid, id, hid, ⟨removed⟩, hrem, -, rfl, list, hlist, rfl⟩ := h
  rw [lookupFundingId_eq_ok hfid] at hid
  exact ⟨id, list, hid, hrem, hlist, rfl⟩

lemma grants_recordAddTradingAccount {funding : FundingAccount} {trading : TradingAccount}
    {now : Timestamp} (h : r.recordAddTradingAccount funding trading now = .ok r') :
    r'.tradingAccounts = r.tradingAccounts.insert trading.principal ⟨funding.principal⟩ := by
  obtain ⟨_, -, -, rfl⟩ := recordAddTradingAccount_eq_ok h
  rfl

lemma grants_recordRemoveTradingAccount {funding : FundingAccount} {trading : TradingAccount}
    (h : r.recordRemoveTradingAccount funding trading = .ok r') :
    r'.tradingAccounts = r.tradingAccounts.erase trading.principal := by
  obtain ⟨_, _, -, -, -, rfl⟩ := recordRemoveTradingAccount_eq_ok h
  rfl

/-- **Granting** to a principal that is not registered. -/
lemma Sound.recordAddTradingAccount (hs : r.Sound) {funding : FundingAccount}
    {trading : TradingAccount} {now : Timestamp} (hnew : r.users.get trading.principal = none)
    (h : r.recordAddTradingAccount funding trading now = .ok r') :
    r'.Sound ∧ r.Extends r' ∧ r'.users = r.users := by
  obtain ⟨id, hid, -, rfl⟩ := recordAddTradingAccount_eq_ok h
  have hfund := (fundingId_eq_some.mp hid).2
  have hs' : Sound { r with
      tradingAccounts := r.tradingAccounts.insert trading.principal ⟨funding.principal⟩
      tradingAccountsByFunding := r.tradingAccountsByFunding.insert id
        { accounts := ((r.tradingAccountsByFunding.get id).getD .empty).accounts
            ++ [trading.principal], lastGrantedAt := now } } := by
    refine ⟨fun q grant hq => ?_, hs.below, hs.injective, fun q grant hq => ?_⟩
    · simp only [SortedMap.get_insert] at hq
      split_ifs at hq with he
      · rw [← he]
        exact hnew
      · exact hs.disjoint q grant hq
    · simp only [SortedMap.get_insert] at hq ⊢
      split_ifs at hq with he
      · cases hq
        exact ⟨id, _, hfund, if_pos rfl⟩
      · obtain ⟨id', list, h1, h2⟩ := hs.granted q grant hq
        by_cases hii : id = id'
        · exact ⟨id', _, h1, if_pos hii⟩
        · exact ⟨id', list, h1, (if_neg hii).trans h2⟩
  refine ⟨hs', fun q id' hq => ?_, rfl⟩
  exact hs'.fundingId_of_users (fundingId_eq_some.mp hq).2

/-- **Revoking** a grant. -/
lemma Sound.recordRemoveTradingAccount (hs : r.Sound) {funding : FundingAccount}
    {trading : TradingAccount} (h : r.recordRemoveTradingAccount funding trading = .ok r') :
    r'.Sound ∧ r.Extends r' ∧ r'.users = r.users ∧
      ∀ q, r.tradingAccounts.get q = none → r'.tradingAccounts.get q = none := by
  obtain ⟨id, list, hid, -, -, rfl⟩ := recordRemoveTradingAccount_eq_ok h
  have hs' : Sound { r with
      tradingAccounts := r.tradingAccounts.erase trading.principal
      tradingAccountsByFunding := r.tradingAccountsByFunding.insert id
        { list with accounts := list.accounts.filter (· ≠ trading.principal) } } := by
    refine ⟨fun q grant hq => ?_, hs.below, hs.injective, fun q grant hq => ?_⟩
    · simp only [SortedMap.get_erase] at hq
      split_ifs at hq with he
      exact hs.disjoint q grant hq
    · simp only [SortedMap.get_erase] at hq
      split_ifs at hq with he
      obtain ⟨id', list', h1, h2⟩ := hs.granted q grant hq
      simp only [SortedMap.get_insert]
      by_cases hii : id = id'
      · exact ⟨id', _, h1, if_pos hii⟩
      · exact ⟨id', list', h1, (if_neg hii).trans h2⟩
  refine ⟨hs', fun q id' hq => ?_, rfl, fun q hq => ?_⟩
  · exact hs'.fundingId_of_users (fundingId_eq_some.mp hq).2
  · simp only [SortedMap.get_erase]
    split_ifs
    · rfl
    · exact hq

end UserRegistry

end OisyTrade
