import OisyTrade.Invariant.Owned
import OisyTrade.Script
import Mathlib.Data.Finset.Card
import Mathlib.Data.Finset.Range

/-!
# Funding and trading accounts

No principal is ever both a funding and a trading account.  The registry keeps the two apart, the
guards of waiting deposits and withdrawals keep grants away from their callers, and balances belong
to registered users.
-/

namespace OisyTrade

/-- Distinct user ids below the number of users are all the numbers below it. -/
lemma UserRegistry.Sound.ids {r : UserRegistry} (h : r.Sound) (n : ℕ) :
    n < r.users.size ↔ ∃ p id, r.users.get p = some id ∧ Seq.val id = n := by
  have hnd : (r.users.entries.map fun e => e.2.val).Nodup := by
    refine (List.nodup_map_iff_inj_on ?_).mpr fun a ha b hb hab => ?_
    · exact r.users.sorted.imp fun hlt he => hlt.ne (congrArg Prod.fst he)
    · have ha' := (SortedMap.mem_entries_iff _).mp ha
      have hb' := (SortedMap.mem_entries_iff _).mp hb
      have hid : a.2 = b.2 := Seq.ext_val hab
      rw [hid] at ha'
      exact Prod.ext (h.injective _ _ _ ha' hb') hid
  have hsub : (r.users.entries.map fun e => e.2.val).toFinset ⊆ Finset.range r.users.size := by
    intro m hm
    obtain ⟨e, he, rfl⟩ := List.mem_map.mp (List.mem_toFinset.mp hm)
    exact Finset.mem_range.mpr (h.below _ _ ((SortedMap.mem_entries_iff _).mp he))
  have hall : (r.users.entries.map fun e => e.2.val).toFinset = Finset.range r.users.size := by
    refine Finset.eq_of_subset_of_card_le hsub ?_
    rw [Finset.card_range, List.toFinset_card_of_nodup hnd, List.length_map]
    exact le_rfl
  rw [← Finset.mem_range, ← hall, List.mem_toFinset, List.mem_map]
  constructor
  · rintro ⟨e, he, hn⟩
    exact ⟨e.1, e.2, (SortedMap.mem_entries_iff _).mp he, hn⟩
  · rintro ⟨p, id, hp, hn⟩
    exact ⟨(p, id), (SortedMap.mem_entries_iff _).mpr hp, hn⟩

namespace World

/-- **Funding and trading accounts are separate.** -/
structure SeparateAccounts (w : World) : Prop where
  disjoint : ∀ p, (w.canister.state.userRegistry.tradingAccounts.get p).isSome →
    w.canister.state.userRegistry.users.get p = none
  inFlight : ∀ call ∈ w.calls,
    w.canister.state.userRegistry.tradingAccounts.get call.caller = none
  authenticating : ∀ p, (w.canister.state.userRegistry.tradingAccounts.get p).isSome →
    p ≠ .anonymous ∧ p ≠ .managementCanister
  injective : ∀ p q id, w.canister.state.userRegistry.users.get p = some id →
    w.canister.state.userRegistry.users.get q = some id → p = q
  ids : ∀ n, n < w.canister.state.userRegistry.users.size ↔
    ∃ p id, w.canister.state.userRegistry.users.get p = some id ∧ Seq.val id = n
  owners : ∀ id r, w.canister.state.orderHistory.get id = some r →
    (w.canister.state.userRegistry.users.get r.owner).isSome
  granters : ∀ p grant, w.canister.state.userRegistry.tradingAccounts.get p = some grant →
    (w.canister.state.userRegistry.users.get grant.funding).isSome
  rows : ∀ key, (w.canister.state.balances.balances.get key).isSome →
    ∃ p, w.canister.state.userRegistry.users.get p = some key.user
  noBalance : ∀ p token, (w.canister.state.userRegistry.tradingAccounts.get p).isSome →
    w.canister.state.getBalance p token = .ok Balance.zero
  lookup : ∀ p, w.canister.state.userRegistry.lookup p
    = .ok (w.canister.state.userRegistry.account p)

/-- **No principal is ever both a funding and a trading account.** -/
theorem Reachable.separateAccounts {w : World} (h : Reachable w) : w.SeparateAccounts := by
  have hg := h.guarded
  have ho := h.owned
  have hr := hg.sound.registry
  refine ⟨fun p hp => ?_, fun call hcall => hg.caller hcall, fun p hp => ?_, hr.injective, hr.ids,
    fun id r hrec => ?_, fun p grant hp => ?_, fun key hkey => ?_, fun p token hp => ?_, hr.lookup⟩
  · obtain ⟨grant, hgrant⟩ := Option.isSome_iff_exists.mp hp
    exact hr.disjoint p grant hgrant
  · obtain ⟨grant, hgrant⟩ := Option.isSome_iff_exists.mp hp
    exact ho.grants p grant hgrant
  · obtain ⟨uid, huid⟩ := (hg.sound.records id r hrec).owner
    rw [(UserRegistry.fundingId_eq_some.mp huid).2]
    rfl
  · obtain ⟨id, _, hid, -⟩ := hr.granted p grant hp
    rw [hid]
    rfl
  · obtain ⟨p, hp⟩ := ho.rows key hkey
    exact ⟨p, (UserRegistry.fundingId_eq_some.mp hp).2⟩
  · obtain ⟨grant, hgrant⟩ := Option.isSome_iff_exists.mp hp
    have hnone : w.canister.state.userRegistry.fundingId p = none := by
      rw [UserRegistry.fundingId, UserRegistry.account, hgrant]
      rfl
    simp only [State.getBalance, hr.lookupFundingId, hnone, Except.bind_ok]
    rfl

/-- Two users, a trading account that was granted and one that was revoked, and a withdrawal that
waits. -/
theorem separateAccounts_delegatedWorld :
    delegatedWorld.canister.state.userRegistry.users.keys = [⟨10⟩, ⟨11⟩] ∧
      delegatedWorld.canister.state.userRegistry.tradingAccounts.keys = [⟨13⟩] ∧
      delegatedWorld.calls.map Call.caller = [⟨10⟩] ∧ delegatedWorld.SeparateAccounts :=
  ⟨by decide +kernel, by decide +kernel, by decide +kernel,
    reachable_delegatedWorld.separateAccounts⟩

end World

end OisyTrade
