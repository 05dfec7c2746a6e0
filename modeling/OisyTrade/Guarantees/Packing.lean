import OisyTrade.Settlement.Spec
import OisyTrade.State.Record

/-!
# Packing a round's settlement into events

`from_matching` cuts the settlement units of a round into batches, one for each settling event.
The batches are those of consecutive groups of whole units, so a fill is settled in the event that
carries its balance operations.  `resolve_op_orders` builds the table of an event's orders from
its operations alone, which is why the orders of every fill are found in it.
-/

namespace OisyTrade

/-- The settlement units `from_matching` hands to `pack_settlement_units`. -/
def MatchSettlement.units (output : MatchingOutput) (feeRates : FeeRates) (baseScale : BaseScale) :
    Except Trap (List SettlementUnit) := do
  let (_, units) ← output.fills.foldlM (addFill feeRates baseScale) (SortedMap.empty, [])
  output.expiredOrders.entries.foldlM (addExpired baseScale) units

/-- The fill of a unit travels with all of its balance operations: they stand together in
`operations`, which therefore name both orders of the fill. -/
structure SettlementUnit.Within (unit : SettlementUnit) (f : FillEvent)
    (operations : List BalanceOperation) : Prop where
  fill : unit.fill = some f
  size : unit.balanceOperations.length = 2 ∨ unit.balanceOperations.length = 3
  together : unit.balanceOperations <:+: operations
  taker : f.takerOrderSeq ∈ operations.flatMap BalanceOperation.seqs
  maker : f.makerOrderSeq ∈ operations.flatMap BalanceOperation.seqs

/-- **What a packing of units into batches keeps.** -/
structure Packs (cap : ℕ) (units : List SettlementUnit) (groups : List (List SettlementUnit))
    (batches : List SettlementBatch) : Prop where
  partition : groups.flatten = units
  grouped : batches = groups.map batchOf
  cut : CutAt cap groups
  operations : batches.flatMap (·.balanceOperations) = units.flatMap (·.balanceOperations)
  fills : batches.flatMap (·.fills) = units.flatMap (·.fill.toList)
  nonEmpty : ∀ batch ∈ batches, batch.isEmpty = false
  colocated : ∀ group ∈ groups, ∀ f ∈ (batchOf group).fills, ∃ unit ∈ group,
    unit.Within f (batchOf group).balanceOperations

/-! ## The units of a round -/

namespace FillSettlement

/-- A fill settles into two operations, or three when the taker gets a surplus back. -/
lemma balanceOperations_length (s : FillSettlement) :
    s.balanceOperations.length = 2 ∨ s.balanceOperations.length = 3 := by
  rw [balanceOperations]
  by_cases hz : s.surplus.isZero = true
  · left
    simp [hz]
  · right
    simp [hz]

/-- The operations of a fill name both of its orders. -/
lemma mem_seqs_balanceOperations (s : FillSettlement) :
    s.fill.takerOrderSeq ∈ s.balanceOperations.flatMap BalanceOperation.seqs
      ∧ s.fill.makerOrderSeq ∈ s.balanceOperations.flatMap BalanceOperation.seqs := by
  rw [balanceOperations]
  cases s.fill.takerSide <;> simp [BalanceOperation.seqs]

end FillSettlement

/-- The batch of a group holds the operations of its units in one piece each. -/
lemma infix_batchOf {group : List SettlementUnit} {unit : SettlementUnit} (h : unit ∈ group) :
    unit.balanceOperations <:+: (batchOf group).balanceOperations := by
  obtain ⟨pre, post, rfl⟩ := List.append_of_mem h
  refine ⟨(batchOf pre).balanceOperations, (batchOf post).balanceOperations, ?_⟩
  simp [batchOf]

/-- The fill of a settled fill lies with its operations in the batch of any group around it. -/
lemma FillSettlement.within_batchOf {group : List SettlementUnit} {s : FillSettlement}
    (h : s.unit ∈ group) : s.unit.Within s.fillEvent (batchOf group).balanceOperations := by
  have hinfix := infix_batchOf h
  have hseqs : s.balanceOperations.flatMap BalanceOperation.seqs
      ⊆ (batchOf group).balanceOperations.flatMap BalanceOperation.seqs := by
    intro seq hseq
    obtain ⟨op, hop, hnamed⟩ := List.mem_flatMap.mp hseq
    exact List.mem_flatMap.mpr ⟨op, hinfix.subset hop, hnamed⟩
  obtain ⟨htaker, hmaker⟩ := s.mem_seqs_balanceOperations
  exact ⟨rfl, s.balanceOperations_length, hinfix, hseqs htaker, hseqs hmaker⟩

namespace MatchSettlement

variable {output : MatchingOutput} {rates : FeeRates} {scale : BaseScale}
  {units : List SettlementUnit}

/-- The units of a round: one for each fill, then one for each killed order. -/
lemma units_eq_ok (h : MatchSettlement.units output rates scale = .ok units) :
    ∃ (fills : List FillSettlement) (refunds : List RemovedOrderSettlement),
      units = fills.map FillSettlement.unit ++ refunds.map RemovedOrderSettlement.unit := by
  simp only [MatchSettlement.units, Except.bind_eq_ok, Prod.exists] at h
  obtain ⟨updates, filled, hfills, hexpired⟩ := h
  obtain ⟨fills, -, hfilled, -⟩ := addFill_foldlM hfills
  obtain ⟨refunds, -, hunits⟩ := addExpired_foldlM hexpired
  exact ⟨fills, refunds, by rw [hunits, hfilled, List.nil_append]⟩

/-- `from_matching` packs the units of the round. -/
lemma fromMatching_packs (h : MatchSettlement.units output rates scale = .ok units) (cap : ℕ) :
    ∃ m, fromMatching output rates scale cap = .ok m
      ∧ m.settlingBatches = packSettlementUnits units cap := by
  simp only [MatchSettlement.units, Except.bind_eq_ok, Prod.exists] at h
  obtain ⟨updates, filled, hfills, hexpired⟩ := h
  simp only [fromMatching, hfills, hexpired, Except.bind_ok]
  exact ⟨_, rfl, rfl⟩

/-- **Packing loses nothing and splits no unit.**  Whatever units `from_matching` produces, at
every cap its batches are those of consecutive groups of the units, all full but the last; their
operations and fills are the units' in order; and every fill stands in the batch of its own two or
three operations, which name its two orders. -/
theorem packs_units (h : MatchSettlement.units output rates scale = .ok units) {cap : ℕ}
    (hcap : 1 ≤ cap) :
    (∃ m, fromMatching output rates scale cap = .ok m
        ∧ m.settlingBatches = packSettlementUnits units cap)
      ∧ ∃ groups, Packs cap units groups (packSettlementUnits units cap) := by
  refine ⟨fromMatching_packs h cap, ?_⟩
  obtain ⟨fills, refunds, rfl⟩ := units_eq_ok h
  have hne : ∀ unit ∈ fills.map FillSettlement.unit ++ refunds.map RemovedOrderSettlement.unit,
      unit.balanceOperations ≠ [] := fun unit hunit => unit_ops_ne_nil fills refunds hunit
  obtain ⟨groups, hflat, hbatches, hcut⟩ := packSettlementUnits_groups cap hne
  refine ⟨groups, hflat, hbatches, hcut hcap, ?_, ?_, ?_, ?_⟩
  · rw [hbatches, ← hflat, List.flatMap_map, ← List.flatMap_id, List.flatMap_assoc]
    rfl
  · rw [hbatches, ← hflat, List.flatMap_map, ← List.flatMap_id, List.flatMap_assoc]
    rfl
  · intro batch hbatch
    rw [hbatches] at hbatch
    obtain ⟨group, hgroup, rfl⟩ := List.mem_map.mp hbatch
    obtain ⟨unit, hunit⟩ := List.exists_mem_of_length_pos ((hcut hcap).bounded group hgroup).1
    have hops := hne unit (hflat ▸ List.mem_flatten_of_mem hgroup hunit)
    have hbatchOps : (batchOf group).balanceOperations ≠ [] := by
      intro hnil
      have hinfix := infix_batchOf hunit
      rw [hnil, List.infix_nil] at hinfix
      exact hops hinfix
    rw [SettlementBatch.isEmpty, List.isEmpty_eq_false_iff.mpr hbatchOps, Bool.false_and]
  · intro group hgroup f hf
    obtain ⟨unit, hunit, hfill⟩ := List.mem_flatMap.mp hf
    rw [Option.mem_toList] at hfill
    have hmem := hflat ▸ List.mem_flatten_of_mem hgroup hunit
    refine ⟨unit, hunit, ?_⟩
    rcases List.mem_append.mp hmem with hmem | hmem
    · obtain ⟨s, -, rfl⟩ := List.mem_map.mp hmem
      obtain rfl : s.fillEvent = f := Option.some.inj hfill
      exact FillSettlement.within_batchOf hunit
    · obtain ⟨r, -, rfl⟩ := List.mem_map.mp hmem
      cases hfill

/-- A round with a buy that improves on its limit, a sell, and a killed order. -/
def sampleOutput : MatchingOutput where
  fills := [
    { fillSeq := .zero, takerOrderSeq := .wrap 2, takerSide := .buy, takerPrice := ⟨30⟩,
      makerOrderSeq := .wrap 1, makerPrice := ⟨20⟩, quantity := ⟨0, 5⟩ },
    { fillSeq := .wrap 1, takerOrderSeq := .wrap 3, takerSide := .sell, takerPrice := ⟨20⟩,
      makerOrderSeq := .wrap 2, makerPrice := ⟨30⟩, quantity := ⟨0, 4⟩ }]
  restingOrders := .empty
  filledOrders := SortedSet.empty.addAll [.wrap 1, .wrap 3]
  expiredOrders := SortedMap.empty.insert (.wrap 4)
    { side := .sell, price := ⟨40⟩, remainingQuantity := ⟨0, 7⟩ }

lemma sampleRate_le : 20 ≤ 10000 := by decide

lemma sampleScale_ne_zero : (10 : U64) ≠ 0 := by decide

/-- The units of the sample round. -/
def sampleUnits : Except Trap (List SettlementUnit) :=
  MatchSettlement.units sampleOutput ⟨⟨20, sampleRate_le⟩, ⟨20, sampleRate_le⟩⟩
    ⟨10, sampleScale_ne_zero⟩

lemma sampleUnits_isOk : sampleUnits.isOk = true := by decide +kernel

theorem packs_units_sampleOutput : ∃ units, sampleUnits = .ok units ∧ units.length = 3
    ∧ ∃ groups, Packs 2 units groups (packSettlementUnits units 2) :=
  ⟨_, Except.eq_ok_valueD [] sampleUnits_isOk, by decide +kernel,
    (packs_units (Except.eq_ok_valueD [] sampleUnits_isOk) (by decide)).2⟩

end MatchSettlement

end OisyTrade
