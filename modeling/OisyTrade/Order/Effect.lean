import OisyTrade.Order.Reachable

/-!
# What a batch does to each order

The rest of the canister never looks inside the book.  It needs to know, for every sequence, how a
batch moved it: nothing happened, it is live with less to trade, it was filled, or it was killed.
`SeqEffect` says that, `Stepped.effect` proves it of one step, and `Chunk.effect` of a batch.
`FillOk` says what the fills of a batch are about.
-/

namespace OisyTrade

namespace Fill

/-- The fill trades the order with sequence `seq`. -/
def involves (f : Fill) (seq : OrderSeq) : Bool := f.takerOrderSeq = seq || f.makerOrderSeq = seq

end Fill

/-- The fills of one order. -/
def fillsOn (fills : List Fill) (seq : OrderSeq) : List Fill := fills.filter (·.involves seq)

/-- A total quantity. -/
def fillTotal (fills : List Fill) : ℕ := (fills.map fun f => f.quantity.toNat).sum

lemma fillsOn_append (l l' : List Fill) (seq : OrderSeq) :
    fillsOn (l ++ l') seq = fillsOn l seq ++ fillsOn l' seq := List.filter_append ..

lemma fillTotal_append (l l' : List Fill) : fillTotal (l ++ l') = fillTotal l + fillTotal l' := by
  rw [fillTotal, List.map_append, List.sum_append]
  rfl

/-- Two orders that differ at most in what they have left. -/
structure Order.SameTerms (o o' : Order) : Prop where
  id : o'.id = o.id
  side : o'.side = o.side
  price : o'.price = o.price
  timeInForce : o'.timeInForce = o.timeInForce

namespace Order.SameTerms

lemma refl (o : Order) : SameTerms o o := ⟨rfl, rfl, rfl, rfl⟩

lemma trans {o o' o'' : Order} (h : SameTerms o o') (h' : SameTerms o' o'') : SameTerms o o'' :=
  ⟨h'.id.trans h.id, h'.side.trans h.side, h'.price.trans h.price,
    h'.timeInForce.trans h.timeInForce⟩

end Order.SameTerms

/-! ## The trades of one order -/

section Trades

lemma mem_fillsFrom {order : Order} {f : Fill} :
    ∀ {ts : List Sweep.Trade} {n : ℕ}, f ∈ fillsFrom order n ts →
      ∃ t ∈ ts, ∃ k, f = fillOf order k t
  | [], n, h => by cases h
  | t :: ts, n, h => by
      rcases List.mem_cons.mp h with rfl | h
      · exact ⟨t, List.mem_cons_self, n, rfl⟩
      · obtain ⟨t', ht', k, hk⟩ := mem_fillsFrom h
        exact ⟨t', List.mem_cons_of_mem _ ht', k, hk⟩

/-- The quantity that a list of trades takes from the maker `seq`. -/
def tradedWith (ts : List Sweep.Trade) (seq : OrderSeq) : ℕ :=
  ((ts.filter fun t => t.2.1 = seq).map fun t => t.2.2.toNat).sum

lemma fillTotal_fillsFrom (order : Order) (n : ℕ) (ts : List Sweep.Trade) :
    fillTotal (fillsFrom order n ts) = (ts.map fun t => t.2.2.toNat).sum := by
  induction ts generalizing n with
  | nil => rfl
  | cons t ts ih =>
      rw [fillsFrom, fillTotal, List.map_cons, List.sum_cons, List.map_cons, List.sum_cons, ← ih]
      rfl

/-- Every fill of a sweep is the taker's. -/
lemma fillsOn_taker (order : Order) (n : ℕ) (ts : List Sweep.Trade) :
    fillsOn (fillsFrom order n ts) order.id = fillsFrom order n ts := by
  refine List.filter_eq_self.mpr fun f hf => ?_
  obtain ⟨t, -, k, rfl⟩ := mem_fillsFrom hf
  simp [Fill.involves, fillOf]

/-- The fills of another order are those it makes. -/
lemma fillTotal_fillsOn_maker {order : Order} {seq : OrderSeq} (hne : order.id ≠ seq) (n : ℕ)
    (ts : List Sweep.Trade) :
    fillTotal (fillsOn (fillsFrom order n ts) seq) = tradedWith ts seq := by
  induction ts generalizing n with
  | nil => rfl
  | cons t ts ih =>
      have ih' := ih (n + 1)
      by_cases hm : t.2.1 = seq
      · have hf : (fillOf order n t).involves seq = true := by simp [Fill.involves, fillOf, hm]
        rw [fillsFrom, fillsOn, List.filter_cons_of_pos (p := fun f : Fill => f.involves seq) hf,
          fillTotal, List.map_cons, List.sum_cons, tradedWith,
          List.filter_cons_of_pos (by simpa using hm), List.map_cons, List.sum_cons]
        exact congrArg (fun x => t.2.2.toNat + x) ih'
      · have hf : ¬ (fillOf order n t).involves seq = true := by
          simp [Fill.involves, fillOf, hm, hne]
        rw [fillsFrom, fillsOn, List.filter_cons_of_neg (p := fun f : Fill => f.involves seq) hf,
          tradedWith, List.filter_cons_of_neg (by simpa using hm)]
        exact ih'

lemma fillsOn_maker_nil {order : Order} {seq : OrderSeq} (hne : order.id ≠ seq) {n : ℕ}
    {ts : List Sweep.Trade} (h : ∀ t ∈ ts, t.2.1 ≠ seq) :
    fillsOn (fillsFrom order n ts) seq = [] := by
  refine List.filter_eq_nil_iff.mpr fun f hf => ?_
  obtain ⟨t, ht, k, rfl⟩ := mem_fillsFrom hf
  simp [Fill.involves, fillOf, h t ht, hne]

/-- In a list without repeated ids, exactly one entry carries the id of a member. -/
lemma filter_key_eq_singleton {α β : Type} [DecidableEq β] {key : α → β} {l : List α} {a : α}
    (hnd : (l.map key).Nodup) (ha : a ∈ l) : l.filter (fun x => key x = key a) = [a] := by
  induction l with
  | nil => cases ha
  | cons x l ih =>
      rw [List.map_cons, List.nodup_cons] at hnd
      rcases List.mem_cons.mp ha with rfl | ha
      · rw [List.filter_cons_of_pos (by simp), List.filter_eq_nil_iff.mpr fun y hy => ?_]
        have : key y ≠ key a := fun he => hnd.1 (he ▸ List.mem_map_of_mem hy)
        simpa using this
      · have hne : key x ≠ key a := fun he => hnd.1 (he ▸ List.mem_map_of_mem ha)
        rw [List.filter_cons_of_neg (by simpa using hne), ih hnd.2 ha]

variable {crosses : Price → Bool} {ms : List (Price × RestingOrder)} {q : ℕ} {s : Sweep}

/-- What a sweep does to one of its makers. -/
lemma Sweep.Spec.maker_cases (h : s.Spec crosses ms q) (hnd : (ms.map (·.2.id)).Nodup)
    {e : Price × RestingOrder} (he : e ∈ ms) :
    (e.2.id ∈ s.consumed.map (·.2.id) ∧ (∀ e' ∈ s.rest, e'.2.id ≠ e.2.id) ∧
      tradedWith s.trades e.2.id = e.2.remainingQuantity.toNat) ∨
    (e.2.id ∉ s.consumed.map (·.2.id) ∧ e ∈ s.rest ∧ ∀ t ∈ s.trades, t.2.1 ≠ e.2.id) ∨
    (∃ x : Quantity, x.toNat ≤ e.2.remainingQuantity.toNat ∧
      e.2.id ∉ s.consumed.map (·.2.id) ∧
      (e.1, e.2.withRemaining (e.2.remainingQuantity.sub x)) ∈ s.rest ∧
      tradedWith s.trades e.2.id = x.toNat) := by
  have hcons : ∀ e ∈ s.consumed, (s.consumed.map (·.2.id)).Nodup →
      tradedWith (s.consumed.map fun e => (e.1, e.2.id, e.2.remainingQuantity)) e.2.id
        = e.2.remainingQuantity.toNat := by
    intro e he hnd'
    have hf : (s.consumed.filter fun x => x.2.id = e.2.id) = [e] :=
      filter_key_eq_singleton hnd' he
    rw [tradedWith, List.filter_map, List.map_map]
    show ((s.consumed.filter fun x => x.2.id = e.2.id).map _).sum = _
    rw [hf]
    simp
  have hnone : ∀ (ts : List Sweep.Trade) (seq : OrderSeq), (∀ t ∈ ts, t.2.1 ≠ seq) →
      tradedWith ts seq = 0 := by
    intro ts seq hts
    rw [tradedWith, List.filter_eq_nil_iff.mpr fun t ht => by simpa using hts t ht]
    rfl
  have happ : ∀ (ts ts' : List Sweep.Trade) (seq : OrderSeq),
      tradedWith (ts ++ ts') seq = tradedWith ts seq + tradedWith ts' seq := by
    intro ts ts' seq
    rw [tradedWith, List.filter_append, List.map_append, List.sum_append]
    rfl
  cases hl : s.last with
  | none =>
      have hms := h.untouched hl
      have htr : s.trades = s.consumed.map fun e => (e.1, e.2.id, e.2.remainingQuantity) := by
        rw [Sweep.trades, hl]
        simp
      rw [hms, List.map_append, List.nodup_append] at hnd
      obtain ⟨h1, -, h3⟩ := hnd
      rw [hms] at he
      rcases List.mem_append.mp he with he | he
      · refine Or.inl ⟨List.mem_map_of_mem he, fun e' he' hid => ?_, ?_⟩
        · exact h3 _ (List.mem_map_of_mem he) _ (List.mem_map_of_mem he') hid.symm
        · rw [htr]
          exact hcons e he h1
      · have hno : e.2.id ∉ s.consumed.map (·.2.id) := fun hmem =>
          h3 _ hmem _ (List.mem_map_of_mem he) rfl
        refine Or.inr (Or.inl ⟨hno, he, fun t ht hid => hno ?_⟩)
        rw [htr] at ht
        obtain ⟨e', he', rfl⟩ := List.mem_map.mp ht
        exact List.mem_map.mpr ⟨e', he', hid⟩
  | some last =>
      obtain ⟨⟨p, m⟩, x⟩ := last
      obtain ⟨post, hms, hrest, hlt, hpos, -⟩ := h.reduced p m x hl
      have htr : s.trades = (s.consumed.map fun e => (e.1, e.2.id, e.2.remainingQuantity))
          ++ [(p, m.id, x)] := by
        rw [Sweep.trades, hl]
        simp
      rw [hms, List.map_append, List.nodup_append, List.map_cons, List.nodup_cons] at hnd
      obtain ⟨h1, ⟨h2, -⟩, h3⟩ := hnd
      rw [hms] at he
      have hlastId : m.id ∉ s.consumed.map (·.2.id) := fun hmem =>
        h3 _ hmem _ List.mem_cons_self rfl
      rcases List.mem_append.mp he with he | he
      · have hmem : e.2.id ∈ s.consumed.map (·.2.id) := List.mem_map_of_mem he
        have hne : m.id ≠ e.2.id := fun hid => hlastId (hid ▸ hmem)
        refine Or.inl ⟨hmem, fun e' he' hid => ?_, ?_⟩
        · rw [hrest] at he'
          rcases List.mem_cons.mp he' with rfl | he'
          · exact hne hid
          · exact h3 _ hmem _ (List.mem_cons_of_mem _ (List.mem_map_of_mem he')) hid.symm
        · rw [htr, happ, hcons e he h1, hnone _ _ (by simpa using hne), Nat.add_zero]
      · rcases List.mem_cons.mp he with rfl | he
        · refine Or.inr (Or.inr ⟨x, hlt.le, hlastId, hrest ▸ List.mem_cons_self, ?_⟩)
          rw [htr, happ, hnone _ _ fun t ht hid => hlastId ?_, Nat.zero_add, tradedWith]
          · simp
          · obtain ⟨e', he', rfl⟩ := List.mem_map.mp ht
            exact List.mem_map.mpr ⟨e', he', hid⟩
        · have hno : e.2.id ∉ s.consumed.map (·.2.id) := fun hmem =>
            h3 _ hmem _ (List.mem_cons_of_mem _ (List.mem_map_of_mem he)) rfl
          have hne : m.id ≠ e.2.id := fun hid => h2 (hid ▸ List.mem_map_of_mem he)
          refine Or.inr (Or.inl ⟨hno, hrest ▸ List.mem_cons_of_mem _ he, fun t ht hid => ?_⟩)
          rw [htr] at ht
          rcases List.mem_append.mp ht with ht | ht
          · obtain ⟨e', he', rfl⟩ := List.mem_map.mp ht
            exact hno (List.mem_map.mpr ⟨e', he', hid⟩)
          · rw [List.mem_singleton.mp ht] at hid
            exact hne hid

/-- The trades of a sweep are with its makers. -/
lemma Sweep.Spec.mem_trades (h : s.Spec crosses ms q)
    (hpos : ∀ e ∈ ms, 0 < e.2.remainingQuantity.toNat) {t : Sweep.Trade} (ht : t ∈ s.trades) :
    ∃ e ∈ ms, t.1 = e.1 ∧ t.2.1 = e.2.id ∧ 0 < t.2.2.toNat := by
  rcases List.mem_append.mp ht with ht | ht
  · obtain ⟨e, he, rfl⟩ := List.mem_map.mp ht
    have hmem : e ∈ ms := by
      cases hl : s.last with
      | none =>
          rw [h.untouched hl]
          exact List.mem_append_left _ he
      | some x =>
          obtain ⟨⟨p, m⟩, x⟩ := x
          obtain ⟨post, hms, -⟩ := h.reduced p m x hl
          rw [hms]
          exact List.mem_append_left _ he
    exact ⟨e, hmem, rfl, rfl, hpos e hmem⟩
  · obtain ⟨⟨⟨p, m⟩, x⟩, hx, rfl⟩ := List.mem_map.mp ht
    have hl : s.last = some ((p, m), x) := Option.mem_toList.mp hx
    obtain ⟨post, hms, -, -, hp, -⟩ := h.reduced p m x hl
    exact ⟨(p, m), hms ▸ by simp, rfl, rfl, hp⟩

/-- The traded quantities and what is left make up the order. -/
lemma Sweep.Spec.traded (h : s.Spec crosses ms q) :
    (s.trades.map fun t => t.2.2.toNat).sum + s.left.toNat = q := by
  rw [← h.quantity, Sweep.trades, List.map_append, List.sum_append, List.map_map]
  congr 2
  rw [Sweep.lastQuantity]
  cases s.last <;> simp

end Trades

namespace OrderBook

/-- The live order with a sequence. -/
def find (b : OrderBook) (seq : OrderSeq) : Option Order := b.live.find? (fun o => o.id = seq)

lemma WellFormed.find_eq_some {b : OrderBook} (h : b.WellFormed) {seq : OrderSeq} {o : Order} :
    b.find seq = some o ↔ o ∈ b.live ∧ o.id = seq := by
  constructor
  · intro hf
    exact ⟨List.mem_of_find?_eq_some hf, by simpa using List.find?_some hf⟩
  · rintro ⟨ho, rfl⟩
    cases hf : b.find o.id with
    | none =>
        have := List.find?_eq_none.mp hf o ho
        simp at this
    | some o' =>
        have hid : o'.id = o.id := by simpa using List.find?_some hf
        rw [h.eq_of_id_eq (List.mem_of_find?_eq_some hf) ho hid]

lemma find_eq_none {b : OrderBook} {seq : OrderSeq} :
    b.find seq = none ↔ ∀ o ∈ b.live, o.id ≠ seq := by
  rw [find, List.find?_eq_none]
  simp

/-- How a batch moved one sequence. -/
inductive SeqEffect (b b' : OrderBook) (out : StepOut) (seq : OrderSeq) : Prop
  | absent (h : b.find seq = none) (h' : b'.find seq = none) (hfills : fillsOn out.fills seq = [])
      (hfilled : seq ∉ out.filled) (hresting : seq ∉ out.resting)
      (hexpired : seq ∉ out.expired.map Prod.fst)
  | live (o o' : Order) (h : b.find seq = some o) (h' : b'.find seq = some o')
      (hterms : o.SameTerms o')
      (hquantity : o'.remainingQuantity.toNat + fillTotal (fillsOn out.fills seq)
        = o.remainingQuantity.toNat)
      (hpending : o' ∈ b'.pendingOrders → o = o' ∧ o ∈ b.pendingOrders ∧
        fillsOn out.fills seq = [])
      (hresting : o' ∈ b'.restingList ↔ o ∈ b.restingList ∨ seq ∈ out.resting)
      (hrests : seq ∈ out.resting → o ∈ b.pendingOrders)
      (hfilled : seq ∉ out.filled) (hexpired : seq ∉ out.expired.map Prod.fst)
  | filled (o : Order) (h : b.find seq = some o) (h' : b'.find seq = none)
      (hquantity : fillTotal (fillsOn out.fills seq) = o.remainingQuantity.toNat)
      (hfilled : seq ∈ out.filled) (hexpired : seq ∉ out.expired.map Prod.fst)
  | expired (o : Order) (h : b.find seq = some o) (hfok : o.timeInForce = .fillOrKill)
      (hpending : o ∈ b.pendingOrders) (h' : b'.find seq = none)
      (hfills : fillsOn out.fills seq = []) (hfilled : seq ∉ out.filled)
      (hresting : seq ∉ out.resting)
      (hexpired : (seq, ⟨o.side, o.price, o.remainingQuantity⟩) ∈ out.expired)
      (honce : ∀ r, (seq, r) ∈ out.expired → r = ⟨o.side, o.price, o.remainingQuantity⟩)

/-! ## One step -/

section Step

variable {b b' : OrderBook} {order : Order}

lemma stepOut_killed (h : b.Killed order) : b.stepOut order = ⟨[], [], [], [(order.id,
    ⟨order.side, order.price, order.remainingQuantity⟩)]⟩ := by
  rw [stepOut, if_pos h]

lemma stepOut_filled (h : ¬ b.Killed order) (hz : (b.sweepOf order).left.toNat = 0) :
    b.stepOut order = ⟨b.fillsOf order,
      (b.sweepOf order).consumed.map (·.2.id) ++ [order.id], [], []⟩ := by
  rw [stepOut, if_neg h, if_pos hz]

lemma stepOut_rested (h : ¬ b.Killed order) (hz : (b.sweepOf order).left.toNat ≠ 0) :
    b.stepOut order = ⟨b.fillsOf order,
      (b.sweepOf order).consumed.map (·.2.id), [order.id], []⟩ := by
  rw [stepOut, if_neg h, if_neg hz]

lemma stepOut_fills (h : ¬ b.Killed order) : (b.stepOut order).fills = b.fillsOf order := by
  rw [stepOut, if_neg h]
  split_ifs <;> rfl

/-- Who a step reports as filled. -/
lemma mem_stepOut_filled {seq : OrderSeq} (hne : order.id ≠ seq) :
    seq ∈ (b.stepOut order).filled ↔
      ¬ b.Killed order ∧ seq ∈ (b.sweepOf order).consumed.map (·.2.id) := by
  rw [stepOut]
  split_ifs with hk hz
  · simp [hk]
  · simp [hk, hne.symm]
  · simp [hk]

/-- Only the taker comes to rest or expires. -/
lemma stepOut_others {seq : OrderSeq} (hne : order.id ≠ seq) :
    seq ∉ (b.stepOut order).resting ∧ seq ∉ (b.stepOut order).expired.map Prod.fst := by
  rw [stepOut]
  split_ifs <;> simp [hne.symm]

/-- The resting orders after a step: those of the taker's side, what the sweep left of the makers,
and what is left of the taker. -/
lemma Stepped.mem_restingList (h : b.Stepped order b') {o : Order} :
    o ∈ b'.restingList ↔ o ∈ b.restingOn order.side ∨
      (if b.Killed order then o ∈ b.restingOn order.side.opposite
        else ∃ e ∈ (b.sweepOf order).rest, e.2.toOrder order.side.opposite e.1 = o) ∨
      (¬ (b.Killed order ∨ (b.sweepOf order).left.toNat = 0) ∧
        o = order.withRemaining (b.sweepOf order).left) := by
  have hown : o ∈ b'.restingOn order.side ↔ o ∈ b.restingOn order.side ∨
      (¬ (b.Killed order ∨ (b.sweepOf order).left.toNat = 0) ∧
        o = order.withRemaining (b.sweepOf order).left) := by
    rw [mem_restingOn, mem_restingOn, h.own]
    split_ifs with hz
    · simp [hz]
    · constructor
      · rintro ⟨e, he, rfl⟩
        rw [ownAfter, List.mem_append, List.mem_cons, List.mem_filter, List.mem_filter] at he
        rcases he with he | rfl | he
        · exact Or.inl ⟨e, he.1, rfl⟩
        · exact Or.inr ⟨hz, rfl⟩
        · exact Or.inl ⟨e, he.1, rfl⟩
      · rintro (⟨e, he, rfl⟩ | ⟨-, rfl⟩)
        · refine ⟨e, ?_, rfl⟩
          rw [ownAfter, List.mem_append, List.mem_cons, List.mem_filter, List.mem_filter]
          by_cases hb : order.side.Better order.price e.1
          · exact Or.inr (Or.inr ⟨he, by simpa using hb⟩)
          · exact Or.inl ⟨he, by simpa using hb⟩
        · exact ⟨_, List.mem_append_right _ List.mem_cons_self, rfl⟩
  have hmakers : o ∈ b'.restingOn order.side.opposite ↔
      (if b.Killed order then o ∈ b.restingOn order.side.opposite
        else ∃ e ∈ (b.sweepOf order).rest, e.2.toOrder order.side.opposite e.1 = o) := by
    rw [mem_restingOn, h.makers]
    split_ifs with hk
    · rw [mem_restingOn]
    · exact Iff.rfl
  rw [(b'.restingList_perm order.side).mem_iff, List.mem_append, hown, hmakers, or_assoc,
    or_comm (a := ¬ _ ∧ _)]

/-- A step brings no new sequence. -/
lemma Stepped.live_of_live (h : b.Stepped order b') {o : Order} (ho : o ∈ b'.live) :
    (o ∈ b'.pendingOrders ∧ o ∈ b.pendingOrders) ∨
    (∃ o₀ ∈ b.restingList, o₀.SameTerms o) ∨
    (¬ (b.Killed order ∨ (b.sweepOf order).left.toNat = 0) ∧
      o = order.withRemaining (b.sweepOf order).left) := by
  rcases mem_live.mp ho with ho | ho
  · exact Or.inl ⟨ho, h.pending ▸ List.mem_cons_of_mem _ ho⟩
  · rcases h.mem_restingList.mp ho with ho | ho | ho
    · obtain ⟨e, he, rfl⟩ := mem_restingOn.mp ho
      exact Or.inr (Or.inl ⟨_, mem_restingList_of_mem he, Order.SameTerms.refl _⟩)
    · refine Or.inr (Or.inl ?_)
      split_ifs at ho with hk
      · obtain ⟨e, he, rfl⟩ := mem_restingOn.mp ho
        exact ⟨_, mem_restingList_of_mem he, Order.SameTerms.refl _⟩
      · obtain ⟨e, he, rfl⟩ := ho
        obtain ⟨e', he', hp, hid, htif⟩ := (b.sweepOf_spec order).mem_rest he
        exact ⟨_, mem_restingList_of_mem he', ⟨hid.symm, rfl, hp.symm, htif.symm⟩⟩
    · exact Or.inr (Or.inr ho)

/-- The taker's own effect. -/
lemma Stepped.effect_taker (hb : b.WellFormed) (h : b.Stepped order b') :
    SeqEffect b b' (b.stepOut order) order.id := by
  have hmem : order ∈ b.pendingOrders := h.pending ▸ List.mem_cons_self
  have hfind : b.find order.id = some order :=
    hb.find_eq_some.mpr ⟨mem_live.mpr (Or.inl hmem), rfl⟩
  have hspec := b.sweepOf_spec order
  have hgone : (b.Killed order ∨ (b.sweepOf order).left.toNat = 0) → b'.find order.id = none := by
    intro hz
    refine find_eq_none.mpr fun o ho hid => ?_
    rcases h.live_of_live ho with ⟨ho', -⟩ | ⟨o₀, ho₀, hterms⟩ | ⟨hnz, -⟩
    · exact (hb.head_before h.pending o ho').ne' hid
    · exact (hb.head_new h.pending o₀ ho₀).ne (hterms.id.symm.trans hid)
    · exact hnz hz
  by_cases hk : b.Killed order
  · rw [stepOut_killed hk]
    refine SeqEffect.expired order hfind hk.1 hmem (hgone (Or.inl hk)) rfl ?_ ?_ ?_ ?_ <;> simp
  have hfills : fillsOn (b.fillsOf order) order.id = b.fillsOf order := fillsOn_taker order _ _
  have htotal : fillTotal (b.fillsOf order) + (b.sweepOf order).left.toNat
      = order.remainingQuantity.toNat := by
    rw [fillsOf, fillTotal_fillsFrom]
    exact hspec.traded
  by_cases hz : (b.sweepOf order).left.toNat = 0
  · rw [stepOut_filled hk hz]
    refine SeqEffect.filled order hfind (hgone (Or.inr hz)) ?_ (by simp) (by simp)
    rw [hfills]
    omega
  · have hrest : order.withRemaining (b.sweepOf order).left ∈ b'.restingList :=
      h.mem_restingList.mpr (Or.inr (Or.inr ⟨not_or.mpr ⟨hk, hz⟩, rfl⟩))
    have hfind' : b'.find order.id = some (order.withRemaining (b.sweepOf order).left) :=
      h.wf.find_eq_some.mpr ⟨mem_live.mpr (Or.inr hrest), rfl⟩
    rw [stepOut_rested hk hz]
    refine SeqEffect.live order _ hfind hfind' ⟨rfl, rfl, rfl, rfl⟩ ?_ ?_ ?_ (fun _ => hmem) ?_
      (by simp)
    · rw [hfills, Order.remainingQuantity_withRemaining]
      omega
    · intro hp
      exact absurd rfl (h.wf.restingFirst _ hrest _ hp).ne
    · simp [hrest]
    · intro hmem'
      obtain ⟨e, he, hid⟩ := List.mem_map.mp hmem'
      have he' : e ∈ b.resting order.side.opposite := by
        rw [hspec.untouched (hspec.blocked hz).1]
        exact List.mem_append_left _ he
      exact (hb.head_new h.pending _ (mem_restingList_of_mem he')).ne hid

/-- An order that a step does not touch. -/
lemma SeqEffect.untouched {out : StepOut} (hb : b.WellFormed) (hb' : b'.WellFormed) {o : Order}
    (ho : o ∈ b.live) (ho' : o ∈ b'.live) (hpend : o ∈ b'.pendingOrders ↔ o ∈ b.pendingOrders)
    (hrest : o ∈ b'.restingList ↔ o ∈ b.restingList) (hfills : fillsOn out.fills o.id = [])
    (hfilled : o.id ∉ out.filled) (hresting : o.id ∉ out.resting)
    (hexpired : o.id ∉ out.expired.map Prod.fst) : SeqEffect b b' out o.id := by
  refine SeqEffect.live o o (hb.find_eq_some.mpr ⟨ho, rfl⟩) (hb'.find_eq_some.mpr ⟨ho', rfl⟩)
    (Order.SameTerms.refl o) ?_ (fun hp => ⟨rfl, hpend.mp hp, hfills⟩) ?_
    (fun hr => absurd hr hresting) hfilled hexpired
  · rw [hfills]
    rfl
  · rw [hrest]
    exact ⟨Or.inl, fun hor => hor.resolve_right hresting⟩

/-- No order is pending and resting at once. -/
lemma WellFormed.not_resting_of_pending (hb : b.WellFormed) {o : Order}
    (ho : o ∈ b.pendingOrders) : o ∉ b.restingList :=
  fun hr => lt_irrefl _ (hb.restingFirst o hr o ho)

/-- The effect on a maker. -/
lemma Stepped.effect_maker (hb : b.WellFormed) (h : b.Stepped order b') (hk : ¬ b.Killed order)
    {e : Price × RestingOrder} (he : e ∈ b.resting order.side.opposite) :
    SeqEffect b b' (b.stepOut order) e.2.id := by
  have hspec := b.sweepOf_spec order
  have hrestE := mem_restingList_of_mem he
  have hliveE : e.2.toOrder order.side.opposite e.1 ∈ b.live := mem_live.mpr (Or.inr hrestE)
  have hfindE : b.find e.2.id = some (e.2.toOrder order.side.opposite e.1) :=
    hb.find_eq_some.mpr ⟨hliveE, rfl⟩
  have hne : order.id ≠ e.2.id := (hb.head_new h.pending _ hrestE).ne'
  obtain ⟨hnr, hnx⟩ := stepOut_others (b := b) hne
  have hnd : ((b.resting order.side.opposite).map (·.2.id)).Nodup :=
    hb.sound.side_nodup order.side.opposite
  have hnotPending : ∀ o ∈ b'.pendingOrders, o.id ≠ e.2.id := by
    intro o ho
    have ho' : o ∈ b.pendingOrders := h.pending ▸ List.mem_cons_of_mem _ ho
    exact (hb.restingFirst _ hrestE o ho').ne'
  rcases hspec.maker_cases hnd he with ⟨hc, hgone, htraded⟩ | ⟨hc, hkept, hno⟩ |
      ⟨x, hx, hc, hkept, htraded⟩
  · refine SeqEffect.filled _ hfindE (find_eq_none.mpr fun o ho hid => ?_) ?_
      ((mem_stepOut_filled hne).mpr ⟨hk, hc⟩) hnx
    · rcases mem_live.mp ho with ho | ho
      · exact hnotPending o ho hid
      · rcases h.mem_restingList.mp ho with ho | ho | ⟨-, rfl⟩
        · obtain ⟨e', he', rfl⟩ := mem_restingOn.mp ho
          have heq := hb.eq_of_id_eq (mem_live.mpr (Or.inr (mem_restingList_of_mem he')))
            hliveE hid
          exact order.side.opposite_ne (congrArg Order.side heq).symm
        · rw [if_neg hk] at ho
          obtain ⟨e', he', rfl⟩ := ho
          exact hgone e' he' hid
        · exact hne hid
    · rw [stepOut_fills hk, fillsOf, fillTotal_fillsOn_maker hne, htraded]
      rfl
  · have hrest' : e.2.toOrder order.side.opposite e.1 ∈ b'.restingList := by
      refine h.mem_restingList.mpr (Or.inr (Or.inl ?_))
      rw [if_neg hk]
      exact ⟨e, hkept, rfl⟩
    refine SeqEffect.untouched hb h.wf hliveE (mem_live.mpr (Or.inr hrest')) ?_ ?_ ?_ ?_ hnr hnx
    · exact ⟨fun hp => absurd rfl (hnotPending _ hp),
        fun hp => absurd hrestE (hb.not_resting_of_pending hp)⟩
    · exact ⟨fun _ => hrestE, fun _ => hrest'⟩
    · rw [stepOut_fills hk, fillsOf]
      exact fillsOn_maker_nil hne hno
    · exact fun hf => hc ((mem_stepOut_filled hne).mp hf).2
  · have hrest' : (e.2.withRemaining (e.2.remainingQuantity.sub x)).toOrder order.side.opposite e.1
        ∈ b'.restingList := by
      refine h.mem_restingList.mpr (Or.inr (Or.inl ?_))
      rw [if_neg hk]
      exact ⟨_, hkept, rfl⟩
    refine SeqEffect.live _ _ hfindE (h.wf.find_eq_some.mpr ⟨mem_live.mpr (Or.inr hrest'), rfl⟩)
      ⟨rfl, rfl, rfl, rfl⟩ ?_ (fun hp => absurd rfl (hnotPending _ hp)) ?_
      (fun hr => absurd hr hnr) (fun hf => hc ((mem_stepOut_filled hne).mp hf).2) hnx
    · rw [stepOut_fills hk, fillsOf, fillTotal_fillsOn_maker hne, htraded]
      show (e.2.remainingQuantity.sub x).toNat + x.toNat = e.2.remainingQuantity.toNat
      rw [Quantity.toNat_sub hx]
      omega
    · exact ⟨fun _ => Or.inl hrestE, fun _ => hrest'⟩

/-- A sequence that is not a maker has no fills in a step, unless it is the taker's. -/
lemma Stepped.untraded (hb : b.WellFormed) {seq : OrderSeq}
    (hne : order.id ≠ seq) (hno : ¬ b.Killed order →
      ∀ e ∈ b.resting order.side.opposite, e.2.id ≠ seq) :
    fillsOn (b.stepOut order).fills seq = [] ∧ seq ∉ (b.stepOut order).filled := by
  have hpos : ∀ e ∈ b.resting order.side.opposite, 0 < e.2.remainingQuantity.toNat :=
    fun e he => (hb.maker_valid he).2.2.1
  by_cases hk : b.Killed order
  · rw [stepOut_killed hk]
    exact ⟨rfl, by simp⟩
  · have hspec := b.sweepOf_spec order
    have htrades : ∀ t ∈ (b.sweepOf order).trades, t.2.1 ≠ seq := by
      intro t ht hid
      obtain ⟨e, he, -, hid', -⟩ := hspec.mem_trades hpos ht
      exact hno hk e he (hid'.symm.trans hid)
    refine ⟨?_, fun hf => ?_⟩
    · rw [stepOut_fills hk, fillsOf]
      exact fillsOn_maker_nil hne htrades
    · obtain ⟨e, he, hid⟩ := List.mem_map.mp ((mem_stepOut_filled hne).mp hf).2
      exact htrades _ (List.mem_append_left _ (List.mem_map_of_mem he)) hid

/-- **The effect of one step**, on every sequence. -/
theorem Stepped.effect (hb : b.WellFormed) (h : b.Stepped order b') (seq : OrderSeq) :
    SeqEffect b b' (b.stepOut order) seq := by
  by_cases hseq : order.id = seq
  · exact hseq ▸ h.effect_taker hb
  obtain ⟨hnr, hnx⟩ := stepOut_others (b := b) hseq
  cases hf : b.find seq with
  | none =>
      have hno := find_eq_none.mp hf
      obtain ⟨hfills, hfilled⟩ := Stepped.untraded (b := b) hb hseq fun _ e he =>
        hno _ (mem_live.mpr (Or.inr (mem_restingList_of_mem he)))
      refine SeqEffect.absent hf (find_eq_none.mpr fun o ho hid => ?_) hfills hfilled hnr hnx
      rcases h.live_of_live ho with ⟨-, ho'⟩ | ⟨o₀, ho₀, hterms⟩ | ⟨-, rfl⟩
      · exact hno o (mem_live.mpr (Or.inl ho')) hid
      · exact hno o₀ (mem_live.mpr (Or.inr ho₀)) (hterms.id.symm.trans hid)
      · exact hseq hid
  | some o =>
      obtain ⟨ho, rfl⟩ := hb.find_eq_some.mp hf
      rcases mem_live.mp ho with hp | hr
      · -- A pending order behind the taker.
        obtain ⟨hfills, hfilled⟩ := Stepped.untraded (b := b) hb hseq fun _ e he =>
          (hb.restingFirst _ (mem_restingList_of_mem he) o hp).ne
        have hp' : o ∈ b'.pendingOrders := by
          rw [h.pending] at hp
          rcases List.mem_cons.mp hp with rfl | hp
          · exact absurd rfl hseq
          · exact hp
        exact SeqEffect.untouched hb h.wf ho (mem_live.mpr (Or.inl hp')) ⟨fun _ => hp, fun _ => hp'⟩
          ⟨fun hr => absurd hr (h.wf.not_resting_of_pending hp'),
            fun hr => absurd hr (hb.not_resting_of_pending hp)⟩ hfills hfilled hnr hnx
      · obtain ⟨side, e, he, rfl⟩ := OrderBook.mem_restingList.mp hr
        by_cases hmaker : side = order.side.opposite ∧ ¬ b.Killed order
        · obtain ⟨rfl, hk⟩ := hmaker
          exact h.effect_maker hb hk he
        · -- A resting order that the taker cannot reach.
          obtain ⟨hfills, hfilled⟩ := Stepped.untraded (b := b) hb hseq fun hk e' he' hid => by
            have heq := hb.eq_of_id_eq (mem_live.mpr (Or.inr (mem_restingList_of_mem he'))) ho hid
            exact hmaker ⟨(congrArg Order.side heq).symm, hk⟩
          have hr' : e.2.toOrder side e.1 ∈ b'.restingList := by
            refine h.mem_restingList.mpr ?_
            rcases order.side.eq_or_eq_opposite side with rfl | rfl
            · exact Or.inl (mem_restingOn.mpr ⟨e, he, rfl⟩)
            · have hk : b.Killed order := by
                by_contra hk
                exact hmaker ⟨rfl, hk⟩
              refine Or.inr (Or.inl ?_)
              rw [if_pos hk]
              exact mem_restingOn.mpr ⟨e, he, rfl⟩
          exact SeqEffect.untouched hb h.wf ho (mem_live.mpr (Or.inr hr'))
            ⟨fun hp => absurd hr' (h.wf.not_resting_of_pending hp),
              fun hp => absurd hr (hb.not_resting_of_pending hp)⟩
            ⟨fun _ => hr, fun _ => hr'⟩ hfills hfilled hnr hnx

end Step

/-! ## Batches -/

section Batch

variable {b b₁ b' : OrderBook} {out out' : StepOut} {seq : OrderSeq}

lemma SeqEffect.refl (hb : b.WellFormed) (seq : OrderSeq) :
    SeqEffect b b StepOut.empty seq := by
  cases hf : b.find seq with
  | none =>
      exact SeqEffect.absent hf hf rfl (by simp [StepOut.empty]) (by simp [StepOut.empty])
        (by simp [StepOut.empty])
  | some o =>
      obtain ⟨ho, rfl⟩ := hb.find_eq_some.mp hf
      exact SeqEffect.untouched hb hb ho ho Iff.rfl Iff.rfl rfl (by simp [StepOut.empty])
        (by simp [StepOut.empty]) (by simp [StepOut.empty])

lemma StepOut.notMem_expired_append {x y : StepOut} (hx : seq ∉ x.expired.map Prod.fst)
    (hy : seq ∉ y.expired.map Prod.fst) : seq ∉ (x.append y).expired.map Prod.fst := by
  rw [StepOut.append, List.map_append, List.mem_append, not_or]
  exact ⟨hx, hy⟩

lemma StepOut.notMem_filled_append {x y : StepOut} (hx : seq ∉ x.filled) (hy : seq ∉ y.filled) :
    seq ∉ (x.append y).filled := by
  rw [StepOut.append, List.mem_append, not_or]
  exact ⟨hx, hy⟩

lemma StepOut.notMem_resting_append {x y : StepOut} (hx : seq ∉ x.resting) (hy : seq ∉ y.resting) :
    seq ∉ (x.append y).resting := by
  rw [StepOut.append, List.mem_append, not_or]
  exact ⟨hx, hy⟩

lemma StepOut.fillTotal_append (x y : StepOut) (seq : OrderSeq) :
    fillTotal (fillsOn (x.append y).fills seq)
      = fillTotal (fillsOn x.fills seq) + fillTotal (fillsOn y.fills seq) := by
  rw [StepOut.append, fillsOn_append, OisyTrade.fillTotal_append]

/-- **Effects compose.**  A sequence that is gone stays gone, so only six of the sixteen
combinations can occur. -/
lemma SeqEffect.trans (hb₁ : b₁.WellFormed) (h : SeqEffect b b₁ out seq)
    (h' : SeqEffect b₁ b' out' seq) : SeqEffect b b' (out.append out') seq := by
  have hgone : ∀ {f g : List Fill}, fillsOn f seq = [] → fillsOn g seq = [] →
      fillsOn (f ++ g) seq = [] := by
    intro f g hf hg
    rw [fillsOn_append, hf, hg, List.nil_append]
  cases h with
  | absent h1 h2 hfills hfilled hresting hexpired =>
      cases h' with
      | absent _ h2' hfills' hfilled' hresting' hexpired' =>
          exact SeqEffect.absent h1 h2' (hgone hfills hfills')
            (StepOut.notMem_filled_append hfilled hfilled')
            (StepOut.notMem_resting_append hresting hresting')
            (StepOut.notMem_expired_append hexpired hexpired')
      | live _ _ h1' | filled _ h1' | expired _ h1' =>
          rw [h2] at h1'
          cases h1'
  | live o o₁ h1 h2 hterms hquantity hpending hresting hrests hfilled hexpired =>
      cases h' with
      | absent h1' =>
          rw [h2] at h1'
          cases h1'
      | live p o' h1' h2' hterms' hquantity' hpending' hresting' hrests' hfilled' hexpired' =>
          rw [h2, Option.some.injEq] at h1'
          subst h1'
          refine SeqEffect.live o o' h1 h2' (hterms.trans hterms') ?_ ?_ ?_ ?_
            (StepOut.notMem_filled_append hfilled hfilled')
            (StepOut.notMem_expired_append hexpired hexpired')
          · rw [StepOut.fillTotal_append]
            omega
          · intro hp
            obtain ⟨rfl, hp₁, hno'⟩ := hpending' hp
            obtain ⟨rfl, hp₀, hno⟩ := hpending hp₁
            exact ⟨rfl, hp₀, hgone hno hno'⟩
          · rw [hresting', hresting, or_assoc]
            exact or_congr Iff.rfl List.mem_append.symm
          · intro hr
            rcases List.mem_append.mp hr with hr | hr
            · exact hrests hr
            · exact (hpending (hrests' hr)).2.1
      | filled p h1' h2' hquantity' hfilled' hexpired' =>
          rw [h2, Option.some.injEq] at h1'
          subst h1'
          refine SeqEffect.filled o h1 h2' ?_ (List.mem_append_right _ hfilled')
            (StepOut.notMem_expired_append hexpired hexpired')
          rw [StepOut.fillTotal_append]
          omega
      | expired p h1' hfok hp₁ h2' hfills' hfilled' hresting' hexpired' honce' =>
          rw [h2, Option.some.injEq] at h1'
          subst h1'
          obtain ⟨rfl, hp₀, hno⟩ := hpending hp₁
          refine SeqEffect.expired o h1 hfok hp₀ h2' (hgone hno hfills')
            (StepOut.notMem_filled_append hfilled hfilled')
            (StepOut.notMem_resting_append (fun hr => ?_) hresting')
            (List.mem_append_right _ hexpired') (fun r hr => ?_)
          · exact hb₁.not_resting_of_pending hp₁ (hresting.mpr (Or.inr hr))
          · rcases List.mem_append.mp hr with hr | hr
            · exact absurd (List.mem_map_of_mem (f := Prod.fst) hr) hexpired
            · exact honce' r hr
  | filled o h1 h2 hquantity hfilled hexpired =>
      cases h' with
      | absent _ h2' hfills' hfilled' hresting' hexpired' =>
          refine SeqEffect.filled o h1 h2' ?_ (List.mem_append_left _ hfilled)
            (StepOut.notMem_expired_append hexpired hexpired')
          rw [StepOut.fillTotal_append, hfills']
          exact hquantity
      | live _ _ h1' | filled _ h1' | expired _ h1' =>
          rw [h2] at h1'
          cases h1'
  | expired o h1 hfok hp h2 hfills hfilled hresting hexpired honce =>
      cases h' with
      | absent _ h2' hfills' hfilled' hresting' hexpired' =>
          refine SeqEffect.expired o h1 hfok hp h2' (hgone hfills hfills')
            (StepOut.notMem_filled_append hfilled hfilled')
            (StepOut.notMem_resting_append hresting hresting')
            (List.mem_append_left _ hexpired) (fun r hr => ?_)
          rcases List.mem_append.mp hr with hr | hr
          · exact honce r hr
          · exact absurd (List.mem_map_of_mem (f := Prod.fst) hr) hexpired'
      | live _ _ h1' | filled _ h1' | expired _ h1' =>
          rw [h2] at h1'
          cases h1'

/-- **The effect of a batch**, on every sequence. -/
theorem Chunk.effect {orders : List Order} (h : Chunk b orders out b') (hb : b.WellFormed)
    (seq : OrderSeq) : SeqEffect b b' out seq := by
  induction h with
  | nil b => exact SeqEffect.refl hb seq
  | cons hst _ ih => exact (hst.effect hb seq).trans hst.wf (ih hst.wf)

/-- What a fill of a batch is about: a taker of the batch and an earlier maker on the other side,
both live before the batch, at the maker's price, which the taker accepts. -/
structure FillOk (b : OrderBook) (orders : List Order) (f : Fill) (t m : Order) : Prop where
  taker : t ∈ orders
  takerSeq : f.takerOrderSeq = t.id
  takerSide : f.takerSide = t.side
  takerPrice : f.takerPrice = t.price
  maker : m ∈ b.live
  makerSeq : f.makerOrderSeq = m.id
  makerSide : m.side = t.side.opposite
  makerPrice : f.makerPrice = m.price
  crosses : t.side.crosses t.price m.price = true
  earlier : m.id < t.id
  positive : 0 < f.quantity.toNat
  lots : b.lotSize.get.toNat ∣ f.quantity.toNat

lemma Stepped.fillOk {order : Order} (hb : b.WellFormed) (h : b.Stepped order b') {f : Fill}
    (hf : f ∈ (b.stepOut order).fills) : ∃ m, FillOk b [order] f order m := by
  have hk : ¬ b.Killed order := by
    intro hk
    rw [stepOut_killed hk] at hf
    cases hf
  rw [stepOut_fills hk] at hf
  have hspec := b.sweepOf_spec order
  obtain ⟨t, ht, k, rfl⟩ := mem_fillsFrom hf
  obtain ⟨e, he, hp, hid, hpos⟩ := hspec.mem_trades (fun e he => (hb.maker_valid he).2.2.1) ht
  have hrest := mem_restingList_of_mem he
  refine ⟨e.2.toOrder order.side.opposite e.1, ⟨List.mem_singleton_self _, rfl, rfl, rfl,
    mem_live.mpr (Or.inr hrest), hid, rfl, hp, ?_, hb.head_new h.pending _ hrest, hpos, ?_⟩⟩
  · have hc := hspec.cross t ht
    rw [hp] at hc
    exact hc
  · have hlots : ∀ e ∈ b.resting order.side.opposite,
        b.lotSize.get.toNat ∣ e.2.remainingQuantity.toNat := fun e he => (hb.maker_valid he).2.2.2
    have hq := (hb.head_valid h.pending).2.2.2
    rcases List.mem_append.mp ht with ht | ht
    · obtain ⟨e', he', rfl⟩ := List.mem_map.mp ht
      refine hlots e' ?_
      cases hl : (b.sweepOf order).last with
      | none =>
          rw [hspec.untouched hl]
          exact List.mem_append_left _ he'
      | some x =>
          obtain ⟨⟨p, m⟩, x⟩ := x
          obtain ⟨post, hms, -⟩ := hspec.reduced p m x hl
          rw [hms]
          exact List.mem_append_left _ he'
    · obtain ⟨⟨⟨p, m⟩, x⟩, hx, rfl⟩ := List.mem_map.mp ht
      have hl : (b.sweepOf order).last = some ((p, m), x) := Option.mem_toList.mp hx
      have hlast := (sweep_lots hspec hlots hq).2.1
      rw [Sweep.lastQuantity, hl] at hlast
      exact hlast

/-- A live order of the book after a step was live before it, on the same terms. -/
lemma Stepped.sameTerms {order o : Order} (h : b.Stepped order b') (ho : o ∈ b'.live) :
    ∃ o₀ ∈ b.live, o₀.SameTerms o := by
  rcases h.live_of_live ho with ⟨-, ho'⟩ | ⟨o₀, ho₀, hterms⟩ | ⟨-, rfl⟩
  · exact ⟨o, mem_live.mpr (Or.inl ho'), Order.SameTerms.refl o⟩
  · exact ⟨o₀, mem_live.mpr (Or.inr ho₀), hterms⟩
  · exact ⟨order, mem_live.mpr (Or.inl (h.pending ▸ List.mem_cons_self)), ⟨rfl, rfl, rfl, rfl⟩⟩

/-- **The fills of a batch.** -/
theorem Chunk.fillOk {orders : List Order} (h : Chunk b orders out b') (hb : b.WellFormed)
    {f : Fill} (hf : f ∈ out.fills) : ∃ t m, FillOk b orders f t m := by
  induction h with
  | nil b => cases hf
  | @cons b b₁ b' order orders out hst _ ih =>
      rcases List.mem_append.mp hf with hf | hf
      · obtain ⟨m, hok⟩ := hst.fillOk hb hf
        exact ⟨order, m, { hok with taker := List.mem_cons_self }⟩
      · obtain ⟨t, m, hok⟩ := ih hst.wf hf
        obtain ⟨m₀, hm₀, hterms⟩ := hst.sameTerms hok.maker
        exact ⟨t, m₀, ⟨List.mem_cons_of_mem _ hok.taker, hok.takerSeq, hok.takerSide,
          hok.takerPrice, hm₀, hok.makerSeq.trans hterms.id, hterms.side.symm.trans hok.makerSide,
          hok.makerPrice.trans hterms.price, hterms.price ▸ hok.crosses,
          hterms.id ▸ hok.earlier, hok.positive, hst.config.lotSize ▸ hok.lots⟩⟩

/-- **The fill numbers of a batch** are consecutive from the book's counter. -/
theorem Chunk.fillSeqs {orders : List Order} (h : Chunk b orders out b') (hb : b.WellFormed) :
    out.fills.map (fun f => f.fillSeq.val) = List.range' b.nextFill.val out.fills.length := by
  induction h with
  | nil b => rfl
  | @cons b b₁ b' order orders out hst _ ih =>
      have hstep : (b.stepOut order).fills.map (fun f => f.fillSeq.val)
          = List.range' b.nextFill.val (b.stepOut order).fills.length := by
        by_cases hk : b.Killed order
        · rw [stepOut_killed hk]
          rfl
        · have hlen := (b.sweepOf_spec order).length_trades_le
          have hlt := hb.fillSeq_lt order.side.opposite
          rw [stepOut_fills hk, fillsOf, length_fillsFrom]
          exact fillSeq_fillsFrom order (by omega)
      rw [StepOut.append, List.map_append, hstep, ih hst.wf, hst.nextFill, List.length_append,
        List.range'_append_1]

/-- Every fill of a step ends an order: its maker, or its taker. -/
lemma Stepped.length_live {order : Order} (h : b.Stepped order b') :
    b'.live.length + (b.stepOut order).fills.length ≤ b.live.length := by
  obtain ⟨hlen, htrades⟩ := sweep_length (b.sweepOf_spec order)
  have hown := h.own
  have hmakers := h.makers
  rw [live, live, List.length_append, List.length_append, h.pending, List.length_cons,
    length_restingList b' order.side, length_restingList b order.side, hmakers, hown]
  by_cases hk : b.Killed order
  · rw [stepOut_killed hk, if_pos hk, if_pos (Or.inl hk), List.length_nil]
    omega
  · have hfills : (b.stepOut order).fills.length = (b.sweepOf order).trades.length := by
      rw [stepOut_fills hk, fillsOf, length_fillsFrom]
    rw [hfills, htrades, if_neg hk]
    by_cases hz : (b.sweepOf order).left.toNat = 0
    · rw [if_pos (Or.inr hz)]
      have hlast : (b.sweepOf order).last.toList.length ≤ 1 := by
        cases (b.sweepOf order).last <;> simp
      omega
    · rw [if_neg (not_or.mpr ⟨hk, hz⟩), ownAfter, List.length_append, List.length_cons]
      have hsplit := List.length_eq_length_filter_add (l := b.resting order.side)
        fun a => decide ¬ order.side.Better order.price a.1
      have hnone : (b.sweepOf order).last = none := by
        cases hl : (b.sweepOf order).last with
        | none => rfl
        | some x =>
            obtain ⟨⟨p, m⟩, x⟩ := x
            obtain ⟨-, -, -, -, -, hleft⟩ := (b.sweepOf_spec order).reduced p m x hl
            exact absurd (by rw [hleft, Quantity.toNat_zero]) hz
      simp only [hnone, Option.toList_none, List.length_nil]
      simp only [decide_not, Bool.not_not] at hsplit ⊢
      omega

theorem Chunk.length_live {orders : List Order} (h : Chunk b orders out b') :
    b'.live.length + out.fills.length ≤ b.live.length := by
  induction h with
  | nil => exact le_rfl
  | cons hst _ ih =>
      have hone := hst.length_live
      rw [StepOut.append, List.length_append]
      omega

end Batch

end OrderBook

end OisyTrade
