import OisyTrade.Invariant.Reserve

/-!
# What orders have paid and received

`Charged s` bounds the sums that the record of an order accumulates: the fees never exceed what the
order received, and a buy order never pays more than its limit price.  Together with the terms of the
order this keeps the sums in 256 bits, except for what a sell order receives as a taker.
-/

namespace OisyTrade

/-- What the fills of an order as a taker were worth. -/
def soldAsTaker (settlements : List FillSettlement) (seq : OrderSeq) : ℕ :=
  (settlements.map fun st => if st.fill.takerOrderSeq = seq then st.notional.toNat else 0).sum

lemma soldAsTaker_cons (st : FillSettlement) (settlements : List FillSettlement) (seq : OrderSeq) :
    soldAsTaker (st :: settlements) seq
      = (if st.fill.takerOrderSeq = seq then st.notional.toNat else 0)
        + soldAsTaker settlements seq := List.sum_cons

lemma shares_cons (st : FillSettlement) (settlements : List FillSettlement) (seq : OrderSeq)
    (c : Column) : shares (st :: settlements) seq c = st.share seq c + shares settlements seq c :=
  List.sum_cons

lemma received_add (side : Side) (q q' n n' : ℕ) :
    received side (q + q') (n + n') = received side q n + received side q' n' := by
  cases side <;> rfl

namespace State

variable {s s' : State} {scale : BaseScale} {seq : OrderSeq} {side : Side} {price : Price}

/-- The bounds of the sums of an order. -/
structure ShareBounds (scale : BaseScale) (side : Side) (price : Price) (taken q n fee : ℕ) :
    Prop where
  fee : fee ≤ received side q n
  buy : side = .buy → n * scale.get.toNat ≤ price.toNat * q
  sell : side = .sell → n * scale.get.toNat ≤ taken * scale.get.toNat + price.toNat * q

lemma ShareBounds.add {t t' q q' n n' f f' : ℕ} (h : ShareBounds scale side price t q n f)
    (h' : ShareBounds scale side price t' q' n' f') :
    ShareBounds scale side price (t + t') (q + q') (n + n') (f + f') := by
  refine ⟨?_, fun hside => ?_, fun hside => ?_⟩
  · rw [received_add]
    exact Nat.add_le_add h.fee h'.fee
  · have h1 := h.buy hside
    have h2 := h'.buy hside
    rw [Nat.add_mul, Nat.mul_add]
    omega
  · have h1 := h.sell hside
    have h2 := h'.sell hside
    rw [Nat.add_mul, Nat.add_mul, Nat.mul_add]
    omega

/-- One fill of an order, as taker, as maker, or of others. -/
lemma FillTerms.share {rates : FeeRates} {f : Fill} {st : FillSettlement}
    (h : FillTerms scale seq side price f) (hnew : FillSettlement.new f rates scale = .ok st) :
    ShareBounds scale side price (if st.fill.takerOrderSeq = seq then st.notional.toNat else 0)
      (st.share seq .quantity) (st.share seq .quote) (st.share seq .fee) := by
  have hspec := FillSettlement.of_new hnew
  have hcross := h.crosses
  simp only [FillSettlement.share, hspec.fill]
  by_cases hm : f.makerOrderSeq = seq
  · have ht : ¬ f.takerOrderSeq = seq := fun ht => h.distinct (hm.trans ht.symm)
    obtain ⟨hside, hprice⟩ := h.maker hm
    have hnotional := hspec.notional
    rw [hprice] at hnotional
    simp only [if_pos hm, if_neg ht, Nat.add_zero, FillSettlement.makerAmount, hspec.fill]
    refine ⟨?_, fun _ => hnotional.le, fun _ => ?_⟩
    · rw [hspec.makerFee, hside]
      exact BasisPoint.ceilNat_le _ _
    · rw [Nat.zero_mul, Nat.zero_add]
      exact hnotional.le
  · by_cases ht : f.takerOrderSeq = seq
    · obtain ⟨hside, hprice⟩ := h.taker ht
      simp only [if_neg hm, if_pos ht, Nat.zero_add, FillSettlement.takerAmount, hspec.fill]
      refine ⟨?_, fun hbuy => ?_, fun _ => Nat.le_add_right _ _⟩
      · rw [hspec.takerFee, hside]
        exact BasisPoint.ceilNat_le _ _
      · rw [hside, hbuy, hprice] at hcross
        rw [hspec.notional]
        exact Nat.mul_le_mul_right _ (Price.le_def.mp (of_decide_eq_true hcross))
    · simp only [if_neg hm, if_neg ht, Nat.add_zero]
      exact ⟨Nat.zero_le _, fun _ => by simp, fun _ => by simp⟩

/-- The fills of a batch. -/
lemma shares_bounds {rates : FeeRates} {fs : List Fill} {sts : List FillSettlement}
    (hall : List.Forall₂ (fun f st => FillSettlement.new f rates scale = .ok st) fs sts)
    (hterms : ∀ f ∈ fs, FillTerms scale seq side price f) :
    ShareBounds scale side price (soldAsTaker sts seq) (shares sts seq .quantity)
      (shares sts seq .quote) (shares sts seq .fee) := by
  induction hall with
  | nil => exact ⟨Nat.zero_le _, fun _ => by simp [shares], fun _ => by simp [shares]⟩
  | cons hnew _ ih =>
      simp only [soldAsTaker_cons, shares_cons]
      exact ((hterms _ List.mem_cons_self).share hnew).add
        (ih fun f hf => hterms f (List.mem_cons_of_mem _ hf))

/-- **No order pays more fees than it received, and no buy order pays more than its limit.** -/
structure Charged (s : State) : Prop where
  fee : ∀ id r, s.orderHistory.get id = some r →
    r.filledFee.toNat ≤ received r.side r.filledQuantity.toNat r.filledQuote.toNat
  paid : ∀ id r scale, s.orderHistory.get id = some r → r.side = .buy →
    s.baseScaleForBook id.bookId = .ok scale →
    r.filledQuote.toNat * scale.get.toNat ≤ r.price.toNat * r.filledQuantity.toNat

/-- The rule for changes: a record is new, or has the old sums, or adds the shares of some fills. -/
lemma Charged.of_records (h : s.Charged) (hs : s.Sound) (hx : s.Extends s')
    (hrecords : ∀ id r', s'.orderHistory.get id = some r' →
      (∀ c, r'.filled c = 0) ∨ ∃ r, s.orderHistory.get id = some r ∧ r.Evolves r' ∧
        ((∀ c, r'.filled c = r.filled c) ∨ ∃ (scale : BaseScale) (taken : ℕ) (d : Column → ℕ),
          s.baseScaleForBook id.bookId = .ok scale ∧
          ShareBounds scale r.side r.price taken (d .quantity) (d .quote) (d .fee) ∧
          ∀ c, r'.filled c = r.filled c + d c)) : s'.Charged := by
  have hscale : ∀ {id r scale}, s.orderHistory.get id = some r →
      s'.baseScaleForBook id.bookId = .ok scale → s.baseScaleForBook id.bookId = .ok scale := by
    intro id r scale hr hsc
    obtain ⟨b, hb, -⟩ := (hs.records id r hr).book
    obtain ⟨pair, scale', hm, -⟩ := (hs.wired.listed _ b hb).market
    obtain ⟨pair', hm'⟩ := baseScaleForBook_eq_ok.mp hsc
    obtain ⟨-, rfl⟩ := hm'.unique (hx.market hm)
    exact baseScaleForBook_eq_ok.mpr ⟨pair, hm⟩
  refine ⟨fun id r' hr' => ?_, fun id r' scale hr' hside hsc => ?_⟩
  · rcases hrecords id r' hr' with hzero | ⟨r, hr, hev, hsame | ⟨scale, taken, d, -, hd, hsum⟩⟩
    · have hfee : r'.filledFee.toNat = 0 := hzero .fee
      rw [hfee]
      exact Nat.zero_le _
    · have hfee : r'.filledFee.toNat = r.filledFee.toNat := hsame .fee
      have hq : r'.filledQuantity.toNat = r.filledQuantity.toNat := hsame .quantity
      have hn : r'.filledQuote.toNat = r.filledQuote.toNat := hsame .quote
      rw [hfee, hq, hn, hev.side]
      exact h.fee id r hr
    · have hfee : r'.filledFee.toNat = r.filledFee.toNat + d .fee := hsum .fee
      have hq : r'.filledQuantity.toNat = r.filledQuantity.toNat + d .quantity := hsum .quantity
      have hn : r'.filledQuote.toNat = r.filledQuote.toNat + d .quote := hsum .quote
      rw [hfee, hq, hn, hev.side, received_add]
      exact Nat.add_le_add (h.fee id r hr) hd.fee
  · rcases hrecords id r' hr' with hzero | ⟨r, hr, hev, hsame | ⟨scale', taken, d, hsc', hd, hsum⟩⟩
    · have hn : r'.filledQuote.toNat = 0 := hzero .quote
      rw [hn, Nat.zero_mul]
      exact Nat.zero_le _
    · have hq : r'.filledQuantity.toNat = r.filledQuantity.toNat := hsame .quantity
      have hn : r'.filledQuote.toNat = r.filledQuote.toNat := hsame .quote
      rw [hq, hn, hev.price]
      exact h.paid id r scale hr (hev.side.symm.trans hside) (hscale hr hsc)
    · have hq : r'.filledQuantity.toNat = r.filledQuantity.toNat + d .quantity := hsum .quantity
      have hn : r'.filledQuote.toNat = r.filledQuote.toNat + d .quote := hsum .quote
      obtain rfl := Except.ok.inj (hsc'.symm.trans (hscale hr hsc))
      have hbuy := hev.side.symm.trans hside
      rw [hq, hn, hev.price, Nat.add_mul, Nat.mul_add]
      exact Nat.add_le_add (h.paid id r _ hr hbuy hsc') (hd.buy hbuy)

end State

open State in
theorem Canister.Change.charged {c c' : Canister} (hs : c.state.Sound) (hc : c.state.Charged)
    (h : c.Change c') : c'.state.Charged := by
  obtain ⟨-, hx⟩ := h.sound hs
  -- Records that stay as they are.
  have hsame : c'.state.orderHistory = c.state.orderHistory → c'.state.Charged := by
    intro heq
    refine hc.of_records hs hx fun id r hr => Or.inr ⟨r, ?_, .refl r, Or.inl fun _ => rfl⟩
    rw [← heq]
    exact hr
  cases h with
  | listed event timestamp hadmits hok =>
      obtain ⟨_, -, -, -, -, -, -, -, hstate⟩ := State.recordTradingPair_eq_ok hok
      exact hsame (by rw [hstate])
  | placed event timestamp order b b' pair scale uid required _ _ h =>
      refine hc.of_records hs hx fun id r' hr' => ?_
      rw [History.get_insertOnce h.history] at hr'
      split_ifs at hr' with he
      · cases hr'
        refine Or.inl fun col => ?_
        cases col <;> exact Quantity.toNat_zero
      · exact Or.inr ⟨r', hr', .refl r', Or.inl fun _ => rfl⟩
  | canceled event timestamp o r r' b b' pair scale refund _ h =>
      refine hc.of_records hs hx fun id r₁ hr₁ => ?_
      rw [h.history] at hr₁
      split_ifs at hr₁ with he
      · cases hr₁
        subst he
        exact Or.inr ⟨r, h.record, h.evolves hs, Or.inl h.status.2⟩
      · exact Or.inr ⟨r₁, hr₁, .refl r₁, Or.inl fun _ => rfl⟩
  | matched event timestamp b b' orders out pair scale fills refunds groups _ _ _ h =>
      refine hc.of_records hs hx fun id r₁ hr₁ => ?_
      by_cases hbook : id.bookId = event.bookId
      · obtain ⟨r, hr⟩ := Option.isSome_iff_exists.mp ((h.present id).mp (by rw [hr₁]; rfl))
        have hr' := hr
        rw [← OrderId.new_eta id, hbook] at hr₁ hr'
        obtain ⟨r₂, hr₂, hev, -, hfilled⟩ := h.recordEffect hs hr'
        obtain rfl : r₁ = r₂ := Option.some.inj (hr₁.symm.trans hr₂)
        exact Or.inr ⟨r, hr, hev, Or.inr ⟨scale, _, shares fills id.seq,
          baseScaleForBook_eq_ok.mpr ⟨pair, by rw [hbook]; exact h.market⟩,
          shares_bounds h.settled (hs.fillTerms h.book h.market h.chunk hr'), hfilled⟩⟩
      · rw [h.others id hbook] at hr₁
        exact Or.inr ⟨r₁, hr₁, .refl r₁, Or.inl fun _ => rfl⟩
  | settled before after event _ _ _ _ _ _ _ h => exact hsame (by rw [h.state])
  | credited _ _ _ _ hok =>
      obtain ⟨_, _, _, -, -, hstate⟩ := State.deposit_eq_ok hok
      exact hsame (by rw [hstate])
  | debited _ _ _ hok =>
      obtain ⟨_, _, -, -, hstate⟩ := State.withdraw_eq_ok hok
      exact hsame (by rw [hstate])
  | frame h => exact hsame h.orderHistory

theorem World.Reachable.charged {w : World} (h : w.Reachable) : w.canister.state.Charged := by
  refine h.invariant (fun arg rt c hinit => ?_) fun c c' hs hc hchange => hchange.charged hs hc
  obtain ⟨-, -, -, -, -, hord, -⟩ := Canister.init_eq_ok hinit
  refine ⟨fun id r hr => ?_, fun id r scale hr => ?_⟩ <;>
  · rw [hord] at hr
    cases hr

end OisyTrade
