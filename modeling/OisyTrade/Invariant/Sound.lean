import OisyTrade.Act
import OisyTrade.Invariant.Lifecycle

/-!
# The invariant of the state

`Sound` collects what every reachable state satisfies about its books, records and queue: pairs and
books belong together, every book is well formed, the record of an order and the book tell the same
story (`Standing`), and every queued event agrees with the records.

Most acts leave books and records alone and fall under `Sound.of_frame`; placing, canceling and
matching change one book and the records of its orders and go through `Sound.of_book`.
-/

namespace OisyTrade

/-! ## One record and its book -/

/-- **How the book sees the order of a record.** -/
inductive Standing (b : OrderBook) (seq : OrderSeq) (r : OrderRecord) : Prop
  | pending (o : Order) (hfind : b.find seq = some o) (hmem : o ∈ b.pendingOrders)
      (hside : o.side = r.side) (hprice : o.price = r.price)
      (htif : o.timeInForce = r.timeInForce)
      (hquantity : o.remainingQuantity.toNat = r.quantity.toNat) (hstatus : r.status = .pending)
      (hfilled : ∀ c, r.filled c = 0)
  | resting (o : Order) (hfind : b.find seq = some o) (hmem : o ∈ b.restingList)
      (hside : o.side = r.side) (hprice : o.price = r.price)
      (htif : o.timeInForce = r.timeInForce)
      (hquantity : o.remainingQuantity.toNat + r.filledQuantity.toNat = r.quantity.toNat)
      (hstatus : r.status = .open)
  | filled (hfind : b.find seq = none) (hstatus : r.status = .filled)
      (hfilled : r.filledQuantity.toNat = r.quantity.toNat)
  | canceled (hfind : b.find seq = none) (hstatus : r.status = .canceled)
      (hfilled : r.filledQuantity.toNat < r.quantity.toNat)
  | expired (hfind : b.find seq = none) (hstatus : r.status = .expired)
      (htif : r.timeInForce = .fillOrKill) (hfilled : ∀ c, r.filled c = 0)

/-- Pending and expired orders have not traded. -/
lemma Standing.filled_eq_zero {b : OrderBook} {seq : OrderSeq} {r : OrderRecord}
    (h : Standing b seq r) (hst : r.status = .pending ∨ r.status = .expired) (c : Column) :
    r.filled c = 0 := by
  cases h with
  | pending _ _ _ _ _ _ _ _ hfilled => exact hfilled c
  | expired _ _ _ hfilled => exact hfilled c
  | resting _ _ _ _ _ _ _ hstatus => rw [hstatus] at hst; rcases hst with hst | hst <;> cases hst
  | filled _ hstatus => rw [hstatus] at hst; rcases hst with hst | hst <;> cases hst
  | canceled _ hstatus => rw [hstatus] at hst; rcases hst with hst | hst <;> cases hst

/-- What a record has been filled is at most its quantity. -/
lemma Standing.filled_le {b : OrderBook} {seq : OrderSeq} {r : OrderRecord}
    (h : Standing b seq r) : r.filledQuantity.toNat ≤ r.quantity.toNat := by
  cases h with
  | pending _ _ _ _ _ _ _ _ hfilled =>
      have h0 : r.filledQuantity.toNat = 0 := hfilled .quantity
      omega
  | resting _ _ _ _ _ _ hquantity => omega
  | filled _ _ hfilled => exact hfilled.le
  | canceled _ _ hfilled => exact hfilled.le
  | expired _ _ _ hfilled =>
      have h0 : r.filledQuantity.toNat = 0 := hfilled .quantity
      omega

/-- The terms of a record fit the book. -/
structure Terms (b : OrderBook) (r : OrderRecord) : Prop where
  price : 0 < r.price.toNat
  tick : b.tickSize.get.toNat ∣ r.price.toNat
  quantity : 0 < r.quantity.toNat
  lot : b.lotSize.get.toNat ∣ r.quantity.toNat
  fits : r.price.toNat * r.quantity.toNat < 2 ^ 256

/-- **Amounts at the price of a record are exact.** -/
lemma Terms.dvd {b : OrderBook} {r : OrderRecord} (h : Terms b r) {scale : BaseScale}
    (hd : scale.get.toNat ∣ b.tickSize.get.toNat * b.lotSize.get.toNat) {q : ℕ}
    (hq : b.lotSize.get.toNat ∣ q) : scale.get.toNat ∣ r.price.toNat * q :=
  hd.trans (Nat.mul_dvd_mul h.tick hq)

/-- A live order of a record, pending or resting. -/
lemma Standing.of_live {b : OrderBook} {seq : OrderSeq} {r : OrderRecord} {o : Order}
    (h : Standing b seq r) (ho : b.find seq = some o) :
    o.side = r.side ∧ o.price = r.price ∧ o.timeInForce = r.timeInForce ∧
      o.remainingQuantity.toNat + r.filledQuantity.toNat = r.quantity.toNat ∧
      r.status.isTerminal = false ∧ (o ∈ b.pendingOrders ∧ r.status = .pending ∧
        (∀ c, r.filled c = 0) ∨ o ∈ b.restingList ∧ r.status = .open) := by
  cases h with
  | pending o' hfind hmem hside hprice htif hquantity hstatus hfilled =>
      rw [ho] at hfind
      cases hfind
      have h0 : r.filledQuantity.toNat = 0 := hfilled .quantity
      exact ⟨hside, hprice, htif, by omega, by rw [hstatus]; rfl,
        Or.inl ⟨hmem, hstatus, hfilled⟩⟩
  | resting o' hfind hmem hside hprice htif hquantity hstatus =>
      rw [ho] at hfind
      cases hfind
      exact ⟨hside, hprice, htif, hquantity, by rw [hstatus]; rfl, Or.inr ⟨hmem, hstatus⟩⟩
  | filled hfind => rw [ho] at hfind; cases hfind
  | canceled hfind => rw [ho] at hfind; cases hfind
  | expired hfind => rw [ho] at hfind; cases hfind

/-- An order that is not over is live. -/
lemma Standing.find_of_not_terminal {b : OrderBook} {seq : OrderSeq} {r : OrderRecord}
    (h : Standing b seq r) (hr : r.status.isTerminal = false) : ∃ o, b.find seq = some o := by
  cases h with
  | pending o hfind => exact ⟨o, hfind⟩
  | resting o hfind => exact ⟨o, hfind⟩
  | filled _ hstatus => rw [hstatus] at hr; cases hr
  | canceled _ hstatus => rw [hstatus] at hr; cases hr
  | expired _ hstatus => rw [hstatus] at hr; cases hr

/-- Only what the book holds about the sequence matters. -/
lemma Standing.congr {b b' : OrderBook} {seq : OrderSeq} {r : OrderRecord} (h : Standing b seq r)
    (hfind : b'.find seq = b.find seq)
    (hpend : ∀ o, b.find seq = some o → o ∈ b.pendingOrders → o ∈ b'.pendingOrders)
    (hrest : ∀ o, b.find seq = some o → o ∈ b.restingList → o ∈ b'.restingList) :
    Standing b' seq r := by
  cases h with
  | pending o hf hmem hside hprice htif hquantity hstatus hfilled =>
      exact .pending o (hfind.trans hf) (hpend o hf hmem) hside hprice htif hquantity hstatus hfilled
  | resting o hf hmem hside hprice htif hquantity hstatus =>
      exact .resting o (hfind.trans hf) (hrest o hf hmem) hside hprice htif hquantity hstatus
  | filled hf hstatus hfilled => exact .filled (hfind.trans hf) hstatus hfilled
  | canceled hf hstatus hfilled => exact .canceled (hfind.trans hf) hstatus hfilled
  | expired hf hstatus htif hfilled => exact .expired (hfind.trans hf) hstatus htif hfilled

/-! ## The state -/

namespace State

/-- A listed book with its market. -/
structure Listed (s : State) (bookId : OrderBookId) (b : OrderBook) : Prop where
  id : b.id = bookId
  below : bookId < s.nextBookId
  wf : b.WellFormed
  drained : b.filledOrders = SortedSet.empty
  market : ∃ pair scale, s.Market bookId pair scale ∧ pair.base ≠ pair.quote ∧
    scale.get.toNat ∣ b.tickSize.get.toNat * b.lotSize.get.toNat ∧
    (s.tokens.get pair.quote).isSome

/-- Pairs and books belong together. -/
structure Wired (s : State) : Prop where
  pairs : s.tradingPairs.Inverse
  listed : ∀ id b, s.orderBooks.get id = some b → s.Listed id b
  traded : ∀ id pair, s.tradingPairs.byBook.get id = some pair → (s.orderBooks.get id).isSome

/-- A record agrees with the book of its order. -/
structure RecordOk (s : State) (id : OrderId) (r : OrderRecord) : Prop where
  book : ∃ b, s.orderBooks.get id.bookId = some b ∧ id.seq < b.nextSeq ∧ Terms b r ∧
    Standing b id.seq r
  owner : ∃ uid, s.userRegistry.fundingId r.owner = some uid

/-- **The invariant.** -/
structure Sound (s : State) : Prop where
  wired : s.Wired
  registry : s.userRegistry.Sound
  records : ∀ id r, s.orderHistory.get id = some r → s.RecordOk id r
  live : ∀ id b, s.orderBooks.get id = some b → ∀ o ∈ b.live,
    (s.orderHistory.get (.new id o.id)).isSome
  queue : ∀ event ∈ s.pendingSettlingEvents, s.EventOk event
  orders : s.orderHistory.Indexed
  trades : s.tradeHistory.Indexed

variable {s s' : State}

lemma Listed.mono {id : OrderBookId} {b : OrderBook} (h : s.Listed id b)
    (hmarket : ∀ {id pair scale}, s.Market id pair scale → s'.Market id pair scale)
    (htokens : ∀ t, (s.tokens.get t).isSome → (s'.tokens.get t).isSome)
    (hnext : s.nextBookId ≤ s'.nextBookId) : s'.Listed id b := by
  obtain ⟨pair, scale, hm, hne, hd, hq⟩ := h.market
  exact ⟨h.id, lt_of_lt_of_le h.below hnext, h.wf, h.drained,
    ⟨pair, scale, hmarket hm, hne, hd, htokens _ hq⟩⟩

/-- The market of a listed book. -/
lemma Listed.dvd {id : OrderBookId} {b : OrderBook} {pair : TradingPair} {scale : BaseScale}
    (h : s.Listed id b) (hm : s.Market id pair scale) :
    pair.base ≠ pair.quote ∧ scale.get.toNat ∣ b.tickSize.get.toNat * b.lotSize.get.toNat := by
  obtain ⟨pair', scale', hm', hne, hd, -⟩ := h.market
  obtain ⟨rfl, rfl⟩ := hm.unique hm'
  exact ⟨hne, hd⟩

namespace Sound

/-- Every caller has an effective account; without a grant it is the caller. -/
lemma effectiveAccount (hs : s.Sound) (c : Principal) : ∃ e,
    s.effectiveAccount c = .ok e ∧ (s.userRegistry.tradingAccounts.get c = none → e = c) := by
  rw [State.effectiveAccount, hs.registry.lookup]
  refine ⟨_, rfl, fun hc => ?_⟩
  rw [UserRegistry.account, hc]
  cases s.userRegistry.users.get c <;> rfl

/-- Records and books are in step: the record of a live order. -/
lemma record_of_live (h : s.Sound) {id : OrderBookId} {b : OrderBook} {o : Order}
    (hb : s.orderBooks.get id = some b) (ho : o ∈ b.live) :
    ∃ r, s.orderHistory.get (.new id o.id) = some r ∧ s.RecordOk (.new id o.id) r ∧
      Terms b r ∧ Standing b o.id r ∧ b.find o.id = some o := by
  obtain ⟨r, hr⟩ := Option.isSome_iff_exists.mp (h.live id b hb o ho)
  have hrec := h.records _ r hr
  obtain ⟨b', hb', -, hterms, hstand⟩ := hrec.book
  obtain rfl : b = b' := Option.some.inj (hb.symm.trans hb')
  exact ⟨r, hr, hrec, hterms, hstand, (h.wired.listed id b hb).wf.find_eq_some.mpr ⟨ho, rfl⟩⟩

/-- The book of a record. -/
lemma book_of_record (h : s.Sound) {id : OrderId} {r : OrderRecord} {b : OrderBook}
    (hr : s.orderHistory.get id = some r) (hb : s.orderBooks.get id.bookId = some b) :
    id.seq < b.nextSeq ∧ Terms b r ∧ Standing b id.seq r := by
  obtain ⟨b', hb', hlt, hterms, hstand⟩ := (h.records id r hr).book
  obtain rfl : b = b' := Option.some.inj (hb.symm.trans hb')
  exact ⟨hlt, hterms, hstand⟩

/-- Every order on record is known. -/
lemma known (h : s.Sound) {bookId : OrderBookId} {seq : OrderSeq} {r : OrderRecord}
    (hr : s.orderHistory.get (.new bookId seq) = some r) : s.Known bookId seq := by
  obtain ⟨uid, hu⟩ := (h.records _ r hr).owner
  exact ⟨r, uid, hr, hu⟩

/-- **Acts that leave books and records alone.** -/
lemma of_frame (h : s.Sound) (hpairs : s'.tradingPairs = s.tradingPairs)
    (htokens : s'.tokens = s.tokens) (hnext : s'.nextBookId = s.nextBookId)
    (hbooks : s'.orderBooks = s.orderBooks) (horders : s'.orderHistory = s.orderHistory)
    (hregistry : s'.userRegistry.Sound) (hextends : s.userRegistry.Extends s'.userRegistry)
    (hqueue : ∀ event ∈ s'.pendingSettlingEvents, event ∈ s.pendingSettlingEvents)
    (htrades : s'.tradeHistory.Indexed) : s'.Sound ∧ s.Extends s' := by
  have hmarket : ∀ {id pair scale}, s.Market id pair scale → s'.Market id pair scale := by
    intro id pair scale hm
    refine ⟨by rw [hpairs]; exact hm.pair, ?_⟩
    have hscale := hm.scale
    simp only [baseScale, htokens] at hscale ⊢
    exact hscale
  have hx : s.Extends s' :=
    ⟨hmarket, hextends, fun hr => ⟨_, by rw [horders]; exact hr, OrderRecord.Evolves.refl _⟩⟩
  refine ⟨⟨⟨?_, ?_, ?_⟩, hregistry, ?_, ?_, ?_, ?_, htrades⟩, hx⟩
  · rw [hpairs]
    exact h.wired.pairs
  · intro id b hb
    rw [hbooks] at hb
    exact (h.wired.listed id b hb).mono hmarket (fun t ht => by rw [htokens]; exact ht)
      (by rw [hnext])
  · intro id pair hp
    rw [hpairs] at hp
    rw [hbooks]
    exact h.wired.traded id pair hp
  · intro id r hr
    rw [horders] at hr
    obtain ⟨b, hb, hrest⟩ := (h.records id r hr).book
    obtain ⟨uid, hu⟩ := (h.records id r hr).owner
    exact ⟨⟨b, by rw [hbooks]; exact hb, hrest⟩, ⟨uid, hextends _ _ hu⟩⟩
  · intro id b hb o ho
    rw [hbooks] at hb
    rw [horders]
    exact h.live id b hb o ho
  · exact fun event hev => (h.queue event (hqueue event hev)).mono hx
  · rw [horders]
    exact h.orders

/-- **Acts that change one book and the records of its orders.** -/
lemma of_book (h : s.Sound) {id : OrderBookId} {b b' : OrderBook}
    (hb : s.orderBooks.get id = some b) (hpairs : s'.tradingPairs = s.tradingPairs)
    (htokens : s'.tokens = s.tokens) (hnext : s'.nextBookId = s.nextBookId)
    (hregistry : s'.userRegistry = s.userRegistry)
    (hbooks : s'.orderBooks = s.orderBooks.insert id b') (hid : b'.id = b.id)
    (htick : b'.tickSize = b.tickSize) (hlot : b'.lotSize = b.lotSize) (hwf : b'.WellFormed)
    (hdrained : b'.filledOrders = SortedSet.empty)
    (hother : ∀ oid, oid.bookId ≠ id → s'.orderHistory.get oid = s.orderHistory.get oid)
    (hevolves : ∀ seq r, s.orderHistory.get (.new id seq) = some r →
      ∃ r', s'.orderHistory.get (.new id seq) = some r' ∧ r.Evolves r')
    (hrecords : ∀ seq r, s'.orderHistory.get (.new id seq) = some r →
      seq < b'.nextSeq ∧ Terms b' r ∧ Standing b' seq r ∧
        ∃ uid, s.userRegistry.fundingId r.owner = some uid)
    (hlive : ∀ o ∈ b'.live, (s'.orderHistory.get (.new id o.id)).isSome)
    (hqueue : ∀ event ∈ s'.pendingSettlingEvents, event ∈ s.pendingSettlingEvents ∨
      s'.EventOk event)
    (horders : s'.orderHistory.Indexed) (htrades : s'.tradeHistory = s.tradeHistory) :
    s'.Sound ∧ s.Extends s' := by
  have hmarket : ∀ {id pair scale}, s.Market id pair scale → s'.Market id pair scale := by
    intro id pair scale hm
    refine ⟨by rw [hpairs]; exact hm.pair, ?_⟩
    have hscale := hm.scale
    simp only [baseScale, htokens] at hscale ⊢
    exact hscale
  have hsplit : ∀ oid : OrderId, oid.bookId = id → oid = .new id oid.seq := by
    rintro oid rfl
    exact (OrderId.new_eta oid).symm
  have hx : s.Extends s' := by
    refine ⟨hmarket, by rw [hregistry]; exact UserRegistry.Extends.refl _, fun {oid r} hr => ?_⟩
    by_cases hbook : oid.bookId = id
    · rw [hsplit oid hbook] at hr ⊢
      exact hevolves oid.seq r hr
    · exact ⟨r, by rw [hother oid hbook]; exact hr, OrderRecord.Evolves.refl r⟩
  have hget : ∀ id' b'', s'.orderBooks.get id' = some b'' →
      (id = id' ∧ b'' = b') ∨ (id ≠ id' ∧ s.orderBooks.get id' = some b'') := by
    intro id' b'' hg
    rw [hbooks, SortedMap.get_insert] at hg
    split_ifs at hg with he
    · exact Or.inl ⟨he, (Option.some.inj hg).symm⟩
    · exact Or.inr ⟨he, hg⟩
  refine ⟨⟨⟨?_, ?_, ?_⟩, ?_, ?_, ?_, ?_, horders, ?_⟩, hx⟩
  · rw [hpairs]
    exact h.wired.pairs
  · intro id' b'' hg
    have hmono : ∀ {id b}, s.Listed id b → s'.Listed id b := fun hl =>
      hl.mono hmarket (fun t ht => by rw [htokens]; exact ht) (by rw [hnext])
    rcases hget id' b'' hg with ⟨rfl, rfl⟩ | ⟨-, hg⟩
    · have hl := hmono (h.wired.listed id b hb)
      exact ⟨hid.trans hl.id, hl.below, hwf, hdrained, by rw [htick, hlot]; exact hl.market⟩
    · exact hmono (h.wired.listed id' b'' hg)
  · intro id' pair hp
    rw [hpairs] at hp
    rw [hbooks, SortedMap.get_insert]
    split_ifs
    · rfl
    · exact h.wired.traded id' pair hp
  · rw [hregistry]
    exact h.registry
  · intro oid r hr
    by_cases hbook : oid.bookId = id
    · rw [hsplit oid hbook] at hr
      obtain ⟨hlt, hterms, hstand, howner⟩ := hrecords oid.seq r hr
      refine ⟨⟨b', ?_, hlt, hterms, hstand⟩, by rw [hregistry]; exact howner⟩
      rw [hbooks, hbook, SortedMap.get_insert_self]
    · rw [hother oid hbook] at hr
      obtain ⟨b₀, hb₀, hrest⟩ := (h.records oid r hr).book
      refine ⟨⟨b₀, ?_, hrest⟩, by rw [hregistry]; exact (h.records oid r hr).owner⟩
      rw [hbooks, SortedMap.get_insert_of_ne _ _ (Ne.symm hbook)]
      exact hb₀
  · intro id' b'' hg o ho
    rcases hget id' b'' hg with ⟨rfl, rfl⟩ | ⟨hne, hg⟩
    · exact hlive o ho
    · rw [hother (.new id' o.id) (Ne.symm hne)]
      exact h.live id' b'' hg o ho
  · intro event hev
    rcases hqueue event hev with hold | hnew
    · exact (h.queue event hold).mono hx
    · exact hnew
  · rw [htrades]
    exact h.trades

end Sound

end State

end OisyTrade
