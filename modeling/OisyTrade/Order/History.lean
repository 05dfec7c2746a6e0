import OisyTrade.History

/-!
# Order records and trade records

`order/history/mod.rs` and `order/trades/mod.rs`.  An order's record is inserted once and then
only changed through `OrderUpdate::apply`, whose checks are always on: the filled quantity never
passes the quantity.  A match leaves two trade records, one for each order.
-/

namespace OisyTrade

/-- `OrderRecord`. -/
structure OrderRecord where
  owner : Principal
  side : Side
  price : Price
  quantity : Quantity
  status : OrderStatus
  createdAt : Timestamp
  filledQuantity : Quantity
  lastUpdatedAt : Option Timestamp
  timeInForce : TimeInForce
  filledQuote : Quantity
  filledFee : Quantity
  placedBy : Option Principal
  canceledBy : Option Principal
deriving DecidableEq

/-- `OrderUpdate`: an optional status and what to add to the three cumulative fields. -/
structure OrderUpdate where
  status : Option OrderStatus
  filledDelta : Quantity
  quoteDelta : Quantity
  feeDelta : Quantity
  canceledBy : Option Principal
deriving DecidableEq

namespace OrderUpdate

/-- `OrderUpdate::default`. -/
def default : OrderUpdate :=
  { status := none, filledDelta := Quantity.zero, quoteDelta := Quantity.zero,
    feeDelta := Quantity.zero, canceledBy := none }

/-- `OrderUpdate::cancel`. -/
def cancel (canceledBy : Option Principal) : OrderUpdate :=
  { default with status := some .canceled, canceledBy }

/-- The status part of `apply`. -/
def applyStatus (u : OrderUpdate) (order : OrderRecord) : OrderRecord × Bool :=
  match u.status with
  | none => (order, false)
  | some status =>
      if status = order.status then (order, false)
      else ({ order with
        status
        canceledBy := if status = .canceled then u.canceledBy else order.canceledBy }, true)

/-- The fill part of `apply`. -/
def applyFilled (u : OrderUpdate) (order : OrderRecord) : Except Trap (OrderRecord × Bool) :=
  if u.filledDelta = Quantity.zero then .ok (order, false)
  else do
    let filledQuantity ← expectBug (order.filledQuantity.checkedAdd u.filledDelta)
      .filledQuantityOverflow
    assertBug (!order.quantity.lt filledQuantity) .filledExceedsQuantity
    .ok ({ order with filledQuantity }, true)

/-- The quote part of `apply`. -/
def applyQuote (u : OrderUpdate) (order : OrderRecord) : Except Trap (OrderRecord × Bool) :=
  if u.quoteDelta = Quantity.zero then .ok (order, false)
  else do
    let filledQuote ← expectBug (order.filledQuote.checkedAdd u.quoteDelta) .filledQuoteOverflow
    .ok ({ order with filledQuote }, true)

/-- The fee part of `apply`. -/
def applyFee (u : OrderUpdate) (order : OrderRecord) : Except Trap (OrderRecord × Bool) :=
  if u.feeDelta = Quantity.zero then .ok (order, false)
  else do
    let filledFee ← expectBug (order.filledFee.checkedAdd u.feeDelta) .filledFeeOverflow
    .ok ({ order with filledFee }, true)

/-- `OrderUpdate::apply`: the record and whether it changed. -/
def apply (u : OrderUpdate) (order : OrderRecord) : Except Trap (OrderRecord × Bool) := do
  let (order, c₁) := u.applyStatus order
  let (order, c₂) ← u.applyFilled order
  let (order, c₃) ← u.applyQuote order
  let (order, c₄) ← u.applyFee order
  .ok (order, c₁ || c₂ || c₃ || c₄)

end OrderUpdate

/-- `OrderHistory`. -/
abbrev OrderHistory := History OrderId OrderRecord

/-- The body of `apply_update`: a changed record is stamped. -/
def OrderUpdate.applyStamped (u : OrderUpdate) (now : Timestamp) (record : OrderRecord) :
    Except Trap (OrderRecord × Bool) := do
  let (record, changed) ← u.apply record
  .ok (if changed then { record with lastUpdatedAt := some now } else record, changed)

/-- `OrderHistory::apply_update`. -/
def OrderHistory.applyUpdate (h : OrderHistory) (id : OrderId) (update : OrderUpdate)
    (now : Timestamp) : Except Trap OrderHistory :=
  h.modify id (update.applyStamped now)

/-! ## Trades -/

/-- `TradeRecord`. -/
structure TradeRecord where
  side : Side
  price : Price
  quantity : Quantity
  notional : Quantity
  fee : Quantity
  feeToken : PairToken
  isMaker : Bool
  timestamp : Timestamp
deriving DecidableEq

/-- `TradeLeg`. -/
abbrev TradeLeg := TradeId × TradeRecord

/-- `TradeHistory`. -/
abbrev TradeHistory := History TradeId TradeRecord

namespace TradeHistory

/-- `TradeHistory::append`. -/
def append (h : TradeHistory) (takerLeg : TradeLeg) (takerUser : UserId) (makerLeg : TradeLeg)
    (makerUser : UserId) : Except Trap TradeHistory := do
  let h ← h.insertOnce takerUser takerLeg.1 takerLeg.2
  h.insertOnce makerUser makerLeg.1 makerLeg.2

/-- `TradeHistory::trades_for_order`. -/
def tradesForOrder (h : TradeHistory) (order : OrderId) (after : Option TradeId) (length : ℕ) :
    Except CursorNotFound (List (FillSeq × TradeRecord)) :=
  let page := fun upper => (h.rangePrimary (TradeId.new order Seq.zero) upper length).map
    fun e => (e.1.seq, e.2)
  match after with
  | none => .ok (page fun id => id ≤ TradeId.new order ⟨2 ^ 64 - 1, Seq.max_lt⟩)
  | some cursor =>
      if cursor.orderId ≠ order || !h.containsKey cursor then .error .mk
      else .ok (page fun id => id < cursor)

/-- `TradeHistory::trades_after`. -/
def tradesAfter (h : TradeHistory) (user : UserId) (after : Option TradeId) (length : ℕ) :
    Except Trap (Except CursorNotFound (List (TradeId × TradeRecord))) :=
  match h.pageByUser user after length with
  | .error e => .ok (.error e)
  | .ok ids => do
      let trades ← ids.mapM fun id => do
        let trade ← expectBug (h.get id) .indexedTradeMissing
        .ok (id, trade)
      .ok (.ok trades)

/-! ### Pages of one order's trades -/

/-- The trades of one order with their fill numbers, oldest first. -/
def tradesOf (h : TradeHistory) (order : OrderId) : List (FillSeq × TradeRecord) :=
  (h.primary.entries.filter fun e => e.1.orderId = order).map fun e => (e.1.seq, e.2.record)

variable {h : TradeHistory} {order : OrderId}

lemma range_iff (id : TradeId) :
    (TradeId.new order Seq.zero ≤ id ∧ id ≤ TradeId.new order ⟨2 ^ 64 - 1, Seq.max_lt⟩) ↔
      id.orderId = order := CompositeId.range_iff id

lemma mem_tradesOf {seq : FillSeq} {trade : TradeRecord} :
    (seq, trade) ∈ h.tradesOf order ↔ h.get (TradeId.new order seq) = some trade := by
  simp only [tradesOf, List.mem_map, List.mem_filter, decide_eq_true_eq, Prod.mk.injEq,
    History.get, Option.map_eq_some_iff]
  constructor
  · rintro ⟨e, ⟨he, rfl⟩, rfl, rfl⟩
    exact ⟨e.2, h.primary.mem_entries_iff.mp he, rfl⟩
  · rintro ⟨record, hget, rfl⟩
    exact ⟨(_, record), ⟨h.primary.mem_entries_iff.mpr hget, rfl⟩, rfl, rfl⟩

/-- The trades of an order are listed by fill number. -/
lemma tradesOf_pairwise (h : TradeHistory) (order : OrderId) :
    (h.tradesOf order).Pairwise fun a b => a.1 < b.1 := by
  have hentries : (h.primary.entries.filter fun e => e.1.orderId = order).Pairwise
      fun a b => a.1 < b.1 := (List.pairwise_map.mp h.primary.keys_pairwise).filter _
  refine List.pairwise_map.mpr (hentries.imp_of_mem ?_)
  intro a b ha hb hlt
  have hoa := of_decide_eq_true (List.mem_filter.mp ha).2
  have hob := of_decide_eq_true (List.mem_filter.mp hb).2
  rcases Prod.Lex.lt_iff.mp hlt with ho | ⟨-, hs⟩
  · have ho' : a.1.orderId < b.1.orderId := ho
    rw [hoa, hob] at ho'
    exact absurd ho' (lt_irrefl _)
  · exact hs

/-- The page that ends before a trade of the order. -/
lemma rangePrimary_before {c : FillSeq × TradeRecord} {older newer : List (FillSeq × TradeRecord)}
    (htrades : h.tradesOf order = older ++ c :: newer) (n : ℕ) :
    (h.rangePrimary (TradeId.new order Seq.zero) (fun id => id < TradeId.new order c.1) n).map
      (fun e => (e.1.seq, e.2)) = older.reverse.take n := by
  have hmem : (c.1, c.2) ∈ h.tradesOf order := by
    rw [htrades]
    exact List.mem_append_right _ List.mem_cons_self
  have hget := mem_tradesOf.mp hmem
  rw [History.get, Option.map_eq_some_iff] at hget
  obtain ⟨record, hget, hrecord⟩ := hget
  have horder : (TradeId.new order c.1).orderId = order := rfl
  obtain ⟨pre, post, hsplit, hrange⟩ := h.primary.filter_range_before range_iff hget horder
  have hcut : h.tradesOf order
      = (pre.filter fun e => e.1.orderId = order).map (fun e => (e.1.seq, e.2.record)) ++
        c :: (post.filter fun e => e.1.orderId = order).map (fun e => (e.1.seq, e.2.record)) := by
    rw [tradesOf, hsplit, List.filter_append, List.filter_cons_of_pos (by simp), List.map_append,
      List.map_cons, hrecord]
    rfl
  have hnodup : (h.tradesOf order).Nodup :=
    (tradesOf_pairwise h order).imp fun hlt heq => absurd (congrArg Prod.fst heq) hlt.ne
  rw [htrades, List.nodup_middle, List.nodup_cons, List.mem_append, not_or] at hnodup
  have holder := ((List.append_cons_inj_of_notMem hnodup.1.1 hnodup.1.2).mp
    (htrades.symm.trans hcut)).1
  rw [History.rangePrimary, hrange, holder, List.map_take, List.map_take, List.map_reverse,
    List.map_reverse, List.map_map]
  rfl

/-- **Pages of an order are answered from its trades.** -/
lemma serves (h : TradeHistory) (order : OrderId) :
    Paging.Serves (h.tradesForOrder order) (fun e => TradeId.new order e.1) (h.tradesOf order) where
  start := by
    intro n
    simp only [tradesForOrder, History.rangePrimary, h.primary.filter_range range_iff, tradesOf,
      List.map_take, List.map_reverse, List.map_map]
    rfl
  resume := by
    intro older c newer htrades n
    have hmem : (c.1, c.2) ∈ h.tradesOf order := by
      rw [htrades]
      exact List.mem_append_right _ List.mem_cons_self
    have hget := mem_tradesOf.mp hmem
    have hcontains : h.containsKey (TradeId.new order c.1) = true := by
      rw [History.get, Option.map_eq_some_iff] at hget
      obtain ⟨record, hget, -⟩ := hget
      rw [History.containsKey, SortedMap.contains, hget]
      rfl
    have horder : (TradeId.new order c.1).orderId = order := rfl
    simp only [tradesForOrder, horder, hcontains, ne_eq, not_true_eq_false, decide_false,
      Bool.not_true, Bool.or_self, Bool.false_eq_true, if_false]
    rw [rangePrimary_before htrades]

/-- **A cursor is refused** exactly when it is no stored trade of the order. -/
lemma tradesForOrder_error {cursor : TradeId} {n : ℕ} :
    h.tradesForOrder order (some cursor) n = .error .mk ↔
      ¬ (cursor.orderId = order ∧ h.containsKey cursor = true) := by
  simp only [tradesForOrder]
  by_cases ho : cursor.orderId = order
  · cases hc : h.containsKey cursor with
    | true => simp [ho]
    | false => simp
  · simp [ho]

/-- **A page of an order** is a function of its trades. -/
lemma tradesForOrder_eq (h : TradeHistory) (order : OrderId) (after : Option TradeId) (n : ℕ) :
    h.tradesForOrder order after n = Except.expect
      (Paging.page (fun e => TradeId.new order e.1) (h.tradesOf order) after n) .mk := by
  refine (h.serves order).eq_page ?_ after n
  intro cursor hcursor n
  refine tradesForOrder_error.mpr ?_
  rintro ⟨rfl, hcontains⟩
  rw [History.containsKey, SortedMap.contains, Option.isSome_iff_exists] at hcontains
  obtain ⟨entry, hentry⟩ := hcontains
  have hget : h.get (TradeId.new cursor.orderId cursor.seq) = some entry.record := by
    rw [TradeId.new_eta, History.get, hentry]
    rfl
  exact hcursor (List.mem_map.mpr ⟨_, mem_tradesOf.mpr hget, TradeId.new_eta cursor⟩)

/-- **A page of an account** is a function of the account's feed. -/
lemma tradesAfter_eq (hi : h.Indexed) (user : UserId) (after : Option TradeId) (n : ℕ) :
    h.tradesAfter user after n
      = .ok (Except.expect (Paging.page Prod.fst (h.feed user) after n) .mk) := by
  rw [tradesAfter, hi.pageByUser_eq (hi.feed_keys user)]
  cases hpage : Paging.page Prod.fst (h.feed user) after n with
  | none => rfl
  | some trades =>
      have hmap : (trades.map Prod.fst).mapM (fun id => do
          let trade ← expectBug (h.get id) .indexedTradeMissing
          .ok (id, trade)) = .ok trades := by
        refine Except.mapM_map_eq_ok ?_
        intro e he
        have hfeed : (e.1, e.2) ∈ h.feed user := Paging.mem_of_page hpage he
        rw [(History.mem_feed.mp hfeed).2]
        rfl
      simp only [Option.map_some, Except.expect_some, hmap, Except.bind_ok]

end TradeHistory

/-! ## What an update does -/

/-- **The effect of an update**, without its time stamp. -/
structure OrderUpdate.Applied (u : OrderUpdate) (r r' : OrderRecord) : Prop where
  owner : r'.owner = r.owner
  side : r'.side = r.side
  price : r'.price = r.price
  quantity : r'.quantity = r.quantity
  createdAt : r'.createdAt = r.createdAt
  timeInForce : r'.timeInForce = r.timeInForce
  placedBy : r'.placedBy = r.placedBy
  status : r'.status = u.status.getD r.status
  filledQuantity : r'.filledQuantity.toNat = r.filledQuantity.toNat + u.filledDelta.toNat
  filledLe : u.filledDelta.toNat ≠ 0 → r'.filledQuantity.toNat ≤ r.quantity.toNat
  filledQuote : r'.filledQuote.toNat = r.filledQuote.toNat + u.quoteDelta.toNat
  filledFee : r'.filledFee.toNat = r.filledFee.toNat + u.feeDelta.toNat
  canceledBy : r'.canceledBy = if u.status = some .canceled ∧ r.status ≠ .canceled then u.canceledBy
    else r.canceledBy

/-- The empty update changes nothing. -/
lemma OrderUpdate.Applied.refl (r : OrderRecord) : OrderUpdate.default.Applied r r := by
  have hzero : ∀ n : ℕ, n = n + Quantity.zero.toNat := fun n => by
    rw [Quantity.toNat_zero, Nat.add_zero]
  exact ⟨rfl, rfl, rfl, rfl, rfl, rfl, rfl, rfl, hzero _,
    fun h => absurd Quantity.toNat_zero h, hzero _, hzero _, rfl⟩

namespace OrderUpdate

variable {u : OrderUpdate} {r r' : OrderRecord} {c : Bool}

lemma applyFilled_eq_ok (h : u.applyFilled r = .ok (r', c)) :
    ∃ q : Quantity, r' = { r with filledQuantity := q } ∧
      q.toNat = r.filledQuantity.toNat + u.filledDelta.toNat ∧
      (u.filledDelta.toNat ≠ 0 → q.toNat ≤ r.quantity.toNat) ∧
      (c = false → u.filledDelta.toNat = 0 ∧ r' = r) := by
  rw [applyFilled] at h
  split_ifs at h with hz
  · rw [Except.ok.injEq, Prod.mk.injEq] at h
    obtain ⟨rfl, rfl⟩ := h
    have h0 := Quantity.eq_zero_iff.mp hz
    exact ⟨r.filledQuantity, rfl, by omega, fun hne => absurd h0 hne, fun _ => ⟨h0, rfl⟩⟩
  · simp only [Except.bind_eq_ok, Except.expect_eq_ok, Except.assert_eq_ok,
      Quantity.checkedAdd_eq_some, Except.ok.injEq, Prod.mk.injEq] at h
    obtain ⟨q, hq, -, hle, rfl, rfl⟩ := h
    refine ⟨q, rfl, hq, fun _ => ?_, fun hc => by cases hc⟩
    rw [Bool.not_eq_true', ← Bool.not_eq_true, Quantity.lt_iff, not_lt] at hle
    exact hle

lemma applyQuote_eq_ok (h : u.applyQuote r = .ok (r', c)) :
    ∃ q : Quantity, r' = { r with filledQuote := q } ∧
      q.toNat = r.filledQuote.toNat + u.quoteDelta.toNat ∧
      (c = false → u.quoteDelta.toNat = 0 ∧ r' = r) := by
  rw [applyQuote] at h
  split_ifs at h with hz
  · rw [Except.ok.injEq, Prod.mk.injEq] at h
    obtain ⟨rfl, rfl⟩ := h
    have h0 := Quantity.eq_zero_iff.mp hz
    exact ⟨r.filledQuote, rfl, by omega, fun _ => ⟨h0, rfl⟩⟩
  · simp only [Except.bind_eq_ok, Except.expect_eq_ok, Quantity.checkedAdd_eq_some,
      Except.ok.injEq, Prod.mk.injEq] at h
    obtain ⟨q, hq, rfl, rfl⟩ := h
    exact ⟨q, rfl, hq, fun hc => by cases hc⟩

lemma applyFee_eq_ok (h : u.applyFee r = .ok (r', c)) :
    ∃ q : Quantity, r' = { r with filledFee := q } ∧
      q.toNat = r.filledFee.toNat + u.feeDelta.toNat ∧
      (c = false → u.feeDelta.toNat = 0 ∧ r' = r) := by
  rw [applyFee] at h
  split_ifs at h with hz
  · rw [Except.ok.injEq, Prod.mk.injEq] at h
    obtain ⟨rfl, rfl⟩ := h
    have h0 := Quantity.eq_zero_iff.mp hz
    exact ⟨r.filledFee, rfl, by omega, fun _ => ⟨h0, rfl⟩⟩
  · simp only [Except.bind_eq_ok, Except.expect_eq_ok, Quantity.checkedAdd_eq_some,
      Except.ok.injEq, Prod.mk.injEq] at h
    obtain ⟨q, hq, rfl, rfl⟩ := h
    exact ⟨q, rfl, hq, fun hc => by cases hc⟩

lemma applyStatus_fst (u : OrderUpdate) (r : OrderRecord) : (u.applyStatus r).1 = { r with
    status := u.status.getD r.status
    canceledBy := if u.status = some .canceled ∧ r.status ≠ .canceled then u.canceledBy
      else r.canceledBy } := by
  rw [applyStatus]
  cases hs : u.status with
  | none => simp
  | some s =>
      simp only [Option.getD_some]
      split_ifs <;> simp_all

lemma applyStatus_of_false (h : (u.applyStatus r).2 = false) : (u.applyStatus r).1 = r := by
  rw [applyStatus] at h ⊢
  cases hs : u.status with
  | none => rfl
  | some s =>
      rw [hs] at h
      by_cases heq : s = r.status
      · simp [heq]
      · simp [heq] at h

/-- **`apply` does what `Applied` says**, and reports no change only if there is none. -/
lemma apply_eq_ok (h : u.apply r = .ok (r', c)) :
    u.Applied r r' ∧ r'.lastUpdatedAt = r.lastUpdatedAt ∧ (c = false → r' = r) := by
  simp only [apply, Except.bind_eq_ok, Except.ok.injEq, Prod.mk.injEq] at h
  obtain ⟨⟨r₂, c₂⟩, h₂, ⟨r₃, c₃⟩, h₃, ⟨r₄, c₄⟩, h₄, rfl, rfl⟩ := h
  obtain ⟨q₂, hr₂, hq₂, hle₂, hc₂⟩ := applyFilled_eq_ok h₂
  obtain ⟨q₃, hr₃, hq₃, hc₃⟩ := applyQuote_eq_ok h₃
  obtain ⟨q₄, hr₄, hq₄, hc₄⟩ := applyFee_eq_ok h₄
  simp only at hr₂ hr₃ hr₄ hq₃ hq₄ hc₂ hc₃ hc₄
  have hst := u.applyStatus_fst r
  subst hr₄ hr₃ hr₂
  rw [hst] at hq₂ hle₂ hq₃ hq₄ ⊢
  refine ⟨⟨rfl, rfl, rfl, rfl, rfl, rfl, rfl, rfl, hq₂, hle₂, hq₃, hq₄, rfl⟩, rfl, fun hc => ?_⟩
  simp only [Bool.or_eq_false_iff] at hc
  obtain ⟨⟨⟨k₁, k₂⟩, k₃⟩, k₄⟩ := hc
  have e₄ := (hc₄ k₄).2
  have e₃ := (hc₃ k₃).2
  have e₂ := (hc₂ k₂).2
  have e₁ := applyStatus_of_false k₁
  rw [hst] at e₂ e₁ e₃ e₄
  exact e₄.trans (e₃.trans (e₂.trans e₁))

/-- **`apply` returns** when the three sums stay in range. -/
lemma apply_returns (hquantity : r.filledQuantity.toNat + u.filledDelta.toNat ≤ r.quantity.toNat)
    (hquote : r.filledQuote.toNat + u.quoteDelta.toNat < 2 ^ 256)
    (hfee : r.filledFee.toNat + u.feeDelta.toNat < 2 ^ 256) : ∃ x, u.apply r = .ok x := by
  have hfilled : ∀ r₁ : OrderRecord, r₁.filledQuantity = r.filledQuantity →
      r₁.quantity = r.quantity → ∃ r₂ c, u.applyFilled r₁ = .ok (r₂, c) := by
    intro r₁ hf hq
    rw [applyFilled]
    split_ifs with hz
    · exact ⟨_, _, rfl⟩
    · obtain ⟨q, hadd, -⟩ := Quantity.checkedAdd_of_lt (a := r₁.filledQuantity) (b := u.filledDelta)
        (by rw [hf]; exact hquantity.trans_lt r.quantity.toNat_lt)
      have hle : r₁.quantity.lt q = false := by
        rw [← Bool.not_eq_true, Quantity.lt_iff, not_lt, Quantity.checkedAdd_eq_some.mp hadd, hf, hq]
        exact hquantity
      exact ⟨_, _, by rw [hadd, expectBug, Except.expect_some, Except.bind_ok, assertBug, hle,
        Bool.not_false, Except.assert_true, Except.bind_ok]⟩
  obtain ⟨r₂, c₂, h₂⟩ := hfilled (u.applyStatus r).1 (by rw [applyStatus_fst])
    (by rw [applyStatus_fst])
  obtain ⟨q₂, hr₂, -⟩ := applyFilled_eq_ok h₂
  have hquote₂ : r₂.filledQuote = r.filledQuote := by rw [hr₂, applyStatus_fst]
  have hfee₂ : r₂.filledFee = r.filledFee := by rw [hr₂, applyStatus_fst]
  have h₃ : ∃ r₃ c, u.applyQuote r₂ = .ok (r₃, c) := by
    rw [applyQuote]
    split_ifs with hz
    · exact ⟨_, _, rfl⟩
    · obtain ⟨q, hadd, -⟩ := Quantity.checkedAdd_of_lt (a := r₂.filledQuote) (b := u.quoteDelta)
        (by rw [hquote₂]; exact hquote)
      exact ⟨_, _, by rw [hadd, expectBug, Except.expect_some, Except.bind_ok]⟩
  obtain ⟨r₃, c₃, h₃⟩ := h₃
  obtain ⟨q₃, hr₃, -⟩ := applyQuote_eq_ok h₃
  have hfee₃ : r₃.filledFee = r.filledFee := by rw [hr₃, ← hfee₂]
  have h₄ : ∃ r₄ c, u.applyFee r₃ = .ok (r₄, c) := by
    rw [applyFee]
    split_ifs with hz
    · exact ⟨_, _, rfl⟩
    · obtain ⟨q, hadd, -⟩ := Quantity.checkedAdd_of_lt (a := r₃.filledFee) (b := u.feeDelta)
        (by rw [hfee₃]; exact hfee)
      exact ⟨_, _, by rw [hadd, expectBug, Except.expect_some, Except.bind_ok]⟩
  obtain ⟨r₄, c₄, h₄⟩ := h₄
  refine ⟨(r₄, (u.applyStatus r).2 || c₂ || c₃ || c₄), ?_⟩
  simp only [apply, h₂, h₃, h₄, Except.bind_ok]

/-- **`apply_update` returns** for a record whose sums stay in range. -/
lemma applyUpdate_returns {h : OrderHistory} {id : OrderId} (hget : h.get id = some r)
    (hquantity : r.filledQuantity.toNat + u.filledDelta.toNat ≤ r.quantity.toNat)
    (hquote : r.filledQuote.toNat + u.quoteDelta.toNat < 2 ^ 256)
    (hfee : r.filledFee.toNat + u.feeDelta.toNat < 2 ^ 256) (now : Timestamp) :
    ∃ h', h.applyUpdate id u now = .ok h' := by
  obtain ⟨⟨r', c⟩, happ⟩ := apply_returns hquantity hquote hfee
  obtain ⟨entry, hentry, rfl⟩ := Option.map_eq_some_iff.mp hget
  have hstamped : ∃ x, u.applyStamped now entry.record = .ok x :=
    ⟨(if c then { r' with lastUpdatedAt := some now } else r', c), by
      simp only [applyStamped, happ, Except.bind_ok]⟩
  obtain ⟨⟨r₁, c₁⟩, hstamped⟩ := hstamped
  rw [OrderHistory.applyUpdate, History.modify, hentry, expectBug, Except.expect_some,
    Except.bind_ok, hstamped, Except.bind_ok]
  exact ⟨_, rfl⟩

/-- **`apply_update`**: the record under the id is updated, the others are not touched. -/
theorem of_applyUpdate {h h' : OrderHistory} {id : OrderId} {now : Timestamp}
    (hok : h.applyUpdate id u now = .ok h') :
    ∃ r r', h.get id = some r ∧ u.Applied r r' ∧
      (∀ k, h'.get k = if id = k then some r' else h.get k) ∧
      (h.Indexed → h'.Indexed) ∧ (∀ user, h'.userKeys user = h.userKeys user) ∧
      h'.primary.size = h.primary.size := by
  have hidx : h.Indexed → h'.Indexed := fun hi => hi.modify hok
  obtain ⟨r, ⟨r', c⟩, hget, hf, hrec, hby, hsize, -⟩ := History.modify_eq_ok hok
  simp only [applyStamped, Except.bind_eq_ok, Except.ok.injEq, Prod.mk.injEq] at hf
  obtain ⟨⟨r₁, c₁⟩, happ, rfl, rfl⟩ := hf
  obtain ⟨ha, -, hsame⟩ := apply_eq_ok happ
  refine ⟨r, if c₁ then { r₁ with lastUpdatedAt := some now } else r, hget, ?_, fun k => ?_, hidx,
    History.userKeys_of_byUser hby, hsize⟩
  · split_ifs with hc
    · exact ⟨ha.owner, ha.side, ha.price, ha.quantity, ha.createdAt, ha.timeInForce, ha.placedBy,
        ha.status, ha.filledQuantity, ha.filledLe, ha.filledQuote, ha.filledFee, ha.canceledBy⟩
    · rw [Bool.not_eq_true] at hc
      rw [hsame hc] at ha
      exact ha
  · rw [hrec]
    split_ifs <;> rfl

end OrderUpdate

end OisyTrade
