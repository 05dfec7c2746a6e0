import OisyTrade.State.Settle

/-!
# The life of an order

`Evolves r r'` says that a record moved forward: what identifies the order is unchanged, the
cumulative amounts did not fall, the status took an allowed transition, and a record that is over
did not change at all.  It is a preorder, so it says the same of one event and of a whole run.

`Extends s s'` says it of all records, and that no market and no user got lost.  Facts about queued
settling events only depend on what it keeps (`EventOk.mono`).
-/

namespace OisyTrade

namespace OrderStatus

/-- The order is over. -/
def isTerminal : OrderStatus → Bool
  | .pending | .open => false
  | .filled | .canceled | .expired => true

/-- **The allowed transitions**: from `pending` to any status, from `open` to `filled` and
`canceled`. -/
inductive Leads : OrderStatus → OrderStatus → Prop
  | same (status : OrderStatus) : Leads status status
  | ofPending (status : OrderStatus) : Leads .pending status
  | fill : Leads .open .filled
  | cancel : Leads .open .canceled

lemma Leads.trans {a b c : OrderStatus} (h : Leads a b) (h' : Leads b c) : Leads a c := by
  cases h with
  | same => exact h'
  | ofPending => exact .ofPending c
  | fill =>
      cases h'
      exact .fill
  | cancel =>
      cases h'
      exact .cancel

/-- Nothing becomes pending. -/
lemma Leads.eq_pending {a : OrderStatus} (h : Leads a .pending) : a = .pending := by
  cases h <;> rfl

/-- Only pending orders expire. -/
lemma Leads.of_expired {a : OrderStatus} (h : Leads a .expired) : a = .expired ∨ a = .pending := by
  cases h with
  | same => exact Or.inl rfl
  | ofPending => exact Or.inr rfl

end OrderStatus

/-- **A record moved forward.** -/
structure OrderRecord.Evolves (r r' : OrderRecord) : Prop where
  owner : r'.owner = r.owner
  side : r'.side = r.side
  price : r'.price = r.price
  quantity : r'.quantity = r.quantity
  createdAt : r'.createdAt = r.createdAt
  timeInForce : r'.timeInForce = r.timeInForce
  placedBy : r'.placedBy = r.placedBy
  filled : ∀ c, r.filled c ≤ r'.filled c
  status : r.status.Leads r'.status
  final : r.status.isTerminal = true → r' = r

namespace OrderRecord.Evolves

variable {r r' r'' : OrderRecord}

lemma refl (r : OrderRecord) : r.Evolves r :=
  ⟨rfl, rfl, rfl, rfl, rfl, rfl, rfl, fun _ => le_rfl, .same _, fun _ => rfl⟩

lemma trans (h : r.Evolves r') (h' : r'.Evolves r'') : r.Evolves r'' :=
  ⟨h'.owner.trans h.owner, h'.side.trans h.side, h'.price.trans h.price,
    h'.quantity.trans h.quantity, h'.createdAt.trans h.createdAt,
    h'.timeInForce.trans h.timeInForce, h'.placedBy.trans h.placedBy,
    fun c => (h.filled c).trans (h'.filled c), h.status.trans h'.status, fun ht => by
      have hr' := h.final ht
      rw [← hr'] at ht
      exact (h'.final ht).trans hr'⟩

/-- An update that takes an allowed transition of a record that is not over. -/
lemma of_applied {u : OrderUpdate} (h : u.Applied r r')
    (hlive : r.status.isTerminal = false) (hstatus : r.status.Leads r'.status) : r.Evolves r' :=
  ⟨h.owner, h.side, h.price, h.quantity, h.createdAt, h.timeInForce, h.placedBy,
    fun c => by rw [h.filled c]; omega, hstatus, fun ht => by rw [hlive] at ht; cases ht⟩

end OrderRecord.Evolves

namespace State

/-- **Nothing that is known is lost**: markets, users and records stay, and records move forward. -/
structure Extends (s s' : State) : Prop where
  market : ∀ {id pair scale}, s.Market id pair scale → s'.Market id pair scale
  registry : s.userRegistry.Extends s'.userRegistry
  record : ∀ {id r}, s.orderHistory.get id = some r →
    ∃ r', s'.orderHistory.get id = some r' ∧ r.Evolves r'

namespace Extends

variable {s s' s'' : State}

lemma refl (s : State) : s.Extends s :=
  ⟨id, UserRegistry.Extends.refl _, fun hr => ⟨_, hr, OrderRecord.Evolves.refl _⟩⟩

lemma trans (h : s.Extends s') (h' : s'.Extends s'') : s.Extends s'' := by
  refine ⟨fun hm => h'.market (h.market hm), h.registry.trans h'.registry, fun hr => ?_⟩
  obtain ⟨r', hr', he⟩ := h.record hr
  obtain ⟨r'', hr'', he'⟩ := h'.record hr'
  exact ⟨r'', hr'', he.trans he'⟩

/-- A state with the same pairs, tokens, users and records. -/
lemma of_eq (hp : s'.tradingPairs = s.tradingPairs) (ht : s'.tokens = s.tokens)
    (hu : s'.userRegistry = s.userRegistry) (hr : s'.orderHistory = s.orderHistory) :
    s.Extends s' := by
  refine ⟨fun hm => ⟨by rw [hp]; exact hm.pair, ?_⟩, by rw [hu]; exact UserRegistry.Extends.refl _,
    fun hrec => ⟨_, by rw [hr]; exact hrec, OrderRecord.Evolves.refl _⟩⟩
  have hscale := hm.scale
  simp only [baseScale, ht] at hscale ⊢
  exact hscale

end Extends

variable {s s' : State} {bookId : OrderBookId} {scale : BaseScale}

lemma FillPiece.mono {st : FillSettlement} {t m : OrderRecord} (hx : s.Extends s')
    (h : s.FillPiece bookId scale st t m) : ∃ t' m', s'.FillPiece bookId scale st t' m' ∧
      t.Evolves t' ∧ m.Evolves m' := by
  obtain ⟨t', ht', het⟩ := hx.record h.taker
  obtain ⟨m', hm', hem⟩ := hx.record h.maker
  refine ⟨t', m', ⟨h.new, ht', hm', ?_, ?_, ?_, ?_, ?_, h.earlier, h.positive⟩, het, hem⟩
  · rw [het.side, h.takerSide]
  · rw [het.price, h.takerPrice]
  · rw [hem.side, het.side, h.makerSide]
  · rw [hem.price, h.makerPrice]
  · rw [het.side, het.price, hem.price]
    exact h.crosses

lemma RefundPiece.mono {rs : RemovedOrderSettlement} {r : OrderRecord} (hx : s.Extends s')
    (h : s.RefundPiece bookId scale rs r) : s'.RefundPiece bookId scale rs r := by
  obtain ⟨r', hr', he⟩ := hx.record h.record
  have hterm : r.status.isTerminal = true := by
    rcases h.removed with hs | hs <;> rw [hs] <;> rfl
  rw [he.final hterm] at hr'
  exact ⟨hr', h.removed, h.new⟩

lemma PieceOk.mono {p : Piece} (hx : s.Extends s') (h : s.PieceOk bookId scale p) :
    s'.PieceOk bookId scale p := by
  cases p with
  | fill st =>
      obtain ⟨t, m, hp⟩ := h
      obtain ⟨t', m', hp', -, -⟩ := hp.mono hx
      exact ⟨t', m', hp'⟩
  | refund rs =>
      obtain ⟨r, hp⟩ := h
      exact ⟨r, hp.mono hx⟩

/-- **A queued event stays settleable.** -/
lemma EventOk.mono {event : SettlingEvent} (hx : s.Extends s') (h : s.EventOk event) :
    s'.EventOk event := by
  obtain ⟨pair, scale, pieces, hm, hev, hok⟩ := h
  exact ⟨pair, scale, pieces, hx.market hm, hev, fun p hp => (hok p hp).mono hx⟩

lemma Known.mono {seq : OrderSeq} (hx : s.Extends s') (h : s.Known bookId seq) :
    s'.Known bookId seq := by
  obtain ⟨r, uid, hr, hu⟩ := h
  obtain ⟨r', hr', he⟩ := hx.record hr
  exact ⟨r', uid, hr', by rw [he.owner]; exact hx.registry _ _ hu⟩

/-- The user behind a known order never changes. -/
lemma Known.party_eq {seq : OrderSeq} (hx : s.Extends s') (h : s.Known bookId seq) :
    s'.party bookId seq = s.party bookId seq := by
  obtain ⟨r, uid, hr, hu⟩ := h
  obtain ⟨r', hr', he⟩ := hx.record hr
  rw [State.party_eq hr hu]
  exact State.party_eq hr' (by rw [he.owner]; exact hx.registry _ _ hu)

end State

end OisyTrade
