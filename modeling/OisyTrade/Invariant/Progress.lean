import OisyTrade.Invariant.Drain
import OisyTrade.Invariant.Feeds

/-!
# What the executor has done so far

`run_once` matches the fronts of some queues and settles some queued events.  A schedule of calls
mixes the two: how many orders one batch takes, which book comes next and when an event is settled
depends on the policies and on the readings of the instruction counter.

`Progress s work legs s'` describes a state `s'` that was reached from `s` in this way without the
schedule.  `work` says for each book which of its orders were matched, `legs` lists the trades of all
books as they were queued.  A batch extends the work of its book (`Progress.matched`), an event that is
settled moves postings and legs from the queue to the balances and the history (`Progress.drained`),
and neither depends on what the other books did.  So two states that are done with the same work agree
(`Progress.agree`).
-/

namespace OisyTrade

/-! ## The work on one book -/

/-- The orders of a book that were matched, what matching reported, and what the fills and the killed
orders are settled with. -/
structure BookWork where
  orders : List Order
  out : OrderBook.StepOut
  fills : List FillSettlement
  refunds : List RemovedOrderSettlement

namespace BookWork

/-- Nothing. -/
def idle : BookWork := ⟨[], .empty, [], []⟩

/-- One batch after the other. -/
def append (x y : BookWork) : BookWork :=
  ⟨x.orders ++ y.orders, x.out.append y.out, x.fills ++ y.fills, x.refunds ++ y.refunds⟩

/-- The pieces of the work. -/
def pieces (x : BookWork) : List Piece := x.fills.map Piece.fill ++ x.refunds.map Piece.refund

end BookWork

namespace OrderBook

variable {b b₁ b' : OrderBook} {orders : List Order} {out out' : StepOut} {seq : OrderSeq}

/-- Only orders of the batch expire, in the order of the batch. -/
lemma Chunk.expired_sublist (h : Chunk b orders out b') :
    (out.expired.map Prod.fst).Sublist (orders.map Order.id) := by
  induction h with
  | nil b => exact List.Sublist.refl _
  | @cons b b₁ b' order orders out hst _ ih =>
      have hone : ((b.stepOut order).expired.map Prod.fst).Sublist [order.id] := by
        rw [stepOut]
        split_ifs <;> simp
      rw [StepOut.append, List.map_append, List.map_cons]
      exact hone.append ih

/-- The map of the killed orders lists them as they were killed. -/
lemma Chunk.entries_expired (h : Chunk b orders out b') (hb : b.WellFormed) :
    out.output.expiredOrders.entries = out.expired := by
  have hsorted : (orders.map Order.id).Pairwise (· < ·) := by
    have hpending := hb.pendingSorted
    rw [h.pending] at hpending
    rw [List.map_append] at hpending
    exact (List.pairwise_append.mp hpending).1
  have hexpired : out.expired.Pairwise fun a b => a.1 < b.1 :=
    List.pairwise_map.mp (hsorted.sublist h.expired_sublist)
  exact congrArg SortedMap.entries (SortedMap.insertAll_entries ⟨out.expired, hexpired⟩)

/-- A batch can be cut. -/
lemma Chunk.split :
    ∀ {xs : List Order} {b b' : OrderBook} {ys : List Order} {out : StepOut},
      Chunk b (xs ++ ys) out b' → ∃ out₁ out₂ b₁, Chunk b xs out₁ b₁ ∧ Chunk b₁ ys out₂ b' ∧
        out = out₁.append out₂
  | [], b, b', ys, out, h => ⟨.empty, out, b, .nil b, h, (StepOut.empty_append out).symm⟩
  | x :: xs, b, b', ys, out, h => by
      cases h with
      | cons hstep hrest =>
          obtain ⟨out₁, out₂, b₂, h₁, h₂, rfl⟩ := Chunk.split hrest
          exact ⟨_, out₂, b₂, .cons hstep h₁, h₂, (StepOut.append_assoc _ _ _).symm⟩

/-- **The later batch decides** about the status of an order. -/
lemma StepOut.statusOf_append (h : SeqEffect b b₁ out seq) (h' : SeqEffect b₁ b' out' seq) :
    (out.append out').output.statusOf seq
      = (out'.output.statusOf seq).or (out.output.statusOf seq) := by
  have hgone : ∀ {o}, b₁.find seq = none → b₁.find seq = some o → False := by
    intro o hnone hsome
    rw [hnone] at hsome
    cases hsome
  simp only [StepOut.statusOf_eq, StepOut.append, List.map_append, List.mem_append]
  cases h with
  | absent _ h₁ _ hfilled hresting hexpired =>
      simp only [hfilled, hresting, hexpired, false_or, if_false]
      split_ifs <;> rfl
  | live _ _ _ _ _ _ _ _ _ hfilled hexpired =>
      simp only [hfilled, hexpired, false_or, if_false]
      by_cases h₁ : seq ∈ out'.expired.map Prod.fst
      · simp only [h₁, if_true, Option.some_or]
      by_cases h₂ : seq ∈ out'.filled
      · simp only [h₁, h₂, if_true, if_false, Option.some_or]
      by_cases h₃ : seq ∈ out'.resting
      · simp only [h₁, h₂, h₃, or_true, if_true, if_false, Option.some_or]
      · simp only [h₁, h₂, h₃, or_false, if_false, Option.none_or]
  | filled _ _ h₁ _ hfilled hexpired =>
      cases h' with
      | absent _ _ _ hfilled' hresting' hexpired' =>
          simp only [hfilled, hexpired, hfilled', hresting', hexpired', or_false, if_true, if_false,
            Option.none_or]
      | live _ _ h₂ | filled _ h₂ | expired _ h₂ => exact (hgone h₁ h₂).elim
  | expired _ _ _ _ h₁ _ _ _ hexpired =>
      have hin : seq ∈ out.expired.map Prod.fst := List.mem_map_of_mem hexpired
      cases h' with
      | absent _ _ _ hfilled' hresting' hexpired' =>
          simp only [hin, hfilled', hresting', hexpired', true_or, if_true, if_false,
            Option.none_or]
      | live _ _ h₂ | filled _ h₂ | expired _ h₂ => exact (hgone h₁ h₂).elim

end OrderBook

namespace State

variable {s s₁ s₂ s' : State} {id bookId : OrderBookId}

/-- The settlement of a fill of a book. -/
def settlementOf (s : State) (id : OrderBookId) (rates : FeeRates) (fill : Fill) :
    Except Trap FillSettlement := do
  let scale ← s.baseScaleForBook id
  FillSettlement.new fill rates scale

/-- The settlement of a killed order of a book. -/
def refundOf (s : State) (id : OrderBookId) (killed : OrderSeq × RemovedOrder) :
    Except Trap RemovedOrderSettlement := do
  let scale ← s.baseScaleForBook id
  RemovedOrderSettlement.new killed.1 killed.2 scale

/-- **The work `x` takes the book from `b` to `b'`.** -/
structure Takes (s : State) (id : OrderBookId) (x : BookWork) (b b' : OrderBook) : Prop where
  chunk : OrderBook.Chunk b x.orders x.out b'
  settled : List.Forall₂ (fun f st => s.settlementOf id b.feeRates f = .ok st) x.out.fills x.fills
  refunded : List.Forall₂ (fun e rs => s.refundOf id e = .ok rs) x.out.expired x.refunds

lemma Takes.idle (s : State) (id : OrderBookId) (b : OrderBook) : s.Takes id .idle b b :=
  ⟨.nil b, .nil, .nil⟩

lemma Takes.append {x y : BookWork} {b b₁ b' : OrderBook} (h : s.Takes id x b b₁)
    (h' : s.Takes id y b₁ b') : s.Takes id (x.append y) b b' := by
  have hrates := h'.settled
  rw [h.chunk.config.feeRates] at hrates
  exact ⟨h.chunk.append h'.chunk, List.rel_append h.settled hrates,
    List.rel_append h.refunded h'.refunded⟩

/-- What a function makes of the entries of a list is one list only. -/
lemma forall₂_unique {α β : Type} {f : α → Except Trap β} {l : List α} {l₁ l₂ : List β}
    (h₁ : List.Forall₂ (fun a b => f a = .ok b) l l₁)
    (h₂ : List.Forall₂ (fun a b => f a = .ok b) l l₂) : l₁ = l₂ :=
  List.right_unique_forall₂' (fun _ _ _ h h' => Except.ok.inj (h.symm.trans h')) h₁ h₂

lemma forall₂_split {α β : Type} {R : α → β → Prop} {xs ys : List α} {zs : List β}
    (h : List.Forall₂ R (xs ++ ys) zs) : ∃ zs₁ zs₂, List.Forall₂ R xs zs₁ ∧
      List.Forall₂ R ys zs₂ ∧ zs = zs₁ ++ zs₂ :=
  ⟨zs.take xs.length, zs.drop xs.length, (List.forall₂_take_append zs xs ys h.flip).flip,
    (List.forall₂_drop_append zs xs ys h.flip).flip, (List.take_append_drop _ _).symm⟩

/-- Work can be cut where its orders are. -/
lemma Takes.split {x : BookWork} {xs ys : List Order} {b b' : OrderBook} (h : s.Takes id x b b')
    (horders : x.orders = xs ++ ys) : ∃ y z b₁, s.Takes id y b b₁ ∧ s.Takes id z b₁ b' ∧
      x = y.append z ∧ y.orders = xs ∧ z.orders = ys := by
  obtain ⟨orders, out, fills, refunds⟩ := x
  obtain rfl : orders = xs ++ ys := horders
  obtain ⟨out₁, out₂, b₁, h₁, h₂, rfl⟩ := OrderBook.Chunk.split h.chunk
  obtain ⟨fills₁, fills₂, hf₁, hf₂, rfl⟩ := forall₂_split h.settled
  obtain ⟨refunds₁, refunds₂, hr₁, hr₂, rfl⟩ := forall₂_split h.refunded
  rw [← h₁.config.feeRates] at hf₂
  exact ⟨⟨xs, out₁, fills₁, refunds₁⟩, ⟨ys, out₂, fills₂, refunds₂⟩, b₁, ⟨h₁, hf₁, hr₁⟩,
    ⟨h₂, hf₂, hr₂⟩, rfl, rfl, rfl⟩

/-- **The work is determined by its orders.** -/
lemma Takes.unique {x y : BookWork} {b b' b'' : OrderBook} (h : s.Takes id x b b')
    (h' : s.Takes id y b b'') (horders : y.orders = x.orders) : y = x ∧ b'' = b' := by
  obtain ⟨orders, out, fills, refunds⟩ := x
  obtain ⟨orders', out', fills', refunds'⟩ := y
  obtain rfl : orders' = orders := horders
  obtain ⟨rfl, rfl⟩ : out' = out ∧ b'' = b' := h.chunk.unique h'.chunk
  obtain rfl := forall₂_unique h.settled h'.settled
  obtain rfl := forall₂_unique h.refunded h'.refunded
  exact ⟨rfl, rfl⟩

/-! ## What settling reads -/

lemma map_eq_cases {α β : Type} {f : α → β} {x y : Option α} (h : x.map f = y.map f) :
    (x = none ∧ y = none) ∨ ∃ a b, x = some a ∧ y = some b ∧ f a = f b := by
  cases x with
  | none => exact Or.inl ⟨rfl, Option.map_eq_none_iff.mp h.symm⟩
  | some a =>
      obtain ⟨b, hb, hab⟩ := Option.map_eq_some_iff.mp h.symm
      exact Or.inr ⟨a, b, rfl, hb, hab.symm⟩

/-- **Settling reads the same** in both states: the tokens, the pairs and the users, and of an order
its owner, side and price. -/
structure ReadsAlike (s s' : State) : Prop where
  tokens : s'.tokens = s.tokens
  pairs : s'.tradingPairs = s.tradingPairs
  users : s'.userRegistry = s.userRegistry
  orders : ∀ id, (s'.orderHistory.get id).map (fun r => (r.owner, r.side, r.price))
    = (s.orderHistory.get id).map fun r => (r.owner, r.side, r.price)

namespace ReadsAlike

lemma party (h : s.ReadsAlike s') (seq : OrderSeq) : s'.party bookId seq = s.party bookId seq := by
  rw [State.party, State.party, h.users]
  rcases map_eq_cases (h.orders (.new bookId seq)) with ⟨hr', hr⟩ | ⟨r', r, hr', hr, hread⟩
  · rw [hr, hr']
  · have howner : r'.owner = r.owner := congrArg Prod.fst hread
    rw [hr, hr', Option.bind_some, Option.bind_some, howner]

lemma baseScaleForBook (h : s.ReadsAlike s') (id : OrderBookId) :
    s'.baseScaleForBook id = s.baseScaleForBook id := by
  simp only [State.baseScaleForBook, baseScale, h.pairs, h.tokens]

lemma settlementOf (h : s.ReadsAlike s') (id : OrderBookId) (rates : FeeRates) (fill : Fill) :
    s'.settlementOf id rates fill = s.settlementOf id rates fill := by
  rw [State.settlementOf, State.settlementOf, h.baseScaleForBook]

lemma refundOf (h : s.ReadsAlike s') (id : OrderBookId) (killed : OrderSeq × RemovedOrder) :
    s'.refundOf id killed = s.refundOf id killed := by
  rw [State.refundOf, State.refundOf, h.baseScaleForBook]

lemma eventPostings (h : s.ReadsAlike s') (event : SettlingEvent) :
    s'.eventPostings event = s.eventPostings event := by
  have hposting : ∀ pair op, s'.posting event.bookId pair op = s.posting event.bookId pair op := by
    intro pair op
    cases op <;> simp only [posting, h.party]
  rw [State.eventPostings, State.eventPostings, h.pairs]
  cases s.tradingPairs.getPair event.bookId with
  | none => rfl
  | some pair => exact List.map_congr_left fun op _ => hposting pair op

lemma rebuiltLegs (h : s.ReadsAlike s') (now : Timestamp) (f : FillEvent) :
    s'.rebuiltLegs now bookId f = s.rebuiltLegs now bookId f := by
  rw [State.rebuiltLegs, State.rebuiltLegs, h.baseScaleForBook]
  rcases map_eq_cases (h.orders (.new bookId f.takerOrderSeq)) with
    ⟨ht', ht⟩ | ⟨taker', taker, ht', ht, htaker⟩
  · rw [ht, ht']
  rcases map_eq_cases (h.orders (.new bookId f.makerOrderSeq)) with
    ⟨hm', hm⟩ | ⟨maker', maker, hm', hm, hmaker⟩
  · rw [ht, ht', hm, hm']
  have hside : taker'.side = taker.side := congrArg (fun x => x.2.1) htaker
  have hprice : maker'.price = maker.price := congrArg (fun x => x.2.2) hmaker
  rw [ht, ht', hm, hm']
  cases s.baseScaleForBook bookId with
  | error trap => rfl
  | ok scale =>
      dsimp only
      rw [hside, hprice]

lemma eventLegs (h : s.ReadsAlike s') (now : Timestamp) (event : SettlingEvent) :
    s'.eventLegs now event = s.eventLegs now event := by
  have hlegs : s'.rebuiltLegs now event.bookId = s.rebuiltLegs now event.bookId :=
    funext (h.rebuiltLegs now)
  rw [State.eventLegs, State.eventLegs, hlegs]
  exact List.map_congr_left fun leg _ => by rw [h.party]

end ReadsAlike

/-- The work of a batch, and what it is in another state that settling reads alike. -/
lemma Matched.takes (hs : s.Sound) {now : Timestamp} {b b' : OrderBook} {orders : List Order}
    {out : OrderBook.StepOut} {pair : TradingPair} {scale : BaseScale}
    {fills : List FillSettlement} {refunds : List RemovedOrderSettlement}
    {groups : List (List Piece)}
    (h : s.Matched bookId now b b' orders out pair scale fills refunds groups s') :
    s.Takes bookId ⟨orders, out, fills, refunds⟩ b b' := by
  have hscale : s.baseScaleForBook bookId = .ok scale :=
    baseScaleForBook_eq_ok.mpr ⟨pair, h.market⟩
  refine ⟨h.chunk, h.settled.imp fun f st hst => ?_, ?_⟩
  · rw [settlementOf, hscale]
    exact hst
  · have hrefunded := h.refunded
    rw [h.chunk.entries_expired (hs.wired.listed _ b h.book).wf] at hrefunded
    refine hrefunded.imp fun e rs hrs => ?_
    rw [refundOf, hscale]
    exact hrs

lemma Takes.of_readsAlike {x : BookWork} {b b' : OrderBook} (h : s'.Takes id x b b')
    (hread : s.ReadsAlike s') : s.Takes id x b b' :=
  ⟨h.chunk, h.settled.imp fun _ _ hst => (hread.settlementOf id _ _).symm.trans hst,
    h.refunded.imp fun _ _ hrs => (hread.refundOf id _).symm.trans hrs⟩

/-! ## Events in parts -/

lemma eventPostings_append (s : State) (id : OrderBookId) (p q : List Piece) :
    s.eventPostings (eventOf id (p ++ q))
      = s.eventPostings (eventOf id p) ++ s.eventPostings (eventOf id q) := by
  simp only [eventPostings, eventOf, List.flatMap_append, postings, List.map_append]
  cases s.tradingPairs.getPair id <;> rfl

lemma eventPostings_nil (s : State) (id : OrderBookId) : s.eventPostings (eventOf id []) = [] := by
  simp only [eventPostings, eventOf, List.flatMap_nil, postings, List.map_nil]
  cases s.tradingPairs.getPair id <;> rfl

lemma eventPostings_groups (s : State) (id : OrderBookId) (groups : List (List Piece)) :
    (groups.map (eventOf id)).flatMap s.eventPostings = s.eventPostings (eventOf id groups.flatten) := by
  induction groups with
  | nil => exact (s.eventPostings_nil id).symm
  | cons g groups ih =>
      rw [List.map_cons, List.flatMap_cons, ih, List.flatten_cons, eventPostings_append]

lemma eventLegs_append (s : State) (now : Timestamp) (id : OrderBookId) (p q : List Piece) :
    s.eventLegs now (eventOf id (p ++ q))
      = s.eventLegs now (eventOf id p) ++ s.eventLegs now (eventOf id q) := by
  simp only [eventLegs, eventOf, List.flatMap_append, List.map_append]

lemma eventLegs_refunds (s : State) (now : Timestamp) (id : OrderBookId)
    (refunds : List RemovedOrderSettlement) :
    s.eventLegs now (eventOf id (refunds.map Piece.refund)) = [] := by
  have hnone : (eventOf id (refunds.map Piece.refund)).fills = [] := by
    simp [eventOf]
  rw [eventLegs, hnone]
  rfl

lemma eventLegs_groups (s : State) (now : Timestamp) (id : OrderBookId)
    (groups : List (List Piece)) :
    (groups.map (eventOf id)).flatMap (s.eventLegs now)
      = s.eventLegs now (eventOf id groups.flatten) := by
  induction groups with
  | nil => rfl
  | cons g groups ih =>
      rw [List.map_cons, List.flatMap_cons, ih, List.flatten_cons, eventLegs_append]

/-- The postings of more work, up to their order. -/
lemma eventPostings_pieces (s : State) (id : OrderBookId) (x y : BookWork) :
    (s.eventPostings (eventOf id (x.append y).pieces)).Perm
      (s.eventPostings (eventOf id x.pieces) ++ s.eventPostings (eventOf id y.pieces)) := by
  simp only [BookWork.pieces, BookWork.append, List.map_append, eventPostings_append,
    List.append_assoc]
  refine List.Perm.append_left _ ?_
  rw [← List.append_assoc, ← List.append_assoc]
  exact List.perm_append_comm.append_right _

/-- The legs of more work. -/
lemma eventLegs_pieces (s : State) (now : Timestamp) (id : OrderBookId) (x y : BookWork) :
    s.eventLegs now (eventOf id (x.append y).pieces)
      = s.eventLegs now (eventOf id x.pieces) ++ s.eventLegs now (eventOf id y.pieces) := by
  simp only [BookWork.pieces, BookWork.append, List.map_append, eventLegs_append,
    eventLegs_refunds, List.append_nil]

/-! ## Legs without times -/

end State

/-- A trade without the time of its settlement. -/
def TradeRecord.untimed (trade : TradeRecord) : TradeRecord :=
  { trade with timestamp := .epoch }

/-- A leg without the time of its settlement. -/
def untimed (leg : UserId × TradeLeg) : UserId × TradeLeg :=
  (leg.1, leg.2.1, leg.2.2.untimed)

namespace State

variable {s s₁ s₂ s' : State} {id bookId : OrderBookId}

/-- The time of settling is all that settling later changes about a trade. -/
lemma untimed_eventLegs (s : State) (now : Timestamp) (event : SettlingEvent) :
    (s.eventLegs now event).map untimed = s.eventLegs .epoch event := by
  have hfill : ∀ f : FillEvent, (s.rebuiltLegs now event.bookId f).map
      (fun leg : TradeLeg => (leg.1, leg.2.untimed)) = s.rebuiltLegs .epoch event.bookId f := by
    intro f
    rw [rebuiltLegs, rebuiltLegs]
    cases s.orderHistory.get (.new event.bookId f.takerOrderSeq) with
    | none => rfl
    | some taker =>
        cases s.orderHistory.get (.new event.bookId f.makerOrderSeq) with
        | none => rfl
        | some maker =>
            cases s.baseScaleForBook event.bookId with
            | error trap => rfl
            | ok scale =>
                dsimp only
                rw [FillEvent.tradeLegs, FillEvent.tradeLegs]
                cases fees maker.price f.quantity taker.side f.feeRates scale <;> rfl
  have hlegs : s.rebuiltLegs .epoch event.bookId = fun f =>
      (s.rebuiltLegs now event.bookId f).map fun leg : TradeLeg => (leg.1, leg.2.untimed) :=
    funext fun f => (hfill f).symm
  rw [eventLegs, eventLegs, hlegs, ← List.map_flatMap, List.map_map, List.map_map]
  rfl

/-- The legs of an event are trades of its book. -/
lemma book_of_eventLegs {now : Timestamp} {event : SettlingEvent} {leg : UserId × TradeLeg}
    (h : leg ∈ s.eventLegs now event) : leg.2.1.orderId.bookId = event.bookId := by
  obtain ⟨l, hl, rfl⟩ := List.mem_map.mp h
  obtain ⟨f, -, hl⟩ := List.mem_flatMap.mp hl
  rw [rebuiltLegs] at hl
  split at hl
  · split at hl
    · rename_i takerLeg makerLeg htrade
      simp only [FillEvent.tradeLegs, Except.bind_eq_ok, Except.ok.injEq, Prod.mk.injEq,
        Prod.exists] at htrade
      obtain ⟨_, _, _, -, rfl, rfl⟩ := htrade
      rcases List.mem_cons.mp hl with rfl | hl
      · rfl
      · rw [List.mem_singleton.mp hl]
        rfl
    · cases hl
  · cases hl

/-! ## Records that grow -/

end State

/-- **A record after some fills**: it has a status if it was given one, and its amounts have grown. -/
structure OrderRecord.Grown (r : OrderRecord) (status : Option OrderStatus) (added : Column → ℕ)
    (r' : OrderRecord) : Prop where
  filled : ∀ c, r'.filled c = r.filled c + added c
  record : r' = { r with
    status := status.getD r.status, filledQuantity := r'.filledQuantity,
    filledQuote := r'.filledQuote, filledFee := r'.filledFee, lastUpdatedAt := r'.lastUpdatedAt }

namespace OrderRecord.Grown

variable {r r₁ r' r'' : OrderRecord} {status status' : Option OrderStatus}
  {added added' : Column → ℕ}

lemma refl (r : OrderRecord) : r.Grown none (fun _ => 0) r := ⟨fun _ => rfl, rfl⟩

lemma trans (h : r.Grown status added r₁) (h' : r₁.Grown status' added' r') :
    r.Grown (status'.or status) (fun c => added c + added' c) r' := by
  refine ⟨fun c => ?_, ?_⟩
  · rw [h'.filled, h.filled, Nat.add_assoc]
  · rw [h'.record, h.record]
    cases status' <;> rfl

/-- An update that does not cancel. -/
lemma of_applied {u : OrderUpdate} (h : u.Applied r r') (hstatus : u.status ≠ some .canceled) :
    r.Grown u.status u.delta r' := by
  refine ⟨h.filled, ?_⟩
  have hcanceled := h.canceledBy
  rw [if_neg fun hx => hstatus hx.1] at hcanceled
  cases r'
  obtain ⟨rfl, rfl, rfl, rfl, rfl, rfl, rfl, rfl, -⟩ := h
  cases hcanceled
  rfl

/-- **Two records that grew alike** differ in the time of the last update at most. -/
lemma unique (h : r.Grown status added r') (h' : r.Grown status added r'') :
    { r'' with lastUpdatedAt := none } = { r' with lastUpdatedAt := none } := by
  have hfilled : ∀ c, r''.filled c = r'.filled c := fun c => (h'.filled c).trans (h.filled c).symm
  have hquantity : r''.filledQuantity = r'.filledQuantity := Quantity.toNat_inj (hfilled .quantity)
  have hquote : r''.filledQuote = r'.filledQuote := Quantity.toNat_inj (hfilled .quote)
  have hfee : r''.filledFee = r'.filledFee := Quantity.toNat_inj (hfilled .fee)
  rw [h'.record, h.record, hquantity, hquote, hfee]

end OrderRecord.Grown

/-! ## Progress -/

lemma shares_append (fills fills' : List FillSettlement) (seq : OrderSeq) (c : Column) :
    shares (fills ++ fills') seq c = shares fills seq c + shares fills' seq c := by
  rw [shares, List.map_append, List.sum_append]
  rfl

/-- More of one part is more of the whole. -/
lemma perm_flatMap_of_one {κ α : Type} {keys : List κ} {f g : κ → List α} {k : κ} {new : List α}
    (hnd : keys.Nodup) (hk : k ∈ keys) (hsame : ∀ k' ∈ keys, k' ≠ k → g k' = f k')
    (hmore : (g k).Perm (f k ++ new)) : (keys.flatMap g).Perm (keys.flatMap f ++ new) := by
  induction keys with
  | nil => cases hk
  | cons a keys ih =>
      obtain ⟨hnot, hnd'⟩ := List.nodup_cons.mp hnd
      have hsame' : ∀ k' ∈ keys, k' ≠ k → g k' = f k' := fun k' h =>
        hsame k' (List.mem_cons_of_mem _ h)
      rw [List.flatMap_cons, List.flatMap_cons]
      rcases List.mem_cons.mp hk with rfl | hk
      · have hrest : keys.flatMap g = keys.flatMap f := List.flatMap_congr fun k' hk' =>
          hsame' k' hk' fun he => hnot (he ▸ hk')
        rw [hrest]
        refine (hmore.append_right _).trans ?_
        rw [List.append_assoc, List.append_assoc]
        exact List.perm_append_comm.append_left _
      · rw [hsame a List.mem_cons_self fun he => hnot (he ▸ hk), List.append_assoc]
        exact (ih hnd' hk hsame').append_left _

namespace State

variable {s s₁ s₂ s' : State} {id bookId : OrderBookId} {work work' : OrderBookId → BookWork}
  {legs legs' : List (UserId × TradeLeg)}

/-- The postings of all work. -/
def workPostings (s : State) (work : OrderBookId → BookWork) : List Posting :=
  s.orderBooks.keys.flatMap fun id => s.eventPostings (eventOf id (work id).pieces)

/-- **What was done from `s` to `s'`**, whatever the schedule. -/
structure Progress (s : State) (work : OrderBookId → BookWork) (legs : List (UserId × TradeLeg))
    (s' : State) : Prop where
  listed : ∀ id, (s'.orderBooks.get id).isSome = (s.orderBooks.get id).isSome
  books : ∀ id b b', s.orderBooks.get id = some b → s'.orderBooks.get id = some b' →
    s.Takes id (work id) b b'
  idle : ∀ id, s.orderBooks.get id = none ∨ s.permissions.isHalted id = true → work id = .idle
  records : ∀ id r, s.orderHistory.get id = some r → ∃ r', s'.orderHistory.get id = some r' ∧
    r.Grown ((work id.bookId).out.output.statusOf id.seq) (shares (work id.bookId).fills id.seq) r'
  present : ∀ id, (s'.orderHistory.get id).isSome → (s.orderHistory.get id).isSome
  feeds : ∀ user, s'.orderHistory.userKeys user = s.orderHistory.userKeys user
  posted : ∃ ps, Posted s.balances ps s'.balances ∧
    (ps ++ s'.pendingSettlingEvents.flatMap s.eventPostings).Perm
      (s.pendingSettlingEvents.flatMap s.eventPostings ++ s.workPostings work)
  trades : ∃ done, s.tradeHistory.insertLegs done = .ok s'.tradeHistory ∧
    done.map untimed ++ s'.pendingSettlingEvents.flatMap (s.eventLegs .epoch)
      = s.pendingSettlingEvents.flatMap (s.eventLegs .epoch) ++ legs
  byBook : ∀ id, legs.filter (fun leg => leg.2.1.orderId.bookId = id)
    = s.eventLegs .epoch (eventOf id (work id).pieces)
  state : s' = { s with
    orderBooks := s'.orderBooks, balances := s'.balances, orderHistory := s'.orderHistory,
    tradeHistory := s'.tradeHistory, pendingSettlingEvents := s'.pendingSettlingEvents,
    executionPolicy := s'.executionPolicy }

namespace Progress

/-- Nothing was done yet. -/
lemma refl (s : State) : s.Progress (fun _ => .idle) [] s := by
  have hnone : s.workPostings (fun _ => .idle) = [] :=
    List.flatMap_eq_nil_iff.mpr fun id _ => s.eventPostings_nil id
  refine ⟨fun _ => rfl, fun id b b' hb hb' => ?_, fun _ _ => rfl, fun id r hr => ⟨r, hr, ?_⟩,
    fun _ => id, fun _ => rfl, ⟨[], Posted.refl _, ?_⟩, ⟨[], rfl, ?_⟩, fun _ => rfl, rfl⟩
  · rw [hb, Option.some.injEq] at hb'
    subst hb'
    exact Takes.idle s id b
  · have hstatus : BookWork.idle.out.output.statusOf id.seq = none := by
      rw [BookWork.idle, OrderBook.StepOut.statusOf_eq, OrderBook.StepOut.empty]
      rfl
    rw [hstatus]
    exact OrderRecord.Grown.refl r
  · rw [hnone, List.append_nil, List.nil_append]
  · rw [List.append_nil, List.map_nil, List.nil_append]

/-- Settling reads the same all the time. -/
lemma readsAlike (h : s.Progress work legs s') : s.ReadsAlike s' := by
  have hstate := h.state
  refine ⟨by rw [hstate], by rw [hstate], by rw [hstate], fun id => ?_⟩
  cases hr : s.orderHistory.get id with
  | none =>
      have hr' : s'.orderHistory.get id = none := by
        rw [← Option.not_isSome_iff_eq_none]
        intro hsome
        have hsome' := h.present id hsome
        rw [hr] at hsome'
        cases hsome'
      rw [hr']
  | some r =>
      obtain ⟨r', hr', hgrown⟩ := h.records id r hr
      rw [hr', hgrown.record]
      rfl

/-- Another policy. -/
lemma withPolicy (h : s.Progress work legs s') (policy : ExecutionPolicy) :
    s.Progress work legs { s' with executionPolicy := policy } := by
  refine ⟨h.listed, h.books, h.idle, h.records, h.present, h.feeds, h.posted, h.trades, h.byBook,
    ?_⟩
  rw [h.state]

/-- **An event was settled.** -/
theorem drained (h : s.Progress work legs s₁) {event : SettlingEvent} {rest : List SettlingEvent}
    {now : Timestamp} (hqueue : s₁.pendingSettlingEvents = event :: rest)
    (hdrained : s₁.Drained [event] rest now s') : s.Progress work legs s' := by
  have hread := h.readsAlike
  have hstate := hdrained.state
  obtain ⟨ps, hps, hperm⟩ := h.posted
  obtain ⟨done, hdone, hlegs⟩ := h.trades
  have hposted := hdrained.posted
  have htrades := hdrained.trades
  rw [List.flatMap_singleton] at hposted htrades
  rw [hread.eventPostings] at hposted
  rw [hread.eventLegs] at htrades
  rw [hqueue, List.flatMap_cons] at hperm hlegs
  have hrest : s'.pendingSettlingEvents = rest := by rw [hstate]
  have hbooks : s'.orderBooks = s₁.orderBooks := by rw [hstate]
  have horders : s'.orderHistory = s₁.orderHistory := by rw [hstate]
  refine ⟨by rw [hbooks]; exact h.listed, by rw [hbooks]; exact h.books, h.idle,
    by rw [horders]; exact h.records, by rw [horders]; exact h.present,
    by rw [horders]; exact h.feeds, ⟨_, hps.trans hposted, ?_⟩,
    ⟨done ++ s.eventLegs now event, ?_, ?_⟩, h.byBook, ?_⟩
  · rw [hrest, List.append_assoc]
    exact hperm
  · rw [TradeHistory.insertLegs_append, hdone]
    exact htrades
  · rw [hrest, List.map_append, untimed_eventLegs, List.append_assoc]
    exact hlegs
  · rw [hstate, h.state]

/-- **A batch was matched.** -/
theorem matched (h : s.Progress work legs s₁) (hs : s.Sound) (hs₁ : s₁.Sound)
    (hhalt : s.permissions.isHalted bookId = false) {now : Timestamp} {b b' : OrderBook}
    {orders : List Order} {out : OrderBook.StepOut} {pair : TradingPair} {scale : BaseScale}
    {fills : List FillSettlement} {refunds : List RemovedOrderSettlement}
    {groups : List (List Piece)}
    (hm : s₁.Matched bookId now b b' orders out pair scale fills refunds groups s') :
    s.Progress (Function.update work bookId ((work bookId).append ⟨orders, out, fills, refunds⟩))
      (legs ++ s.eventLegs .epoch (eventOf bookId
        (fills.map Piece.fill ++ refunds.map Piece.refund))) s' := by
  have hread := h.readsAlike
  have hstate := hm.state
  have hb₁ : (s₁.orderBooks.get bookId).isSome := by
    rw [hm.book]
    rfl
  obtain ⟨b₀, hb₀⟩ := Option.isSome_iff_exists.mp ((h.listed bookId).symm.trans hb₁)
  have hwf := (hs.wired.listed _ b₀ hb₀).wf
  have hwf₁ := (hs₁.wired.listed _ b hm.book).wf
  have hbefore := h.books bookId b₀ b hb₀ hm.book
  have htakes := (hm.takes hs₁).of_readsAlike hread
  have hbooks : s'.orderBooks = s₁.orderBooks.insert bookId b' := by rw [hstate]
  have hqueue : s'.pendingSettlingEvents
      = s₁.pendingSettlingEvents ++ groups.map (eventOf bookId) := by rw [hstate]
  have hbalances : s'.balances = s₁.balances := by rw [hstate]
  have htrades : s'.tradeHistory = s₁.tradeHistory := by rw [hstate]
  refine ⟨fun id => ?_, fun id c c' hc hc' => ?_, fun id hid => ?_, fun id r hr => ?_,
    fun id hsome => h.present id ((hm.present id).mp hsome),
    fun user => (hm.userKeys user).trans (h.feeds user), ?_, ?_, fun id => ?_, ?_⟩
  · rw [hbooks, SortedMap.get_insert]
    split_ifs with hid
    · rw [← hid, hb₀]
      rfl
    · exact h.listed id
  · rw [hbooks, SortedMap.get_insert] at hc'
    split_ifs at hc' with hid
    · subst hid
      obtain rfl : b₀ = c := Option.some.inj (hb₀.symm.trans hc)
      obtain rfl : b' = c' := Option.some.inj hc'
      rw [Function.update_self]
      exact hbefore.append htakes
    · rw [Function.update_of_ne (Ne.symm hid)]
      exact h.books id c c' hc hc'
  · have hne : id ≠ bookId := by
      rintro rfl
      rcases hid with hnone | htrue
      · rw [hb₀] at hnone
        cases hnone
      · rw [hhalt] at htrue
        cases htrue
    rw [Function.update_of_ne hne]
    exact h.idle id hid
  · obtain ⟨r₁, hr₁, hgrown⟩ := h.records id r hr
    by_cases hid : id.bookId = bookId
    · obtain ⟨seq, rfl⟩ : ∃ seq, id = OrderId.new bookId seq :=
        ⟨id.seq, by rw [← hid, OrderId.new_eta]⟩
      obtain ⟨r', u, hr', happlied, hstatus, hdelta, -⟩ := hm.records seq r₁ hr₁
      refine ⟨r', hr', ?_⟩
      have hcanceled : u.status ≠ some .canceled := by
        rw [hstatus, OrderBook.StepOut.statusOf_eq]
        split_ifs <;> simp
      have hlater := OrderRecord.Grown.of_applied happlied hcanceled
      have hboth : r.Grown (u.status.or ((work bookId).out.output.statusOf seq))
          (fun c => shares (work bookId).fills seq c + u.delta c) r' := hgrown.trans hlater
      rw [hstatus, ← OrderBook.StepOut.statusOf_append (hbefore.chunk.effect hwf seq)
        (hm.chunk.effect hwf₁ seq)] at hboth
      have hadded : (fun c => shares (work bookId).fills seq c + u.delta c)
          = shares ((work bookId).fills ++ fills) seq := by
        funext c
        rw [hdelta, shares_append]
      rw [hadded] at hboth
      show r.Grown ((Function.update work bookId _ bookId).out.output.statusOf seq)
        (shares (Function.update work bookId _ bookId).fills seq) r'
      rw [Function.update_self]
      exact hboth
    · rw [Function.update_of_ne hid]
      exact ⟨r₁, (hm.others id hid).trans hr₁, hgrown⟩
  · obtain ⟨ps, hps, hperm⟩ := h.posted
    refine ⟨ps, by rw [hbalances]; exact hps, ?_⟩
    rw [hqueue, List.flatMap_append, eventPostings_groups, hm.pieces, ← List.append_assoc]
    refine (hperm.append_right _).trans ?_
    rw [List.append_assoc]
    refine List.Perm.append_left _ (List.Perm.symm ?_)
    refine perm_flatMap_of_one s.orderBooks.keys_nodup (k := bookId) ?_ (fun k _ hk => ?_) ?_
    · rw [SortedMap.mem_keys_iff, hb₀]
      rfl
    · rw [Function.update_of_ne hk]
    · rw [Function.update_self]
      exact s.eventPostings_pieces bookId (work bookId) ⟨orders, out, fills, refunds⟩
  · obtain ⟨done, hdone, hlegs⟩ := h.trades
    refine ⟨done, by rw [htrades]; exact hdone, ?_⟩
    rw [hqueue, List.flatMap_append, eventLegs_groups, hm.pieces, ← List.append_assoc, hlegs,
      List.append_assoc]
  · rw [List.filter_append, h.byBook id]
    by_cases hid : id = bookId
    · subst hid
      rw [Function.update_self, eventLegs_pieces]
      refine congrArg (_ ++ ·) (List.filter_eq_self.mpr fun leg hleg => ?_)
      exact decide_eq_true (book_of_eventLegs hleg)
    · rw [Function.update_of_ne hid]
      have hnone : (s.eventLegs .epoch (eventOf bookId (fills.map Piece.fill
          ++ refunds.map Piece.refund))).filter (fun leg => leg.2.1.orderId.bookId = id) = [] := by
        refine List.filter_eq_nil_iff.mpr fun leg hleg => ?_
        rw [decide_eq_true_eq, book_of_eventLegs hleg]
        exact Ne.symm hid
      rw [hnone, List.append_nil]
  · rw [hstate, h.state]

end Progress

/-! ## Two ways to the end -/

/-- **The same outcome**: the states differ at most in the policy, in the times of updates and of
settling, and in the order in which the trades of different books were entered. -/
structure SameOutcome (s' s'' : State) : Prop where
  books : s''.orderBooks = s'.orderBooks
  balances : s''.balances = s'.balances
  orders : ∀ id, (s''.orderHistory.get id).map (fun r => { r with lastUpdatedAt := none })
    = (s'.orderHistory.get id).map fun r => { r with lastUpdatedAt := none }
  userOrders : ∀ user, s''.orderHistory.userKeys user = s'.orderHistory.userKeys user
  trades : ∀ id, (s''.tradeHistory.get id).map TradeRecord.untimed
    = (s'.tradeHistory.get id).map TradeRecord.untimed
  userTrades : ∀ user, (s''.tradeHistory.userKeys user).Perm (s'.tradeHistory.userKeys user)
  rest : s'' = { s' with
    orderBooks := s''.orderBooks, balances := s''.balances, orderHistory := s''.orderHistory,
    tradeHistory := s''.tradeHistory, executionPolicy := s''.executionPolicy }

/-- Nothing is left to match or to settle. -/
structure Finished (s : State) : Prop where
  matched : ∀ id b, s.orderBooks.get id = some b → s.permissions.isHalted id = false →
    b.pendingOrders = []
  settled : s.pendingSettlingEvents = []

namespace Progress

variable {s'' : State}

lemma permissions (h : s.Progress work legs s') : s'.permissions = s.permissions := by
  rw [h.state]

/-- All orders of a book were matched, unless it is halted. -/
lemma orders_eq (h : s.Progress work legs s') (hdone : s'.Finished) {b : OrderBook}
    (hb : s.orderBooks.get id = some b) (hhalt : s.permissions.isHalted id = false) :
    (work id).orders = b.pendingOrders := by
  have hsome : (s'.orderBooks.get id).isSome := by
    rw [h.listed, hb]
    rfl
  obtain ⟨b', hb'⟩ := Option.isSome_iff_exists.mp hsome
  have hpending := (h.books id b b' hb hb').chunk.pending
  rw [hdone.matched id b' hb' (by rw [h.permissions]; exact hhalt), List.append_nil] at hpending
  exact hpending.symm

/-- Where nothing was pending, nothing was done. -/
lemma idle_of_empty (h : s.Progress work legs s') (hdone : s'.Finished) {b : OrderBook}
    (hb : s.orderBooks.get id = some b) (hhalt : s.permissions.isHalted id = false)
    (hnone : b.pendingOrders = []) : work id = .idle := by
  have hsome : (s'.orderBooks.get id).isSome := by
    rw [h.listed, hb]
    rfl
  obtain ⟨b', hb'⟩ := Option.isSome_iff_exists.mp hsome
  refine ((Takes.idle s id b).unique (h.books id b b' hb hb') ?_).1
  rw [h.orders_eq hdone hb hhalt, hnone]
  rfl

/-- **The work is determined** once everything is done. -/
lemma work_eq (h : s.Progress work legs s') (h' : s.Progress work' legs' s'')
    (hdone : s'.Finished) (hdone' : s''.Finished) : work' = work := by
  funext id
  cases hb : s.orderBooks.get id with
  | none => rw [h.idle id (Or.inl hb), h'.idle id (Or.inl hb)]
  | some b =>
      cases hhalt : s.permissions.isHalted id with
      | true => rw [h.idle id (Or.inr hhalt), h'.idle id (Or.inr hhalt)]
      | false =>
          have hsome : (s'.orderBooks.get id).isSome := by
            rw [h.listed, hb]
            rfl
          have hsome' : (s''.orderBooks.get id).isSome := by
            rw [h'.listed, hb]
            rfl
          obtain ⟨b', hb'⟩ := Option.isSome_iff_exists.mp hsome
          obtain ⟨b'', hb''⟩ := Option.isSome_iff_exists.mp hsome'
          refine ((h.books id b b' hb hb').unique (h'.books id b b'' hb hb'') ?_).1
          rw [h.orders_eq hdone hb hhalt, h'.orders_eq hdone' hb hhalt]

/-- The books are determined by the work. -/
lemma books_eq (h : s.Progress work legs s') (h' : s.Progress work legs' s'') :
    s''.orderBooks = s'.orderBooks := by
  refine SortedMap.ext_get fun id => ?_
  have hlisted := h.listed id
  have hlisted' := h'.listed id
  cases hb : s.orderBooks.get id with
  | none =>
      rw [hb, Option.isSome_none, Option.isSome_eq_false_iff, Option.isNone_iff_eq_none]
        at hlisted hlisted'
      rw [hlisted, hlisted']
  | some b =>
      rw [hb, Option.isSome_some] at hlisted hlisted'
      obtain ⟨b', hb'⟩ := Option.isSome_iff_exists.mp hlisted
      obtain ⟨b'', hb''⟩ := Option.isSome_iff_exists.mp hlisted'
      rw [hb', hb'', ((h.books id b b' hb hb').unique (h'.books id b b'' hb hb'') rfl).2]

/-- The balances are determined by the work, once everything is settled. -/
lemma balances_eq (h : s.Progress work legs s') (h' : s.Progress work legs' s'')
    (hdone : s'.pendingSettlingEvents = []) (hdone' : s''.pendingSettlingEvents = []) :
    s''.balances = s'.balances := by
  obtain ⟨ps, hps, hperm⟩ := h.posted
  obtain ⟨qs, hqs, hperm'⟩ := h'.posted
  rw [hdone, List.flatMap_nil, List.append_nil] at hperm
  rw [hdone', List.flatMap_nil, List.append_nil] at hperm'
  have hsame : ps.Perm qs := hperm.trans hperm'.symm
  exact hps.unique hqs (fun t u => (hsame.map _).sum_eq) (fun t u => (hsame.map _).sum_eq)
    fun t => (hsame.map _).sum_eq

/-- The legs are determined by the work, up to the order of different books. -/
lemma legs_perm (h : s.Progress work legs s') (h' : s.Progress work legs' s'') :
    legs'.Perm legs := by
  classical
  refine List.perm_iff_count.mpr fun leg => ?_
  have hbook : ∀ l : List (UserId × TradeLeg), l.count leg = (l.filter fun x =>
      x.2.1.orderId.bookId = leg.2.1.orderId.bookId).count leg := by
    intro l
    rw [List.count_filter]
    exact decide_eq_true rfl
  rw [hbook legs, hbook legs', h.byBook, h'.byBook]

/-- With one book only, the legs are determined by the work. -/
lemma legs_of_one (h : s.Progress work legs s') {book : OrderBookId}
    (hone : ∀ id, id ≠ book → work id = .idle) :
    legs = s.eventLegs .epoch (eventOf book (work book).pieces) := by
  rw [← h.byBook book]
  refine (List.filter_eq_self.mpr fun leg hleg => decide_eq_true ?_).symm
  by_contra hne
  have hmem : leg ∈ legs.filter fun x => x.2.1.orderId.bookId = leg.2.1.orderId.bookId :=
    List.mem_filter.mpr ⟨hleg, decide_eq_true rfl⟩
  rw [h.byBook, hone _ hne] at hmem
  cases hmem

/-- What was inserted into the trade history. -/
lemma trades_eq (h : s.Progress work legs s') (hdone : s'.pendingSettlingEvents = [])
    (id : TradeId) (trade : TradeRecord) :
    (s'.tradeHistory.get id).map TradeRecord.untimed = some trade ↔
      (s.tradeHistory.get id).map TradeRecord.untimed = some trade ∨
      (id, trade) ∈ (s.pendingSettlingEvents.flatMap (s.eventLegs .epoch) ++ legs).map Prod.snd := by
  obtain ⟨done, hinsert, hlegs⟩ := h.trades
  rw [hdone, List.flatMap_nil, List.append_nil] at hlegs
  have hget := TradeHistory.get_insertLegs hinsert id
  rw [← hlegs, List.map_map, Option.map_eq_some_iff, Option.map_eq_some_iff]
  simp only [hget]
  constructor
  · rintro ⟨r, hr | hr, rfl⟩
    · exact Or.inl ⟨r, hr, rfl⟩
    · obtain ⟨leg, hleg, hr⟩ := List.mem_map.mp hr
      refine Or.inr (List.mem_map.mpr ⟨leg, hleg, ?_⟩)
      rw [Function.comp_apply, untimed, hr]
  · rintro (⟨r, hr, rfl⟩ | hr)
    · exact ⟨r, Or.inl hr, rfl⟩
    · obtain ⟨leg, hleg, hr⟩ := List.mem_map.mp hr
      rw [Function.comp_apply, untimed, Prod.mk.injEq] at hr
      obtain ⟨rfl, rfl⟩ := hr
      exact ⟨leg.2.2, Or.inr (List.mem_map.mpr ⟨leg, hleg, rfl⟩), rfl⟩

/-- The trades of a user in the order in which they were inserted. -/
lemma userTrades_eq (h : s.Progress work legs s') (hs : s.Sound)
    (hdone : s'.pendingSettlingEvents = []) (user : UserId) :
    s'.tradeHistory.userKeys user = s.tradeHistory.userKeys user
      ++ ((s.pendingSettlingEvents.flatMap (s.eventLegs .epoch) ++ legs).filter
        fun leg => leg.1 = user).map fun leg => leg.2.1 := by
  obtain ⟨done, hinsert, hlegs⟩ := h.trades
  rw [hdone, List.flatMap_nil, List.append_nil] at hlegs
  rw [TradeHistory.userKeys_insertLegs hs.trades hinsert, ← hlegs, List.filter_map, List.map_map]
  rfl

/-- **Two states that are done agree**, however the work was cut and ordered. -/
theorem agree (h : s.Progress work legs s') (h' : s.Progress work' legs' s'') (hs : s.Sound)
    (hdone : s'.Finished) (hdone' : s''.Finished) : s'.SameOutcome s'' := by
  obtain rfl := h.work_eq h' hdone hdone'
  have hlegs := h.legs_perm h'
  refine ⟨h.books_eq h', h.balances_eq h' hdone.settled hdone'.settled, fun id => ?_,
    fun user => (h'.feeds user).trans (h.feeds user).symm, fun id => Option.ext fun trade => ?_,
    fun user => ?_, ?_⟩
  · cases hr : s.orderHistory.get id with
    | none =>
        have hnone : ∀ {t : State}, ((t.orderHistory.get id).isSome →
            (s.orderHistory.get id).isSome) → t.orderHistory.get id = none := by
          intro t ht
          rw [hr] at ht
          exact Option.not_isSome_iff_eq_none.mp fun hsome => Bool.noConfusion (ht hsome)
        rw [hnone (h.present id), hnone (h'.present id)]
    | some r =>
        obtain ⟨r', hr', hgrown⟩ := h.records id r hr
        obtain ⟨r'', hr'', hgrown'⟩ := h'.records id r hr
        rw [hr', hr'', Option.map_some, Option.map_some, hgrown.unique hgrown']
  · rw [h.trades_eq hdone.settled, h'.trades_eq hdone'.settled]
    exact or_congr Iff.rfl ((hlegs.append_left _).map _).mem_iff
  · rw [h.userTrades_eq hs hdone.settled, h'.userTrades_eq hs hdone'.settled]
    exact (((hlegs.append_left _).filter _).map _).append_left _
  · rw [h'.state, h.state]
    have hqueue : s''.pendingSettlingEvents = s'.pendingSettlingEvents :=
      hdone'.settled.trans hdone.settled.symm
    rw [hqueue]

end Progress

end State

end OisyTrade
