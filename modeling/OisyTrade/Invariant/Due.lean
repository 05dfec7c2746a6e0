import OisyTrade.Invariant.Progress
import OisyTrade.Invariant.Room

/-!
# What is due

The pending orders of the books that are not halted are due to be matched, and what that gives rise to
is due to be settled after the events that are queued already.  `dueEvents` computes both from the
state.

A batch moves a part of what is due from a book to the queue and to the records, and an event that is
settled moves its part from the queue to the balances and the trade history.  What there is together
with what is due stays the same in every row, every record and the trade history.  So
`DueFits`, which says that all of it is in range, holds after a step if and only if it held before
(`Drained.dueFits_iff`, `Matched.dueFits_iff`), and it holds when nothing is due
(`Finished.dueFits`).
-/

namespace OisyTrade

namespace State

variable {s s' : State} {id bookId : OrderBookId}

/-- **What all pending orders of a book would be settled with** if they were matched now, nothing for a
halted book. -/
def dueWork (s : State) (id : OrderBookId) :
    List FillSettlement × List RemovedOrderSettlement :=
  match s.orderBooks.get id, s.baseScaleForBook id with
  | some b, .ok scale =>
      if s.permissions.isHalted id then ([], []) else
        match b.processPendingOrders b.pendingOrderSeqs with
        | .ok (out, _) =>
            (out.fills.filterMap fun f => (FillSettlement.new f b.feeRates scale).toOption,
              out.expiredOrders.entries.filterMap fun e =>
                (RemovedOrderSettlement.new e.1 e.2 scale).toOption)
        | .error _ => ([], [])
  | _, _ => ([], [])

/-- The fills that are due in a book. -/
def dueFills (s : State) (id : OrderBookId) : List FillSettlement := (s.dueWork id).1

/-- What is due in a book, as one event. -/
def dueEvent (s : State) (id : OrderBookId) : SettlingEvent :=
  eventOf id ((s.dueWork id).1.map Piece.fill ++ (s.dueWork id).2.map Piece.refund)

/-- All that is due to be settled: the queue and what is due in the books. -/
def dueEvents (s : State) : List SettlingEvent :=
  s.pendingSettlingEvents ++ s.orderBooks.keys.map s.dueEvent

/-- **All that is due fits** into the balances, the fee pools, the trade history and the records. -/
structure DueFits (s : State) : Prop where
  room : s.RoomFor s.dueEvents
  records : ∀ id r, s.orderHistory.get id = some r →
    r.filledQuote.toNat + shares (s.dueFills id.bookId) id.seq .quote < 2 ^ 256

/-! ## The due work of a book -/

lemma filterMap_toOption {α β : Type} {f : α → Except Trap β} {l : List α} {l' : List β}
    (h : List.Forall₂ (fun a b => f a = .ok b) l l') :
    l.filterMap (fun a => (f a).toOption) = l' := by
  induction h with
  | nil => rfl
  | @cons a b l l' hab _ ih =>
      rw [List.filterMap_cons, hab, ← ih]
      rfl

/-- All pending orders of a book can be matched. -/
lemma Sound.exists_takes (hs : s.Sound) {b : OrderBook} (hb : s.orderBooks.get id = some b) :
    ∃ x b', s.Takes id x b b' ∧ x.orders = b.pendingOrders := by
  have hl := hs.wired.listed id b hb
  obtain ⟨pair, scale, hm, -⟩ := hl.market
  obtain ⟨out, b', hchunk, -⟩ := OrderBook.processPendingOrders_spec hl.wf hl.drained
    (List.append_nil b.pendingOrders).symm
  obtain ⟨fills, hfills⟩ := hs.settlements hb hm hchunk b.feeRates
  have hscale : s.baseScaleForBook id = .ok scale := baseScaleForBook_eq_ok.mpr ⟨pair, hm⟩
  have hexpired := hchunk.entries_expired hl.wf
  have hrefunds : ∀ es : List (OrderSeq × RemovedOrder), (∀ e ∈ es, e ∈ out.expired) → ∃ refunds,
      List.Forall₂ (fun e rs => s.refundOf id e = .ok rs) es refunds := by
    intro es
    induction es with
    | nil => exact fun _ => ⟨[], .nil⟩
    | cons e es ih =>
        intro hmem
        obtain ⟨rs, hrs⟩ := hs.refunds_return hb hm hchunk
          (hexpired.symm ▸ hmem e List.mem_cons_self)
        obtain ⟨refunds, hrest⟩ := ih fun e' he' => hmem e' (List.mem_cons_of_mem _ he')
        refine ⟨rs :: refunds, .cons ?_ hrest⟩
        rw [refundOf, hscale]
        exact hrs
  obtain ⟨refunds, hrefunds⟩ := hrefunds out.expired fun _ he => he
  refine ⟨⟨b.pendingOrders, out, fills, refunds⟩, b', ⟨hchunk, hfills.imp fun f st hst => ?_,
    hrefunds⟩, rfl⟩
  rw [settlementOf, hscale]
  exact hst

/-- **The due work is the work on all pending orders.** -/
lemma Takes.dueWork_eq (hs : s.Sound) {b b' : OrderBook} {x : BookWork}
    (hb : s.orderBooks.get id = some b) (hhalt : s.permissions.isHalted id = false)
    (h : s.Takes id x b b') (horders : x.orders = b.pendingOrders) :
    s.dueWork id = (x.fills, x.refunds) := by
  have hl := hs.wired.listed id b hb
  obtain ⟨pair, scale, hm, -⟩ := hl.market
  have hscale : s.baseScaleForBook id = .ok scale := baseScaleForBook_eq_ok.mpr ⟨pair, hm⟩
  obtain ⟨out, b₁, hchunk, hproc⟩ := OrderBook.processPendingOrders_spec hl.wf hl.drained
    (List.append_nil b.pendingOrders).symm
  have hchunk' := h.chunk
  rw [horders] at hchunk'
  obtain ⟨hout, hbook⟩ := hchunk.unique hchunk'
  have hproc' : b.processPendingOrders b.pendingOrderSeqs = .ok (x.out.output, b') := by
    rw [hout, hbook]
    exact hproc
  have hfills : x.out.output.fills.filterMap
      (fun f => (FillSettlement.new f b.feeRates scale).toOption) = x.fills := by
    refine filterMap_toOption (h.settled.imp fun f st hst => ?_)
    rw [settlementOf, hscale] at hst
    exact hst
  have hrefunds : x.out.output.expiredOrders.entries.filterMap
      (fun e => (RemovedOrderSettlement.new e.1 e.2 scale).toOption) = x.refunds := by
    rw [h.chunk.entries_expired hl.wf]
    refine filterMap_toOption (h.refunded.imp fun e rs hrs => ?_)
    rw [refundOf, hscale] at hrs
    exact hrs
  simp only [dueWork, hb, hscale, hhalt, Bool.false_eq_true, if_false, hproc', hfills, hrefunds]

/-- The due work of a book depends on the book, the scale and the halts. -/
lemma dueWork_congr (hb : s'.orderBooks.get id = s.orderBooks.get id)
    (hscale : s'.baseScaleForBook id = s.baseScaleForBook id)
    (hrules : s'.permissions = s.permissions) : s'.dueWork id = s.dueWork id := by
  simp only [dueWork, hb, hscale, hrules]

/-- Nothing is due in a book without pending orders that could be matched. -/
lemma Finished.dueWork_eq (hs : s.Sound) (h : s.Finished) (id : OrderBookId) :
    s.dueWork id = ([], []) := by
  cases hb : s.orderBooks.get id with
  | none => simp only [dueWork, hb]
  | some b =>
      cases hhalt : s.permissions.isHalted id with
      | true =>
          simp only [dueWork, hb, hhalt, if_true]
          cases s.baseScaleForBook id <;> rfl
      | false =>
          exact (Takes.idle s id b).dueWork_eq hs hb hhalt (h.matched id b hb hhalt).symm

/-- **What is due fits where nothing is due.** -/
lemma Finished.dueFits (hs : s.Sound) (h : s.Finished)
    (hsize : s.tradeHistory.primary.size ≤ 2 ^ 64) : s.DueFits := by
  have hnone : ∀ e ∈ s.dueEvents, s.eventPostings e = [] ∧ e.fills = [] := by
    intro e he
    rw [dueEvents, h.settled, List.nil_append, List.mem_map] at he
    obtain ⟨id, -, rfl⟩ := he
    rw [dueEvent, h.dueWork_eq hs id]
    exact ⟨s.eventPostings_nil id, rfl⟩
  refine ⟨⟨?_, ?_⟩, fun id r _ => ?_⟩
  · have hposts : s.dueEvents.flatMap s.eventPostings = [] :=
      List.flatMap_eq_nil_iff.mpr fun e he => (hnone e he).1
    rw [hposts]
    exact (Posted.refl s.balances).roomFor
  · have hfills : Canister.fillCount s.dueEvents = 0 := by
      refine List.sum_eq_zero fun n hn => ?_
      obtain ⟨e, he, rfl⟩ := List.mem_map.mp hn
      rw [(hnone e he).2, List.length_nil]
    rw [hfills]
    exact hsize
  · rw [dueFills, h.dueWork_eq hs]
    exact r.filledQuote.toNat_lt

/-! ## Settling an event -/

/-- **Settling an event changes nothing about what will fit.** -/
theorem Drained.dueFits_iff {event : SettlingEvent} {rest : List SettlingEvent} {now : Timestamp}
    (h : s.Drained [event] rest now s') (hs : s.Sound)
    (hqueue : s.pendingSettlingEvents = event :: rest) : s'.DueFits ↔ s.DueFits := by
  have hwork : s'.dueWork = s.dueWork := by
    rw [h.state]
    rfl
  have hpost : s'.eventPostings = s.eventPostings := by
    rw [h.state]
    rfl
  have hrecords : s'.orderHistory = s.orderHistory := by rw [h.state]
  have hevents : s'.dueEvents = rest ++ s.orderBooks.keys.map s.dueEvent := by
    rw [h.state]
    rfl
  have hroom : s'.RoomFor s'.dueEvents ↔ s.RoomFor s.dueEvents := by
    rw [hevents, dueEvents, hqueue, List.cons_append]
    refine h.roomFor_iff (fun e he => ?_) fun e _ => by rw [hpost]
    rw [List.mem_singleton.mp he]
    exact hs.queue event (by simp [hqueue])
  have hpaid : ∀ id, s'.dueFills id = s.dueFills id := fun id => by rw [dueFills, hwork, dueFills]
  constructor
  · rintro ⟨hr, hrec⟩
    refine ⟨hroom.mp hr, fun id r hget => ?_⟩
    rw [← hpaid]
    exact hrec id r (by rw [hrecords]; exact hget)
  · rintro ⟨hr, hrec⟩
    refine ⟨hroom.mpr hr, fun id r hget => ?_⟩
    rw [hpaid]
    exact hrec id r (by rw [← hrecords]; exact hget)

/-! ## Matching a batch -/

section Matching

variable {now : Timestamp} {b b' : OrderBook} {orders : List Order} {out : OrderBook.StepOut}
  {pair : TradingPair} {scale : BaseScale} {fills : List FillSettlement}
  {refunds : List RemovedOrderSettlement} {groups : List (List Piece)}

lemma Matched.readsAlike (hs : s.Sound)
    (h : s.Matched bookId now b b' orders out pair scale fills refunds groups s') :
    s.ReadsAlike s' := by
  refine ⟨by rw [h.state], by rw [h.state], by rw [h.state], fun id => ?_⟩
  by_cases hid : id.bookId = bookId
  · subst hid
    cases hr : s.orderHistory.get id with
    | none =>
        have hr' : s'.orderHistory.get id = none := by
          rw [← Option.not_isSome_iff_eq_none, h.present, hr]
          simp
        rw [hr']
    | some r =>
        rw [← OrderId.new_eta id] at hr ⊢
        obtain ⟨r', hr', hev, -⟩ := h.recordEffect hs hr
        rw [hr', Option.map_some, Option.map_some, hev.owner, hev.side, hev.price]
  · rw [h.others id hid]

/-- **A batch takes its part of what is due** in its book. -/
lemma Matched.dueWork_eq (hs : s.Sound) (hs' : s'.Sound)
    (hhalt : s.permissions.isHalted bookId = false)
    (h : s.Matched bookId now b b' orders out pair scale fills refunds groups s') :
    s.dueWork bookId = (fills ++ (s'.dueWork bookId).1, refunds ++ (s'.dueWork bookId).2) := by
  have hb' : s'.orderBooks.get bookId = some b' := by
    rw [h.state]
    exact SortedMap.get_insert_self _ _ _
  have hhalt' : s'.permissions.isHalted bookId = false := by
    rw [h.state]
    exact hhalt
  obtain ⟨y, b'', htakes, horders⟩ := hs'.exists_takes hb'
  have hall := (h.takes hs).append (htakes.of_readsAlike (h.readsAlike hs))
  rw [htakes.dueWork_eq hs' hb' hhalt' horders, hall.dueWork_eq hs h.book hhalt]
  · rfl
  · show orders ++ y.orders = b.pendingOrders
    rw [horders, h.chunk.pending]

/-- The due work of the other books stays. -/
lemma Matched.dueWork_of_ne (hs : s.Sound)
    (h : s.Matched bookId now b b' orders out pair scale fills refunds groups s')
    (hid : id ≠ bookId) : s'.dueWork id = s.dueWork id := by
  refine dueWork_congr ?_ ((h.readsAlike hs).baseScaleForBook id) (by rw [h.state])
  rw [h.state]
  exact SortedMap.get_insert_of_ne _ _ (Ne.symm hid)

lemma perm_append_pairs {α : Type} (a b c d : List α) :
    ((a ++ b) ++ (c ++ d)).Perm ((b ++ d) ++ (a ++ c)) := by
  have hswap : (a ++ (d ++ c)).Perm (d ++ (a ++ c)) := List.perm_append_comm_assoc a d c
  refine (List.perm_append_comm.append List.perm_append_comm).trans ?_
  rw [List.append_assoc, List.append_assoc]
  exact hswap.append_left b

/-- **A batch moves its part of what is due to the queue.** -/
lemma Matched.dueEvents_perm (hs : s.Sound) (hs' : s'.Sound)
    (hhalt : s.permissions.isHalted bookId = false)
    (h : s.Matched bookId now b b' orders out pair scale fills refunds groups s') {α : Type}
    {f : SettlingEvent → List α} (hnil : ∀ id, f (eventOf id []) = [])
    (happend : ∀ id p q, f (eventOf id (p ++ q)) = f (eventOf id p) ++ f (eventOf id q)) :
    (s.dueEvents.flatMap f).Perm (s'.dueEvents.flatMap f) := by
  have hgroups : ∀ gs : List (List Piece),
      (gs.map (eventOf bookId)).flatMap f = f (eventOf bookId gs.flatten) := by
    intro gs
    induction gs with
    | nil => exact (hnil bookId).symm
    | cons g gs ih => rw [List.map_cons, List.flatMap_cons, ih, List.flatten_cons, happend]
  have hqueue : s'.pendingSettlingEvents
      = s.pendingSettlingEvents ++ groups.map (eventOf bookId) := by rw [h.state]
  have hbooks : s'.orderBooks = s.orderBooks.insert bookId b' := by rw [h.state]
  have hkeys : s'.orderBooks.keys.Perm s.orderBooks.keys := by
    refine (List.perm_ext_iff_of_nodup s'.orderBooks.keys_nodup s.orderBooks.keys_nodup).mpr
      fun k => ?_
    rw [SortedMap.mem_keys_iff, SortedMap.mem_keys_iff, hbooks, SortedMap.get_insert]
    split_ifs with hk
    · rw [← hk, h.book]
      exact Iff.rfl
    · exact Iff.rfl
  have hone : (f (s.dueEvent bookId)).Perm (f (s'.dueEvent bookId)
      ++ f (eventOf bookId (fills.map Piece.fill ++ refunds.map Piece.refund))) := by
    rw [dueEvent, h.dueWork_eq hs hs' hhalt, dueEvent]
    simp only [List.map_append, happend]
    exact perm_append_pairs _ _ _ _
  have hbook := perm_flatMap_of_one (f := fun id => f (s'.dueEvent id))
    (g := fun id => f (s.dueEvent id)) s.orderBooks.keys_nodup
    (s.orderBooks.mem_keys_iff.mpr (by rw [h.book]; rfl)) (fun id _ hid => by
      rw [dueEvent, dueEvent, h.dueWork_of_ne hs hid]) hone
  rw [dueEvents, dueEvents, hqueue, List.flatMap_append, List.flatMap_append, List.flatMap_append,
    hgroups, h.pieces, List.append_assoc]
  refine List.Perm.append_left _ ?_
  rw [List.flatMap_map, List.flatMap_map]
  refine hbook.trans (List.perm_append_comm.trans (List.Perm.append_left _ ?_))
  exact (hkeys.flatMap_right _).symm

/-- **A batch changes nothing about what will fit.** -/
theorem Matched.dueFits_iff (hs : s.Sound) (hs' : s'.Sound)
    (hhalt : s.permissions.isHalted bookId = false)
    (h : s.Matched bookId now b b' orders out pair scale fills refunds groups s') :
    s'.DueFits ↔ s.DueFits := by
  have hread := h.readsAlike hs
  have hposts : (s.dueEvents.flatMap s.eventPostings).Perm
      (s'.dueEvents.flatMap s'.eventPostings) := by
    have hsame : s'.eventPostings = s.eventPostings := funext hread.eventPostings
    rw [hsame]
    exact h.dueEvents_perm hs hs' hhalt s.eventPostings_nil s.eventPostings_append
  have hcount : Canister.fillCount s'.dueEvents = Canister.fillCount s.dueEvents := by
    have hlen : ∀ l : List SettlingEvent,
        Canister.fillCount l = (l.flatMap SettlingEvent.fills).length := fun l =>
      List.length_flatMap.symm
    rw [hlen, hlen]
    exact (h.dueEvents_perm hs hs' hhalt (fun _ => rfl)
      fun _ _ _ => List.flatMap_append).length_eq.symm
  have hbalances : s'.balances = s.balances := by rw [h.state]
  have htrades : s'.tradeHistory = s.tradeHistory := by rw [h.state]
  have hroom : s'.RoomFor s'.dueEvents ↔ s.RoomFor s.dueEvents := by
    constructor
    · rintro ⟨hr, hsize⟩
      rw [hbalances] at hr
      rw [htrades, hcount] at hsize
      exact ⟨hr.perm hposts.symm, hsize⟩
    · rintro ⟨hr, hsize⟩
      refine ⟨?_, by rw [htrades, hcount]; exact hsize⟩
      rw [hbalances]
      exact hr.perm hposts
  -- What the batch has paid is on record.
  have hpaid : ∀ id r, s.orderHistory.get id = some r → ∃ r', s'.orderHistory.get id = some r' ∧
      r'.filledQuote.toNat + shares (s'.dueFills id.bookId) id.seq .quote
        = r.filledQuote.toNat + shares (s.dueFills id.bookId) id.seq .quote := by
    intro id r hr
    by_cases hid : id.bookId = bookId
    · subst hid
      rw [← OrderId.new_eta id] at hr
      obtain ⟨r', hr', -, -, hfilled⟩ := h.recordEffect hs hr
      rw [OrderId.new_eta] at hr'
      have hquote : r'.filledQuote.toNat = r.filledQuote.toNat + shares fills id.seq .quote :=
        hfilled .quote
      refine ⟨r', hr', ?_⟩
      rw [dueFills, dueFills, h.dueWork_eq hs hs' hhalt, shares_append, hquote, Nat.add_assoc]
    · refine ⟨r, by rw [h.others id hid]; exact hr, ?_⟩
      rw [dueFills, dueFills, h.dueWork_of_ne hs hid]
  constructor
  · rintro ⟨hr, hrec⟩
    refine ⟨hroom.mp hr, fun id r hget => ?_⟩
    obtain ⟨r', hget', heq⟩ := hpaid id r hget
    rw [← heq]
    exact hrec id r' hget'
  · rintro ⟨hr, hrec⟩
    refine ⟨hroom.mpr hr, fun id r' hget' => ?_⟩
    obtain ⟨r, hget⟩ := Option.isSome_iff_exists.mp
      ((h.present id).mp (by rw [hget']; rfl))
    obtain ⟨r₁, hget₁, heq⟩ := hpaid id r hget
    obtain rfl : r' = r₁ := Option.some.inj (hget'.symm.trans hget₁)
    rw [heq]
    exact hrec id r hget

end Matching

/-- **A batch that fits into what is due can be paid.** -/
lemma DueFits.payable (h : s.DueFits) (hs : s.Sound) {b b' : OrderBook} {n : ℕ}
    {out : OrderBook.StepOut} {pair : TradingPair} {scale : BaseScale}
    {fills : List FillSettlement} (hb : s.orderBooks.get id = some b)
    (hhalt : s.permissions.isHalted id = false) (hm : s.Market id pair scale)
    (hchunk : OrderBook.Chunk b (b.pendingOrders.take n) out b')
    (hset : List.Forall₂ (fun f st => FillSettlement.new f b.feeRates scale = .ok st)
      out.fills fills) : s.Payable id fills := by
  intro seq r hr
  obtain ⟨x, b'', htakes, horders⟩ := hs.exists_takes hb
  obtain ⟨y, z, b₁, hy, -, rfl, horders₁, -⟩ := htakes.split
    (horders.trans (List.take_append_drop n b.pendingOrders).symm)
  have hfills : fills = y.fills := by
    have hchunk' := hy.chunk
    rw [horders₁] at hchunk'
    obtain ⟨hout, -⟩ := hchunk.unique hchunk'
    have hset' := hy.settled
    rw [hout] at hset'
    refine (forall₂_unique hset' (hset.imp fun f st hst => ?_)).symm
    rw [settlementOf, baseScaleForBook_eq_ok.mpr ⟨pair, hm⟩]
    exact hst
  have hfits := h.records _ r hr
  rw [OrderId.bookId_new, OrderId.seq_new, dueFills, htakes.dueWork_eq hs hb hhalt horders] at hfits
  have happend : (y.append z).fills = y.fills ++ z.fills := rfl
  rw [happend, shares_append] at hfits
  rw [hfills]
  omega

end State

namespace Canister

variable {c c' : Canister}

/-- **Steady, with room for all that is due.** -/
structure Provided (c : Canister) : Prop where
  steady : c.Steady
  charged : c.state.Charged
  fits : c.state.DueFits

lemma Provided.of_acts (h : c.Provided) (hacts : c.Acts c') (hfits : c'.state.DueFits) :
    c'.Provided :=
  ⟨hacts.steady h.steady, (hacts.invariant (P := fun c => c.state.Charged) h.steady.sound h.charged
    fun _ _ hs hc hchange => hchange.charged hs hc).2, hfits⟩

/-- **The head of the queue can be settled**, and the rest of what is due fits. -/
theorem Provided.settle (h : c.Provided) {event : SettlingEvent} {rest : List SettlingEvent}
    (hqueue : c.state.pendingSettlingEvents = event :: rest) (now : Timestamp) :
    ∃ c', (c.withQueue rest).processEvent (.settling event) now = .ok c' ∧ c'.Provided := by
  have hone : c.state.RoomFor [event] := by
    have hroom := h.fits.room
    rw [State.dueEvents, hqueue, List.cons_append] at hroom
    exact State.RoomFor.of_append (show c.state.RoomFor ([event] ++ (rest ++ _)) from hroom)
  obtain ⟨c', hproc, hwork, hdrained⟩ := h.steady.settle_head hqueue
    (fun e he => he.not_roomFor hone) now
  exact ⟨c', hproc, h.of_acts hwork.act.acts
    ((hdrained.dueFits_iff h.steady.sound hqueue).mpr h.fits)⟩

/-- **The front of a book can be matched**, and the rest of what is due fits. -/
theorem Provided.match (h : c.Provided) {bookId : OrderBookId} {b : OrderBook}
    (hb : c.state.orderBooks.get bookId = some b)
    (hhalted : c.state.permissions.isHalted bookId = false) {n : ℕ}
    (hne : b.pendingOrderSeqs.take n ≠ []) (now : Timestamp) :
    ∃ c', c.processEvent (.matching ⟨bookId, b.pendingOrderSeqs.take n⟩) now = .ok c' ∧
      c'.Provided := by
  have hs := h.steady.sound
  obtain ⟨s', hok⟩ := hs.match_returns h.charged hb n now fun hm hchunk hset =>
    h.fits.payable hs hb hhalted hm hchunk hset
  obtain ⟨c', hproc⟩ := c.processEvent_returns (.matching ⟨bookId, b.pendingOrderSeqs.take n⟩) now
    ⟨s', hok⟩
  have hadmits : c.state.Admits now (.matching ⟨bookId, b.pendingOrderSeqs.take n⟩) :=
    ⟨b, n, hb, rfl, hne, hhalted⟩
  obtain ⟨hsteady, -, -, b', out, pair, scale, fills, refunds, groups, hmatched, -, -⟩ :=
    h.steady.matched hb hhalted hne hproc
  exact ⟨c', hproc, h.of_acts (Act.event hadmits hproc).acts
    ((hmatched.dueFits_iff hs hsteady.sound hhalted).mpr h.fits)⟩

end Canister

end OisyTrade
