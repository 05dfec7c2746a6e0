import OisyTrade.Invariant.Reserve
import OisyTrade.Invariant.Trades

/-!
# Queued events settle

In a state where the reservations are backed and the fills are numbered, settling a queued event
finds every order and every row, inserts legs under new keys and takes no more than is reserved.  It
can only fail where a balance or the trade history leaves its range (`settle_outcome`).
-/

namespace OisyTrade

namespace Canister

/-- The number of fills in some events. -/
def fillCount (events : List SettlingEvent) : ℕ := (events.map fun e => e.fills.length).sum

lemma fillCount_cons (e : SettlingEvent) (events : List SettlingEvent) :
    fillCount (e :: events) = e.fills.length + fillCount events := List.sum_cons

lemma fillCount_append (events events' : List SettlingEvent) :
    fillCount (events ++ events') = fillCount events + fillCount events' := by
  rw [fillCount, List.map_append, List.sum_append]
  rfl

end Canister

namespace State

variable {s s' : State} {bookId : OrderBookId} {pair : TradingPair} {scale : BaseScale}
  {before after : List SettlingEvent} {event : SettlingEvent} {now : Timestamp}

/-- The keys of the legs of fills with different numbers are different. -/
lemma nodup_legs_keys (now : Timestamp) {pieces : List Piece} (h : ∀ p ∈ pieces, s.PieceOk bookId scale p)
    (hnd : ((pieces.flatMap Piece.fillEvents).map fun f => f.fillSeq.val).Nodup) :
    ((pieces.flatMap (Piece.legs bookId now)).map Prod.fst).Nodup := by
  induction pieces with
  | nil => exact List.nodup_nil
  | cons p pieces ih =>
      rw [List.flatMap_cons, List.map_append] at hnd ⊢
      obtain ⟨-, htail, hdisj⟩ := List.nodup_append.mp hnd
      have hrest := ih (fun q hq => h q (List.mem_cons_of_mem _ hq)) htail
      cases p with
      | refund rs => exact hrest
      | fill st =>
          obtain ⟨t, m, hp⟩ := h _ List.mem_cons_self
          have hnew : ∀ tid ∈ (pieces.flatMap (Piece.legs bookId now)).map Prod.fst,
              tid.seq ≠ st.fill.fillSeq := by
            intro tid htid he
            obtain ⟨leg, hleg, rfl⟩ := List.mem_map.mp htid
            obtain ⟨q, hq, hmem⟩ := List.mem_flatMap.mp hleg
            cases q with
            | refund rs => cases hmem
            | fill st' =>
                have hseq : leg.1.seq = st'.fill.fillSeq := by
                  rcases List.mem_cons.mp hmem with rfl | hmem
                  · rfl
                  · rw [List.mem_singleton.mp hmem]
                    rfl
                refine hdisj st.fill.fillSeq.val (by simp [Piece.fillEvents,
                  FillSettlement.fillEvent]) st'.fill.fillSeq.val ?_ ?_
                · refine List.mem_map.mpr ⟨st'.fillEvent, ?_, rfl⟩
                  exact List.mem_flatMap.mpr ⟨_, hq, List.mem_singleton.mpr rfl⟩
                · rw [← he, hseq]
          have hpair : ((Piece.legs bookId now (.fill st)).map Prod.fst).Nodup := by
            refine List.nodup_cons.mpr ⟨fun hmem => ?_, List.nodup_singleton _⟩
            have he := congrArg (fun tid : TradeId => tid.orderId.seq) (List.mem_singleton.mp hmem)
            exact absurd he.symm (ne_of_lt hp.earlier)
          refine List.nodup_append.mpr ⟨hpair, hrest, fun a ha b hb hab => ?_⟩
          subst hab
          refine hnew a hb ?_
          rcases List.mem_cons.mp ha with rfl | ha
          · rfl
          · rw [List.mem_singleton.mp ha]
            rfl

/-- The fills of a queued event have different numbers that are not in the trade history. -/
lemma Numbered.fresh (hn : s.Numbered) (hs : s.Sound)
    (hqueue : s.pendingSettlingEvents = before ++ event :: after) :
    (event.fills.map fun f => f.fillSeq.val).Nodup ∧
      ∀ f ∈ event.fills, ∀ tid, tid.orderId.bookId = event.bookId → tid.seq = f.fillSeq →
        s.tradeHistory.get tid = none := by
  obtain ⟨pair, scale, pieces, hm, -⟩ := hs.queue event (by simp [hqueue])
  obtain ⟨b, hb⟩ := Option.isSome_iff_exists.mp (hs.wired.traded _ pair hm.pair)
  obtain ⟨k, hk⟩ := hn.books _ b hb
  have hq := hk.queued
  rw [hqueue, queuedFills_append, queuedFills_cons, if_pos rfl, List.map_append,
    List.map_append] at hq
  have hnd : ((queuedFills before event.bookId).map (fun f => f.fillSeq.val)
      ++ (event.fills.map (fun f => f.fillSeq.val)
        ++ (queuedFills after event.bookId).map fun f => f.fillSeq.val)).Nodup := by
    rw [hq]
    exact List.nodup_range' ..
  refine ⟨(List.nodup_append.mp (List.nodup_append.mp hnd).2.1).1, fun f hf tid hbook hseq => ?_⟩
  have hge : k ≤ f.fillSeq.val := by
    have hmem : f.fillSeq.val ∈ List.range' k (b.nextFill.val - k) := by
      rw [← hq]
      exact List.mem_append_right _ (List.mem_append_left _ (List.mem_map.mpr ⟨f, hf, rfl⟩))
    exact (List.mem_range'_1.mp hmem).1
  cases hget : s.tradeHistory.get tid with
  | none => rfl
  | some leg =>
      have hlt := hk.below tid (by rw [hget]; rfl) hbook
      rw [hseq] at hlt
      exact absurd (hge.trans_lt hlt) (Nat.lt_irrefl _)

lemma length_legs (s : State) (bookId : OrderBookId) (now : Timestamp) (pieces : List Piece) :
    (pieces.flatMap (s.pieceLegs bookId now)).length
      = 2 * (pieces.flatMap Piece.fillEvents).length := by
  induction pieces with
  | nil => rfl
  | cons p pieces ih =>
      rw [List.flatMap_cons, List.flatMap_cons, List.length_append, List.length_append, ih,
        Nat.mul_add]
      cases p <;> rfl

/-- The postings of an event. -/
def eventPostings (s : State) (event : SettlingEvent) : List Posting :=
  match s.tradingPairs.getPair event.bookId with
  | some pair => s.postings event.bookId pair event.balanceOperations
  | none => []

lemma eventPostings_eq {event : SettlingEvent} {pair : TradingPair} {scale : BaseScale}
    (hm : s.Market event.bookId pair scale) :
    s.eventPostings event = s.postings event.bookId pair event.balanceOperations := by
  rw [eventPostings, hm.pair]

/-- **There is room for what some events do**: in the rows they credit, in the fee pools and in the
trade history. -/
structure RoomFor (s : State) (events : List SettlingEvent) : Prop where
  balances : s.balances.RoomFor (events.flatMap s.eventPostings)
  trades : s.tradeHistory.primary.size + 2 * Canister.fillCount events ≤ 2 ^ 64

lemma RoomFor.of_append {events events' : List SettlingEvent} (h : s.RoomFor (events ++ events')) :
    s.RoomFor events := by
  obtain ⟨hbalances, htrades⟩ := h
  rw [List.flatMap_append] at hbalances
  rw [Canister.fillCount_append] at htrades
  exact ⟨hbalances.of_append, by omega⟩

/-- **What settling can run into**: a balance of 256 bits or a trade history of 64 bits is too
small. -/
def SettleLimit (s : State) (event : SettlingEvent) (e : Trap) : Prop :=
  s.balances.Exceeds (s.eventPostings event) e ∨
    (e = .exhausted .stableMap ∧ event.fills ≠ [] ∧
      2 ^ 64 < s.tradeHistory.primary.size + 2 * event.fills.length)

lemma SettleLimit.not_roomFor {e : Trap} (h : s.SettleLimit event e) : ¬ s.RoomFor [event] := by
  rintro ⟨hbalances, htrades⟩
  rw [List.flatMap_singleton] at hbalances
  rw [Canister.fillCount, List.map_singleton, List.sum_singleton] at htrades
  rcases h with ⟨-, hnot, -⟩ | ⟨-, -, hlt⟩
  · exact hnot hbalances
  · exact absurd htrades (Nat.not_le.mpr hlt)

/-- **Every queued event settles** within those limits. -/
theorem Sound.settle_outcome (hs : s.Sound) (hb : s.Backed) (hn : s.Numbered)
    (hqueue : s.pendingSettlingEvents = before ++ event :: after) (now : Timestamp) :
    (recordSettlingEvent { s with pendingSettlingEvents := before ++ after } event now .write).Outcome
      (s.SettleLimit event) fun s' => ∃ pair scale pieces, event = eventOf event.bookId pieces ∧
        s.Settled (before ++ after) event.bookId now pair scale pieces s' := by
  have hmem : event ∈ s.pendingSettlingEvents := by simp [hqueue]
  obtain ⟨pair, scale, pieces, hm, hev, hok⟩ := hs.queue event hmem
  have hops : event.balanceOperations = pieces.flatMap Piece.ops :=
    congrArg SettlingEvent.balanceOperations hev
  have hopOk : ∀ op ∈ event.balanceOperations, s.OpOk event.bookId op := by
    rw [hops]
    exact opOk_of_pieces hs hok
  refine Except.Outcome.with_eq (P := fun _ => True) ?_ fun s' hs' _ => hs.settled hqueue hs'
  -- The orders resolve.
  obtain ⟨resolved, hresolved⟩ := resolveOpOrders_returns (s := s)
    hs.registry fun seq hseq => by
      obtain ⟨op, hop, hseq⟩ := List.mem_flatMap.mp hseq
      exact (hopOk op hop).known seq hseq
  have hres := resolveOpOrders_eq_ok hresolved
  have hpair : s.tradingPairs.getPair event.bookId = some pair := hm.pair
  have hscale : s.baseScaleForBook event.bookId = .ok scale := baseScaleForBook_eq_ok.mpr ⟨pair, hm⟩
  have hscale' : baseScaleForBook { s with pendingSettlingEvents := before ++ after } event.bookId
      = .ok scale := hscale
  -- The legs are new.
  have hfills : event.fills = pieces.flatMap Piece.fillEvents := by
    rw [← eventOf_fills event.bookId, ← hev]
  obtain ⟨hnd, hfresh⟩ := hn.fresh hs hqueue
  have htrades : event.fills.foldlM (appendTrade event.bookId resolved scale now) s.tradeHistory
      = s.tradeHistory.insertLegs (pieces.flatMap (s.pieceLegs event.bookId now)) := by
    rw [← appendTrades_eq hok, ← hev]
    rw [← hops]
    exact hres
  have hlegs := TradeHistory.insertLegs_outcome
    hs.trades
    (by
      have hkeys := nodup_legs_keys now hok (by rw [← hfills]; exact hnd)
      rw [← pieceLegs_snd (s := s), List.map_map] at hkeys
      exact hkeys)
    (by
      intro leg hleg
      have hsnd := (mem_legs (s := s)).mp (List.mem_map.mpr ⟨leg, hleg, rfl⟩)
      obtain ⟨st, hst, he⟩ := hsnd
      have hf : st.fillEvent ∈ event.fills := by
        have hx := fillEvent_mem event.bookId hst
        rwa [← hev] at hx
      refine hfresh _ hf _ ?_ ?_ <;> rcases he with he | he <;> rw [he] <;> rfl)
  -- The debits are covered.
  have hpost := (BalanceWriteBack.coherent_new s.balances).postAll_outcome
    (fun p hp => by
      obtain ⟨op, hop, rfl⟩ := List.mem_map.mp hp
      exact (hopOk op hop).sane pair)
    (fun t u => by
      rw [BalanceWriteBack.flush_new]
      exact hb.covers hs hmem hm t u)
  simp only [recordSettlingEvent, hpair, hscale', hresolved, Except.expect_some, Except.bind_ok,
    htrades]
  refine Except.Outcome.bind (hlegs.mono ?_ fun _ hx => hx) fun trades _ => ?_
  · rintro e ⟨he, hne, hlt⟩
    have hlen := length_legs s event.bookId now pieces
    rw [← hfills] at hlen
    refine Or.inr ⟨he, fun hnil => hne (List.eq_nil_of_length_eq_zero ?_), by rw [← hlen]; exact hlt⟩
    rw [hlen, hnil, List.length_nil, Nat.mul_zero]
  · simp only [TokenBalance.withWriteBack, applyOperations_eq hres]
    refine Except.Outcome.bind (P := fun _ => True) ?_ fun _ _ => trivial
    refine Except.Outcome.bind (hpost.mono (fun e he => Or.inl ?_) fun _ hx => hx)
      fun _ _ => trivial
    rw [BalanceWriteBack.flush_new] at he
    rw [eventPostings_eq hm]
    exact he

end State

end OisyTrade
