import OisyTrade.Invariant.Settles

/-!
# Draining the queue

`Drained s events queue now s'` is the effect of settling some events one after another: all their
legs are inserted, all their postings are applied, and nothing else changes.  The legs and postings
of an event are read off the state (`eventLegs`, `eventPostings`) and never change while the event
waits, so that it does not matter when it is settled.
-/

namespace OisyTrade

namespace State

variable {s s' s'' : State}

/-- The legs of an event with their users. -/
def eventLegs (s : State) (now : Timestamp) (event : SettlingEvent) : List (UserId × TradeLeg) :=
  (event.fills.flatMap (s.rebuiltLegs now event.bookId)).map fun leg =>
    (s.party event.bookId leg.1.orderId.seq, leg)

lemma eventLegs_eq {bookId : OrderBookId} {pair : TradingPair} {scale : BaseScale}
    {pieces : List Piece} (hm : s.Market bookId pair scale)
    (h : ∀ p ∈ pieces, s.PieceOk bookId scale p) (now : Timestamp) :
    s.eventLegs now (eventOf bookId pieces) = pieces.flatMap (s.pieceLegs bookId now) := by
  have hlegs : (eventOf bookId pieces).fills.flatMap
      (s.rebuiltLegs now (eventOf bookId pieces).bookId) = pieces.flatMap (Piece.legs bookId now) :=
    rebuiltLegs_pieces hm h now
  rw [eventLegs, hlegs, List.map_flatMap]
  refine List.flatMap_congr fun p _ => ?_
  cases p <;> rfl

/-- The posting of an operation stays the same. -/
lemma OpOk.posting_eq {bookId : OrderBookId} {op : BalanceOperation} (hx : s.Extends s')
    (h : s.OpOk bookId op) (pair : TradingPair) :
    s'.posting bookId pair op = s.posting bookId pair op := by
  have hparty : ∀ seq ∈ op.seqs, s'.party bookId seq = s.party bookId seq :=
    fun seq hseq => (h.known seq hseq).party_eq hx
  cases op with
  | transfer fromOrder toOrder token amount fee =>
      rw [posting, posting, hparty fromOrder (by simp [BalanceOperation.seqs]),
        hparty toOrder (by simp [BalanceOperation.seqs])]
  | unreserve order token amount =>
      rw [posting, posting, hparty order (by simp [BalanceOperation.seqs])]

/-- What an event does is settled when it is queued. -/
lemma EventOk.same (hs : s.Sound) (hx : s.Extends s') {event : SettlingEvent}
    (h : s.EventOk event) (now : Timestamp) :
    s'.eventLegs now event = s.eventLegs now event ∧
      s'.eventPostings event = s.eventPostings event := by
  obtain ⟨pair, scale, pieces, hm, he, hok⟩ := h
  constructor
  · rw [he, eventLegs_eq hm hok, eventLegs_eq (hx.market hm) fun p hp => (hok p hp).mono hx]
    refine List.flatMap_congr fun p hp => ?_
    cases p with
    | refund rs => rfl
    | fill st =>
        obtain ⟨t, m, hpiece⟩ := hok _ hp
        rw [pieceLegs, pieceLegs, fillLegs, fillLegs, (hs.known hpiece.taker).party_eq hx,
          (hs.known hpiece.maker).party_eq hx]
  · rw [eventPostings_eq hm, eventPostings_eq (hx.market hm), postings, postings]
    refine List.map_congr_left fun op hop => ?_
    rw [he] at hop
    exact (opOk_of_pieces hs hok op hop).posting_eq hx pair

/-- **Some events were settled.** -/
structure Drained (s : State) (events queue : List SettlingEvent) (now : Timestamp) (s' : State) :
    Prop where
  trades : s.tradeHistory.insertLegs (events.flatMap (s.eventLegs now)) = .ok s'.tradeHistory
  posted : Posted s.balances (events.flatMap s.eventPostings) s'.balances
  state : s' = { s with pendingSettlingEvents := queue, tradeHistory := s'.tradeHistory,
                        balances := s'.balances }

lemma Drained.refl (s : State) (now : Timestamp) :
    s.Drained [] s.pendingSettlingEvents now s := ⟨rfl, Posted.refl _, rfl⟩

lemma Settled.drained {queue : List SettlingEvent} {event : SettlingEvent} {now : Timestamp}
    {pair : TradingPair} {scale : BaseScale} {pieces : List Piece}
    (h : s.Settled queue event.bookId now pair scale pieces s')
    (hevent : event = eventOf event.bookId pieces) : s.Drained [event] queue now s' := by
  have hlegs : s.eventLegs now event = pieces.flatMap (s.pieceLegs event.bookId now) := by
    have hx := eventLegs_eq h.market h.agrees now
    rwa [← hevent] at hx
  have hops : event.balanceOperations = pieces.flatMap Piece.ops :=
    congrArg SettlingEvent.balanceOperations hevent
  refine ⟨?_, ?_, h.state⟩
  · rw [List.flatMap_singleton, hlegs]
    exact h.trades
  · rw [List.flatMap_singleton, eventPostings_eq h.market, hops]
    exact h.posted

lemma Drained.trans {events events' queue queue' : List SettlingEvent} {now : Timestamp}
    (h : s.Drained events queue now s') (h' : s'.Drained events' queue' now s'')
    (hsame : ∀ e ∈ events', s'.eventLegs now e = s.eventLegs now e ∧
      s'.eventPostings e = s.eventPostings e) :
    s.Drained (events ++ events') queue' now s'' := by
  have hlegs : events'.flatMap (s'.eventLegs now) = events'.flatMap (s.eventLegs now) :=
    List.flatMap_congr fun e he => (hsame e he).1
  have hpost : events'.flatMap s'.eventPostings = events'.flatMap s.eventPostings :=
    List.flatMap_congr fun e he => (hsame e he).2
  refine ⟨?_, ?_, ?_⟩
  · rw [List.flatMap_append, TradeHistory.insertLegs_append, h.trades, ← hlegs]
    exact h'.trades
  · rw [List.flatMap_append, ← hpost]
    exact h.posted.trans h'.posted
  · rw [h'.state, h.state]

/-- An event has two legs for each fill. -/
lemma EventOk.length_legs {event : SettlingEvent} (h : s.EventOk event) (now : Timestamp) :
    (s.eventLegs now event).length = 2 * event.fills.length := by
  obtain ⟨pair, scale, pieces, hm, he, hok⟩ := h
  have hlegs := eventLegs_eq hm hok now
  rw [← he] at hlegs
  rw [hlegs, State.length_legs, ← eventOf_fills event.bookId, ← he]

/-- **What was settled had room**, and what is still queued has room afterwards if all of it had room
before. -/
lemma Drained.roomFor_iff {events queue more : List SettlingEvent} {now : Timestamp}
    (h : s.Drained events queue now s') (hok : ∀ e ∈ events, s.EventOk e)
    (hsame : ∀ e ∈ more, s'.eventPostings e = s.eventPostings e) :
    s'.RoomFor more ↔ s.RoomFor (events ++ more) := by
  have hpost : more.flatMap s'.eventPostings = more.flatMap s.eventPostings :=
    List.flatMap_congr hsame
  have hlen : (events.flatMap (s.eventLegs now)).length = 2 * Canister.fillCount events := by
    have hone : ∀ {l : List SettlingEvent}, (∀ e ∈ l, s.EventOk e) →
        (l.flatMap (s.eventLegs now)).length = 2 * Canister.fillCount l := by
      intro l hl
      induction l with
      | nil => rfl
      | cons e l ih =>
          rw [List.flatMap_cons, List.length_append, (hl e List.mem_cons_self).length_legs,
            ih fun e' he' => hl e' (List.mem_cons_of_mem _ he'), Canister.fillCount_cons,
            Nat.mul_add]
    exact hone hok
  have hsize := TradeHistory.size_insertLegs h.trades
  have hbalances : s'.balances.RoomFor (more.flatMap s'.eventPostings) ↔
      s.balances.RoomFor ((events ++ more).flatMap s.eventPostings) := by
    rw [hpost, List.flatMap_append]
    exact h.posted.roomFor_iff _
  have htrades : s'.tradeHistory.primary.size + 2 * Canister.fillCount more
      = s.tradeHistory.primary.size + 2 * Canister.fillCount (events ++ more) := by
    rw [hsize, hlen, Canister.fillCount_append, Nat.mul_add, Nat.add_assoc]
  constructor
  · exact fun hroom => ⟨hbalances.mp hroom.balances, htrades ▸ hroom.trades⟩
  · exact fun hroom => ⟨hbalances.mpr hroom.balances, htrades.symm ▸ hroom.trades⟩

/-- What was settled had room. -/
lemma Drained.roomFor {events queue : List SettlingEvent} {now : Timestamp}
    (h : s.Drained events queue now s') (hok : ∀ e ∈ events, s.EventOk e)
    (hsize : s.tradeHistory.primary.size ≤ 2 ^ 64) : s.RoomFor events := by
  have hnil : s'.RoomFor [] :=
    ⟨(Posted.refl _).roomFor, TradeHistory.size_le_of_insertLegs h.trades hsize⟩
  have hroom := (h.roomFor_iff hok fun e he => absurd he List.not_mem_nil).mp hnil
  rwa [List.append_nil] at hroom

/-- **Draining is determined** by the legs and the sums of the postings. -/
lemma Drained.total {events queue : List SettlingEvent} {now : Timestamp}
    (h : s.Drained events queue now s') (t : TokenId) :
    s'.balances.total t = s.balances.total t := h.posted.total t

end State

namespace Canister

variable {c c' : Canister} {rt : Runtime}

/-- Everything that settling relies on. -/
structure Steady (c : Canister) : Prop where
  sound : c.state.Sound
  backed : c.state.Backed
  numbered : c.state.Numbered
  /-- The trade history is a map of at most `2 ^ 64` entries. -/
  stored : c.state.tradeHistory.primary.size ≤ 2 ^ 64

lemma Change.stored (hsize : c.state.tradeHistory.primary.size ≤ 2 ^ 64) (h : c.Change c') :
    c'.state.tradeHistory.primary.size ≤ 2 ^ 64 := by
  cases h with
  | listed _ _ _ hok =>
      obtain ⟨_, -, -, -, -, -, -, -, hstate⟩ := State.recordTradingPair_eq_ok hok
      rw [hstate]
      exact hsize
  | placed _ _ _ _ _ _ _ _ _ _ _ h =>
      rw [h.state]
      exact hsize
  | canceled _ _ _ _ _ _ _ _ _ _ _ h =>
      rw [h.state]
      exact hsize
  | matched _ _ _ _ _ _ _ _ _ _ _ _ _ _ h =>
      rw [h.state]
      exact hsize
  | settled _ _ _ _ _ _ _ _ _ _ h => exact TradeHistory.size_le_of_insertLegs h.trades hsize
  | credited _ _ _ _ hok =>
      obtain ⟨_, _, _, -, -, hstate⟩ := State.deposit_eq_ok hok
      rw [hstate]
      exact hsize
  | debited _ _ _ hok =>
      obtain ⟨_, _, -, -, hstate⟩ := State.withdraw_eq_ok hok
      rw [hstate]
      exact hsize
  | frame h =>
      rw [h.tradeHistory]
      exact hsize

lemma Acts.steady (h : c.Acts c') (hc : c.Steady) : c'.Steady := by
  obtain ⟨hs, hb, hn, hsize⟩ := h.invariant
    (P := fun c => c.state.Backed ∧ c.state.Numbered ∧ c.state.tradeHistory.primary.size ≤ 2 ^ 64)
    hc.sound ⟨hc.backed, hc.numbered, hc.stored⟩
    fun _ _ hs ⟨hb, hn, hsize⟩ hchange =>
      ⟨hchange.backed hs hb, hchange.numbered hs hn, hchange.stored hsize⟩
  exact ⟨hs, hb, hn, hsize⟩

/-- Nothing needs no room. -/
lemma Steady.roomFor_nil (hc : c.Steady) : c.state.RoomFor [] :=
  ⟨(Posted.refl _).roomFor, hc.stored⟩

/-- All balances fit, and the trade history has room for some more fills. -/
structure Fits (c : Canister) (fills : ℕ) : Prop where
  balances : ∀ t, c.state.balances.total t < 2 ^ 256
  trades : c.state.tradeHistory.primary.size + 2 * fills ≤ 2 ^ 64

lemma Fits.not_limit {event : SettlingEvent} {more : ℕ} (h : c.Fits (event.fills.length + more))
    (e : Trap) : ¬ c.state.SettleLimit event e := by
  rintro (⟨-, -, t, ht⟩ | ⟨-, -, hsize⟩)
  · exact absurd (h.balances t) (Nat.not_lt.mpr ht)
  · have htrades := h.trades
    omega

/-- **Settling the head of the queue** returns unless it runs into a limit. -/
lemma Steady.settle_head (hc : c.Steady) {event : SettlingEvent} {rest : List SettlingEvent}
    (hqueue : c.state.pendingSettlingEvents = event :: rest)
    (hno : ∀ e, ¬ c.state.SettleLimit event e) (now : Timestamp) :
    ∃ c', (c.withQueue rest).processEvent (.settling event) now = .ok c' ∧ c.Work c' ∧
      c.state.Drained [event] rest now c'.state := by
  have hout := hc.sound.settle_outcome hc.backed hc.numbered
    (show c.state.pendingSettlingEvents = [] ++ event :: rest from hqueue) now
  obtain ⟨s', hs', pair, scale, pieces, hevent, hsettled⟩ :=
    Except.Outcome.returns (hout.mono hno fun _ hx => hx)
  have hproc : (c.withQueue rest).processEvent (.settling event) now
      = .ok { state := s', events := c.events ++ [⟨now, .settling event⟩],
              journal := c.journal ++ [((c.withQueue rest).state, ⟨now, .settling event⟩)] } := by
    have hx : (c.withQueue rest).state.applyStateTransition (.settling event) now .write
        = .ok s' := hs'
    rw [processEvent, hx]
    rfl
  exact ⟨_, hproc, settle_front hqueue hproc, hsettled.drained hevent⟩

/-- One settled event, from a call that returned. -/
lemma Steady.settled (hc : c.Steady) {before after : List SettlingEvent} {event : SettlingEvent}
    {now : Timestamp} (hqueue : c.state.pendingSettlingEvents = before ++ event :: after)
    (h : (c.withQueue (before ++ after)).processEvent (.settling event) now = .ok c') :
    c.state.Drained [event] (before ++ after) now c'.state ∧
      c'.events = c.events ++ [⟨now, .settling event⟩] := by
  obtain ⟨s', hs', rfl⟩ := processEvent_eq_ok h
  obtain ⟨pair, scale, pieces, hevent, hsettled⟩ := hc.sound.settled hqueue hs'
  exact ⟨hsettled.drained hevent, rfl⟩

/-- What a queued event does stays the same while other events are settled. -/
lemma Steady.same (hc : c.Steady) (h : c.Acts c') (now : Timestamp) :
    ∀ e ∈ c.state.pendingSettlingEvents, c'.state.eventLegs now e = c.state.eventLegs now e ∧
      c'.state.eventPostings e = c.state.eventPostings e := fun e he =>
  (hc.sound.queue e he).same hc.sound (h.sound hc.sound).2 now

/-- **`drain_settling` settles a part of the queue**, all of it if no reading reaches the budget. -/
theorem drainLoop_drained {budget : ℕ} :
    ∀ {fuel : ℕ} {c c' : Canister} {n n' : ℕ}, c.Steady →
      drainLoop rt budget fuel c n = .ok (c', n') →
      ∃ done rest, c.state.pendingSettlingEvents = done ++ rest ∧
        c.state.Drained done rest rt.time c'.state ∧
        c'.events = c.events ++ done.map (fun e => ⟨rt.time, .settling e⟩) ∧
        ((∀ k, rt.instructionCounter k < budget) →
          c.state.pendingSettlingEvents.length ≤ fuel → rest = [])
  | 0, c, c', n, n', hc, h => by
      cases h
      refine ⟨[], c.state.pendingSettlingEvents, rfl, State.Drained.refl _ _, by simp, ?_⟩
      exact fun _ hlen => List.length_eq_zero_iff.mp (Nat.le_zero.mp hlen)
  | fuel + 1, c, c', n, n', hc, h => by
      rw [drainLoop] at h
      split_ifs at h with hbudget
      · cases hq : c.state.pendingSettlingEvents with
        | nil =>
            rw [hq] at h
            cases h
            have hrefl := State.Drained.refl c.state rt.time
            rw [hq] at hrefl
            exact ⟨[], [], rfl, hrefl, by simp, fun _ _ => rfl⟩
        | cons event rest =>
            simp only [hq, Except.bind_eq_ok] at h
            obtain ⟨c₁, hproc, hloop⟩ := h
            obtain ⟨hone, hevents⟩ := hc.settled
              (show c.state.pendingSettlingEvents = [] ++ event :: rest from hq) hproc
            have hact : c.Acts c₁ := (settle_front hq hproc).act.acts
            have hqueue₁ : c₁.state.pendingSettlingEvents = rest := by rw [hone.state]; rfl
            obtain ⟨done, rest', hsplit, hdrained, hlog, hall⟩ :=
              drainLoop_drained (hact.steady hc) hloop
            refine ⟨event :: done, rest', ?_, ?_, ?_, fun hk hlen => hall hk ?_⟩
            · rw [← hqueue₁, hsplit, List.cons_append]
            · refine hone.trans hdrained fun e he => hc.same hact _ e ?_
              rw [hq, ← hqueue₁, hsplit]
              exact List.mem_cons_of_mem _ (List.mem_append_left _ he)
            · rw [hlog, hevents, List.map_cons, List.append_assoc]
              rfl
            · rw [hqueue₁]
              exact Nat.le_of_succ_le_succ hlen
      · cases h
        refine ⟨[], c.state.pendingSettlingEvents, rfl, State.Drained.refl _ _, by simp, ?_⟩
        exact fun hk => absurd (hk n) hbudget

/-- **Draining returns** where settling the head of the queue does, and keeps what that keeps. -/
theorem drainLoop_returns {R : Canister → Prop}
    (hsettle : ∀ {c : Canister} {event : SettlingEvent} {rest : List SettlingEvent}, R c →
      c.state.pendingSettlingEvents = event :: rest →
      ∃ c', (c.withQueue rest).processEvent (.settling event) rt.time = .ok c' ∧ R c')
    {budget : ℕ} :
    ∀ {fuel : ℕ} {c : Canister} {n : ℕ}, R c →
      ∃ c' n', drainLoop rt budget fuel c n = .ok (c', n') ∧ R c'
  | 0, c, n, h => ⟨c, n + 1, rfl, h⟩
  | fuel + 1, c, n, h => by
      rw [drainLoop]
      split_ifs with hbudget
      · cases hq : c.state.pendingSettlingEvents with
        | nil => exact ⟨c, n + 1, rfl, h⟩
        | cons event rest =>
            obtain ⟨c₁, hproc, h₁⟩ := hsettle h hq
            obtain ⟨c₂, n₂, hloop, h₂⟩ := drainLoop_returns hsettle (n := n + 1) h₁
            refine ⟨c₂, n₂, ?_, h₂⟩
            simp only [Except.bind_eq_ok]
            exact ⟨c₁, hproc, hloop⟩
      · exact ⟨c, n + 1, rfl, h⟩

/-- **With room for the whole queue** the head of it can be settled, and the rest has room. -/
lemma Steady.settle_roomFor (hc : c.Steady) (hroom : c.state.RoomFor c.state.pendingSettlingEvents)
    {event : SettlingEvent} {rest : List SettlingEvent}
    (hqueue : c.state.pendingSettlingEvents = event :: rest) (now : Timestamp) :
    ∃ c', (c.withQueue rest).processEvent (.settling event) now = .ok c' ∧ c'.Steady ∧
      c'.state.RoomFor c'.state.pendingSettlingEvents := by
  rw [hqueue] at hroom
  have hone : c.state.RoomFor [event] :=
    State.RoomFor.of_append (show c.state.RoomFor ([event] ++ rest) from hroom)
  obtain ⟨c', hproc, hwork, hdrained⟩ := hc.settle_head hqueue
    (fun e he => he.not_roomFor hone) now
  have hacts := hwork.act.acts
  refine ⟨c', hproc, hacts.steady hc, ?_⟩
  have hqueue' : c'.state.pendingSettlingEvents = rest := by rw [hdrained.state]
  rw [hqueue']
  refine (hdrained.roomFor_iff (fun e he => ?_) fun e he => ?_).mpr hroom
  · rw [List.mem_singleton.mp he]
    exact hc.sound.queue event (by simp [hqueue])
  · refine (hc.same hacts now e ?_).2
    rw [hqueue]
    exact List.mem_cons_of_mem _ he

/-- Settling the head of the queue keeps the totals and uses the room for its fills. -/
lemma Steady.settle_fits (hc : c.Steady) {more : ℕ}
    (hfits : c.Fits (fillCount c.state.pendingSettlingEvents + more)) {event : SettlingEvent}
    {rest : List SettlingEvent} (hqueue : c.state.pendingSettlingEvents = event :: rest)
    (now : Timestamp) :
    ∃ c', (c.withQueue rest).processEvent (.settling event) now = .ok c' ∧ c.Work c' ∧
      c.state.Drained [event] rest now c'.state ∧
      c'.Fits (fillCount c'.state.pendingSettlingEvents + more) := by
  rw [hqueue, fillCount_cons, Nat.add_assoc] at hfits
  obtain ⟨c', hproc, hwork, hdrained⟩ := hc.settle_head hqueue hfits.not_limit now
  refine ⟨c', hproc, hwork, hdrained, fun t => ?_, ?_⟩
  · rw [hdrained.total]
    exact hfits.balances t
  · have hqueue' : c'.state.pendingSettlingEvents = rest := by rw [hdrained.state]
    have hsize := TradeHistory.size_insertLegs hdrained.trades
    rw [List.flatMap_singleton,
      (hc.sound.queue event (by simp [hqueue])).length_legs] at hsize
    have htrades := hfits.trades
    rw [hqueue', hsize]
    omega

/-- **Where all totals fit, there is room** for the queue. -/
lemma Steady.roomFor_of_fits (hc : c.Steady)
    (hfits : c.Fits (fillCount c.state.pendingSettlingEvents)) :
    c.state.RoomFor c.state.pendingSettlingEvents := by
  -- The queue can be drained, so there was room for it.
  let rt : Runtime := { msgCaller := .anonymous, isController := fun _ => false, time := .epoch,
                        instructionCounter := fun _ => 0 }
  have hdrains : ∃ c' n', drainLoop rt 1 c.state.pendingSettlingEvents.length c 0 = .ok (c', n') ∧
      c'.Steady ∧ c'.Fits (fillCount c'.state.pendingSettlingEvents + 0) :=
    drainLoop_returns (fun h hqueue => by
      obtain ⟨c', hproc, hwork, -, hfits'⟩ := h.1.settle_fits h.2 hqueue rt.time
      exact ⟨c', hproc, hwork.act.acts.steady h.1, hfits'⟩) ⟨hc, hfits⟩
  obtain ⟨c', n, hloop, -⟩ := hdrains
  obtain ⟨done, rest, hqueue, hdrained, -, hall⟩ := drainLoop_drained hc hloop
  obtain rfl := hall (fun _ => Nat.zero_lt_one) le_rfl
  rw [List.append_nil] at hqueue
  have hc' := (drainLoop_works hloop).acts.steady hc
  have hroom := (hdrained.roomFor_iff (fun e he => hc.sound.queue e (hqueue ▸ he))
    fun e he => absurd he List.not_mem_nil).mp hc'.roomFor_nil
  rw [List.append_nil, ← hqueue] at hroom
  exact hroom

end Canister

lemma World.Reachable.steady {w : World} (h : w.Reachable) : w.canister.Steady := by
  refine ⟨h.guarded.sound, h.backed, h.numbered, h.invariant
    (P := fun c => c.state.tradeHistory.primary.size ≤ 2 ^ 64) (fun arg rt c hinit => ?_)
    fun c c' _ hsize hchange => hchange.stored hsize⟩
  obtain ⟨-, -, -, -, -, -, htrades, -⟩ := Canister.init_eq_ok hinit
  rw [htrades]
  exact Nat.zero_le _

end OisyTrade
