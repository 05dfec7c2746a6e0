import OisyTrade.Invariant.Halts
import OisyTrade.MarketData
import OisyTrade.Script

/-!
# The list of pairs is what the log says

`get_trading_pairs` and `list_supported_tokens` put their answers together from four parts of the
state: the pairs, the books, the tokens and the permissions.  The answers are functions of the log.
A pair is shown with the terms it was listed at, whatever has been traded on its book since, and as
halted exactly while a halt is in force.
-/

namespace OisyTrade

/-! ## Listings -/

/-- The pair of a listing. -/
def AddTradingPairEvent.pair (event : AddTradingPairEvent) : TradingPair :=
  ⟨event.base, event.quote⟩

/-- A listing, if the event is one. -/
def EventType.listing : EventType → Option AddTradingPairEvent
  | .addTradingPair event => some event
  | _ => none

/-- The listings of a log. -/
def listingsOf (events : List Event) : List AddTradingPairEvent :=
  events.filterMap fun e => e.payload.listing

lemma listingsOf_append (events new : List Event) :
    listingsOf (events ++ new) = listingsOf events ++ listingsOf new := List.filterMap_append

lemma listingsOf_quiet {new : List Event} (h : ∀ e ∈ new, e.payload.listing = none) :
    listingsOf new = [] := List.filterMap_eq_nil_iff.mpr h

lemma EventType.listing_of_quiet {payload : EventType} (h : payload.quiet = true) :
    payload.listing = none := by
  cases payload with
  | addTradingPair event => cases h
  | _ => rfl

namespace OrderBook

/-- The book trades at the terms of the listing. -/
structure AtTerms (b : OrderBook) (event : AddTradingPairEvent) : Prop where
  tickSize : b.tickSize = event.tickSize
  lotSize : b.lotSize = event.lotSize
  feeRates : b.feeRates = event.feeRates
  minNotional : b.minNotional = event.minNotional
  maxNotional : b.maxNotional = event.maxNotional

lemma AtTerms.same {b b' : OrderBook} {event : AddTradingPairEvent} (h : b.AtTerms event)
    (hsame : b.SameConfig b') : b'.AtTerms event :=
  ⟨hsame.tickSize.trans h.tickSize, hsame.lotSize.trans h.lotSize,
    hsame.feeRates.trans h.feeRates, hsame.minNotional.trans h.minNotional,
    hsame.maxNotional.trans h.maxNotional⟩

end OrderBook

namespace State

variable {s s' : State} {event : AddTradingPairEvent}

/-- The state still has the terms and the metadata of a listing. -/
structure Shows (s : State) (event : AddTradingPairEvent) : Prop where
  book : ∃ b, s.orderBooks.get event.bookId = some b ∧ b.AtTerms event
  base : s.tokens.get event.base = some event.baseMetadata
  quote : s.tokens.get event.quote = some event.quoteMetadata

lemma Shows.of_book (h : s.Shows event) {id : OrderBookId} {b b' : OrderBook}
    (htokens : s'.tokens = s.tokens) (hb : s.orderBooks.get id = some b)
    (hbooks : s'.orderBooks = s.orderBooks.insert id b')
    (hkept : ∀ event, b.AtTerms event → b'.AtTerms event) : s'.Shows event := by
  obtain ⟨⟨b₁, hb₁, hterms⟩, hbase, hquote⟩ := h
  refine ⟨?_, by rw [htokens]; exact hbase, by rw [htokens]; exact hquote⟩
  rw [hbooks, SortedMap.get_insert]
  split_ifs with hid
  · subst hid
    obtain rfl : b = b₁ := Option.some.inj (hb.symm.trans hb₁)
    exact ⟨b', rfl, hkept _ hterms⟩
  · exact ⟨b₁, hb₁, hterms⟩

lemma Shows.of_same (h : s.Shows event) (htokens : s'.tokens = s.tokens)
    (hbooks : s'.orderBooks = s.orderBooks) : s'.Shows event := by
  obtain ⟨hbook, hbase, hquote⟩ := h
  exact ⟨by rw [hbooks]; exact hbook, by rw [htokens]; exact hbase, by rw [htokens]; exact hquote⟩

end State

namespace Canister

variable {c c' : Canister}

/-- **The pairs and the tokens are those of the listings in the log.** -/
structure PairsLogged (c : Canister) : Prop where
  pairs : c.state.tradingPairs.byPair.entries.Perm
    ((listingsOf c.events).map fun event => (event.pair, event.bookId))
  shown : ∀ event ∈ listingsOf c.events, c.state.Shows event
  tokens : ∀ token metadata, c.state.tokens.get token = some metadata →
    ∃ event ∈ listingsOf c.events, (token = event.base ∧ metadata = event.baseMetadata) ∨
      (token = event.quote ∧ metadata = event.quoteMetadata)

/-- A change that lists nothing. -/
lemma PairsLogged.of_log (h : c.PairsLogged) {new : List Event}
    (hlog : c'.events = c.events ++ new) (hnew : ∀ e ∈ new, e.payload.listing = none)
    (hpairs : c'.state.tradingPairs = c.state.tradingPairs)
    (htokens : c'.state.tokens = c.state.tokens)
    (hshown : ∀ event, c.state.Shows event → c'.state.Shows event) : c'.PairsLogged := by
  have hlistings : listingsOf c'.events = listingsOf c.events := by
    rw [hlog, listingsOf_append, listingsOf_quiet hnew, List.append_nil]
  refine ⟨?_, ?_, ?_⟩
  · rw [hpairs, hlistings]
    exact h.pairs
  · rw [hlistings]
    exact fun event hmem => hshown event (h.shown event hmem)
  · rw [htokens, hlistings]
    exact h.tokens

lemma PairsLogged.of_sameLog (h : c.PairsLogged) (hlog : c'.events = c.events)
    (hpairs : c'.state.tradingPairs = c.state.tradingPairs)
    (htokens : c'.state.tokens = c.state.tokens)
    (hshown : ∀ event, c.state.Shows event → c'.state.Shows event) : c'.PairsLogged := by
  have hnone : c'.events = c.events ++ [] := by rw [hlog, List.append_nil]
  exact h.of_log hnone (fun _ hx => absurd hx List.not_mem_nil) hpairs htokens hshown

lemma PairsLogged.of_logged (h : c.PairsLogged) {payload : EventType} {timestamp : Timestamp}
    (hlog : c.Logged payload timestamp c') (hnew : payload.listing = none)
    (hpairs : c'.state.tradingPairs = c.state.tradingPairs)
    (htokens : c'.state.tokens = c.state.tokens)
    (hshown : ∀ event, c.state.Shows event → c'.state.Shows event) : c'.PairsLogged := by
  refine h.of_log hlog.1 (fun e he => ?_) hpairs htokens hshown
  rw [List.mem_singleton.mp he]
  exact hnew

/-- Listing a pair. -/
lemma PairsLogged.listed (h : c.PairsLogged) {event : AddTradingPairEvent} {timestamp : Timestamp}
    (hok : c.state.recordTradingPair event = .ok c'.state)
    (hlog : c.Logged (.addTradingPair event) timestamp c') : c'.PairsLogged := by
  obtain ⟨next, -, -, hpair, -, hbook, hbase, hquote, hstate⟩ := State.recordTradingPair_eq_ok hok
  have hlistings : listingsOf c'.events = listingsOf c.events ++ [event] := by
    rw [hlog.1, listingsOf_append]
    rfl
  -- What is known of a token is never replaced by something else.
  have hkept : ∀ token metadata, c.state.tokens.get token = some metadata →
      c'.state.tokens.get token = some metadata := by
    intro token metadata htoken
    rw [hstate]
    show (SortedMap.insert _ _ _).get token = some metadata
    have hfirst : (c.state.tokens.insert event.base event.baseMetadata).get token
        = some metadata := by
      rw [SortedMap.get_insert]
      split_ifs with ht
      · rw [ht, htoken] at hbase
        rcases hbase with hnone | hsome
        · cases hnone
        · exact hsome.symm
      · exact htoken
    rw [SortedMap.get_insert]
    split_ifs with ht
    · rw [ht, hfirst] at hquote
      rcases hquote with hnone | hsome
      · cases hnone
      · exact hsome.symm
    · exact hfirst
  have hshows : c'.state.Shows event := by
    refine ⟨⟨OrderBook.new event.bookId event.tickSize event.lotSize event.minNotional
      event.maxNotional event.feeRates, ?_, ⟨rfl, rfl, rfl, rfl, rfl⟩⟩, ?_, ?_⟩
    · rw [hstate]
      exact SortedMap.get_insert_self _ _ _
    · rw [hstate]
      show (SortedMap.insert _ _ _).get event.base = _
      rw [SortedMap.get_insert]
      split_ifs with ht
      · rw [ht, SortedMap.get_insert_self] at hquote
        rcases hquote with hnone | hsome
        · cases hnone
        · exact hsome.symm
      · exact SortedMap.get_insert_self _ _ _
    · rw [hstate]
      exact SortedMap.get_insert_self _ _ _
  refine ⟨?_, fun e he => ?_, fun token metadata htoken => ?_⟩
  · rw [hlistings, List.map_append, hstate]
    refine (SortedMap.entries_insert_of_none _ _ hpair).trans ?_
    exact (h.pairs.cons _).trans (List.perm_append_singleton _ _).symm
  · rw [hlistings] at he
    rcases List.mem_append.mp he with he | he
    · obtain ⟨⟨b, hb, hterms⟩, hbase', hquote'⟩ := h.shown e he
      refine ⟨⟨b, ?_, hterms⟩, hkept _ _ hbase', hkept _ _ hquote'⟩
      rw [hstate]
      show (SortedMap.insert _ _ _).get e.bookId = some b
      rw [SortedMap.get_insert_of_ne]
      · exact hb
      · intro hid
        rw [hid, hb] at hbook
        cases hbook
    · rw [List.mem_singleton.mp he]
      exact hshows
  · rw [hlistings]
    have hlast : event ∈ listingsOf c.events ++ [event] :=
      List.mem_append_right _ (List.mem_singleton_self event)
    rw [hstate] at htoken
    replace htoken : (SortedMap.insert _ _ _).get token = some metadata := htoken
    rw [SortedMap.get_insert] at htoken
    split_ifs at htoken with ht
    · exact ⟨event, hlast, Or.inr ⟨ht.symm, (Option.some.inj htoken).symm⟩⟩
    · rw [SortedMap.get_insert] at htoken
      split_ifs at htoken with ht'
      · exact ⟨event, hlast, Or.inl ⟨ht'.symm, (Option.some.inj htoken).symm⟩⟩
      · obtain ⟨e, he, hcase⟩ := h.tokens token metadata htoken
        exact ⟨e, List.mem_append_left _ he, hcase⟩

/-- **Every change keeps them so.** -/
lemma Change.pairsLogged (hchange : c.Change c') (h : c.PairsLogged) : c'.PairsLogged := by
  cases hchange with
  | listed event timestamp hadmits hok hlog => exact h.listed hok hlog
  | placed event timestamp order b b' pair scale uid required horder hadmits hplaced hlog =>
      have hstate := hplaced.state
      refine h.of_logged hlog rfl (by rw [hstate]) (by rw [hstate]) fun e hshows => ?_
      refine hshows.of_book (by rw [hstate]) hplaced.book (by rw [hstate]) fun e' hterms => ?_
      rw [hplaced.grown.state]
      exact ⟨hterms.tickSize, hterms.lotSize, hterms.feeRates, hterms.minNotional,
        hterms.maxNotional⟩
  | canceled event timestamp o r r' b b' pair scale refund hadmits hcanceled hlog =>
      have hstate := hcanceled.state
      refine h.of_logged hlog rfl (by rw [hstate]) (by rw [hstate]) fun e hshows => ?_
      exact hshows.of_book (by rw [hstate]) hcanceled.book (by rw [hstate]) fun e' hterms =>
        hterms.same hcanceled.removed.config
  | matched event timestamp b b' orders out pair scale fills refunds groups hadmits horders hne
      hmatched hlog =>
      have hstate := hmatched.state
      refine h.of_logged hlog rfl (by rw [hstate]) (by rw [hstate]) fun e hshows => ?_
      exact hshows.of_book (by rw [hstate]) hmatched.book (by rw [hstate]) fun e' hterms =>
        hterms.same hmatched.chunk.config
  | settled before after event timestamp pair scale pieces hqueue hfront hevent hsettled hlog =>
      have hstate := hsettled.state
      refine h.of_log hlog.1 (fun e he => ?_) (by rw [hstate]) (by rw [hstate]) fun e hshows => ?_
      · rw [List.mem_singleton.mp he]
        rfl
      · exact hshows.of_same (by rw [hstate]) (by rw [hstate])
  | credited user token amount huser hok hlog =>
      obtain ⟨_, _, _, -, -, hstate⟩ := State.deposit_eq_ok hok
      have hshown : ∀ event, c.state.Shows event → c'.state.Shows event := fun e hshows =>
        hshows.of_same (by rw [hstate]) (by rw [hstate])
      rcases hlog with hlog | ⟨timestamp, hlog⟩
      · exact h.of_sameLog hlog.1 (by rw [hstate]) (by rw [hstate]) hshown
      · exact h.of_logged hlog rfl (by rw [hstate]) (by rw [hstate]) hshown
  | debited user token amount hok hlog =>
      obtain ⟨_, _, -, -, hstate⟩ := State.withdraw_eq_ok hok
      exact h.of_sameLog hlog.1 (by rw [hstate]) (by rw [hstate]) fun e hshows =>
        hshows.of_same (by rw [hstate]) (by rw [hstate])
  | frame hframe hlog =>
      obtain ⟨new, hquiet, hnew⟩ := hlog.1
      exact h.of_log hnew (fun e he => EventType.listing_of_quiet (hquiet e he))
        hframe.tradingPairs hframe.tokens fun e hshows =>
          hshows.of_same hframe.tokens hframe.orderBooks

lemma PairsLogged.init {arg : OisyTradeArg} {rt : Runtime} (h : Canister.init arg rt = .ok c) :
    c.PairsLogged := by
  obtain ⟨-, hpairs, htokens, initArg, hevents⟩ := init_fresh h
  have hnone : listingsOf c.events = [] := by
    rw [hevents]
    rfl
  refine ⟨?_, ?_, ?_⟩
  · rw [hpairs, hnone]
    exact List.Perm.refl []
  · rw [hnone]
    exact fun _ hx => absurd hx List.not_mem_nil
  · rw [htokens]
    exact fun token metadata htoken => nomatch htoken

end Canister

/-! ## Main results -/

/-- The row of a listing. -/
def AddTradingPairEvent.info (event : AddTradingPairEvent) (status : TradingStatus) :
    TradingPairInfo :=
  { base := ⟨event.base, event.baseMetadata⟩, quote := ⟨event.quote, event.quoteMetadata⟩, status,
    tickSize := event.tickSize, lotSize := event.lotSize, makerFeeBps := event.feeRates.maker,
    takerFeeBps := event.feeRates.taker, minNotional := event.minNotional,
    maxNotional := event.maxNotional }

/-- The row of a pair that the state shows. -/
lemma State.Shows.tradingPairInfo {s : State} {event : AddTradingPairEvent} (h : s.Shows event) :
    s.tradingPairInfo (event.pair, event.bookId) = .ok (event.info
      (if s.permissions.isHalted event.bookId then .halted else .trading)) := by
  obtain ⟨⟨b, hb, hterms⟩, hbase, hquote⟩ := h
  simp only [State.tradingPairInfo, expectBug, AddTradingPairEvent.pair, hb, hbase, hquote,
    Except.expect_some, Except.bind_ok, AddTradingPairEvent.info, hterms.tickSize, hterms.lotSize,
    hterms.feeRates, hterms.minNotional, hterms.maxNotional]

/-- The rows of listings that the state shows. -/
lemma State.mapM_tradingPairInfo {s : State} {events : List AddTradingPairEvent}
    (h : ∀ event ∈ events, s.Shows event) :
    (events.map fun event => (event.pair, event.bookId)).mapM s.tradingPairInfo
      = .ok (events.map fun event => event.info
        (if s.permissions.isHalted event.bookId then .halted else .trading)) := by
  induction events with
  | nil => rfl
  | cons event events ih =>
      rw [List.map_cons, List.mapM_cons, (h event List.mem_cons_self).tradingPairInfo,
        Except.bind_ok, ih fun e he => h e (List.mem_cons_of_mem _ he), Except.bind_ok]
      rfl

namespace World

variable {w : World}

lemma Reachable.pairsLogged (h : Reachable w) : w.canister.PairsLogged :=
  h.invariant (fun _ _ _ hinit => Canister.PairsLogged.init hinit)
    fun _ _ _ hlogged hchange => hchange.pairsLogged hlogged

/-- **The list of pairs and the list of tokens are functions of the log.**  In every reachable world
the list of pairs has one row for each listing, in the order of the pairs, with the terms of the
listing and halted exactly if a halt of all pairs or of this book is in force.  The list of tokens
has, in the order of their ledgers, the tokens of the listings. -/
theorem Reachable.pairs_shown (h : Reachable w) :
    (∃ listings rows, listings.Perm (listingsOf w.canister.events) ∧
      listings.Pairwise (fun a b => a.pair < b.pair) ∧
      w.canister.getTradingPairs = .ok rows ∧
      List.Forall₂ (fun event row => row = AddTradingPairEvent.info event row.status ∧
        (row.status = .halted ↔ InForce none w.canister.events ∨
          InForce (some event.bookId) w.canister.events)) listings rows) ∧
    w.canister.listSupportedTokens.Pairwise (fun a b => a.id < b.id) ∧
    ∀ token, token ∈ w.canister.listSupportedTokens ↔
      ∃ event ∈ listingsOf w.canister.events,
        token = ⟨event.base, event.baseMetadata⟩ ∨ token = ⟨event.quote, event.quoteMetadata⟩ := by
  have hlogged := h.pairsLogged
  refine ⟨?_, ?_, fun token => ⟨fun hmem => ?_, ?_⟩⟩
  · -- The pairs of the state are a reordering of the listings.
    obtain ⟨listings, hentries, hperm⟩ := Eq.mpr (congrFun₂ (List.eq_map_comp_perm
      fun event : AddTradingPairEvent => (event.pair, event.bookId)) _ _) hlogged.pairs
    have hsorted := w.canister.state.tradingPairs.byPair.sorted
    rw [hentries] at hsorted
    replace hsorted := List.pairwise_map.mp hsorted
    have hrows := State.mapM_tradingPairInfo fun event hmem =>
      hlogged.shown event (hperm.mem_iff.mp hmem)
    rw [← hentries] at hrows
    refine ⟨listings, _, hperm, hsorted, hrows, ?_⟩
    rw [List.forall₂_map_right_iff, List.forall₂_same]
    refine fun event _ => ⟨rfl, ?_⟩
    rw [← halted_haltsOf, ← halted_haltsOf, ← h.haltsLogged, ← Permissions.isHalted_iff]
    show (if _ then TradingStatus.halted else .trading) = .halted ↔ _
    cases w.canister.state.permissions.isHalted event.bookId with
    | true => exact iff_of_true rfl rfl
    | false => exact iff_of_false TradingStatus.noConfusion Bool.noConfusion
  · exact List.pairwise_map.mpr w.canister.state.tokens.sorted
  · obtain ⟨⟨id, metadata⟩, hentry, rfl⟩ := List.mem_map.mp hmem
    obtain ⟨event, hevent, hcase⟩ :=
      hlogged.tokens id metadata ((SortedMap.mem_entries_iff _).mp hentry)
    refine ⟨event, hevent, ?_⟩
    rcases hcase with ⟨rfl, rfl⟩ | ⟨rfl, rfl⟩
    · exact Or.inl rfl
    · exact Or.inr rfl
  · rintro ⟨event, hevent, rfl | rfl⟩
    · have hbase := (hlogged.shown event hevent).base
      exact List.mem_map.mpr ⟨_, (SortedMap.mem_entries_iff _).mpr hbase, rfl⟩
    · have hquote := (hlogged.shown event hevent).quote
      exact List.mem_map.mpr ⟨_, (SortedMap.mem_entries_iff _).mpr hquote, rfl⟩

/-- A pair is shown as halted because its halt is in force. -/
theorem pairs_shown_haltedWorld : ∃ event row,
    listingsOf haltedWorld.canister.events = [event] ∧
    haltedWorld.canister.getTradingPairs = .ok [row] ∧ row = event.info .halted ∧
    (InForce none haltedWorld.canister.events ∨
      InForce (some event.bookId) haltedWorld.canister.events) := by
  obtain ⟨⟨listings, rows, hperm, -, hrows, hall⟩, -⟩ := reachable_haltedWorld.pairs_shown
  have hstatus : haltedWorld.canister.getTradingPairs.map (·.map TradingPairInfo.status)
      = .ok [.halted] := by decide +kernel
  rw [hrows] at hstatus
  obtain ⟨row, rfl, hrow⟩ := List.map_eq_singleton_iff.mp (Except.ok.inj hstatus)
  obtain ⟨event, _, ⟨hinfo, hhalted⟩, hrest, rfl⟩ := List.forall₂_cons_right_iff.mp hall
  obtain rfl := List.forall₂_nil_right_iff.mp hrest
  rw [hrow] at hinfo
  exact ⟨event, row, List.perm_singleton.mp hperm.symm, hrows, hinfo, hhalted.mp hrow⟩

end World

end OisyTrade
