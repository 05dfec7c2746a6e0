import OisyTrade.Invariant.Preserve

/-!
# The operations of a queued event

What is known about every balance operation that waits in the queue of a sound state (`OpOk`): the
orders it names are on record with registered owners, its amounts are sane, and it takes from an
order only what that order reserves.  From that follow the two facts that settling rests on:

* `debits_eq`: what an event takes from a user's row is the sum, over the orders of that user, of
  what its operations take from the order.
* `settle_outcome`: an event whose debits are covered settles, unless a balance leaves its range.
-/

namespace OisyTrade

namespace BalanceOperation

/-- The order that an operation takes from. -/
def source : BalanceOperation → OrderSeq
  | transfer fromOrder _ _ _ _ => fromOrder
  | unreserve order _ _ => order

/-- What an operation takes, before fees. -/
def gross : BalanceOperation → Quantity
  | transfer _ _ _ amount _ => amount
  | unreserve _ _ amount => amount

lemma taken_eq (op : BalanceOperation) (seq : OrderSeq) (tok : PairToken) :
    op.taken seq tok = if op.source = seq ∧ op.token = tok then op.gross.toNat else 0 := by
  cases op <;> rfl

lemma source_mem_seqs (op : BalanceOperation) : op.source ∈ op.seqs := by
  cases op <;> simp [source, seqs]

end BalanceOperation

namespace State

variable {s s' : State} {bookId : OrderBookId} {pair : TradingPair} {scale : BaseScale}

lemma debit_posting (op : BalanceOperation) (t : TokenId) (u : UserId) :
    (s.posting bookId pair op).debit t u
      = if pair.token op.token = t ∧ s.party bookId op.source = u then op.gross.toNat else 0 := by
  cases op <;> rfl

/-- **An operation agrees with the records.** -/
structure OpOk (s : State) (bookId : OrderBookId) (op : BalanceOperation) : Prop where
  known : ∀ seq ∈ op.seqs, s.Known bookId seq
  sane : ∀ pair, (s.posting bookId pair op).Sane
  reserve : ∃ r, s.orderHistory.get (.new bookId op.source) = some r ∧
    op.token = reserveToken r.side

lemma OpOk.mono {op : BalanceOperation} (hx : s.Extends s') (h : s.OpOk bookId op) :
    s'.OpOk bookId op := by
  refine ⟨fun seq hseq => (h.known seq hseq).mono hx, fun pair => ?_, ?_⟩
  · have hsane := h.sane pair
    cases op <;> exact hsane
  · obtain ⟨r, hr, htok⟩ := h.reserve
    obtain ⟨r', hr', hev⟩ := hx.record hr
    exact ⟨r', hr', by rw [hev.side]; exact htok⟩

/-! ## Pieces are made of such operations -/

/-- The amounts of a fill are positive, and no fee exceeds what it is taken from. -/
lemma FillPiece.positive_amounts {st : FillSettlement} {t m : OrderRecord} (hs : s.Sound)
    (h : s.FillPiece bookId scale st t m) :
    0 < st.notional.toNat ∧ 0 < st.fill.quantity.toNat ∧
      st.takerFee.toNat ≤ received st.fill.takerSide st.fill.quantity.toNat st.notional.toNat ∧
      st.makerFee.toNat
        ≤ received st.fill.takerSide.opposite st.fill.quantity.toNat st.notional.toNat := by
  have hspec := FillSettlement.of_new h.new
  obtain ⟨_, -, -, hterms, -⟩ := (hs.records _ m h.maker).book
  have hprice : 0 < st.fill.makerPrice.toNat := by
    rw [h.makerPrice]
    exact hterms.price
  refine ⟨?_, h.positive, ?_, ?_⟩
  · rw [Nat.pos_iff_ne_zero]
    intro h0
    have hmul := hspec.notional
    rw [h0, Nat.zero_mul] at hmul
    exact absurd hmul.symm (Nat.mul_pos hprice h.positive).ne'
  · rw [hspec.takerFee]
    exact BasisPoint.ceilNat_le _ _
  · rw [hspec.makerFee]
    exact BasisPoint.ceilNat_le _ _

lemma nonzero_getD (q : Quantity) : (nonzero q).getD Quantity.zero = q := by
  rw [nonzero]
  split_ifs with h
  · refine Quantity.toNat_inj ?_
    rw [Option.getD_none, Quantity.toNat_zero, Quantity.isZero_iff.mp h]
  · rfl

lemma FillPiece.opOk {st : FillSettlement} {t m : OrderRecord} (hs : s.Sound)
    (h : s.FillPiece bookId scale st t m) {op : BalanceOperation}
    (hop : op ∈ st.balanceOperations) : s.OpOk bookId op := by
  obtain ⟨hn, hq, htf, hmf⟩ := h.positive_amounts hs
  have hknown : ∀ seq ∈ op.seqs, s.Known bookId seq := by
    intro seq hseq
    have hmem : seq ∈ st.balanceOperations.flatMap BalanceOperation.seqs :=
      List.mem_flatMap.mpr ⟨op, hop, hseq⟩
    rcases (mem_seqs_balanceOperations st seq).mp hmem with rfl | rfl
    · exact hs.known h.taker
    · exact hs.known h.maker
  have htaker := h.taker
  have hmaker := h.maker
  have hmside := h.makerSide
  rw [FillSettlement.balanceOperations] at hop
  cases hside : st.fill.takerSide with
  | buy =>
      rw [hside] at htf hmf
      rw [← h.takerSide, hside] at hmside
      simp only [hside, List.mem_append, List.mem_singleton] at hop
      rcases hop with (rfl | hop) | rfl
      · refine ⟨hknown, fun pair => ⟨hn, ?_⟩, t, htaker, ?_⟩
        · rw [nonzero_getD]
          exact hmf
        · rw [← h.takerSide, hside]
          rfl
      · split_ifs at hop with hz
        · cases hop
        · rw [List.mem_singleton] at hop
          subst hop
          refine ⟨hknown, fun pair => Nat.pos_of_ne_zero fun h0 => hz (Quantity.isZero_iff.mpr h0),
            t, htaker, ?_⟩
          rw [← h.takerSide, hside]
          rfl
      · refine ⟨hknown, fun pair => ⟨hq, ?_⟩, m, hmaker, ?_⟩
        · rw [nonzero_getD]
          exact htf
        · rw [hmside]
          rfl
  | sell =>
      rw [hside] at htf hmf
      rw [← h.takerSide, hside] at hmside
      have hz : st.surplus.isZero = true := by
        have hsur := (FillSettlement.of_new h.new).surplus
        rw [hside] at hsur
        exact Quantity.isZero_iff.mpr ((Nat.mul_eq_zero.mp hsur).resolve_right scale.pos.ne')
      simp only [hside, hz, if_true, List.append_nil, List.mem_append, List.mem_singleton] at hop
      rcases hop with rfl | rfl
      · refine ⟨hknown, fun pair => ⟨hn, ?_⟩, m, hmaker, ?_⟩
        · rw [nonzero_getD]
          exact htf
        · rw [hmside]
          rfl
      · refine ⟨hknown, fun pair => ⟨hq, ?_⟩, t, htaker, ?_⟩
        · rw [nonzero_getD]
          exact hmf
        · rw [← h.takerSide, hside]
          rfl

/-- What a refund moves is positive. -/
lemma RefundPiece.amount_pos {rs : RemovedOrderSettlement} {r : OrderRecord} (hs : s.Sound)
    (h : s.RefundPiece bookId scale rs r) : 0 < rs.amount.toNat := by
  obtain ⟨q, -, hpos, hnew⟩ := h.new
  obtain ⟨-, -, hamount, hbuy⟩ := RemovedOrderSettlement.of_new hnew
  obtain ⟨_, -, -, hterms, -⟩ := (hs.records _ r h.record).book
  cases hside : r.side with
  | sell =>
      rw [hamount, hside]
      exact hpos
  | buy =>
      rw [Nat.pos_iff_ne_zero]
      intro h0
      have hmul := hbuy hside
      rw [h0, Nat.zero_mul] at hmul
      exact absurd hmul.symm (Nat.mul_pos hterms.price hpos).ne'

lemma RefundPiece.opOk {rs : RemovedOrderSettlement} {r : OrderRecord} (hs : s.Sound)
    (h : s.RefundPiece bookId scale rs r) {op : BalanceOperation}
    (hop : op ∈ rs.balanceOperations) : s.OpOk bookId op := by
  have hpos := h.amount_pos hs
  obtain ⟨q, -, -, hnew⟩ := h.new
  obtain ⟨-, htok, -⟩ := RemovedOrderSettlement.of_new hnew
  rw [RemovedOrderSettlement.balanceOperations, List.mem_singleton] at hop
  subst hop
  refine ⟨fun seq hseq => ?_, fun pair => hpos, r, h.record, htok⟩
  rw [List.mem_singleton.mp hseq]
  exact hs.known h.record

/-- **Every operation of a piece agrees with the records.** -/
lemma PieceOk.opOk {p : Piece} (hs : s.Sound) (h : s.PieceOk bookId scale p)
    {op : BalanceOperation} (hop : op ∈ p.ops) : s.OpOk bookId op := by
  cases p with
  | fill st =>
      obtain ⟨t, m, hp⟩ := h
      exact hp.opOk hs hop
  | refund rs =>
      obtain ⟨r, hp⟩ := h
      exact hp.opOk hs hop

lemma opOk_of_pieces {pieces : List Piece} (hs : s.Sound)
    (h : ∀ p ∈ pieces, s.PieceOk bookId scale p) :
    ∀ op ∈ pieces.flatMap Piece.ops, s.OpOk bookId op := by
  intro op hop
  obtain ⟨p, hp, hmem⟩ := List.mem_flatMap.mp hop
  exact (h p hp).opOk hs hmem

/-! ## Debits -/

/-- What operations of a book take from an order of a user in a token. -/
def takenOf (s : State) (ops : List BalanceOperation) (bookId : OrderBookId) (pair : TradingPair)
    (t : TokenId) (u : UserId) (id : OrderId) (r : OrderRecord) : ℕ :=
  if id.bookId = bookId ∧ s.userRegistry.fundingId r.owner = some u ∧
      pair.token (reserveToken r.side) = t then takenFrom ops id.seq (reserveToken r.side) else 0

/-- **What an event takes from a row** is what its operations take from the orders of the user. -/
lemma debits_eq {ops : List BalanceOperation} (h : ∀ op ∈ ops, s.OpOk bookId op) (t : TokenId)
    (u : UserId) : debits (s.postings bookId pair ops) t u
      = s.orderHistory.primary.sum fun id e => s.takenOf ops bookId pair t u id e.record := by
  induction ops with
  | nil =>
      refine (SortedMap.sum_eq_zero fun id e _ => ?_).symm
      rw [takenOf, takenFrom_nil, ite_self]
  | cons op ops ih =>
      have hsplit : ∀ (id : OrderId) (r : OrderRecord), s.takenOf (op :: ops) bookId pair t u id r
          = s.takenOf [op] bookId pair t u id r + s.takenOf ops bookId pair t u id r := by
        intro id r
        rw [takenOf, takenOf, takenOf]
        split_ifs
        · exact takenFrom_append [op] ops _ _
        · rfl
      have hone : s.orderHistory.primary.sum (fun id e => s.takenOf [op] bookId pair t u id e.record)
          = (s.posting bookId pair op).debit t u := by
        obtain ⟨r, hr, htok⟩ := (h op List.mem_cons_self).reserve
        obtain ⟨r', uid, hr', hu⟩ := (h op List.mem_cons_self).known _ op.source_mem_seqs
        obtain rfl : r = r' := Option.some.inj (hr.symm.trans hr')
        obtain ⟨e, he, rfl⟩ := Option.map_eq_some_iff.mp hr
        have htaken : ∀ seq tok, takenFrom [op] seq tok
            = if op.source = seq ∧ op.token = tok then op.gross.toNat else 0 := by
          intro seq tok
          rw [takenFrom, List.map_singleton, List.sum_singleton, BalanceOperation.taken_eq]
        rw [SortedMap.sum_single he]
        · rw [takenOf, htaken, debit_posting, State.party_eq hr hu, htok, hu]
          simp only [OrderId.seq_new, OrderId.bookId_new, Option.some.injEq, true_and, and_self,
            if_true]
          by_cases h1 : pair.token (reserveToken e.record.side) = t ∧ uid = u
          · rw [if_pos h1, if_pos ⟨h1.2, h1.1⟩]
          · rw [if_neg h1, if_neg fun h2 => h1 ⟨h2.2, h2.1⟩]
        · intro id e' he' hne
          rw [takenOf, htaken]
          split_ifs with h1 h2
          · exact absurd (by rw [← OrderId.new_eta id, h1.1, h2.1]) hne
          · rfl
          · rfl
      have hsum : debits (s.postings bookId pair (op :: ops)) t u
          = (s.posting bookId pair op).debit t u + debits (s.postings bookId pair ops) t u := rfl
      rw [hsum, ih fun o ho => h o (List.mem_cons_of_mem _ ho), ← hone, ← SortedMap.sum_add]
      exact SortedMap.sum_congr fun id e _ => (hsplit id e.record).symm

end State

end OisyTrade
