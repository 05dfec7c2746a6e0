import OisyTrade.Invariant.Due
import OisyTrade.Script

/-!
# The executor works in bounded, fair chunks

`run_once` settles what is queued and then visits the books that have pending orders, those with the
most orders first.  Each book that is not halted gets one batch off the front of its queue, until the
order budget or the instruction budget is used up.

`Looped` says what the loop over some books has done and `Steady.runBooks` that it has done so when it
returns, by induction over the books.  If no reading of the instruction counter reaches the budget, a
call that returns has matched as many orders as it may and settled all of them.

`Sustains` is the rule for when a call returns at all, and `runOnce_rule` the one for what a call
preserves.  Both are used with `State.DueFits`, so repeated calls come to an end exactly where all that
is due fits.
-/

namespace OisyTrade

lemma ExecutionPolicy.budget_pos (p : ExecutionPolicy) : 0 < p.instructionBudget.toNat := by
  refine Nat.pos_of_ne_zero fun h0 => p.budgetNonzero (BitVec.eq_of_toNat_eq ?_)
  rw [h0]
  rfl

/-! ## The ranking -/

namespace State

variable {s s' : State}

/-- The number of pending orders of a book. -/
def pendingCount (s : State) (id : OrderBookId) : ℕ :=
  (s.orderBooks.get id).elim 0 fun b => b.pendingOrders.length

/-- The number of pending orders of a book that may be matched. -/
def matchable (s : State) (id : OrderBookId) : ℕ :=
  if s.permissions.isHalted id then 0 else s.pendingCount id

/-- The pending orders of all books that are not halted. -/
def matchablePending (s : State) : ℕ :=
  s.orderBooks.sum fun id b => if s.permissions.isHalted id then 0 else b.pendingOrders.length

/-- **More pending orders first**, and of two books with equally many the one with the lower id. -/
def Outranks (s : State) (a b : OrderBookId) : Prop :=
  s.pendingCount b < s.pendingCount a ∨ (s.pendingCount a = s.pendingCount b ∧ a < b)

/-- The books with pending orders and their numbers. -/
def pendingCounts (s : State) : List (OrderBookId × ℕ) :=
  (s.orderBooks.entries.map fun e => (e.1, e.2.pendingOrders.length)).filter fun e => 0 < e.2

lemma mem_pendingCounts {e : OrderBookId × ℕ} (h : e ∈ s.pendingCounts) :
    (s.orderBooks.get e.1).isSome ∧ e.2 = s.pendingCount e.1 ∧ 0 < e.2 := by
  rw [pendingCounts, List.mem_filter, List.mem_map] at h
  obtain ⟨⟨⟨id, b⟩, hb, rfl⟩, hpos⟩ := h
  have hget := s.orderBooks.mem_entries_iff.mp hb
  refine ⟨by rw [hget]; rfl, ?_, of_decide_eq_true hpos⟩
  rw [pendingCount, hget, Option.elim_some]

lemma pendingCounts_nodup (s : State) : (s.pendingCounts.map Prod.fst).Nodup := by
  refine List.Nodup.sublist ?_ s.orderBooks.keys_nodup
  refine (List.filter_sublist.map Prod.fst).trans ?_
  rw [List.map_map]
  exact List.Sublist.refl _

lemma booksByPendingOrderCountDesc_perm (s : State) :
    s.booksByPendingOrderCountDesc.Perm (s.pendingCounts.map Prod.fst) :=
  (List.perm_insertionSort BookBefore s.pendingCounts).map Prod.fst

lemma bookBefore_trans {a b d : OrderBookId × ℕ} (h : BookBefore a b) (h' : BookBefore b d) :
    BookBefore a d := by
  rcases h with h | ⟨h, hid⟩
  · rcases h' with h' | ⟨h', -⟩
    · exact Or.inl (by omega)
    · exact Or.inl (by omega)
  · rcases h' with h' | ⟨h', hid'⟩
    · exact Or.inl (by omega)
    · exact Or.inr ⟨h.trans h', hid.trans hid'⟩

lemma bookBefore_total (a b : OrderBookId × ℕ) : BookBefore a b ∨ BookBefore b a := by
  rcases lt_trichotomy a.2 b.2 with h | h | h
  · exact Or.inr (Or.inl h)
  · rcases le_total a.1 b.1 with hid | hid
    · exact Or.inl (Or.inr ⟨h, hid⟩)
    · exact Or.inr (Or.inr ⟨h.symm, hid⟩)
  · exact Or.inl (Or.inl h)

instance : IsTrans (OrderBookId × ℕ) BookBefore := ⟨fun _ _ _ => bookBefore_trans⟩

instance : Std.Total (α := OrderBookId × ℕ) BookBefore := ⟨bookBefore_total⟩

/-- **The books are visited in rank order.** -/
theorem booksByPendingOrderCountDesc_pairwise (s : State) :
    s.booksByPendingOrderCountDesc.Pairwise s.Outranks := by
  have hsorted := List.pairwise_insertionSort BookBefore s.pendingCounts
  have hnodup : ((s.pendingCounts.insertionSort BookBefore).map Prod.fst).Nodup :=
    s.booksByPendingOrderCountDesc_perm.nodup_iff.mpr s.pendingCounts_nodup
  show ((s.pendingCounts.insertionSort BookBefore).map Prod.fst).Pairwise s.Outranks
  rw [List.Nodup, List.pairwise_map] at hnodup
  rw [List.pairwise_map]
  refine (hsorted.and hnodup).imp_of_mem fun {a b} ha hb hab => ?_
  obtain ⟨-, hca, -⟩ := mem_pendingCounts (List.mem_insertionSort BookBefore |>.mp ha)
  obtain ⟨-, hcb, -⟩ := mem_pendingCounts (List.mem_insertionSort BookBefore |>.mp hb)
  rw [Outranks, ← hca, ← hcb]
  exact hab.1.imp_right fun hx => ⟨hx.1, lt_of_le_of_ne hx.2 hab.2⟩

lemma booksByPendingOrderCountDesc_nodup (s : State) : s.booksByPendingOrderCountDesc.Nodup :=
  s.booksByPendingOrderCountDesc_perm.nodup_iff.mpr s.pendingCounts_nodup

lemma listed_of_ranked {id : OrderBookId} (h : id ∈ s.booksByPendingOrderCountDesc) :
    (s.orderBooks.get id).isSome := by
  obtain ⟨e, he, rfl⟩ := List.mem_map.mp (s.booksByPendingOrderCountDesc_perm.mem_iff.mp h)
  exact (mem_pendingCounts he).1

/-- Books without pending orders do not count. -/
lemma sum_filter_counts (p : OrderBookId → Bool) (l : List (OrderBookId × OrderBook)) :
    (((l.map fun e => (e.1, e.2.pendingOrders.length)).filter fun e => 0 < e.2).map fun e =>
        if p e.1 then 0 else e.2).sum
      = (l.map fun e => if p e.1 then 0 else e.2.pendingOrders.length).sum := by
  induction l with
  | nil => rfl
  | cons e l ih =>
      rw [List.map_cons, List.map_cons, List.sum_cons, ← ih]
      by_cases h0 : 0 < e.2.pendingOrders.length
      · rw [List.filter_cons_of_pos (by simpa using h0), List.map_cons, List.sum_cons]
      · rw [List.filter_cons_of_neg (by simpa using h0)]
        have hzero : e.2.pendingOrders.length = 0 := by omega
        rw [hzero, ite_self, Nat.zero_add]

lemma sum_ranked (s : State) :
    (s.booksByPendingOrderCountDesc.map s.matchable).sum = s.matchablePending := by
  have hperm := s.booksByPendingOrderCountDesc_perm.map s.matchable
  rw [hperm.sum_eq, List.map_map, matchablePending, SortedMap.sum,
    ← sum_filter_counts s.permissions.isHalted]
  refine congrArg List.sum (List.map_congr_left fun e he => ?_)
  rw [Function.comp_apply, matchable, ← (mem_pendingCounts he).2.1]

lemma matchable_congr {id : OrderBookId} (hbooks : s'.orderBooks.get id = s.orderBooks.get id)
    (hrules : s'.permissions = s.permissions) : s'.matchable id = s.matchable id := by
  rw [matchable, matchable, pendingCount, pendingCount, hbooks, hrules]

/-- **When the executor is done.** -/
theorem executionStatus_eq_complete : s.executionStatus = .complete ↔
    (∀ id b, s.orderBooks.get id = some b → s.permissions.isHalted id = false →
      b.pendingOrders = []) ∧ s.pendingSettlingEvents = [] := by
  have hmatch : s.hasMatchablePendingOrders = false ↔
      ∀ id b, s.orderBooks.get id = some b → s.permissions.isHalted id = false →
        b.pendingOrders = [] := by
    rw [hasMatchablePendingOrders, List.any_eq_false]
    constructor
    · intro h id b hb hhalt
      have hx := h (id, b) (s.orderBooks.mem_entries_iff.mpr hb)
      simpa [Permissions.permitMatching, hhalt, Except.isOk, Except.toBool] using hx
    · rintro h ⟨id, b⟩ hb
      have hget := s.orderBooks.mem_entries_iff.mp hb
      cases hhalt : s.permissions.isHalted id with
      | true => simp [Permissions.permitMatching, hhalt, Except.isOk, Except.toBool]
      | false => simp [h id b hget hhalt]
  rw [executionStatus, ← hmatch]
  cases s.hasMatchablePendingOrders <;> cases s.pendingSettlingEvents <;> simp

lemma executionStatus_of_matchable (h : s.matchablePending = 0)
    (hqueue : s.pendingSettlingEvents = []) : s.executionStatus = .complete := by
  refine executionStatus_eq_complete.mpr ⟨fun id b hb hhalt => ?_, hqueue⟩
  have hle := SortedMap.le_sum (m := s.orderBooks)
    (fun id b => if s.permissions.isHalted id then 0 else b.pendingOrders.length) hb
  rw [matchablePending] at h
  simp only [hhalt, Bool.false_eq_true, if_false] at hle
  exact List.length_eq_zero_iff.mp (by omega)

end State

/-! ## The loop over the books -/

/-- The matching events of a log. -/
def matchingsOf (events : List Event) : List MatchingEvent :=
  events.filterMap fun e =>
    match e.payload with
    | .matching event => some event
    | _ => none

/-- The number of orders in some batches. -/
def ordersIn (rounds : List MatchingEvent) : ℕ := (rounds.map fun e => e.orders.length).sum

lemma matchingsOf_append (events events' : List Event) :
    matchingsOf (events ++ events') = matchingsOf events ++ matchingsOf events' :=
  List.filterMap_append

lemma matchingsOf_settling (now : Timestamp) (done : List SettlingEvent) :
    matchingsOf (done.map fun e => ⟨now, .settling e⟩) = [] := by
  induction done with
  | nil => rfl
  | cons e done ih => exact ih

namespace Canister

variable {c c' : Canister} {rt : Runtime}

/-- **The batches of a loop over some books**: one at most for each book, in the order of the books,
each the front of the book's queue, and only for books that are not halted. -/
structure Rounds (c : Canister) (ids : List OrderBookId) (rounds : List MatchingEvent)
    (c' : Canister) : Prop where
  log : ∃ new, c'.events = c.events ++ new ∧ matchingsOf new = rounds
  visits : (rounds.map (·.bookId)).Sublist ids
  fifo : ∀ e ∈ rounds, ∃ b, c.state.orderBooks.get e.bookId = some b ∧
    e.orders <+: b.pendingOrderSeqs ∧ e.orders ≠ [] ∧
    c.state.permissions.isHalted e.bookId = false

lemma Rounds.refl (c : Canister) (ids : List OrderBookId) : c.Rounds ids [] c :=
  ⟨⟨[], by simp, rfl⟩, List.nil_sublist _, by simp⟩

/-- A book without a batch. -/
lemma Rounds.skip {ids : List OrderBookId} {rounds : List MatchingEvent} {id : OrderBookId}
    (h : c.Rounds ids rounds c') : c.Rounds (id :: ids) rounds c' :=
  ⟨h.log, h.visits.cons id, h.fifo⟩

/-- Settling in between changes nothing for the books. -/
lemma Rounds.of_quiet {c₁ : Canister} {ids : List OrderBookId} {rounds : List MatchingEvent}
    {new : List Event} (h : c₁.Rounds ids rounds c') (hlog : c₁.events = c.events ++ new)
    (hnew : matchingsOf new = []) (hbooks : ∀ id ∈ ids, c₁.state.orderBooks.get id
      = c.state.orderBooks.get id) (hrules : c.SameRules c₁) : c.Rounds ids rounds c' := by
  obtain ⟨more, hmore, hrounds⟩ := h.log
  refine ⟨⟨new ++ more, by rw [hmore, hlog, List.append_assoc], ?_⟩, h.visits, fun e he => ?_⟩
  · rw [matchingsOf_append, hnew, hrounds, List.nil_append]
  · obtain ⟨b, hb, hprefix, hne, hhalt⟩ := h.fifo e he
    have hid : e.bookId ∈ ids := h.visits.subset (List.mem_map_of_mem he)
    refine ⟨b, by rw [← hbooks _ hid]; exact hb, hprefix, hne, ?_⟩
    rw [← hrules.permissions]
    exact hhalt

/-! The body of the loop, for a book that is halted, one without pending orders, and one with a
batch. -/

lemma runBooks_halted {budget k n : ℕ} {id : OrderBookId} {ids : List OrderBookId} (hk : k ≠ 0)
    (hread : rt.instructionCounter n < budget) (hhalt : c.state.permissions.isHalted id = true) :
    c.runBooks rt budget (id :: ids) k n = c.runBooks rt budget ids k (n + 1) := by
  rw [runBooks, if_neg hk, if_neg (Nat.not_le.mpr hread)]
  simp only [Permissions.permitMatching, hhalt, if_true]

lemma runBooks_empty {budget k n : ℕ} {id : OrderBookId} {ids : List OrderBookId} {b : OrderBook}
    (hk : k ≠ 0) (hread : rt.instructionCounter n < budget)
    (hhalt : c.state.permissions.isHalted id = false) (hb : c.state.orderBooks.get id = some b)
    (hnone : b.pendingOrderSeqs.take k = []) :
    c.runBooks rt budget (id :: ids) k n = c.runBooks rt budget ids k (n + 1) := by
  rw [runBooks, if_neg hk, if_neg (Nat.not_le.mpr hread)]
  simp only [Permissions.permitMatching, hhalt, Bool.false_eq_true, if_false, hb, expectBug,
    Except.expect_some, Except.bind_ok, hnone, List.isEmpty_nil, if_true]

lemma runBooks_batch {budget k n m : ℕ} {id : OrderBookId} {ids : List OrderBookId} {b : OrderBook}
    {c₁ c₂ : Canister} (hk : k ≠ 0) (hread : rt.instructionCounter n < budget)
    (hhalt : c.state.permissions.isHalted id = false) (hb : c.state.orderBooks.get id = some b)
    (hne : b.pendingOrderSeqs.take k ≠ [])
    (hmatch : c.processEvent (.matching ⟨id, b.pendingOrderSeqs.take k⟩) rt.time = .ok c₁)
    (hdrain : c₁.drainSettling rt budget (n + 1) = .ok (c₂, m)) :
    c.runBooks rt budget (id :: ids) k n
      = c₂.runBooks rt budget ids (k - (b.pendingOrderSeqs.take k).length) m := by
  rw [runBooks, if_neg hk, if_neg (Nat.not_le.mpr hread)]
  have hempty : ¬ (b.pendingOrderSeqs.take k).isEmpty = true := fun h =>
    hne (List.isEmpty_iff.mp h)
  have hle : decide ((b.pendingOrderSeqs.take k).length ≤ k) = true :=
    decide_eq_true (List.length_take_le k _)
  simp only [Permissions.permitMatching, hhalt, Bool.false_eq_true, if_false, hb, expectBug,
    Except.expect_some, Except.bind_ok, if_neg hempty, assertBug, hle, Except.assert_true, hmatch,
    hdrain]

lemma runBooks_cons_eq_ok {budget k n : ℕ} {id : OrderBookId} {ids : List OrderBookId}
    (hk : k ≠ 0) (hread : rt.instructionCounter n < budget)
    (h : c.runBooks rt budget (id :: ids) k n = .ok c') :
    (c.state.permissions.isHalted id = true ∧ c.runBooks rt budget ids k (n + 1) = .ok c') ∨
    c.state.permissions.isHalted id = false ∧ ∃ b, c.state.orderBooks.get id = some b ∧
      ((b.pendingOrderSeqs.take k = [] ∧ c.runBooks rt budget ids k (n + 1) = .ok c') ∨
        b.pendingOrderSeqs.take k ≠ [] ∧ ∃ c₁ c₂ m,
          c.processEvent (.matching ⟨id, b.pendingOrderSeqs.take k⟩) rt.time = .ok c₁ ∧
          c₁.drainSettling rt budget (n + 1) = .ok (c₂, m) ∧
          c₂.runBooks rt budget ids (k - (b.pendingOrderSeqs.take k).length) m = .ok c') := by
  rw [runBooks, if_neg hk, if_neg (Nat.not_le.mpr hread)] at h
  cases hhalt : c.state.permissions.isHalted id with
  | true =>
      simp only [Permissions.permitMatching, hhalt, if_true] at h
      exact Or.inl ⟨rfl, h⟩
  | false =>
      simp only [Permissions.permitMatching, hhalt, Bool.false_eq_true, if_false,
        Except.bind_eq_ok, Except.expect_eq_ok] at h
      obtain ⟨b, hb, h⟩ := h
      refine Or.inr ⟨rfl, b, hb, ?_⟩
      split_ifs at h with hempty
      · exact Or.inl ⟨List.isEmpty_iff.mp hempty, h⟩
      · simp only [Except.bind_eq_ok, Prod.exists] at h
        obtain ⟨-, -, c₁, hproc, c₂, m, hdrain, hrest⟩ := h
        exact Or.inr ⟨fun he => hempty (List.isEmpty_iff.mpr he), c₁, c₂, m, hproc, hdrain, hrest⟩

/-- **What the loop over some books has done** with an order budget of `k`.  If no reading reaches
the instruction budget, it takes as many orders as there are, up to the budget, and settles all. -/
structure Looped (rt : Runtime) (budget : ℕ) (c : Canister) (ids : List OrderBookId) (k : ℕ)
    (rounds : List MatchingEvent) (c' : Canister) : Prop where
  rules : c.SameRules c'
  batches : c.Rounds ids rounds c'
  bounded : ordersIn rounds ≤ k
  left : c'.state.matchablePending + ordersIn rounds = c.state.matchablePending
  exact : (∀ j, rt.instructionCounter j < budget) →
    ordersIn rounds = min k (ids.map c.state.matchable).sum
  settled : (∀ j, rt.instructionCounter j < budget) → c.state.pendingSettlingEvents = [] →
    c'.state.pendingSettlingEvents = []

namespace Looped

variable {budget k : ℕ} {ids : List OrderBookId} {id : OrderBookId} {rounds : List MatchingEvent}

/-- The loop ends. -/
lemma stop (hstop : (∀ j, rt.instructionCounter j < budget) →
    k = 0 ∨ (ids.map c.state.matchable).sum = 0) : Looped rt budget c ids k [] c := by
  refine ⟨.refl c, .refl c ids, Nat.zero_le _, rfl, fun hj => ?_, fun _ hq => hq⟩
  have hzero : ordersIn [] = 0 := rfl
  rcases hstop hj with hk | hsum
  · rw [hzero, hk, Nat.zero_min]
  · rw [hzero, hsum, Nat.min_zero]

/-- A book has nothing to match. -/
lemma skip (h : Looped rt budget c ids k rounds c') (hzero : c.state.matchable id = 0) :
    Looped rt budget c (id :: ids) k rounds c' := by
  refine ⟨h.rules, h.batches.skip, h.bounded, h.left, fun hj => ?_, h.settled⟩
  rw [List.map_cons, List.sum_cons, hzero, Nat.zero_add]
  exact h.exact hj

/-- A batch of one book, settled before the next book. -/
lemma batch {c₁ c₂ : Canister} {b b' : OrderBook} {done rest : List SettlingEvent}
    (hb : c.state.orderBooks.get id = some b) (hhalt : c.state.permissions.isHalted id = false)
    (hne : b.pendingOrderSeqs.take k ≠ []) (hid : id ∉ ids)
    (hbooks₁ : c₁.state.orderBooks = c.state.orderBooks.insert id b')
    (hpend : b'.pendingOrders = b.pendingOrders.drop k) (hrules₁ : c.SameRules c₁)
    (hlog₁ : c₁.events = c.events ++ [⟨rt.time, .matching ⟨id, b.pendingOrderSeqs.take k⟩⟩])
    (hbooks₂ : c₂.state.orderBooks = c₁.state.orderBooks) (hrules₂ : c₁.SameRules c₂)
    (hlog₂ : c₂.events = c₁.events ++ done.map (fun e => ⟨rt.time, .settling e⟩))
    (hqueue : c₂.state.pendingSettlingEvents = rest)
    (hempty : (∀ j, rt.instructionCounter j < budget) → rest = [])
    (h : Looped rt budget c₂ ids (k - (b.pendingOrderSeqs.take k).length) rounds c') :
    Looped rt budget c (id :: ids) k (⟨id, b.pendingOrderSeqs.take k⟩ :: rounds) c' := by
  have hrules := hrules₁.trans hrules₂
  have hsame : ∀ id' ∈ ids, c₂.state.orderBooks.get id' = c.state.orderBooks.get id' := by
    intro id' hid'
    rw [hbooks₂, hbooks₁, SortedMap.get_insert_of_ne]
    rintro rfl
    exact hid hid'
  have hlen : (b.pendingOrderSeqs.take k).length = min k b.pendingOrders.length := by
    rw [List.length_take, OrderBook.pendingOrderSeqs, List.length_map]
  have horders : ordersIn (⟨id, b.pendingOrderSeqs.take k⟩ :: rounds)
      = min k b.pendingOrders.length + ordersIn rounds := by
    rw [ordersIn, List.map_cons, List.sum_cons, hlen]
    rfl
  have hbounded := h.bounded
  refine ⟨hrules.trans h.rules, ⟨?_, h.batches.visits.cons_cons id, ?_⟩, ?_, ?_, fun hj => ?_,
    fun hj _ => h.settled hj (hqueue.trans (hempty hj))⟩
  · obtain ⟨new, hnew, hrounds⟩ := h.batches.log
    refine ⟨⟨rt.time, .matching ⟨id, b.pendingOrderSeqs.take k⟩⟩ ::
      (done.map (fun e => ⟨rt.time, .settling e⟩) ++ new), ?_, ?_⟩
    · rw [hnew, hlog₂, hlog₁, List.append_assoc, List.append_assoc]
      rfl
    · show ⟨id, _⟩ :: matchingsOf _ = _
      rw [matchingsOf_append, matchingsOf_settling, hrounds, List.nil_append]
  · intro e he
    rcases List.mem_cons.mp he with rfl | he
    · exact ⟨b, hb, List.take_prefix k _, hne, hhalt⟩
    · obtain ⟨b₁, hb₁, hfront, hne₁, hhalt₁⟩ := h.batches.fifo e he
      refine ⟨b₁, ?_, hfront, hne₁, by rw [← hrules.permissions]; exact hhalt₁⟩
      rw [← hsame _ (h.batches.visits.subset (List.mem_map_of_mem he))]
      exact hb₁
  · rw [horders]
    omega
  · have hx := SortedMap.sum_insert_of_some c.state.orderBooks (fun id b =>
      if c.state.permissions.isHalted id then 0 else b.pendingOrders.length) b' hb
    rw [← hbooks₁, ← hbooks₂] at hx
    simp only [hhalt, Bool.false_eq_true, if_false, hpend, List.length_drop] at hx
    have hpending : c₂.state.matchablePending + b.pendingOrders.length
        = c.state.matchablePending + (b.pendingOrders.length - k) := by
      rw [State.matchablePending, State.matchablePending, hrules.permissions]
      exact hx
    have hleft := h.left
    rw [horders]
    omega
  · have hmatchable : (ids.map c₂.state.matchable).sum = (ids.map c.state.matchable).sum :=
      congrArg List.sum (List.map_congr_left fun id' hid' =>
        State.matchable_congr (hsame id' hid') hrules.permissions)
    have hcount : c.state.matchable id = b.pendingOrders.length := by
      rw [State.matchable, hhalt, State.pendingCount, hb]
      rfl
    rw [horders, h.exact hj, hmatchable, hlen, List.map_cons, List.sum_cons, hcount]
    omega

end Looped

/-- **The loop over the books**, when it returns. -/
theorem Steady.runBooks {budget : ℕ} :
    ∀ {ids : List OrderBookId} {c c' : Canister} {k n : ℕ}, c.Steady → ids.Nodup →
      c.runBooks rt budget ids k n = .ok c' → ∃ rounds, Looped rt budget c ids k rounds c' := by
  intro ids
  induction ids with
  | nil =>
      intro c c' k n hc _ hrun
      cases hrun
      exact ⟨[], .stop fun _ => Or.inr rfl⟩
  | cons id ids ih =>
      intro c c' k n hc hnd hrun
      obtain ⟨hnot, hnd'⟩ := List.nodup_cons.mp hnd
      by_cases hk : k = 0
      · rw [Canister.runBooks, if_pos hk] at hrun
        cases hrun
        exact ⟨[], .stop fun _ => Or.inl hk⟩
      by_cases hread : rt.instructionCounter n < budget
      · rcases runBooks_cons_eq_ok hk hread hrun with ⟨hhalt, hrest⟩ |
          ⟨hhalt, b, hb, ⟨hnone, hrest⟩ | ⟨hne, c₁, c₂, m, hmatch, hdrain, hrest⟩⟩
        · obtain ⟨rounds, hloop⟩ := ih hc hnd' hrest
          refine ⟨rounds, hloop.skip ?_⟩
          rw [State.matchable, hhalt, if_pos rfl]
        · obtain ⟨rounds, hloop⟩ := ih hc hnd' hrest
          refine ⟨rounds, hloop.skip ?_⟩
          have hlen := congrArg List.length hnone
          rw [List.length_take, OrderBook.pendingOrderSeqs, List.length_map,
            List.length_nil] at hlen
          rw [State.matchable, hhalt, State.pendingCount, hb]
          show b.pendingOrders.length = 0
          omega
        · obtain ⟨hc₁, hrules₁, hlog₁, b', -, -, -, -, -, -, -, hbooks₁, hpend⟩ :=
            hc.matched hb hhalt hne hmatch
          obtain ⟨hc₂, hrules₂, hbooks₂, done, rest, hqueue, hlog₂, hempty⟩ := hc₁.drained hdrain
          obtain ⟨rounds, hloop⟩ := ih hc₂ hnd' hrest
          exact ⟨_, hloop.batch hb hhalt hne hnot hbooks₁ hpend hrules₁ hlog₁ hbooks₂ hrules₂ hlog₂
            hqueue hempty⟩
      · rw [Canister.runBooks, if_neg hk, if_pos (Nat.not_lt.mp hread)] at hrun
        cases hrun
        exact ⟨[], .stop fun hj => absurd (hj n) hread⟩

/-! ## One call and repeated calls -/

/-- **One call of `run_once`** that ends with a status. -/
structure RanOnce (rt : Runtime) (c : Canister) (rounds : List MatchingEvent)
    (status : ExecutionStatus) (c' : Canister) : Prop where
  batches : c.Rounds c.state.booksByPendingOrderCountDesc rounds c'
  nodup : (rounds.map (·.bookId)).Nodup
  ranked : (rounds.map (·.bookId)).Pairwise c.state.Outranks
  bounded : ordersIn rounds ≤ c.state.executionPolicy.maxOrdersPerChunk.toNat
  complete : status = .complete ↔
    (∀ id b, c'.state.orderBooks.get id = some b → c'.state.permissions.isHalted id = false →
      b.pendingOrders = []) ∧ c'.state.pendingSettlingEvents = []
  conserving : (∀ j, rt.instructionCounter j < c.state.executionPolicy.instructionBudget.toNat) →
    ordersIn rounds
      = min c.state.executionPolicy.maxOrdersPerChunk.toNat c.state.matchablePending ∧
    c'.state.pendingSettlingEvents = []

/-- **`run_once`**, when it returns. -/
theorem Steady.runOnce (hc : c.Steady) {status : ExecutionStatus}
    (h : c.runOnce rt = .ok (status, c')) :
    ∃ rounds, c.SameRules c' ∧ RanOnce rt c rounds status c' ∧
      c'.state.matchablePending + ordersIn rounds = c.state.matchablePending := by
  simp only [Canister.runOnce, Except.bind_eq_ok, Prod.exists] at h
  obtain ⟨c₁, n, hdrain, hrun⟩ := h
  obtain ⟨hc₁, hrules₁, hbooks₁, done, rest, hqueue₁, hlog₁, hempty⟩ := hc.drained hdrain
  have hranked : c₁.state.booksByPendingOrderCountDesc = c.state.booksByPendingOrderCountDesc := by
    rw [State.booksByPendingOrderCountDesc, State.booksByPendingOrderCountDesc, hbooks₁]
  have hpending : c₁.state.matchablePending = c.state.matchablePending := by
    rw [State.matchablePending, State.matchablePending, hbooks₁, hrules₁.permissions]
  -- What the loop does, if it is reached at all.
  have hbody : status = c'.state.executionStatus ∧ ∃ rounds,
      Looped rt c.state.executionPolicy.instructionBudget.toNat c₁
        c.state.booksByPendingOrderCountDesc
        c.state.executionPolicy.maxOrdersPerChunk.toNat rounds c' := by
    split_ifs at hrun with hread
    · simp only [Except.ok.injEq, Prod.mk.injEq] at hrun
      obtain ⟨rfl, rfl⟩ := hrun
      exact ⟨rfl, [], .stop fun hj => absurd (hj n) (Nat.not_lt.mpr hread)⟩
    · simp only [Except.bind_eq_ok, Except.ok.injEq, Prod.mk.injEq] at hrun
      obtain ⟨c₂, hbooks, rfl, rfl⟩ := hrun
      obtain ⟨rounds, hloop⟩ := hc₁.runBooks c₁.state.booksByPendingOrderCountDesc_nodup hbooks
      rw [hranked] at hloop
      exact ⟨rfl, rounds, hloop⟩
  obtain ⟨rfl, rounds, hloop⟩ := hbody
  have hbatches := hloop.batches.of_quiet (c := c) hlog₁ (matchingsOf_settling rt.time done)
    (fun id _ => by rw [hbooks₁]) hrules₁
  refine ⟨rounds, hrules₁.trans hloop.rules,
    ⟨hbatches, ?_, ?_, hloop.bounded, State.executionStatus_eq_complete, fun hj => ⟨?_, ?_⟩⟩, ?_⟩
  · exact c.state.booksByPendingOrderCountDesc_nodup.sublist hbatches.visits
  · exact c.state.booksByPendingOrderCountDesc_pairwise.sublist hbatches.visits
  · rw [hloop.exact hj, ← hranked, State.sum_ranked, hpending]
  · exact hloop.settled hj (hqueue₁.trans (hempty hj))
  · rw [hloop.left, hpending]

/-! ## When a call returns -/

/-- **Settling and matching lead from `P` to `P`**: the head of the queue can be settled and the front
of a book can be matched. -/
structure Sustains (now : Timestamp) (P : Canister → Prop) : Prop where
  steady : ∀ {c}, P c → c.Steady
  settle : ∀ {c event rest}, P c → c.state.pendingSettlingEvents = event :: rest →
    ∃ c', (c.withQueue rest).processEvent (.settling event) now = .ok c' ∧ P c'
  matching : ∀ {c id b n}, P c → c.state.orderBooks.get id = some b →
    c.state.permissions.isHalted id = false → b.pendingOrderSeqs.take n ≠ [] →
    ∃ c', c.processEvent (.matching ⟨id, b.pendingOrderSeqs.take n⟩) now = .ok c' ∧ P c'

lemma Ready.sustains (now : Timestamp) : Sustains now Ready :=
  ⟨fun h => h.steady, fun h hqueue => h.settle hqueue now,
    fun h hb hhalt hne => h.match hb hhalt hne now⟩

lemma Provided.sustains (now : Timestamp) : Sustains now Provided :=
  ⟨fun h => h.steady, fun h hqueue => h.settle hqueue now,
    fun h hb hhalt hne => h.match hb hhalt hne now⟩

namespace Sustains

variable {P : Canister → Prop}

lemma drainSettling (hP : Sustains rt.time P) (hc : P c) (budget n : ℕ) :
    ∃ c' n', c.drainSettling rt budget n = .ok (c', n') ∧ P c' :=
  drainLoop_returns hP.settle hc

lemma runBooks (hP : Sustains rt.time P) (budget : ℕ) :
    ∀ {ids : List OrderBookId} {c : Canister} (k n : ℕ), P c →
      (∀ id ∈ ids, (c.state.orderBooks.get id).isSome) →
      ∃ c', c.runBooks rt budget ids k n = .ok c' ∧ P c' := by
  intro ids
  induction ids with
  | nil => exact fun {c} k n hc _ => ⟨c, rfl, hc⟩
  | cons id ids ih =>
      intro c k n hc hsome
      have hsome' : ∀ id' ∈ ids, (c.state.orderBooks.get id').isSome := fun id' h =>
        hsome id' (List.mem_cons_of_mem _ h)
      by_cases hk : k = 0
      · exact ⟨c, by rw [Canister.runBooks, if_pos hk], hc⟩
      by_cases hread : rt.instructionCounter n < budget
      · cases hhalt : c.state.permissions.isHalted id with
        | true =>
            rw [runBooks_halted hk hread hhalt]
            exact ih k (n + 1) hc hsome'
        | false =>
            obtain ⟨b, hb⟩ := Option.isSome_iff_exists.mp (hsome id List.mem_cons_self)
            by_cases hnone : b.pendingOrderSeqs.take k = []
            · rw [runBooks_empty hk hread hhalt hb hnone]
              exact ih k (n + 1) hc hsome'
            · obtain ⟨c₁, hmatch, hc₁⟩ := hP.matching hc hb hhalt hnone
              obtain ⟨c₂, m, hdrain, hc₂⟩ := hP.drainSettling hc₁ budget (n + 1)
              obtain ⟨-, -, -, b', -, -, -, -, -, -, -, hbooks₁, -⟩ :=
                (hP.steady hc).matched hb hhalt hnone hmatch
              obtain ⟨-, -, hbooks₂, -⟩ := (hP.steady hc₁).drained hdrain
              rw [runBooks_batch hk hread hhalt hb hnone hmatch hdrain]
              refine ih _ m hc₂ fun id' hid' => ?_
              rw [hbooks₂, hbooks₁, SortedMap.get_insert]
              split_ifs
              · rfl
              · exact hsome' id' hid'
      · exact ⟨c, by rw [Canister.runBooks, if_neg hk, if_pos (Nat.not_lt.mp hread)], hc⟩

/-- **`run_once` returns.** -/
theorem runOnce (hP : Sustains rt.time P) (hc : P c) :
    ∃ c' status, c.runOnce rt = .ok (status, c') ∧ P c' := by
  obtain ⟨c₁, n, hdrain, hc₁⟩ := hP.drainSettling hc
    c.state.executionPolicy.instructionBudget.toNat 0
  by_cases hread : c.state.executionPolicy.instructionBudget.toNat ≤ rt.instructionCounter n
  · refine ⟨c₁, c₁.state.executionStatus, ?_, hc₁⟩
    simp only [Canister.runOnce, hdrain, Except.bind_ok, if_pos hread]
  · obtain ⟨c', hrun, hc'⟩ := hP.runBooks c.state.executionPolicy.instructionBudget.toNat
      c.state.executionPolicy.maxOrdersPerChunk.toNat (n + 1) hc₁
      fun _ hid => State.listed_of_ranked hid
    refine ⟨c', c'.state.executionStatus, ?_, hc'⟩
    simp only [Canister.runOnce, hdrain, Except.bind_ok, if_neg hread, hrun]

end Sustains

/-- **`run_once` returns** while there is room, and keeps it. -/
theorem Ready.runOnce (h : c.Ready) (rt : Runtime) :
    ∃ c' rounds status, c.runOnce rt = .ok (status, c') ∧ c'.Ready ∧ c.SameRules c' ∧
      RanOnce rt c rounds status c' ∧
      c'.state.matchablePending + ordersIn rounds = c.state.matchablePending := by
  obtain ⟨c', status, hrun, hready⟩ := (Ready.sustains rt.time).runOnce h
  obtain ⟨rounds, hrules, hran, hleft⟩ := h.steady.runOnce hrun
  exact ⟨c', rounds, status, hrun, hready, hrules, hran, hleft⟩

/-! ## The rule for a call -/

section Rule

variable {P : Canister → Prop}
  (hsettle : ∀ {c c' : Canister} {event : SettlingEvent} {rest : List SettlingEvent}, P c →
    c.state.pendingSettlingEvents = event :: rest →
    (c.withQueue rest).processEvent (.settling event) rt.time = .ok c' → P c')
  (hmatch : ∀ {c c' : Canister} {event : MatchingEvent}, P c →
    c.state.Admits rt.time (.matching event) →
    c.processEvent (.matching event) rt.time = .ok c' → P c')

include hsettle

lemma drainLoop_rule {budget : ℕ} :
    ∀ {fuel : ℕ} {c c' : Canister} {n n' : ℕ}, P c →
      drainLoop rt budget fuel c n = .ok (c', n') → P c'
  | 0, c, c', n, n', h, hrun => by
      cases hrun
      exact h
  | fuel + 1, c, c', n, n', h, hrun => by
      rw [drainLoop] at hrun
      split_ifs at hrun with hbudget
      · cases hq : c.state.pendingSettlingEvents with
        | nil =>
            rw [hq] at hrun
            cases hrun
            exact h
        | cons event rest =>
            simp only [hq, Except.bind_eq_ok] at hrun
            obtain ⟨c₁, hproc, hloop⟩ := hrun
            exact drainLoop_rule (hsettle h hq hproc) hloop
      · cases hrun
        exact h

include hmatch

lemma runBooks_rule {budget : ℕ} :
    ∀ {books : List OrderBookId} {orderBudget : ℕ} {c c' : Canister} {n : ℕ}, P c →
      c.runBooks rt budget books orderBudget n = .ok c' → P c'
  | [], orderBudget, c, c', n, h, hrun => by
      cases hrun
      exact h
  | id :: ids, orderBudget, c, c', n, h, hrun => by
      by_cases hk : orderBudget = 0
      · rw [runBooks, if_pos hk] at hrun
        cases hrun
        exact h
      by_cases hread : rt.instructionCounter n < budget
      · rcases runBooks_cons_eq_ok hk hread hrun with ⟨-, hrest⟩ |
          ⟨hhalt, b, hb, ⟨-, hrest⟩ | ⟨hne, c₁, c₂, m, hproc, hdrain, hrest⟩⟩
        · exact runBooks_rule h hrest
        · exact runBooks_rule h hrest
        · have hadmits : c.state.Admits rt.time
              (.matching ⟨id, b.pendingOrderSeqs.take orderBudget⟩) :=
            ⟨b, orderBudget, hb, rfl, hne, hhalt⟩
          exact runBooks_rule (drainLoop_rule hsettle (hmatch h hadmits hproc) hdrain) hrest
      · rw [runBooks, if_neg hk, if_pos (Nat.not_lt.mp hread)] at hrun
        cases hrun
        exact h

/-- **What settling and matching preserve, a call of `run_once` preserves.**  The status that it
returns is that of the state it ends in. -/
theorem runOnce_rule {status : ExecutionStatus} (h : P c)
    (hrun : runOnce rt c = .ok (status, c')) : P c' ∧ status = c'.state.executionStatus := by
  simp only [runOnce, Except.bind_eq_ok, Prod.exists] at hrun
  obtain ⟨c₁, n, hdrain, hrun⟩ := hrun
  have h₁ := drainLoop_rule hsettle h hdrain
  split_ifs at hrun with hb
  · simp only [Except.ok.injEq, Prod.mk.injEq] at hrun
    obtain ⟨rfl, rfl⟩ := hrun
    exact ⟨h₁, rfl⟩
  · simp only [Except.bind_eq_ok, Except.ok.injEq, Prod.mk.injEq] at hrun
    obtain ⟨c₂, hbooks, rfl, rfl⟩ := hrun
    exact ⟨runBooks_rule hsettle hmatch h₁ hbooks, rfl⟩

end Rule

/-! ## Repeated calls -/

/-- Call `run_once` `n + 1` times. -/
def runTimes : (ℕ → Runtime) → ℕ → Canister → Except Trap (ExecutionStatus × Canister)
  | rts, 0, c => c.runOnce (rts 0)
  | rts, n + 1, c => do
      let (_, c) ← c.runOnce (rts 0)
      runTimes (fun i => rts (i + 1)) n c

/-- **Repeated calls come to an end** if no reading reaches the budget. -/
theorem Sustains.runTimes_complete {P : Canister → Prop} (hP : ∀ now, Sustains now P) :
    ∀ (m : ℕ) {c : Canister} (rts : ℕ → Runtime), P c → c.state.matchablePending ≤ m →
      (∀ i j, (rts i).instructionCounter j
        < c.state.executionPolicy.instructionBudget.toNat) →
      ∃ n c', c.runTimes rts n = .ok (.complete, c') := by
  intro m
  induction m with
  | zero =>
      intro c rts h hle hj
      obtain ⟨c', status, hrun, -⟩ := (hP (rts 0).time).runOnce h
      obtain ⟨rounds, -, hran, hleft⟩ := ((hP (rts 0).time).steady h).runOnce hrun
      have hdone : status = .complete := by
        refine hran.complete.mpr (State.executionStatus_eq_complete.mp ?_)
        exact State.executionStatus_of_matchable (by omega) (hran.conserving (hj 0)).2
      exact ⟨0, c', by rw [runTimes, hrun, hdone]⟩
  | succ m ih =>
      intro c rts h hle hj
      obtain ⟨c', status, hrun, h'⟩ := (hP (rts 0).time).runOnce h
      obtain ⟨rounds, hrules, hran, hleft⟩ := ((hP (rts 0).time).steady h).runOnce hrun
      obtain ⟨hexact, hqueue⟩ := hran.conserving (hj 0)
      have hmax : 0 < c.state.executionPolicy.maxOrdersPerChunk.toNat := by
        have hne := c.state.executionPolicy.chunkNonzero
        refine Nat.pos_of_ne_zero fun h0 => hne (BitVec.eq_of_toNat_eq ?_)
        rw [h0]
        rfl
      obtain ⟨n, c'', hrest⟩ := ih (fun i => rts (i + 1)) h' (by omega)
        fun i j => by rw [hrules.policy]; exact hj (i + 1) j
      refine ⟨n + 1, c'', ?_⟩
      rw [runTimes, hrun]
      exact hrest

/-- Steady, and all that is due fits if and only if it did in `d`. -/
def SameDue (d c : Canister) : Prop := c.Steady ∧ (c.state.DueFits ↔ d.state.DueFits)

variable {d : Canister}

lemma SameDue.settle (h : d.SameDue c) {event : SettlingEvent} {rest : List SettlingEvent}
    {now : Timestamp} (hqueue : c.state.pendingSettlingEvents = event :: rest)
    (hok : (c.withQueue rest).processEvent (.settling event) now = .ok c') : d.SameDue c' := by
  obtain ⟨hc, hiff⟩ := h
  have hdrained := (hc.settled
    (show c.state.pendingSettlingEvents = [] ++ event :: rest from hqueue) hok).1
  exact ⟨(settle_front hqueue hok).act.acts.steady hc,
    (hdrained.dueFits_iff hc.sound hqueue).trans hiff⟩

lemma SameDue.match (h : d.SameDue c) {event : MatchingEvent} {now : Timestamp}
    (hadmits : c.state.Admits now (.matching event))
    (hok : c.processEvent (.matching event) now = .ok c') : d.SameDue c' := by
  obtain ⟨hc, hiff⟩ := h
  obtain ⟨id, orders⟩ := event
  obtain ⟨b, n, hb, rfl, hne, hhalt⟩ := hadmits
  obtain ⟨hc', -, -, b', out, pair, scale, fills, refunds, groups, hmatched, -, -⟩ :=
    hc.matched hb hhalt hne hok
  exact ⟨hc', (hmatched.dueFits_iff hc.sound hc'.sound hhalt).trans hiff⟩

lemma SameDue.runTimes :
    ∀ {n : ℕ} {rts : ℕ → Runtime} {c : Canister} {status : ExecutionStatus}, d.SameDue c →
      c.runTimes rts n = .ok (status, c') → d.SameDue c' ∧ status = c'.state.executionStatus
  | 0, _, _, _, h, hrun => runOnce_rule (fun h => h.settle) (fun h => h.match) h hrun
  | n + 1, rts, c, status, h, hrun => by
      simp only [Canister.runTimes, Except.bind_eq_ok, Prod.exists] at hrun
      obtain ⟨status₁, c₁, hone, hrest⟩ := hrun
      exact SameDue.runTimes (runOnce_rule (fun h => h.settle) (fun h => h.match) h hone).1 hrest

/-- **Where repeated calls come to an end, all that was due has fit.** -/
lemma Steady.dueFits_of_complete (hc : c.Steady) {rts : ℕ → Runtime} {n : ℕ}
    (hrun : c.runTimes rts n = .ok (.complete, c')) : c.state.DueFits := by
  obtain ⟨⟨hc', hiff⟩, hstatus⟩ := SameDue.runTimes ⟨hc, Iff.rfl⟩ hrun
  obtain ⟨hmatched, hsettled⟩ := State.executionStatus_eq_complete.mp hstatus.symm
  exact hiff.mp (State.Finished.dueFits hc'.sound ⟨hmatched, hsettled⟩ hc'.stored)

/-- If calls that are not cut come to an end, all that was due has fit. -/
lemma Steady.dueFits_of_ends (hc : c.Steady)
    (hends : ∀ rts : ℕ → Runtime, (∀ i j, (rts i).instructionCounter j
        < c.state.executionPolicy.instructionBudget.toNat) →
      ∃ n c', c.runTimes rts n = .ok (.complete, c')) : c.state.DueFits := by
  -- A runtime whose counter stays at zero is below every budget.
  let rt : Runtime := { msgCaller := .anonymous, isController := fun _ => false, time := .epoch,
                        instructionCounter := fun _ => 0 }
  obtain ⟨n, c', hrun⟩ := hends (fun _ => rt) fun _ _ => c.state.executionPolicy.budget_pos
  exact hc.dueFits_of_complete hrun

/-- **With room for all funds, all that is due fits.** -/
lemma Ready.dueFits (h : c.Ready) : c.state.DueFits :=
  h.steady.dueFits_of_ends fun rts hj => Sustains.runTimes_complete Ready.sustains _ rts h le_rfl hj

end Canister

namespace World

end World

end OisyTrade
