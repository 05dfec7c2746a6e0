import OisyTrade.Invariant.Feeds
import OisyTrade.Script

/-!
# Pagination

`page_by_user` resolves its cursor through the primary map and scans the index; `trades_for_order`
scans the primary map itself.  Both answer from a feed (`History.Indexed.serves`,
`TradeHistory.serves`), so reading page after page returns the feed as it was at the first request.

For `page_by_user` this holds whatever is written between the requests, because an insertion gets
the largest stamp.  `trades_for_order` lists by fill number, and an insertion with a smaller number
than the cursor would show up in a later page.  Settling never makes one: along every run of the
canister the trades of an order are only appended to (`World.Run.appends`).
-/

namespace OisyTrade

namespace History

variable {K V : Type} [LinearOrder K]

/-- A history built by insertions and modifications, with the log of its insertions, the oldest
first. -/
inductive Built : History K V → List (UserId × K) → Prop
  | empty : Built empty []
  | insert {h h' : History K V} {log : List (UserId × K)} {user : UserId} {key : K} {record : V}
      (hbuilt : Built h log) (hok : h.insertOnce user key record = .ok h') :
      Built h' (log ++ [(user, key)])
  | modify {h h' : History K V} {log : List (UserId × K)} {key : K}
      {f : V → Except Trap (V × Bool)} (hbuilt : Built h log) (hok : h.modify key f = .ok h') :
      Built h' log

/-- One insertion or modification. -/
inductive Write (h h' : History K V) : Prop
  | insert (user : UserId) (key : K) (record : V) (hok : h.insertOnce user key record = .ok h')
  | modify (key : K) (f : V → Except Trap (V × Bool)) (hok : h.modify key f = .ok h')

/-- Any number of insertions and modifications. -/
def Writes (h h' : History K V) : Prop := Relation.ReflTransGen Write h h'

/-- The keys inserted under a user, the oldest first. -/
def insertedUnder (log : List (UserId × K)) (user : UserId) : List K :=
  (log.filter fun e => e.1 = user).map (·.2)

variable {h h' : History K V} {log : List (UserId × K)}

lemma Built.spec (hb : Built h log) :
    h.Indexed ∧ ∀ user, h.userKeys user = insertedUnder log user := by
  induction hb with
  | empty => exact ⟨indexed_empty, fun _ => rfl⟩
  | insert _ hok ih =>
      refine ⟨ih.1.insertOnce hok, ?_⟩
      intro user
      rw [userKeys_insertOnce ih.1 hok, ih.2, insertedUnder, insertedUnder, List.filter_append,
        List.map_append, List.filter_singleton]
      split_ifs with hu
      · simp [hu]
      · simp [hu]
  | modify _ hok ih =>
      obtain ⟨_, _, -, -, -, hbyUser, -⟩ := modify_eq_ok hok
      refine ⟨ih.1.modify hok, ?_⟩
      intro user
      rw [userKeys_of_byUser hbyUser, ih.2]

/-- Writes only append to the list of a user. -/
lemma Writes.extends_userKeys (hw : h.Writes h') (hi : h.Indexed) :
    h'.Indexed ∧ ∀ user, h.userKeys user <+: h'.userKeys user := by
  induction hw with
  | refl => exact ⟨hi, fun _ => List.prefix_rfl⟩
  | tail _ hwrite ih =>
      cases hwrite with
      | insert user key record hok =>
          refine ⟨ih.1.insertOnce hok, ?_⟩
          intro u
          rw [userKeys_insertOnce ih.1 hok]
          exact (ih.2 u).trans (List.prefix_append _ _)
      | modify key f hok =>
          obtain ⟨_, _, -, -, -, hbyUser, -⟩ := modify_eq_ok hok
          refine ⟨ih.1.modify hok, ?_⟩
          intro u
          rw [userKeys_of_byUser hbyUser]
          exact ih.2 u

/-- **Reading a user's pages** from a history that is written to between the requests. -/
lemma Built.paginate {hs : ℕ → History K V} (hb : Built (hs 0) log)
    (hwrites : ∀ i, (hs i).Writes (hs (i + 1))) (user : UserId) {length : ℕ → ℕ}
    (hlength : ∀ i, 1 ≤ length i) {fuel : ℕ} (hfuel : (insertedUnder log user).length < fuel) :
    Paging.paginate (fun i => (hs i).pageByUser user) id length fuel 0 none
      = .ok (some (insertedUnder log user).reverse) := by
  obtain ⟨hi, hkeys⟩ := hb.spec
  have hindexed : ∀ i, (hs i).Indexed := by
    intro i
    induction i with
    | zero => exact hi
    | succ i ih => exact ((hwrites i).extends_userKeys ih).1
  rw [← hkeys] at hfuel ⊢
  exact Paging.paginate_eq (fun i => (hs i).userKeys user) (fun i => (hindexed i).serves user)
    (fun i => ((hwrites i).extends_userKeys (hindexed i)).2 user) hlength hfuel

end History

/-- **Reading an order's pages** from a history that is appended to between the requests. -/
lemma TradeHistory.paginate {hs : ℕ → TradeHistory} {order : OrderId}
    (happends : ∀ i, (hs i).Appends order (hs (i + 1))) {length : ℕ → ℕ}
    (hlength : ∀ i, 1 ≤ length i) {fuel : ℕ} (hfuel : ((hs 0).tradesOf order).length < fuel) :
    Paging.paginate (fun i => (hs i).tradesForOrder order) (fun e => TradeId.new order e.1) length
      fuel 0 none = .ok (some ((hs 0).tradesOf order).reverse) :=
  Paging.paginate_eq (fun i => (hs i).tradesOf order) (fun i => (hs i).serves order)
    (fun i => (happends i).extended) hlength hfuel

/-- **Pagination is complete, ordered and never skips or repeats.**  Whatever is written between the
requests, the pages of a user are the keys that were inserted under the user by the first request,
newest first, each once, and a cursor is refused exactly when it was not inserted under the user.
The pages of an order are its trades at the first request by decreasing fill number, as long as only
newer trades of the order are appended meanwhile; a cursor is refused exactly when it is no stored
trade of the order; and every run of the canister only appends newer trades. -/
theorem pagination_complete {K V : Type} [LinearOrder K] :
    (∀ (hs : ℕ → History K V) log user length fuel, History.Built (hs 0) log →
      (∀ i, (hs i).Writes (hs (i + 1))) → (∀ i, 1 ≤ length i) →
      (History.insertedUnder log user).length < fuel →
      Paging.paginate (fun i => (hs i).pageByUser user) id length fuel 0 none
        = .ok (some (History.insertedUnder log user).reverse) ∧
      (History.insertedUnder log user).Nodup) ∧
    (∀ (h : History K V) log user k n, History.Built h log →
      (h.pageByUser user (some k) n = .error .mk ↔ k ∉ History.insertedUnder log user)) ∧
    (∀ (hs : ℕ → TradeHistory) order length fuel,
      (∀ i, (hs i).Appends order (hs (i + 1))) → (∀ i, 1 ≤ length i) →
      ((hs 0).tradesOf order).length < fuel →
      Paging.paginate (fun i => (hs i).tradesForOrder order) (fun e => TradeId.new order e.1) length
        fuel 0 none = .ok (some ((hs 0).tradesOf order).reverse) ∧
      ((hs 0).tradesOf order).reverse.Pairwise fun a b => b.1 < a.1) ∧
    (∀ (h : TradeHistory) order cursor n,
      (h.tradesForOrder order (some cursor) n = .error .mk ↔
        ¬ (cursor.orderId = order ∧ h.containsKey cursor = true))) ∧
    (∀ (w w' : World) order, w.Reachable → w.Run w' →
      w.canister.state.tradeHistory.Appends order w'.canister.state.tradeHistory) := by
  refine ⟨?_, ?_, ?_, ?_, ?_⟩
  · intro hs log user length fuel hbuilt hwrites hlength hfuel
    refine ⟨hbuilt.paginate hwrites user hlength hfuel, ?_⟩
    rw [← hbuilt.spec.2]
    exact hbuilt.spec.1.userKeys_nodup user
  · intro h log user k n hbuilt
    rw [← hbuilt.spec.2]
    exact hbuilt.spec.1.pageByUser_error
  · intro hs order length fuel happends hlength hfuel
    refine ⟨TradeHistory.paginate happends hlength hfuel, ?_⟩
    exact List.pairwise_reverse.mpr ((hs 0).tradesOf_pairwise order)
  · intro h order cursor n
    exact TradeHistory.tradesForOrder_error
  · intro w w' order hw hrun
    exact hrun.appends hw order

/-! ## A late trade -/

/-- The id of a trade of an order of the first book. -/
def lateId (order fill : ℕ) : TradeId := TradeId.new (.new Seq.zero (Seq.wrap order)) (Seq.wrap fill)

/-- A trade. -/
def lateTrade : TradeRecord :=
  { side := .buy, price := ⟨1⟩, quantity := Quantity.zero, notional := Quantity.zero,
    fee := Quantity.zero, feeToken := .base, isMaker := true, timestamp := .epoch }

/-- A history in which a user has one more trade. -/
def withTrade (h : TradeHistory) (user : UserId) (id : TradeId) : TradeHistory :=
  (h.insertOnce user id lateTrade).valueD h

lemma insertOnce_withTrade {h : TradeHistory} {user : UserId} {id : TradeId}
    (hok : (h.insertOnce user id lateTrade).isOk = true) :
    h.insertOnce user id lateTrade = .ok (withTrade h user id) :=
  Except.eq_ok_valueD h hok

/-- Two users have traded, the first one under the fill numbers 5 and 10. -/
def tradedHistory : TradeHistory :=
  withTrade (withTrade (withTrade History.empty Seq.zero (lateId 0 5)) (Seq.wrap 1) (lateId 1 5))
    Seq.zero (lateId 0 10)

lemma built_tradedHistory : History.Built tradedHistory
    ([] ++ [(Seq.zero, lateId 0 5)] ++ [(Seq.wrap 1, lateId 1 5)] ++ [(Seq.zero, lateId 0 10)]) :=
  .insert (.insert (.insert .empty (insertOnce_withTrade (by decide +kernel)))
    (insertOnce_withTrade (by decide +kernel))) (insertOnce_withTrade (by decide +kernel))

/-- The history a reader sees at each request: between the first two, the first user's trade with
fill number 7 is inserted. -/
def lateHistory : ℕ → TradeHistory
  | 0 => tradedHistory
  | _ + 1 => withTrade tradedHistory Seq.zero (lateId 0 7)

lemma lateHistory_writes (i : ℕ) : (lateHistory i).Writes (lateHistory (i + 1)) := by
  cases i with
  | zero =>
      refine Relation.ReflTransGen.single (.insert Seq.zero (lateId 0 7) lateTrade ?_)
      exact insertOnce_withTrade (by decide +kernel)
  | succ i => exact Relation.ReflTransGen.refl

/-- The sample run, with its second trade settled. -/
def World.tradedWorld : World :=
  (World.sampleWorld.playAll [.message (sampleRuntime 1 9) .processPendingOrders]).get
    (by decide +kernel)

/-- A third trade of the buyer's order follows. -/
def World.grownWorld : World :=
  (World.tradedWorld.playAll [sampleOrder 11 .sell 5 3,
    .message (sampleRuntime 1 9) .processPendingOrders]).get (by decide +kernel)

/-- The trade history a reader sees at each request: the third trade is settled after the first
request. -/
def grownHistory : ℕ → TradeHistory
  | 0 => World.tradedWorld.canister.state.tradeHistory
  | _ + 1 => World.grownWorld.canister.state.tradeHistory

/-- The first user reads the trades of the first request, whatever the fill number of the late one
is; a trade of the other user is no cursor.  A reader of the buyer's order in the run gets its first
two trades. -/
theorem pagination_complete_samples :
    Paging.paginate (fun i => (lateHistory i).pageByUser Seq.zero) id (fun _ => 1) 4 0 none
      = .ok (some [lateId 0 10, lateId 0 5]) ∧
    (lateHistory 1).pageByUser Seq.zero (some (lateId 1 5)) 1 = .error .mk ∧
    ((grownHistory 0).tradesOf (.new Seq.zero Seq.zero)).map (·.1) = [Seq.wrap 0, Seq.wrap 1] ∧
    ((grownHistory 1).tradesOf (.new Seq.zero Seq.zero)).length = 3 ∧
    Paging.paginate (fun i => (grownHistory i).tradesForOrder (.new Seq.zero Seq.zero))
        (fun e => TradeId.new (.new Seq.zero Seq.zero) e.1) (fun _ => 1) 4 0 none
      = .ok (some ((grownHistory 0).tradesOf (.new Seq.zero Seq.zero)).reverse) := by
  obtain ⟨husers, hcursor, horders, -, hruns⟩ :=
    @pagination_complete TradeId TradeRecord inferInstance
  have htraded : World.tradedWorld.Reachable :=
    World.reachable_sampleWorld.run (World.playAll_run (Option.some_get _).symm)
  have happends : ∀ i, (grownHistory i).Appends (.new Seq.zero Seq.zero) (grownHistory (i + 1)) := by
    intro i
    cases i with
    | zero => exact hruns _ _ _ htraded (World.playAll_run (Option.some_get _).symm)
    | succ i => exact TradeHistory.Appends.of_eq rfl
  refine ⟨?_, ?_, by decide +kernel, by decide +kernel, ?_⟩
  · exact (husers lateHistory _ Seq.zero (fun _ => 1) 4 built_tradedHistory lateHistory_writes
      (fun _ => le_rfl) (by decide +kernel)).1
  · exact (hcursor _ _ _ _ 1 (built_tradedHistory.insert
      (insertOnce_withTrade (by decide +kernel)))).mpr (by decide +kernel)
  · exact (horders grownHistory _ (fun _ => 1) 4 happends (fun _ => le_rfl) (by decide +kernel)).1

/-- Read one by one, the pages of the order contain the late trade. -/
theorem not_tradesForOrder_complete : ¬ ∀ (hs : ℕ → TradeHistory) log order length fuel,
    History.Built (hs 0) log → (∀ i, (hs i).Writes (hs (i + 1))) → (∀ i, 1 ≤ length i) →
    ((hs 0).tradesOf order).length < fuel →
    Paging.paginate (fun i => (hs i).tradesForOrder order) (fun e => TradeId.new order e.1) length
      fuel 0 none = .ok (some ((hs 0).tradesOf order).reverse) := by
  intro hall
  have hread := hall lateHistory _ (.new Seq.zero Seq.zero) (fun _ => 1) 4 built_tradedHistory
    lateHistory_writes (fun _ => le_rfl) (by decide +kernel)
  have hthree : ((Paging.paginate (fun i => (lateHistory i).tradesForOrder (.new Seq.zero Seq.zero))
      (fun e => TradeId.new (.new Seq.zero Seq.zero) e.1) (fun _ => 1) 4 0 none).toOption.map
        (Option.map List.length)) = some (some 3) := by decide +kernel
  have htwo : ((lateHistory 0).tradesOf (.new Seq.zero Seq.zero)).length = 2 := by decide +kernel
  rw [hread] at hthree
  have hlength := Option.some.inj (Option.some.inj hthree)
  rw [List.length_reverse, htwo] at hlength
  cases hlength

end OisyTrade
