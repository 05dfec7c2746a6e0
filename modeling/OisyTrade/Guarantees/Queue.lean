import OisyTrade.Order.QueueIter

/-!
# A side of the book is a stably sorted list

The map of deques in `order/queue/mod.rs` against the abstract priority queue of `StableList`.
`QueueOp` are the operations callers perform on an `OrderQueue`; `run` performs them on the levels
as the source does, `specify` on a plain list.  A run from an empty queue never traps, gives the
answers of the list, and leaves the list as its `iter`.
-/

namespace OisyTrade

variable {K V : Type} [LinearOrder K]

/-- One use of an `OrderQueue`. -/
inductive QueueOp (K V : Type) [LinearOrder K]
  | pushBack (key : K) (value : V)
  | popFront
  -- a caller that takes `front_mut` and writes through it; a read writes the same value back
  | frontMut (update : K → V → V)
  | remove (key : K) (predicate : V → Bool)
  | fromLevels (levels : SortedMap K (List V))

/-- What an operation returns. -/
inductive QueueAnswer (K V : Type)
  | unit
  | entry (e : Option (K × V))
  | value (v : Option V)

namespace QueueOp

/-- The operation on the levels. -/
def run (q : OrderQueue K V) : QueueOp K V → Except Trap (QueueAnswer K V × OrderQueue K V)
  | pushBack key value => .ok (.unit, q.pushBack key value)
  | popFront =>
      match q.popFront with
      | .error t => .error t
      | .ok none => .ok (.entry none, q)
      | .ok (some (e, q')) => .ok (.entry (some e), q')
  | frontMut update =>
      match q.front with
      | .error t => .error t
      | .ok none => .ok (.entry none, q)
      | .ok (some (key, value)) =>
          .ok (.entry (some (key, value)), q.setFront (update key value))
  | remove key predicate =>
      match q.remove key predicate with
      | none => .ok (.value none, q)
      | some (removed, q') => .ok (.value (some removed), q')
  | fromLevels levels => .ok (.unit, OrderQueue.fromLevels levels)

/-- The operation on the sorted list. -/
def specify (l : List (K × V)) : QueueOp K V → QueueAnswer K V × List (K × V)
  | pushBack key value => (.unit, StableList.insertBack key value l)
  | popFront => (.entry l.head?, l.tail)
  | frontMut update => (.entry l.head?, StableList.updateHead update l)
  | remove key predicate =>
      (.value (StableList.first key predicate l), StableList.withoutFirst key predicate l)
  | fromLevels levels => (.unit, OrderQueue.flatten levels.entries)

/-- A sequence of operations on the levels, with the answers in order. -/
def runAll : List (QueueOp K V) → OrderQueue K V →
    Except Trap (List (QueueAnswer K V) × OrderQueue K V)
  | [], q => .ok ([], q)
  | op :: ops, q => do
      let (answer, q') ← op.run q
      let (answers, q'') ← runAll ops q'
      .ok (answer :: answers, q'')

/-- A sequence of operations on the list. -/
def specifyAll : List (QueueOp K V) → List (K × V) → List (QueueAnswer K V) × List (K × V)
  | [], l => ([], l)
  | op :: ops, l =>
      ((op.specify l).1 :: (specifyAll ops (op.specify l).2).1,
        (specifyAll ops (op.specify l).2).2)

/-- One operation on a side without empty levels answers as the list does. -/
lemma run_eq (op : QueueOp K V) {q : OrderQueue K V} (hq : q.NonEmptyLevels) :
    ∃ q' : OrderQueue K V, op.run q = .ok ((op.specify q.iter).1, q')
      ∧ q'.iter = (op.specify q.iter).2 ∧ q'.NonEmptyLevels := by
  cases op with
  | pushBack key value =>
      obtain ⟨pre, post, hiter, hpush, hpre, hpost⟩ := q.iter_pushBack key value
      refine ⟨q.pushBack key value, rfl, ?_, OrderQueue.nonEmptyLevels_pushBack hq key value⟩
      rw [specify, hpush, hiter, StableList.insertBack_append value hpre hpost]
  | popFront =>
      rcases hiter : q.iter with _ | ⟨⟨k, v⟩, rest⟩
      · refine ⟨q, ?_, hiter, hq⟩
        simp only [run, OrderQueue.popFront_of_iter_nil hq hiter]
        rfl
      · obtain ⟨q', hpop, hrest, hq'⟩ := OrderQueue.popFront_of_iter_cons hq hiter
        refine ⟨q', ?_, hrest, hq'⟩
        simp only [run, hpop]
        rfl
  | frontMut update =>
      rcases hiter : q.iter with _ | ⟨⟨k, v⟩, rest⟩
      · refine ⟨q, ?_, hiter, hq⟩
        simp only [run, OrderQueue.front_of_iter_nil hq hiter]
        rfl
      · obtain ⟨hfront, hset⟩ := OrderQueue.front_of_iter_cons hq hiter
        refine ⟨q.setFront (update k v), ?_, (hset (update k v)).1, (hset (update k v)).2⟩
        simp only [run, hfront]
        rfl
  | remove key predicate =>
      cases hrem : q.remove key predicate with
      | none =>
          obtain ⟨hfirst, hwithout⟩ := StableList.first_eq_none (OrderQueue.remove_eq_none hrem)
          refine ⟨q, ?_, ?_, hq⟩
          · simp only [run, hrem, specify, hfirst]
          · rw [specify, hwithout]
      | some found =>
          obtain ⟨v, q'⟩ := found
          obtain ⟨pre, post, hiter, hleft, hv, hpre, hq'⟩ := OrderQueue.iter_remove hq hrem
          obtain ⟨hfirst, hwithout⟩ := StableList.first_append post hpre hv
          refine ⟨q', ?_, ?_, hq'⟩
          · simp only [run, hrem, specify, hiter, hfirst]
          · rw [specify, hiter, hwithout, hleft]
  | fromLevels levels =>
      exact ⟨OrderQueue.fromLevels levels, rfl, OrderQueue.iter_fromLevels levels,
        OrderQueue.nonEmptyLevels_fromLevels levels⟩

/-- A sequence of operations answers as the list does. -/
lemma runAll_eq (ops : List (QueueOp K V)) {q : OrderQueue K V} (hq : q.NonEmptyLevels) :
    ∃ q' : OrderQueue K V, runAll ops q = .ok ((specifyAll ops q.iter).1, q')
      ∧ q'.iter = (specifyAll ops q.iter).2 ∧ q'.NonEmptyLevels := by
  induction ops generalizing q with
  | nil => exact ⟨q, rfl, rfl, hq⟩
  | cons op ops ih =>
      obtain ⟨q', hrun, hiter, hq'⟩ := run_eq op hq
      obtain ⟨q'', hruns, hiters, hq''⟩ := ih hq'
      rw [hiter] at hruns hiters
      refine ⟨q'', ?_, hiters, hq''⟩
      simp only [runAll, hrun, hruns, specifyAll, bind, Except.bind]

end QueueOp

/-- What a side of the book offers its callers, read off its list of orders. -/
structure OrderQueue.Presents (q : OrderQueue K V) (l : List (K × V)) : Prop where
  ascending : StableList.Ascending l
  walk : ∀ fuel, l.length < fuel → (OrderQueueIter.new q.levels).collect fuel = some l
  levels : ∀ level ∈ q.levels.entries, level.2 ≠ []
  push : ∀ k v, ∃ pre post, l = pre ++ post ∧ (q.pushBack k v).iter = pre ++ (k, v) :: post
    ∧ (∀ e ∈ pre, e.1 ≤ k) ∧ ∀ e ∈ post, k < e.1
  pop : (l = [] ∧ q.popFront = .ok none)
    ∨ ∃ e q', l = e :: q'.iter ∧ q.popFront = .ok (some (e, q'))
  front : q.front = .ok l.head?
    ∧ ∀ k v rest, l = (k, v) :: rest → ∀ w, (q.setFront w).iter = (k, w) :: rest
  remove : ∀ k predicate,
    (q.remove k predicate = none ∧ ∀ e ∈ l, e.1 = k → predicate e.2 = false)
      ∨ ∃ pre v post q', l = pre ++ (k, v) :: post ∧ q.remove k predicate = some (v, q')
        ∧ q'.iter = pre ++ post ∧ predicate v = true
        ∧ ∀ e ∈ pre, e.1 = k → predicate e.2 = false

/-- A side without empty levels presents its `iter`. -/
lemma OrderQueue.NonEmptyLevels.presents {q : OrderQueue K V} (hq : q.NonEmptyLevels) :
    q.Presents q.iter where
  ascending := q.ascending_iter
  walk := fun _ h => q.collect_iter h
  levels := hq
  push := q.iter_pushBack
  pop := by
    rcases hiter : q.iter with _ | ⟨⟨k, v⟩, rest⟩
    · exact .inl ⟨rfl, popFront_of_iter_nil hq hiter⟩
    · obtain ⟨q', hpop, hrest, -⟩ := popFront_of_iter_cons hq hiter
      exact .inr ⟨(k, v), q', by rw [hrest], hpop⟩
  front := by
    rcases hiter : q.iter with _ | ⟨⟨k, v⟩, rest⟩
    · refine ⟨front_of_iter_nil hq hiter, ?_⟩
      intro k v rest h
      cases h
    · obtain ⟨hfront, hset⟩ := front_of_iter_cons hq hiter
      refine ⟨hfront, ?_⟩
      rintro k' v' rest' h w
      cases h
      exact (hset w).1
  remove := by
    intro k predicate
    cases hrem : q.remove k predicate with
    | none => exact .inl ⟨rfl, remove_eq_none hrem⟩
    | some found =>
        obtain ⟨v, q'⟩ := found
        obtain ⟨pre, post, hiter, hleft, hv, hpre, -⟩ := iter_remove hq hrem
        exact .inr ⟨pre, v, post, q', hiter, rfl, hleft, hv, hpre⟩

/-- **An order queue refines the stably sorted list.**  After any sequence of operations on an
empty queue nothing has trapped, every answer is the list's, and the queue presents the list: its
walk yields it, no level is empty, and the next operation acts on it.  A walk ends over any map of
levels, also one with empty levels, and stays at its end. -/
theorem OrderQueue.refines_stableList (ops : List (QueueOp K V)) (map : SortedMap K (List V)) :
    (∃ q, QueueOp.runAll ops OrderQueue.new = .ok ((QueueOp.specifyAll ops []).1, q)
        ∧ q.iter = (QueueOp.specifyAll ops []).2 ∧ q.Presents (QueueOp.specifyAll ops []).2)
      ∧ (∀ fuel, (OrderQueue.flatten map.entries).length < fuel →
        (OrderQueueIter.new map).collect fuel = some (OrderQueue.flatten map.entries))
      ∧ ∀ it : OrderQueueIter K V, it.next.1 = none → it.next.2.next.1 = none := by
  refine ⟨?_, ?_, ?_⟩
  · obtain ⟨q, hrun, hiter, hq⟩ := QueueOp.runAll_eq ops OrderQueue.nonEmptyLevels_new
    rw [iter_new] at hrun hiter
    exact ⟨q, hrun, hiter, hiter ▸ hq.presents⟩
  · intro fuel h
    exact OrderQueueIter.collect_eq (OrderQueueIter.new map) h
  · intro it h
    obtain ⟨hhead, htail⟩ := OrderQueueIter.next_remaining it
    have hnil : it.remaining = [] := List.head?_eq_none_iff.mp (hhead.symm.trans h)
    have hrest : it.next.2.remaining = [] := by
      rw [htail, hnil, List.tail_nil]
    rw [(OrderQueueIter.next_remaining it.next.2).1, hrest, List.head?_nil]

example : QueueOp.runAll [.pushBack 2 'b', .pushBack 1 'a', .pushBack 2 'c', .remove 2 (· = 'b'),
      .popFront] (OrderQueue.new : OrderQueue ℕ Char)
    = .ok ([.unit, .unit, .unit, .value (some 'b'), .entry (some (1, 'a'))],
        OrderQueue.new.pushBack 2 'c') := by
  rfl

end OisyTrade
