import OisyTrade.Order.Queue
import OisyTrade.Lib.StableList

/-!
# Walking one side of the book

`OrderQueueIter` of `order/queue/mod.rs`, the two-level iterator behind `OrderQueue::iter`.

`next` is the source's loop: an exhausted level is left for the next one until a level yields a
value or no level is left.  `remaining` is what an iterator has still to yield, so one call of
`next` takes its head, and a walk of enough calls collects all of it.  Empty levels are skipped:
nothing here asks for a map without them.
-/

namespace OisyTrade

variable {K V : Type}

/-- `OrderQueueIter<K, V>`: the levels not entered yet, and the rest of the level being walked. -/
structure OrderQueueIter (K V : Type) where
  outer : List (K × List V)
  inner : Option (K × List V)

namespace OrderQueueIter

/-- `OrderQueueIter::new`. -/
def new [LinearOrder K] (map : SortedMap K (List V)) : OrderQueueIter K V := ⟨map.entries, none⟩

/-- The loop of `OrderQueueIter::next`; each turn that returns nothing uses up one level. -/
def nextLoop : List (K × List V) → Option (K × List V) → Option (K × V) × OrderQueueIter K V
  | outer, some (k, v :: it) => (some (k, v), ⟨outer, some (k, it)⟩)
  | [], inner => (none, ⟨[], inner⟩)
  | (k, q) :: outer, _ => nextLoop outer (some (k, q))

/-- `OrderQueueIter::next`. -/
def next (it : OrderQueueIter K V) : Option (K × V) × OrderQueueIter K V :=
  nextLoop it.outer it.inner

/-- Calls `next` until it answers `None`; `none` when `fuel` calls were not enough. -/
def collect : ℕ → OrderQueueIter K V → Option (List (K × V))
  | 0, _ => none
  | fuel + 1, it =>
      match it.next with
      | (none, _) => some []
      | (some e, it') => (collect fuel it').map (e :: ·)

/-- What the iterator has still to yield. -/
def remaining (it : OrderQueueIter K V) : List (K × V) :=
  OrderQueue.flatten (it.inner.toList ++ it.outer)

@[simp] lemma remaining_new [LinearOrder K] (map : SortedMap K (List V)) :
    (new map).remaining = OrderQueue.flatten map.entries := rfl

lemma nextLoop_remaining (outer : List (K × List V)) (inner : Option (K × List V)) :
    (nextLoop outer inner).1 = (remaining ⟨outer, inner⟩).head?
      ∧ (nextLoop outer inner).2.remaining = (remaining ⟨outer, inner⟩).tail := by
  induction outer generalizing inner with
  | nil =>
      rcases inner with _ | ⟨k, _ | ⟨v, it⟩⟩ <;> simp [nextLoop, remaining]
  | cons level outer ih =>
      obtain ⟨k', q⟩ := level
      rcases inner with _ | ⟨k, _ | ⟨v, it⟩⟩
      · simpa [nextLoop, remaining] using ih (some (k', q))
      · simpa [nextLoop, remaining] using ih (some (k', q))
      · simp [nextLoop, remaining]

/-- One call yields the head of what remains. -/
lemma next_remaining (it : OrderQueueIter K V) :
    it.next.1 = it.remaining.head? ∧ it.next.2.remaining = it.remaining.tail :=
  nextLoop_remaining it.outer it.inner

/-- **A walk ends, and has then yielded everything.** -/
theorem collect_eq (it : OrderQueueIter K V) {fuel : ℕ} (h : it.remaining.length < fuel) :
    it.collect fuel = some it.remaining := by
  induction fuel generalizing it with
  | zero => exact absurd h (Nat.not_lt_zero _)
  | succ fuel ih =>
      obtain ⟨hhead, htail⟩ := next_remaining it
      rw [collect]
      rcases hnext : it.next with ⟨_ | e, it'⟩
      · rw [hnext] at hhead
        have hnil : it.remaining = [] := List.head?_eq_none_iff.mp hhead.symm
        rw [hnil]
      · rw [hnext] at hhead htail
        have hcons : it.remaining = e :: it'.remaining := by
          rw [htail]
          exact List.eq_cons_of_mem_head? (Option.mem_def.mpr hhead.symm)
        have hshort : it'.remaining.length < fuel := by
          rw [hcons, List.length_cons] at h
          omega
        simp only
        rw [ih it' hshort, hcons, Option.map_some]

end OrderQueueIter

namespace OrderQueue

lemma flatten_filter (l : List (K × List V)) :
    flatten (l.filter fun level => !level.2.isEmpty) = flatten l := by
  induction l with
  | nil => rfl
  | cons level l ih =>
      obtain ⟨k, _ | ⟨v, queue⟩⟩ := level
      · rw [List.filter_cons_of_neg (by simp), ih, flatten_cons, List.map_nil, List.nil_append]
      · rw [List.filter_cons_of_pos (by simp), flatten_cons, ih, flatten_cons]

variable [LinearOrder K]

/-- The walk over a side is `iter`, the list of its orders. -/
lemma collect_iter (q : OrderQueue K V) {fuel : ℕ} (h : q.iter.length < fuel) :
    (OrderQueueIter.new q.levels).collect fuel = some q.iter :=
  OrderQueueIter.collect_eq _ h

/-- The orders of ascending levels ascend. -/
lemma ascending_flatten {l : List (K × List V)} (h : l.Pairwise fun a b => a.1 < b.1) :
    StableList.Ascending (flatten l) := by
  induction l with
  | nil => exact List.Pairwise.nil
  | cons level l ih =>
      obtain ⟨hhead, htail⟩ := List.pairwise_cons.mp h
      rw [flatten_cons]
      refine List.pairwise_append.mpr ⟨?_, ih htail, ?_⟩
      · exact List.pairwise_map.mpr (List.pairwise_of_forall fun _ _ => le_refl level.1)
      · intro e he e' he'
        obtain ⟨v, -, rfl⟩ := List.mem_map.mp he
        obtain ⟨level', hlevel', hk, -⟩ := mem_flatten.mp he'
        exact hk ▸ (hhead level' hlevel').le

lemma ascending_iter (q : OrderQueue K V) : StableList.Ascending q.iter :=
  ascending_flatten q.levels.sorted

/-- Dropping empty levels drops no order. -/
lemma iter_fromLevels (levels : SortedMap K (List V)) :
    (fromLevels levels).iter = flatten levels.entries := flatten_filter levels.entries

lemma nonEmptyLevels_fromLevels (levels : SortedMap K (List V)) :
    (fromLevels levels).NonEmptyLevels := by
  intro level hl hempty
  have hkept := (List.mem_filter.mp hl).2
  rw [hempty] at hkept
  cases hkept

end OrderQueue

end OisyTrade
