import OisyTrade.Lib.SortedMap
import OisyTrade.Trap

/-!
# One side of the book

`OrderQueue` of `order/queue/mod.rs`: price levels in key order, each a first-in first-out queue.

The operations are the source's.  Every later argument reads a side through `iter`, the orders
in priority order, so each operation comes with its effect on `iter`: popping removes the head,
pushing inserts after the last order of the same or a better level, removing takes one element
out of the middle.  A side without empty levels is determined by `iter` (`ext_iter`).
-/

namespace OisyTrade

/-- `OrderQueue<K, V>`. -/
structure OrderQueue (K V : Type) [LinearOrder K] where
  levels : SortedMap K (List V)

namespace OrderQueue

variable {K V : Type}

/-- The orders of a list of levels, level by level. -/
def flatten (levels : List (K × List V)) : List (K × V) :=
  levels.flatMap fun level => level.2.map fun value => (level.1, value)

@[simp] lemma flatten_nil : flatten ([] : List (K × List V)) = [] := rfl

@[simp] lemma flatten_cons (level : K × List V) (l : List (K × List V)) :
    flatten (level :: l) = level.2.map (fun value => (level.1, value)) ++ flatten l := rfl

@[simp] lemma flatten_append (l l' : List (K × List V)) :
    flatten (l ++ l') = flatten l ++ flatten l' := by
  simp [flatten]

lemma mem_flatten {l : List (K × List V)} {e : K × V} :
    e ∈ flatten l ↔ ∃ level ∈ l, level.1 = e.1 ∧ e.2 ∈ level.2 := by
  obtain ⟨k, v⟩ := e
  simp only [flatten, List.mem_flatMap, List.mem_map, Prod.mk.injEq]
  constructor
  · rintro ⟨level, hl, w, hw, hk, rfl⟩
    exact ⟨level, hl, hk, hw⟩
  · rintro ⟨level, hl, hk, hw⟩
    exact ⟨level, hl, v, hw, hk, rfl⟩

variable [LinearOrder K]

instance [DecidableEq V] : DecidableEq (OrderQueue K V) := fun a b =>
  decidable_of_iff (a.levels = b.levels) ⟨fun h => by cases a; cases b; cases h; rfl, fun h => h ▸ rfl⟩

/-- `OrderQueue::new`. -/
def new : OrderQueue K V := ⟨SortedMap.empty⟩

/-- `OrderQueue::from_levels`: empty levels are dropped. -/
def fromLevels (levels : SortedMap K (List V)) : OrderQueue K V :=
  ⟨levels.filter fun _ queue => !queue.isEmpty⟩

/-- `OrderQueue::is_empty`. -/
def isEmpty (q : OrderQueue K V) : Bool := q.levels.isEmpty

/-- `OrderQueue::len`. -/
def len (q : OrderQueue K V) : ℕ := q.levels.size

/-- `OrderQueue::iter`. -/
def iter (q : OrderQueue K V) : List (K × V) := flatten q.levels.entries

/-- `OrderQueue::pop_front`. -/
def popFront (q : OrderQueue K V) : Except Trap (Option ((K × V) × OrderQueue K V)) :=
  match q.levels.entries with
  | [] => .ok none
  | (_, []) :: _ => .error (.bug .emptyLevel)
  | (key, value :: queue) :: _ =>
      let levels := if queue.isEmpty then q.levels.erase key else q.levels.insert key queue
      .ok (some ((key, value), ⟨levels⟩))

/-- `OrderQueue::front_mut`, read: the key and the value at the front of the best level. -/
def front (q : OrderQueue K V) : Except Trap (Option (K × V)) :=
  match q.levels.entries with
  | [] => .ok none
  | (_, []) :: _ => .error (.bug .emptyLevel)
  | (key, value :: _) :: _ => .ok (some (key, value))

/-- `OrderQueue::front_mut`, written: the front of the best level replaced in place. -/
def setFront (q : OrderQueue K V) (new : V) : OrderQueue K V :=
  match q.levels.entries with
  | (key, _ :: queue) :: _ => ⟨q.levels.insert key (new :: queue)⟩
  | _ => q

/-- `OrderQueue::push_back`. -/
def pushBack (q : OrderQueue K V) (key : K) (value : V) : OrderQueue K V :=
  ⟨q.levels.insert key ((q.levels.get key).getD [] ++ [value])⟩

/-- `OrderQueue::remove`: the first value of level `key` that satisfies `predicate`. -/
def remove (q : OrderQueue K V) (key : K) (predicate : V → Bool) :
    Option (V × OrderQueue K V) :=
  match q.levels.get key with
  | none => none
  | some queue =>
      match queue.find? predicate with
      | none => none
      | some removed =>
          let queue' := queue.eraseP predicate
          let levels := if queue'.isEmpty then q.levels.erase key else q.levels.insert key queue'
          some (removed, ⟨levels⟩)

/-! ## The orders of a side -/

/-- No level is empty. -/
def NonEmptyLevels (q : OrderQueue K V) : Prop := ∀ level ∈ q.levels.entries, level.2 ≠ []

lemma mem_iter {q : OrderQueue K V} {k : K} {v : V} :
    (k, v) ∈ q.iter ↔ ∃ queue, q.levels.get k = some queue ∧ v ∈ queue := by
  rw [iter, mem_flatten]
  constructor
  · rintro ⟨⟨k', queue⟩, hl, rfl, hv⟩
    exact ⟨queue, q.levels.mem_entries_iff.mp hl, hv⟩
  · rintro ⟨queue, hl, hv⟩
    exact ⟨(k, queue), q.levels.mem_entries_iff.mpr hl, rfl, hv⟩

@[simp] lemma iter_new : (new : OrderQueue K V).iter = [] := rfl

lemma nonEmptyLevels_new : (new : OrderQueue K V).NonEmptyLevels := by
  intro level h
  cases h

lemma isEmpty_iff {q : OrderQueue K V} (hq : q.NonEmptyLevels) : q.isEmpty = true ↔ q.iter = [] := by
  rw [isEmpty, SortedMap.isEmpty, List.isEmpty_iff, iter]
  constructor
  · intro h
    rw [h, flatten_nil]
  · intro h
    cases hl : q.levels.entries with
    | nil => rfl
    | cons level l =>
        rw [hl, flatten_cons, List.append_eq_nil_iff, List.map_eq_nil_iff] at h
        exact absurd h.1 (hq level (hl ▸ List.mem_cons_self))

/-- Without empty levels a side starts with the front of its best level. -/
lemma entries_of_iter_cons {q : OrderQueue K V} (hq : q.NonEmptyLevels) {k : K} {v : V}
    {rest : List (K × V)} (h : q.iter = (k, v) :: rest) :
    ∃ queue levels, q.levels.entries = (k, v :: queue) :: levels ∧
      rest = queue.map (fun value => (k, value)) ++ flatten levels := by
  rw [iter] at h
  cases hl : q.levels.entries with
  | nil => rw [hl] at h; cases h
  | cons level l =>
      obtain ⟨key, queue⟩ := level
      cases queue with
      | nil => exact absurd rfl (hq (key, []) (hl ▸ List.mem_cons_self))
      | cons w queue =>
          rw [hl] at h
          simp only [flatten_cons, List.map_cons, List.cons_append, List.cons.injEq,
            Prod.mk.injEq] at h
          obtain ⟨⟨rfl, rfl⟩, rfl⟩ := h
          exact ⟨queue, l, rfl, rfl⟩

lemma popFront_of_iter_nil {q : OrderQueue K V} (hq : q.NonEmptyLevels) (h : q.iter = []) :
    q.popFront = .ok none := by
  have he := (isEmpty_iff hq).mpr h
  rw [isEmpty, SortedMap.isEmpty, List.isEmpty_iff] at he
  rw [popFront, he]

lemma front_of_iter_nil {q : OrderQueue K V} (hq : q.NonEmptyLevels) (h : q.iter = []) :
    q.front = .ok none := by
  have he := (isEmpty_iff hq).mpr h
  rw [isEmpty, SortedMap.isEmpty, List.isEmpty_iff] at he
  rw [front, he]

/-- Popping returns the head of `iter` and leaves its tail. -/
lemma popFront_of_iter_cons {q : OrderQueue K V} (hq : q.NonEmptyLevels) {k : K} {v : V}
    {rest : List (K × V)} (h : q.iter = (k, v) :: rest) :
    ∃ q' : OrderQueue K V, q.popFront = .ok (some ((k, v), q')) ∧ q'.iter = rest ∧
      q'.NonEmptyLevels := by
  obtain ⟨queue, levels, he, hrest⟩ := entries_of_iter_cons hq h
  obtain ⟨hins, hera⟩ := q.levels.entries_of_head he
  have hlevels : ∀ level ∈ levels, level.2 ≠ [] := fun level hl =>
    hq level (he ▸ List.mem_cons_of_mem _ hl)
  simp only [popFront, he]
  cases queue with
  | nil =>
      refine ⟨⟨q.levels.erase k⟩, rfl, ?_, ?_⟩
      · rw [iter, hera, hrest, List.map_nil, List.nil_append]
      · intro level hl
        exact hlevels level (hera ▸ hl)
  | cons w queue =>
      refine ⟨⟨q.levels.insert k (w :: queue)⟩, rfl, ?_, ?_⟩
      · rw [iter, hins, flatten_cons, hrest]
      · intro level hl
        rw [hins] at hl
        rcases List.mem_cons.mp hl with rfl | hl
        · exact List.cons_ne_nil _ _
        · exact hlevels level hl

/-- The front of a side is the head of `iter`, and writing it back writes the head. -/
lemma front_of_iter_cons {q : OrderQueue K V} (hq : q.NonEmptyLevels) {k : K} {v : V}
    {rest : List (K × V)} (h : q.iter = (k, v) :: rest) :
    q.front = .ok (some (k, v)) ∧
      ∀ w, (q.setFront w).iter = (k, w) :: rest ∧ (q.setFront w).NonEmptyLevels := by
  obtain ⟨queue, levels, he, hrest⟩ := entries_of_iter_cons hq h
  refine ⟨by simp only [front, he], fun w => ?_⟩
  obtain ⟨hins, -⟩ := q.levels.entries_of_head he
  simp only [setFront, he]
  constructor
  · rw [iter, hins, hrest]
    rfl
  · intro level hl
    rw [hins] at hl
    rcases List.mem_cons.mp hl with rfl | hl
    · exact List.cons_ne_nil _ _
    · exact hq level (he ▸ List.mem_cons_of_mem _ hl)

/-- A pushed order goes behind everything at its own or a better key. -/
lemma iter_pushBack (q : OrderQueue K V) (k : K) (v : V) :
    ∃ pre post : List (K × V), q.iter = pre ++ post ∧ (q.pushBack k v).iter = pre ++ (k, v) :: post ∧
      (∀ e ∈ pre, e.1 ≤ k) ∧ (∀ e ∈ post, k < e.1) := by
  have hflat : ∀ {l : List (K × List V)} {e : K × V} {P : K → Prop},
      (∀ level ∈ l, P level.1) → e ∈ flatten l → P e.1 := by
    intro l e P hl he
    obtain ⟨level, hmem, hk, -⟩ := mem_flatten.mp he
    exact hk ▸ hl level hmem
  cases hg : q.levels.get k with
  | none =>
      obtain ⟨pre, post, h1, h2, h3, h4⟩ := q.levels.exists_split_of_none hg
      refine ⟨flatten pre, flatten post, by rw [iter, h1, flatten_append], ?_, ?_, ?_⟩
      · rw [iter, pushBack, hg, h2]
        simp
      · intro e he
        exact hflat (P := (· ≤ k)) (fun level hl => (h3 level hl).le) he
      · intro e he
        exact hflat (P := (k < ·)) h4 he
  | some queue =>
      obtain ⟨pre, post, h1, h2, -, h3, h4⟩ := q.levels.exists_split_of_some hg
      refine ⟨flatten pre ++ queue.map (fun value => (k, value)), flatten post, ?_, ?_, ?_, ?_⟩
      · rw [iter, h1, flatten_append, flatten_cons, List.append_assoc]
      · rw [iter, pushBack, hg, h2]
        simp
      · intro e he
        rcases List.mem_append.mp he with he | he
        · exact hflat (P := (· ≤ k)) (fun level hl => (h3 level hl).le) he
        · obtain ⟨w, -, rfl⟩ := List.mem_map.mp he
          exact le_refl k
      · intro e he
        exact hflat (P := (k < ·)) h4 he

lemma nonEmptyLevels_insert {q : OrderQueue K V} (hq : q.NonEmptyLevels) {k : K} {queue : List V}
    (h : queue ≠ []) : (⟨q.levels.insert k queue⟩ : OrderQueue K V).NonEmptyLevels := by
  rintro ⟨k', queue'⟩ hl
  have hget := (SortedMap.mem_entries_iff _).mp hl
  rw [SortedMap.get_insert] at hget
  split_ifs at hget with hk
  · cases hget
    exact h
  · exact hq (k', queue') (q.levels.mem_entries_iff.mpr hget)

lemma nonEmptyLevels_erase {q : OrderQueue K V} (hq : q.NonEmptyLevels) (k : K) :
    (⟨q.levels.erase k⟩ : OrderQueue K V).NonEmptyLevels := by
  rintro ⟨k', queue'⟩ hl
  have hget := (SortedMap.mem_entries_iff _).mp hl
  rw [SortedMap.get_erase] at hget
  split_ifs at hget
  exact hq (k', queue') (q.levels.mem_entries_iff.mpr hget)

lemma nonEmptyLevels_pushBack {q : OrderQueue K V} (hq : q.NonEmptyLevels) (k : K) (v : V) :
    (q.pushBack k v).NonEmptyLevels := nonEmptyLevels_insert hq (by simp)

/-- A removed order is the first of its level that satisfies the predicate, and everything around
it stays in place. -/
lemma iter_remove {q : OrderQueue K V} (hq : q.NonEmptyLevels) {k : K} {predicate : V → Bool}
    {v : V} {q' : OrderQueue K V} (h : q.remove k predicate = some (v, q')) :
    ∃ pre post : List (K × V), q.iter = pre ++ (k, v) :: post ∧ q'.iter = pre ++ post ∧
      predicate v = true ∧ (∀ e ∈ pre, e.1 = k → predicate e.2 = false) ∧
      q'.NonEmptyLevels := by
  rw [remove] at h
  cases hg : q.levels.get k with
  | none => rw [hg] at h; cases h
  | some queue =>
      simp only [hg] at h
      cases hf : queue.find? predicate with
      | none => rw [hf] at h; cases h
      | some w =>
          simp only [hf, Option.some.injEq, Prod.mk.injEq] at h
          obtain ⟨rfl, rfl⟩ := h
          obtain ⟨hw, l₁, l₂, hqueue, hl₁⟩ := List.find?_eq_some_iff_append.mp hf
          have hera : queue.eraseP predicate = l₁ ++ l₂ := by
            rw [hqueue, List.eraseP_append_right _ (fun b hb => by simpa using hl₁ b hb),
              List.eraseP_cons_of_pos hw]
          obtain ⟨pre, post, h1, h2, h3, hbefore, -⟩ := q.levels.exists_split_of_some hg
          refine ⟨flatten pre ++ l₁.map (fun value => (k, value)),
            l₂.map (fun value => (k, value)) ++ flatten post, ?_, ?_, hw, ?_, ?_⟩
          · rw [iter, h1, hqueue]
            simp
          · by_cases hemp : (l₁ ++ l₂).isEmpty
            · rw [hera, if_pos hemp, iter, h3]
              rw [List.isEmpty_iff, List.append_eq_nil_iff] at hemp
              simp [hemp.1, hemp.2]
            · rw [hera, if_neg hemp, iter, h2]
              simp
          · intro e he hk
            rcases List.mem_append.mp he with he | he
            · obtain ⟨level, hlevel, hkey, -⟩ := mem_flatten.mp he
              exact absurd (hkey.trans hk) (hbefore level hlevel).ne
            · obtain ⟨w, hw, rfl⟩ := List.mem_map.mp he
              simpa using hl₁ w hw
          · by_cases hemp : (queue.eraseP predicate).isEmpty
            · rw [if_pos hemp]
              exact nonEmptyLevels_erase hq k
            · rw [if_neg hemp]
              exact nonEmptyLevels_insert hq (by simpa using hemp)

/-- An order that is present can be removed. -/
lemma remove_isSome {q : OrderQueue K V} {k : K} (predicate : V → Bool) {v : V}
    (h : (k, v) ∈ q.iter) (hv : predicate v = true) :
    ∃ w q', q.remove k predicate = some (w, q') := by
  obtain ⟨queue, hg, hmem⟩ := mem_iter.mp h
  cases hf : queue.find? predicate with
  | none => exact absurd hv (List.find?_eq_none.mp hf v hmem)
  | some w => exact ⟨w, _, by simp only [remove, hg, hf]; rfl⟩

/-- Where nothing is removed, nothing matches. -/
lemma remove_eq_none {q : OrderQueue K V} {k : K} {predicate : V → Bool}
    (h : q.remove k predicate = none) : ∀ e ∈ q.iter, e.1 = k → predicate e.2 = false := by
  rintro ⟨k', v⟩ he rfl
  cases hv : predicate v with
  | false => rfl
  | true =>
      obtain ⟨w, q', hsome⟩ := remove_isSome predicate he hv
      rw [h] at hsome
      cases hsome

/-! ## A side is determined by its orders -/

/-- The orders of `l` with key `k`. -/
def bucket (k : K) (l : List (K × V)) : List V :=
  l.filterMap fun e => if e.1 = k then some e.2 else none

lemma bucket_eq_nil {k : K} {l : List (K × V)} (h : ∀ e ∈ l, e.1 ≠ k) : bucket k l = [] := by
  rw [bucket, List.filterMap_eq_nil_iff]
  intro e he
  rw [if_neg (h e he)]

lemma bucket_map (k : K) (queue : List V) : bucket k (queue.map fun value => (k, value)) = queue := by
  induction queue with
  | nil => rfl
  | cons v queue ih => simp [bucket]

/-- A level holds the orders of `iter` with its key. -/
lemma getD_levels (q : OrderQueue K V) (k : K) : (q.levels.get k).getD [] = bucket k q.iter := by
  have hflat : ∀ {l : List (K × List V)}, (∀ level ∈ l, level.1 ≠ k) → bucket k (flatten l) = [] := by
    intro l hl
    refine bucket_eq_nil fun e he => ?_
    obtain ⟨level, hmem, hk, -⟩ := mem_flatten.mp he
    exact hk ▸ hl level hmem
  cases hg : q.levels.get k with
  | none =>
      refine (hflat fun level hl hk => ?_).symm
      have : q.levels.get level.1 = some level.2 := q.levels.mem_entries_iff.mp hl
      rw [hk, hg] at this
      cases this
  | some queue =>
      obtain ⟨pre, post, h1, -, -, h3, h4⟩ := q.levels.exists_split_of_some hg
      have hb : bucket k q.iter = bucket k (flatten pre)
          ++ (bucket k (queue.map fun value => (k, value)) ++ bucket k (flatten post)) := by
        rw [iter, h1, flatten_append, flatten_cons]
        simp only [bucket, List.filterMap_append]
      rw [hb, hflat fun level hl => (h3 level hl).ne, hflat fun level hl => (h4 level hl).ne',
        bucket_map, List.nil_append, List.append_nil]
      rfl

/-- **Two sides without empty levels and with the same orders are equal.** -/
theorem ext_iter {q q' : OrderQueue K V} (hq : q.NonEmptyLevels) (hq' : q'.NonEmptyLevels)
    (h : q.iter = q'.iter) : q = q' := by
  have hlevels : q.levels = q'.levels := by
    refine SortedMap.ext_get fun k => ?_
    have hget : (q.levels.get k).getD [] = (q'.levels.get k).getD [] := by
      rw [getD_levels, getD_levels, h]
    cases h1 : q.levels.get k with
    | none =>
        cases h2 : q'.levels.get k with
        | none => rfl
        | some queue =>
            rw [h1, h2] at hget
            exact absurd hget.symm (hq' (k, queue) (q'.levels.mem_entries_iff.mpr h2))
    | some queue =>
        cases h2 : q'.levels.get k with
        | none =>
            rw [h1, h2] at hget
            exact absurd hget (hq (k, queue) (q.levels.mem_entries_iff.mpr h1))
        | some queue' =>
            rw [h1, h2] at hget
            exact congrArg some hget
  cases q; cases q'; cases hlevels; rfl

end OrderQueue

end OisyTrade
