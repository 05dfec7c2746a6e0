import Mathlib.Data.List.Sort
import Mathlib.Algebra.BigOperators.Group.List.Basic
import Mathlib.Algebra.Order.BigOperators.Group.List
import Mathlib.Tactic.Linarith
import Mathlib.Tactic.Ring

/-!
# Finite maps in key order

A `SortedMap K V` is a finite map kept as the list of its entries in strictly ascending key
order.  It stands for an ordered dictionary whose iteration order is observable: `entries` is
what iterating the dictionary yields, and `first`-style operations are the head of that list.

Because the representation is canonical, two maps with the same lookups are equal (`ext_get`),
so a statement about every key is a statement about the map.

* **Lookups.**  `get_insert`, `get_erase`, `get_filter` and `mem_entries_iff`.
* **Sums.**  `sum m f` adds `f k v` over the entries; `sum_insert` and `sum_erase` say how one
  write moves it, which is what a conservation law over a map of balances needs.
* **Rebuilding.**  `insertAll_entries`: inserting the entries of a map one by one into the
  empty map gives the map back.
-/

/-- A finite map as its entries in strictly ascending key order. -/
structure SortedMap (K V : Type*) [LinearOrder K] where
  entries : List (K × V)
  sorted : entries.Pairwise fun a b => a.1 < b.1

namespace SortedMap

variable {K V W : Type*} [LinearOrder K]

instance [DecidableEq V] : DecidableEq (SortedMap K V) := fun a b =>
  decidable_of_iff (a.entries = b.entries)
    ⟨fun h => by cases a; cases b; cases h; rfl, fun h => h ▸ rfl⟩

/-! ## Operations -/

/-- The map with no entry. -/
def empty : SortedMap K V := ⟨[], List.Pairwise.nil⟩

instance : Inhabited (SortedMap K V) := ⟨empty⟩

/-- First entry with key `k`. -/
def lookup (k : K) : List (K × V) → Option V
  | [] => none
  | (k', v) :: l => if k' = k then some v else lookup k l

/-- Insertion at the position of `k`, replacing an entry with the same key. -/
def insertList (k : K) (v : V) : List (K × V) → List (K × V)
  | [] => [(k, v)]
  | (k', v') :: l =>
      if k < k' then (k, v) :: (k', v') :: l
      else if k = k' then (k, v) :: l
      else (k', v') :: insertList k v l

lemma mem_insertList {k : K} {v : V} {e : K × V} :
    ∀ {l : List (K × V)}, e ∈ insertList k v l → e = (k, v) ∨ e ∈ l
  | [], h => by simpa [insertList] using h
  | (k', v') :: l, h => by
      rw [insertList] at h
      split_ifs at h with h1 h2
      · simpa using h
      · rcases List.mem_cons.mp h with h | h
        · exact Or.inl h
        · exact Or.inr (List.mem_cons_of_mem _ h)
      · rcases List.mem_cons.mp h with h | h
        · exact Or.inr (h ▸ List.mem_cons_self)
        · exact (mem_insertList h).imp id (List.mem_cons_of_mem _)

lemma insertList_sorted {k : K} {v : V} :
    ∀ {l : List (K × V)}, (l.Pairwise fun a b => a.1 < b.1) →
      (insertList k v l).Pairwise fun a b => a.1 < b.1
  | [], _ => by simp [insertList]
  | (k', v') :: l, h => by
      obtain ⟨hhd, htl⟩ := List.pairwise_cons.mp h
      rw [insertList]
      split_ifs with h1 h2
      · refine List.pairwise_cons.mpr ⟨fun e he => ?_, h⟩
        rcases List.mem_cons.mp he with rfl | he
        · exact h1
        · exact h1.trans (hhd e he)
      · subst h2
        exact List.pairwise_cons.mpr ⟨hhd, htl⟩
      · refine List.pairwise_cons.mpr ⟨fun e he => ?_, insertList_sorted htl⟩
        rcases mem_insertList he with rfl | he
        · exact lt_of_le_of_ne (not_lt.mp h1) (Ne.symm h2)
        · exact hhd e he

/-- The value stored under `k`. -/
def get (m : SortedMap K V) (k : K) : Option V := lookup k m.entries

/-- Store `v` under `k`, replacing what was there. -/
def insert (m : SortedMap K V) (k : K) (v : V) : SortedMap K V :=
  ⟨insertList k v m.entries, insertList_sorted m.sorted⟩

/-- Keep the entries that satisfy `p`. -/
def filter (m : SortedMap K V) (p : K → V → Bool) : SortedMap K V :=
  ⟨m.entries.filter fun e => p e.1 e.2, m.sorted.filter _⟩

/-- Drop the entry with key `k`, if any. -/
def erase (m : SortedMap K V) (k : K) : SortedMap K V := m.filter fun k' _ => k' ≠ k

/-- Is there an entry with key `k`? -/
def contains (m : SortedMap K V) (k : K) : Bool := (m.get k).isSome

/-- The keys in ascending order. -/
def keys (m : SortedMap K V) : List K := m.entries.map Prod.fst

/-- The number of entries. -/
def size (m : SortedMap K V) : ℕ := m.entries.length

/-- Has the map no entry? -/
def isEmpty (m : SortedMap K V) : Bool := m.entries.isEmpty

/-- Insert the entries of a list, one after the other. -/
def insertAll (m : SortedMap K V) (l : List (K × V)) : SortedMap K V :=
  l.foldl (fun m e => m.insert e.1 e.2) m

/-- The sum of `f` over the entries. -/
def sum (m : SortedMap K V) (f : K → V → ℕ) : ℕ := (m.entries.map fun e => f e.1 e.2).sum

/-! ## Lookups -/

@[simp] lemma get_empty (k : K) : (empty : SortedMap K V).get k = none := rfl

@[simp] lemma entries_empty : (empty : SortedMap K V).entries = [] := rfl

lemma lookup_eq_none_of_lt {k : K} :
    ∀ {l : List (K × V)}, (∀ e ∈ l, k < e.1) → lookup k l = none
  | [], _ => rfl
  | (k', v') :: l, h => by
      have hk : k < k' := h (k', v') List.mem_cons_self
      rw [lookup, if_neg hk.ne', lookup_eq_none_of_lt fun e he => h e (List.mem_cons_of_mem _ he)]

lemma lookup_insertList (k k' : K) (v : V) :
    ∀ {l : List (K × V)}, lookup k' (insertList k v l) = if k = k' then some v else lookup k' l
  | [] => by simp [insertList, lookup]
  | (a, w) :: l => by
      rw [insertList]
      split_ifs with h1 h2 h3 h4 h5
      · subst h2; simp [lookup]
      · simp [lookup, h2]
      · subst h4; simp [lookup]
      · subst h3; simp [lookup, h4]
      · subst h5; simp [lookup, Ne.symm h3, lookup_insertList]
      · by_cases ha : a = k'
        · simp [lookup, ha]
        · simp [lookup, ha, lookup_insertList, h5]

lemma get_insert (m : SortedMap K V) (k k' : K) (v : V) :
    (m.insert k v).get k' = if k = k' then some v else m.get k' := lookup_insertList k k' v

@[simp] lemma get_insert_self (m : SortedMap K V) (k : K) (v : V) :
    (m.insert k v).get k = some v := by rw [get_insert, if_pos rfl]

lemma get_insert_of_ne (m : SortedMap K V) {k k' : K} (v : V) (h : k ≠ k') :
    (m.insert k v).get k' = m.get k' := by rw [get_insert, if_neg h]

lemma mem_of_lookup {k : K} {v : V} :
    ∀ {l : List (K × V)}, lookup k l = some v → (k, v) ∈ l
  | [], h => by simp [lookup] at h
  | (k', v') :: l, h => by
      rw [lookup] at h
      split_ifs at h with hk
      · cases h; subst hk; exact List.mem_cons_self
      · exact List.mem_cons_of_mem _ (mem_of_lookup h)

lemma lookup_of_mem {k : K} {v : V} :
    ∀ {l : List (K × V)}, (l.Pairwise fun a b => a.1 < b.1) → (k, v) ∈ l → lookup k l = some v
  | [], _, h => by simp at h
  | (k', v') :: l, hs, h => by
      obtain ⟨hhd, htl⟩ := List.pairwise_cons.mp hs
      rcases List.mem_cons.mp h with h | h
      · cases h; simp [lookup]
      · have hne : k' ≠ k := (hhd _ h).ne
        rw [lookup, if_neg hne]
        exact lookup_of_mem htl h

/-- An entry is what looking its key up yields. -/
lemma mem_entries_iff (m : SortedMap K V) {k : K} {v : V} :
    (k, v) ∈ m.entries ↔ m.get k = some v :=
  ⟨lookup_of_mem m.sorted, mem_of_lookup⟩

lemma mem_keys_iff (m : SortedMap K V) {k : K} : k ∈ m.keys ↔ (m.get k).isSome := by
  rw [keys, List.mem_map, Option.isSome_iff_exists]
  constructor
  · rintro ⟨⟨k', v⟩, h, rfl⟩
    exact ⟨v, m.mem_entries_iff.mp h⟩
  · rintro ⟨v, h⟩
    exact ⟨(k, v), m.mem_entries_iff.mpr h, rfl⟩

lemma keys_pairwise (m : SortedMap K V) : m.keys.Pairwise (· < ·) :=
  List.pairwise_map.mpr m.sorted

lemma keys_nodup (m : SortedMap K V) : m.keys.Nodup := m.keys_pairwise.imp fun h => h.ne

lemma get_filter (m : SortedMap K V) (p : K → V → Bool) (k : K) :
    (m.filter p).get k = (m.get k).filter (p k) := by
  refine Option.ext fun v => ?_
  rw [← mem_entries_iff, Option.filter_eq_some_iff, ← mem_entries_iff]
  simp only [filter, List.mem_filter]

lemma get_erase (m : SortedMap K V) (k k' : K) :
    (m.erase k).get k' = if k = k' then none else m.get k' := by
  rw [erase, get_filter]
  split_ifs with h
  · subst h
    cases m.get k <;> simp
  · cases m.get k' <;> simp [Ne.symm h]

@[simp] lemma get_erase_self (m : SortedMap K V) (k : K) : (m.erase k).get k = none := by
  rw [get_erase, if_pos rfl]

lemma get_erase_of_ne (m : SortedMap K V) {k k' : K} (h : k ≠ k') :
    (m.erase k).get k' = m.get k' := by rw [get_erase, if_neg h]

/-- **Maps with the same lookups are equal.** -/
theorem ext_get {m n : SortedMap K V} (h : ∀ k, m.get k = n.get k) : m = n := by
  have hmem : ∀ e : K × V, e ∈ m.entries ↔ e ∈ n.entries := by
    rintro ⟨k, v⟩
    rw [mem_entries_iff, mem_entries_iff, h]
  have hirr : ∀ l : List (K × V), (l.Pairwise fun a b => a.1 < b.1) → l.Nodup := by
    intro l hl
    exact hl.imp fun hab he => by subst he; exact lt_irrefl _ hab
  have hperm : m.entries.Perm n.entries :=
    (List.perm_ext_iff_of_nodup (hirr _ m.sorted) (hirr _ n.sorted)).mpr hmem
  have heq : m.entries = n.entries :=
    hperm.eq_of_pairwise (fun a b _ _ hab hba => absurd hab (lt_asymm hba)) m.sorted n.sorted
  cases m; cases n; cases heq; rfl

lemma insert_insert_self (m : SortedMap K V) (k : K) (v w : V) :
    (m.insert k v).insert k w = m.insert k w := by
  refine ext_get fun k' => ?_
  simp only [get_insert]
  split_ifs <;> rfl

/-- Writing back what is already stored changes nothing. -/
lemma insert_get_self (m : SortedMap K V) {k : K} {v : V} (h : m.get k = some v) :
    m.insert k v = m := by
  refine ext_get fun k' => ?_
  rw [get_insert]
  split_ifs with hk
  · subst hk; exact h.symm
  · rfl

lemma erase_insert_self (m : SortedMap K V) {k : K} (v : V) (h : m.get k = none) :
    (m.insert k v).erase k = m := by
  refine ext_get fun k' => ?_
  rw [get_erase, get_insert]
  split_ifs with hk
  · subst hk; exact h.symm
  · rfl

/-! ## Inserting a list -/

@[simp] lemma insertAll_nil (m : SortedMap K V) : m.insertAll [] = m := rfl

@[simp] lemma insertAll_cons (m : SortedMap K V) (e : K × V) (l : List (K × V)) :
    m.insertAll (e :: l) = (m.insert e.1 e.2).insertAll l := rfl

lemma insertAll_append (m : SortedMap K V) (l l' : List (K × V)) :
    m.insertAll (l ++ l') = (m.insertAll l).insertAll l' := List.foldl_append

lemma get_insertAll_of_notMem (m : SortedMap K V) {l : List (K × V)} {k : K}
    (h : k ∉ l.map Prod.fst) : (m.insertAll l).get k = m.get k := by
  induction l generalizing m with
  | nil => rfl
  | cons e l ih =>
      rw [List.map_cons, List.mem_cons, not_or] at h
      rw [insertAll_cons, ih _ h.2, get_insert_of_ne _ _ (Ne.symm h.1)]

lemma get_insertAll_of_mem (m : SortedMap K V) {l : List (K × V)} {k : K} {v : V}
    (hnd : (l.map Prod.fst).Nodup) (h : (k, v) ∈ l) : (m.insertAll l).get k = some v := by
  induction l generalizing m with
  | nil => cases h
  | cons e l ih =>
      rw [List.map_cons, List.nodup_cons] at hnd
      rw [insertAll_cons]
      rcases List.mem_cons.mp h with rfl | h
      · rw [get_insertAll_of_notMem _ hnd.1, get_insert_self]
      · exact ih _ hnd.2 h

lemma mem_of_get_insertAll {m : SortedMap K V} {l : List (K × V)} {k : K} {v : V}
    (h : (m.insertAll l).get k = some v) : (k, v) ∈ l ∨ m.get k = some v := by
  induction l generalizing m with
  | nil => exact Or.inr h
  | cons e l ih =>
      rcases ih h with h | h
      · exact Or.inl (List.mem_cons_of_mem _ h)
      · rw [get_insert] at h
        split_ifs at h with he
        · refine Or.inl (List.mem_cons.mpr (Or.inl ?_))
          rw [← he, ← Option.some.inj h]
        · exact Or.inr h

/-- **Inserting the entries of a map into the empty map rebuilds it.** -/
theorem insertAll_entries (m : SortedMap K V) : (empty : SortedMap K V).insertAll m.entries = m := by
  refine ext_get fun k => ?_
  cases hg : m.get k with
  | none =>
      rw [get_insertAll_of_notMem, get_empty]
      intro hmem
      have := m.mem_keys_iff.mp hmem
      rw [hg] at this
      cases this
  | some v => exact get_insertAll_of_mem _ m.keys_nodup (m.mem_entries_iff.mpr hg)

/-! ## Where a key sits -/

lemma exists_split_list {k : K} :
    ∀ {l : List (K × V)}, (l.Pairwise fun a b => a.1 < b.1) →
      ∃ pre post : List (K × V),
        l = pre ++ ((lookup k l).elim [] fun v => [(k, v)]) ++ post ∧
        (∀ w, insertList k w l = pre ++ (k, w) :: post) ∧
        (∀ e ∈ pre, e.1 < k) ∧ (∀ e ∈ post, k < e.1)
  | [], _ => ⟨[], [], by simp [lookup, insertList]⟩
  | (k', v') :: l, hs => by
      obtain ⟨hhd, htl⟩ := List.pairwise_cons.mp hs
      rcases lt_trichotomy k k' with h | h | h
      · have hnone : lookup k ((k', v') :: l) = none := by
          refine lookup_eq_none_of_lt fun e he => ?_
          rcases List.mem_cons.mp he with rfl | he
          · exact h
          · exact h.trans (hhd e he)
        refine ⟨[], (k', v') :: l, by simp [hnone], fun w => by simp [insertList, h], by simp, ?_⟩
        intro e he
        rcases List.mem_cons.mp he with rfl | he
        · exact h
        · exact h.trans (hhd e he)
      · subst h
        exact ⟨[], l, by simp [lookup], fun w => by simp [insertList], by simp, hhd⟩
      · obtain ⟨pre, post, h1, h2, h3, h4⟩ := exists_split_list (k := k) htl
        refine ⟨(k', v') :: pre, post, ?_, fun w => ?_, ?_, h4⟩
        · rw [lookup, if_neg h.ne]
          simp only [List.cons_append]
          rw [← h1]
        · rw [insertList, if_neg (not_lt.mpr h.le), if_neg h.ne', h2 w]
          rfl
        · intro e he
          rcases List.mem_cons.mp he with rfl | he
          · exact h
          · exact h3 e he

/-- The entries around a stored key, and what writing to or erasing that key does to them. -/
lemma exists_split_of_some (m : SortedMap K V) {k : K} {v : V} (h : m.get k = some v) :
    ∃ pre post : List (K × V), m.entries = pre ++ (k, v) :: post ∧
      (∀ w, (m.insert k w).entries = pre ++ (k, w) :: post) ∧
      (m.erase k).entries = pre ++ post ∧
      (∀ e ∈ pre, e.1 < k) ∧ (∀ e ∈ post, k < e.1) := by
  obtain ⟨pre, post, h1, h2, h3, h4⟩ := exists_split_list (k := k) m.sorted
  have hl : lookup k m.entries = some v := h
  rw [hl] at h1
  simp only [Option.elim_some, List.append_assoc, List.singleton_append] at h1
  refine ⟨pre, post, h1, h2, ?_, h3, h4⟩
  simp only [erase, filter, h1, List.filter_append]
  rw [List.filter_cons_of_neg (by simp), List.filter_eq_self.mpr, List.filter_eq_self.mpr]
  · intro e he
    simpa using (h4 e he).ne'
  · intro e he
    simpa using (h3 e he).ne

/-- A range between two bounds, when the bounds isolate the keys with `P`. -/
lemma filter_range (m : SortedMap K V) {lo hi : K} {P : K → Prop} [DecidablePred P]
    (hP : ∀ k, (lo ≤ k ∧ k ≤ hi) ↔ P k) :
    m.entries.filter (fun e => decide (lo ≤ e.1) && decide (e.1 ≤ hi))
      = m.entries.filter fun e => P e.1 := by
  refine List.filter_congr ?_
  intro e _
  rw [← Bool.decide_and, decide_eq_decide]
  exact hP e.1

/-- A range that ends before a key with `P`. -/
lemma filter_range_before (m : SortedMap K V) {lo hi : K} {P : K → Prop} [DecidablePred P]
    (hP : ∀ k, (lo ≤ k ∧ k ≤ hi) ↔ P k) {c : K} {v : V} (hget : m.get c = some v) (hc : P c) :
    ∃ pre post, m.entries = pre ++ (c, v) :: post ∧
      m.entries.filter (fun e => decide (lo ≤ e.1) && decide (e.1 < c))
        = pre.filter fun e => P e.1 := by
  obtain ⟨pre, post, hsplit, -, -, hpre, hpost⟩ := m.exists_split_of_some hget
  refine ⟨pre, post, hsplit, ?_⟩
  have hnone : ((c, v) :: post).filter
      (fun e => decide (lo ≤ e.1) && decide (e.1 < c)) = [] := by
    refine List.filter_eq_nil_iff.mpr ?_
    intro e he
    rw [Bool.and_eq_true, decide_eq_true_eq, decide_eq_true_eq, not_and, not_lt]
    intro _
    rcases List.mem_cons.mp he with rfl | he
    · exact le_rfl
    · exact (hpost e he).le
  rw [hsplit, List.filter_append, hnone, List.append_nil]
  refine List.filter_congr ?_
  intro e he
  have hlast : e.1 ≤ hi := (hpre e he).le.trans ((hP c).mpr hc).2
  rw [← Bool.decide_and, decide_eq_decide, ← hP]
  exact ⟨fun hrange => ⟨hrange.1, hlast⟩, fun hrange => ⟨hrange.1, hpre e he⟩⟩

/-- The entries around a missing key. -/
lemma exists_split_of_none (m : SortedMap K V) {k : K} (h : m.get k = none) :
    ∃ pre post : List (K × V), m.entries = pre ++ post ∧
      (∀ w, (m.insert k w).entries = pre ++ (k, w) :: post) ∧
      (∀ e ∈ pre, e.1 < k) ∧ (∀ e ∈ post, k < e.1) := by
  obtain ⟨pre, post, h1, h2, h3, h4⟩ := exists_split_list (k := k) m.sorted
  have hl : lookup k m.entries = none := h
  rw [hl] at h1
  simp only [Option.elim_none, List.append_nil] at h1
  exact ⟨pre, post, h1, h2, h3, h4⟩

/-- Writing to or erasing the first key only touches the head. -/
lemma entries_of_head (m : SortedMap K V) {k : K} {v : V} {rest : List (K × V)}
    (h : m.entries = (k, v) :: rest) :
    (∀ w, (m.insert k w).entries = (k, w) :: rest) ∧ (m.erase k).entries = rest := by
  have hs := m.sorted
  rw [h] at hs
  obtain ⟨hhd, -⟩ := List.pairwise_cons.mp hs
  constructor
  · intro w
    simp [insert, h, insertList]
  · simp only [erase, filter, h]
    rw [List.filter_cons_of_neg (by simp), List.filter_eq_self.mpr]
    intro e he
    simpa using (hhd e he).ne'

/-! ## Size -/

lemma length_insertList {k : K} {v : V} :
    ∀ {l : List (K × V)}, lookup k l = none → (insertList k v l).length = l.length + 1
  | [], _ => rfl
  | (k', v') :: l, h => by
      rw [lookup] at h
      split_ifs at h with hk
      rw [insertList]
      split_ifs with h1 h2
      · rfl
      · exact absurd h2.symm hk
      · simp [length_insertList h]

lemma size_insert_of_none (m : SortedMap K V) {k : K} (v : V) (h : m.get k = none) :
    (m.insert k v).size = m.size + 1 := length_insertList h

lemma length_insertList_of_some {k : K} {v w : V} :
    ∀ {l : List (K × V)}, (l.Pairwise fun a b => a.1 < b.1) → lookup k l = some w →
      (insertList k v l).length = l.length
  | [], _, h => by simp [lookup] at h
  | (k', v') :: l, hs, h => by
      obtain ⟨hhd, htl⟩ := List.pairwise_cons.mp hs
      rw [insertList]
      split_ifs with h1 h2
      · have : lookup k ((k', v') :: l) = none := by
          refine lookup_eq_none_of_lt fun e he => ?_
          rcases List.mem_cons.mp he with rfl | he
          · exact h1
          · exact h1.trans (hhd e he)
        rw [this] at h
        cases h
      · rfl
      · rw [lookup, if_neg (Ne.symm h2)] at h
        simp [length_insertList_of_some htl h]

lemma size_insert_of_some (m : SortedMap K V) {k : K} (v : V) {w : V} (h : m.get k = some w) :
    (m.insert k v).size = m.size := length_insertList_of_some m.sorted h

lemma insertList_perm {k : K} {v : V} :
    ∀ {l : List (K × V)}, lookup k l = none → (insertList k v l).Perm ((k, v) :: l)
  | [], _ => List.Perm.refl _
  | (k', v') :: l, h => by
      rw [lookup] at h
      split_ifs at h with hk
      rw [insertList]
      split_ifs with h1 h2
      · exact List.Perm.refl _
      · exact absurd h2.symm hk
      · exact ((insertList_perm h).cons _).trans (List.Perm.swap _ _ _)

lemma entries_insert_of_none (m : SortedMap K V) {k : K} (v : V) (h : m.get k = none) :
    (m.insert k v).entries.Perm ((k, v) :: m.entries) := insertList_perm h

/-! ## Sums -/

@[simp] lemma sum_empty (f : K → V → ℕ) : (empty : SortedMap K V).sum f = 0 := rfl

lemma sum_insertList (f : K → V → ℕ) (k : K) (v : V) :
    ∀ {l : List (K × V)}, (l.Pairwise fun a b => a.1 < b.1) →
      ((insertList k v l).map fun e => f e.1 e.2).sum + (lookup k l).elim 0 (f k)
        = (l.map fun e => f e.1 e.2).sum + f k v
  | [], _ => by simp [insertList, lookup]
  | (k', v') :: l, hs => by
      obtain ⟨hhd, htl⟩ := List.pairwise_cons.mp hs
      rw [insertList]
      split_ifs with h1 h2
      · have : lookup k ((k', v') :: l) = none := by
          refine lookup_eq_none_of_lt fun e he => ?_
          rcases List.mem_cons.mp he with rfl | he
          · exact h1
          · exact h1.trans (hhd e he)
        rw [this]
        simp only [List.map_cons, List.sum_cons, Option.elim_none]
        omega
      · subst h2
        simp only [lookup, if_true, List.map_cons, List.sum_cons, Option.elim_some]
        omega
      · have ih := sum_insertList f k v htl
        simp only [lookup, if_neg (Ne.symm h2), List.map_cons, List.sum_cons]
        omega

/-- **One write moves a sum by the difference of the two values.** -/
theorem sum_insert (m : SortedMap K V) (f : K → V → ℕ) (k : K) (v : V) :
    (m.insert k v).sum f + (m.get k).elim 0 (f k) = m.sum f + f k v :=
  sum_insertList f k v m.sorted

lemma sum_insert_of_none (m : SortedMap K V) (f : K → V → ℕ) {k : K} (v : V)
    (h : m.get k = none) : (m.insert k v).sum f = m.sum f + f k v := by
  have := m.sum_insert f k v
  simpa [h] using this

lemma sum_insert_of_some (m : SortedMap K V) (f : K → V → ℕ) {k : K} (v : V) {w : V}
    (h : m.get k = some w) : (m.insert k v).sum f + f k w = m.sum f + f k v := by
  have := m.sum_insert f k v
  simpa [h] using this

lemma sum_erase (m : SortedMap K V) (f : K → V → ℕ) (k : K) :
    (m.erase k).sum f + (m.get k).elim 0 (f k) = m.sum f := by
  cases h : m.get k with
  | none =>
      have hm : m.erase k = m := by
        refine ext_get fun k' => ?_
        rw [get_erase]
        split_ifs with hk
        · rw [← hk, h]
        · rfl
      rw [hm]
      rfl
  | some v =>
      have hm : (m.erase k).insert k v = m := by
        refine ext_get fun k' => ?_
        rw [get_insert, get_erase]
        split_ifs with hk
        · rw [← hk, h]
        · rfl
      have hs := (m.erase k).sum_insert_of_none f v (get_erase_self m k)
      rw [hm] at hs
      exact hs.symm

lemma sum_congr {m : SortedMap K V} {f g : K → V → ℕ}
    (h : ∀ k v, m.get k = some v → f k v = g k v) : m.sum f = m.sum g := by
  refine congrArg List.sum (List.map_congr_left fun e he => ?_)
  exact h e.1 e.2 (m.mem_entries_iff.mp he)

lemma sum_eq_keys (m : SortedMap K V) (f : K → V → ℕ) :
    m.sum f = (m.keys.map fun k => (m.get k).elim 0 (f k)).sum := by
  rw [sum, keys, List.map_map]
  refine congrArg List.sum (List.map_congr_left fun e he => ?_)
  rw [Function.comp_apply, m.mem_entries_iff.mp he]
  rfl

/-- Two maps with the same keys and the same terms have the same sum. -/
lemma sum_eq_of_get {W : Type*} {m : SortedMap K V} {m' : SortedMap K W} {f : K → V → ℕ}
    {g : K → W → ℕ} (hkeys : ∀ k, (m.get k).isSome ↔ (m'.get k).isSome)
    (h : ∀ k v w, m.get k = some v → m'.get k = some w → f k v = g k w) : m.sum f = m'.sum g := by
  rw [sum_eq_keys, sum_eq_keys]
  have hperm : m.keys.Perm m'.keys := by
    refine (List.perm_ext_iff_of_nodup m.keys_nodup m'.keys_nodup).mpr fun k => ?_
    rw [mem_keys_iff, mem_keys_iff, hkeys]
  refine ((hperm.map _).sum_eq).trans (congrArg List.sum (List.map_congr_left fun k hk => ?_))
  obtain ⟨w, hw⟩ := Option.isSome_iff_exists.mp (m'.mem_keys_iff.mp hk)
  obtain ⟨v, hv⟩ := Option.isSome_iff_exists.mp ((hkeys k).mpr (by rw [hw]; rfl))
  rw [hv, hw]
  exact h k v w hv hw

lemma sum_add (m : SortedMap K V) (f g : K → V → ℕ) :
    m.sum (fun k v => f k v + g k v) = m.sum f + m.sum g := List.sum_map_add

lemma sum_le {m : SortedMap K V} {f g : K → V → ℕ}
    (h : ∀ k v, m.get k = some v → f k v ≤ g k v) : m.sum f ≤ m.sum g :=
  List.sum_le_sum fun e he => h e.1 e.2 (m.mem_entries_iff.mp he)

lemma sum_eq_zero {m : SortedMap K V} {f : K → V → ℕ}
    (h : ∀ k v, m.get k = some v → f k v = 0) : m.sum f = 0 := by
  rw [sum_congr h]
  simp [sum]

lemma le_sum {m : SortedMap K V} (f : K → V → ℕ) {k : K} {v : V} (h : m.get k = some v) :
    f k v ≤ m.sum f :=
  List.le_sum_of_mem (List.mem_map.mpr ⟨(k, v), m.mem_entries_iff.mpr h, rfl⟩)

/-- A sum that is supported on one key is the value there. -/
lemma sum_single {m : SortedMap K V} {f : K → V → ℕ} {k : K} {v : V} (h : m.get k = some v)
    (hf : ∀ k' w, m.get k' = some w → k' ≠ k → f k' w = 0) : m.sum f = f k v := by
  have hrest : (m.erase k).sum f = 0 := by
    refine sum_eq_zero fun k' w hw => ?_
    rw [get_erase] at hw
    split_ifs at hw with hk
    exact hf k' w hw (Ne.symm hk)
  have hs := m.sum_erase f k
  rw [hrest, Nat.zero_add, h] at hs
  exact hs.symm

lemma sum_list_sum {ι : Type*} (m : SortedMap K V) (l : List ι) (f : ι → K → V → ℕ) :
    m.sum (fun k v => (l.map fun i => f i k v).sum) = (l.map fun i => m.sum (f i)).sum := by
  induction l with
  | nil => simp [sum]
  | cons i l ih =>
      simp only [List.map_cons, List.sum_cons]
      rw [sum_add, ih]

/-- Sums over two maps commute. -/
lemma sum_comm {K' V' : Type*} [LinearOrder K'] (m : SortedMap K V) (m' : SortedMap K' V')
    (f : K → V → K' → V' → ℕ) :
    m.sum (fun k v => m'.sum (f k v)) = m'.sum fun k' v' => m.sum fun k v => f k v k' v' :=
  sum_list_sum m m'.entries fun e k v => f k v e.1 e.2

end SortedMap

/-- A finite set in ascending order: a map to the unit. -/
abbrev SortedSet (K : Type*) [LinearOrder K] := SortedMap K Unit

/-- The empty set. -/
abbrev SortedSet.empty {K : Type*} [LinearOrder K] : SortedSet K := SortedMap.empty

namespace SortedMap

/-! ## Sets -/

variable {K : Type*} [LinearOrder K]

/-- Add the members of a list to a set. -/
def addAll (s : SortedMap K Unit) (l : List K) : SortedMap K Unit :=
  l.foldl (fun s k => s.insert k ()) s

@[simp] lemma addAll_nil (s : SortedMap K Unit) : s.addAll [] = s := rfl

lemma addAll_cons (s : SortedMap K Unit) (a : K) (l : List K) :
    s.addAll (a :: l) = (s.insert a ()).addAll l := rfl

lemma addAll_append (s : SortedMap K Unit) (l l' : List K) :
    s.addAll (l ++ l') = (s.addAll l).addAll l' := List.foldl_append

lemma contains_insert {s : SortedMap K Unit} {a k : K} :
    (s.insert a ()).contains k = true ↔ s.contains k = true ∨ k = a := by
  rw [contains, contains, get_insert]
  split_ifs with h
  · simp [h]
  · simp [Ne.symm h]

lemma contains_addAll {s : SortedMap K Unit} {l : List K} {k : K} :
    (s.addAll l).contains k = true ↔ s.contains k = true ∨ k ∈ l := by
  induction l generalizing s with
  | nil => simp
  | cons a l ih => rw [addAll_cons, ih, contains_insert, List.mem_cons, or_assoc]

lemma contains_addAll_empty {l : List K} {k : K} :
    ((empty : SortedMap K Unit).addAll l).contains k = true ↔ k ∈ l := by
  rw [contains_addAll, contains, get_empty]
  simp

lemma contains_iff_get {s : SortedMap K Unit} {k : K} :
    s.contains k = true ↔ s.get k = some () := by
  rw [contains, Option.isSome_iff_exists]
  exact ⟨fun ⟨_, h⟩ => h, fun h => ⟨(), h⟩⟩

/-- Sets with the same members are equal. -/
lemma ext_contains {s t : SortedMap K Unit}
    (h : ∀ k, s.contains k = true ↔ t.contains k = true) : s = t := by
  refine ext_get fun k => ?_
  have hk := h k
  rw [contains_iff_get, contains_iff_get] at hk
  cases hs : s.get k with
  | none =>
      cases ht : t.get k with
      | none => rfl
      | some u =>
          rw [hs, ht] at hk
          cases hk.mpr rfl
  | some u =>
      rw [hs] at hk
      exact (hk.mp rfl).symm

end SortedMap
