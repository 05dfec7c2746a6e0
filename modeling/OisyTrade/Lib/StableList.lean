import Mathlib.Data.List.Sort
import Mathlib.Algebra.Order.BigOperators.Group.List

/-!
# Lists sorted by key, first come first served within a key

The abstract priority queue: a list of keyed values in ascending key order in which values of one
key stand in the order they were inserted.  `insertBack` puts a value behind everything of its own
or a smaller key, `first` and `withoutFirst` look a value of one key up and take it out.
-/

namespace StableList

variable {K V : Type*} [LinearOrder K]

/-- The keys ascend. -/
def Ascending (l : List (K × V)) : Prop := l.Pairwise fun e e' => e.1 ≤ e'.1

/-- Insertion behind every key at most `k`. -/
def insertBack (k : K) (v : V) (l : List (K × V)) : List (K × V) :=
  l.takeWhile (fun e => e.1 ≤ k) ++ (k, v) :: l.dropWhile (fun e => e.1 ≤ k)

/-- The head with its value rewritten. -/
def updateHead (f : K → V → V) : List (K × V) → List (K × V)
  | [] => []
  | (k, v) :: l => (k, f k v) :: l

/-- The first value of key `k` that satisfies `p`. -/
def first (k : K) (p : V → Bool) (l : List (K × V)) : Option V :=
  (l.find? fun e => e.1 = k && p e.2).map Prod.snd

/-- The list without its first value of key `k` that satisfies `p`. -/
def withoutFirst (k : K) (p : V → Bool) (l : List (K × V)) : List (K × V) :=
  l.eraseP fun e => e.1 = k && p e.2

/-- A list cut at `k` has the new value at the cut. -/
lemma insertBack_append {k : K} (v : V) {pre post : List (K × V)}
    (hpre : ∀ e ∈ pre, e.1 ≤ k) (hpost : ∀ e ∈ post, k < e.1) :
    insertBack k v (pre ++ post) = pre ++ (k, v) :: post := by
  have hkeep : ∀ e ∈ pre, decide (e.1 ≤ k) = true := by
    intro e he
    exact decide_eq_true (hpre e he)
  have hstop : post.takeWhile (fun e => decide (e.1 ≤ k)) = []
      ∧ post.dropWhile (fun e => decide (e.1 ≤ k)) = post := by
    cases post with
    | nil => exact ⟨rfl, rfl⟩
    | cons e post =>
        have he : ¬ e.1 ≤ k := not_le.mpr (hpost e List.mem_cons_self)
        simp [he]
  rw [insertBack, List.takeWhile_append_of_pos hkeep, List.dropWhile_append_of_pos hkeep, hstop.1,
    hstop.2, List.append_nil]

lemma first_eq_none {k : K} {p : V → Bool} {l : List (K × V)}
    (h : ∀ e ∈ l, e.1 = k → p e.2 = false) : first k p l = none ∧ withoutFirst k p l = l := by
  have hmiss : ∀ e ∈ l, (decide (e.1 = k) && p e.2) ≠ true := by
    intro e he hhit
    rw [Bool.and_eq_true, decide_eq_true_eq] at hhit
    rw [h e he hhit.1] at hhit
    cases hhit.2
  constructor
  · rw [first, List.find?_eq_none.mpr hmiss, Option.map_none]
  · exact List.eraseP_of_forall_not hmiss

lemma first_append {k : K} {p : V → Bool} {v : V} {pre : List (K × V)} (post : List (K × V))
    (hpre : ∀ e ∈ pre, e.1 = k → p e.2 = false) (hv : p v = true) :
    first k p (pre ++ (k, v) :: post) = some v
      ∧ withoutFirst k p (pre ++ (k, v) :: post) = pre ++ post := by
  obtain ⟨hnone, -⟩ := first_eq_none hpre
  rw [first, Option.map_eq_none_iff] at hnone
  constructor
  · rw [first, List.find?_append, hnone]
    simp [hv]
  · rw [withoutFirst, List.eraseP_append_right]
    · simp [hv]
    · exact List.find?_eq_none.mp hnone

end StableList
