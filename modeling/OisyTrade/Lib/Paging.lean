import OisyTrade.Lib.Outcome
import Mathlib.Data.List.Infix
import Mathlib.Data.List.Sort

/-!
# Paging through a growing feed

A feed is a list that only grows at its end.  A reader gets it newest first, page after page, with
the key of the last entry of a page as the cursor of the next request, until a page is empty.
Between two requests the feed may grow.

`paginate` is the reader's loop, over any way to answer requests.  `Serves` says that a request is
answered from a feed: what is older than the cursor, newest first.  Then the reader gets exactly
what the feed held at the first request (`paginate_eq`), whatever the page lengths are.

`page` is the answer as a function of the feed.  A store that serves a feed and refuses every other
cursor answers `page`, so that its answers depend on nothing else (`Serves.eq_page`).
-/

namespace OisyTrade.Paging

variable {ε α β : Type}

/-- Ask for page after page: request `i` starts after the cursor and has length `length i`.  The
result is `none` if the fuel does not suffice. -/
def paginate (ask : ℕ → Option α → ℕ → Except ε (List β)) (key : β → α) (length : ℕ → ℕ) :
    ℕ → ℕ → Option α → Except ε (Option (List β))
  | 0, _, _ => .ok none
  | fuel + 1, i, after => do
      let page ← ask i after (length i)
      match page.getLast? with
      | none => .ok (some [])
      | some last => do
          let rest ← paginate ask key length fuel (i + 1) (some (key last))
          .ok (rest.map (page ++ ·))

/-- **Requests are answered from a feed**, which is listed oldest first. -/
structure Serves (answer : Option α → ℕ → Except ε (List β)) (key : β → α) (feed : List β) :
    Prop where
  start : ∀ n, answer none n = .ok (feed.reverse.take n)
  resume : ∀ older c newer, feed = older ++ c :: newer →
    ∀ n, answer (some (key c)) n = .ok (older.reverse.take n)

/-- A page that is not empty cuts the older entries at its last one. -/
lemma exists_cut (older : List β) {n : ℕ} (hn : 1 ≤ n) :
    older = [] ∨ ∃ older' c rest, older = older' ++ c :: rest ∧
      older.reverse.take n = (c :: rest).reverse := by
  have htake : older.reverse.take n = (older.drop (older.length - n)).reverse := List.take_reverse
  cases hdrop : older.drop (older.length - n) with
  | nil =>
      left
      rw [List.drop_eq_nil_iff] at hdrop
      exact List.length_eq_zero_iff.mp (by omega)
  | cons c rest =>
      right
      refine ⟨older.take (older.length - n), c, rest, ?_, ?_⟩
      · rw [← hdrop, List.take_append_drop]
      · rw [htake, hdrop]

variable {ask : ℕ → Option α → ℕ → Except ε (List β)} {key : β → α} {length : ℕ → ℕ}
  {feeds : ℕ → List β}

/-- The loop from any request on: it returns what is older than the cursor. -/
lemma paginate_from (hserves : ∀ i, Serves (ask i) key (feeds i))
    (hgrow : ∀ i, feeds i <+: feeds (i + 1)) (hlength : ∀ i, 1 ≤ length i) :
    ∀ (fuel i : ℕ) (after : Option α) (older : List β), older <+: feeds i →
      (∀ n, ask i after n = .ok (older.reverse.take n)) → older.length < fuel →
      paginate ask key length fuel i after = .ok (some older.reverse) := by
  intro fuel
  induction fuel with
  | zero =>
      intro i after older _ _ hfuel
      exact absurd hfuel (Nat.not_lt_zero _)
  | succ fuel ih =>
      intro i after older hpre hask hfuel
      rw [paginate, hask, Except.bind_ok]
      rcases exists_cut older (hlength i) with rfl | ⟨older', c, rest, rfl, hpage⟩
      · rw [List.reverse_nil, List.take_nil]
        rfl
      · rw [hpage]
        simp only [List.reverse_cons, List.getLast?_append, List.getLast?_singleton,
          Option.some_or]
        -- the entries older than the new cursor stand before it in the grown feed, too
        obtain ⟨newer, hnewer⟩ := hpre.trans (hgrow i)
        have hcut : feeds (i + 1) = older' ++ c :: (rest ++ newer) := by
          rw [← hnewer, List.append_assoc, List.cons_append]
        have hrest := ih (i + 1) (some (key c)) older' ⟨_, hcut.symm⟩
          ((hserves (i + 1)).resume older' c _ hcut) (by
            rw [List.length_append, List.length_cons] at hfuel
            omega)
        rw [hrest, Except.bind_ok, Option.map_some, List.reverse_append, List.reverse_cons]

/-- **Paging is complete.**  The reader gets what the feed held at the first request, newest
first. -/
theorem paginate_eq (feeds : ℕ → List β) (hserves : ∀ i, Serves (ask i) key (feeds i))
    (hgrow : ∀ i, feeds i <+: feeds (i + 1)) (hlength : ∀ i, 1 ≤ length i) {fuel : ℕ}
    (hfuel : (feeds 0).length < fuel) :
    paginate ask key length fuel 0 none = .ok (some (feeds 0).reverse) :=
  paginate_from hserves hgrow hlength fuel 0 none (feeds 0) List.prefix_rfl (hserves 0).start hfuel

/-- Two feeds in the order of a key are equal if they hold the same entries. -/
lemma eq_of_mem_iff [LinearOrder α] (key : β → α) {feed feed' : List β}
    (h : feed.Pairwise fun a b => key a < key b) (h' : feed'.Pairwise fun a b => key a < key b)
    (hmem : ∀ e, e ∈ feed ↔ e ∈ feed') : feed = feed' := by
  have hirrefl : Std.Irrefl fun a b : β => key a < key b := ⟨fun a => lt_irrefl (key a)⟩
  have hantisymm : Std.Antisymm fun a b : β => key a < key b :=
    ⟨fun a b hab hba => absurd (hab.trans hba) (lt_irrefl _)⟩
  exact h.eq_of_mem_iff h' hmem

/-- Looking up every key of a list gives a feed with these keys. -/
lemma map_filterMap {f : α → Option β} {keys : List α}
    (h : ∀ k ∈ keys, (f k).map key = some k) : (keys.filterMap f).map key = keys := by
  rw [List.map_filterMap, List.filterMap_congr h, List.filterMap_some]

/-! ## The answer as a function of the feed -/

section Page

variable [DecidableEq α] {γ : Type} {answer : Option α → ℕ → Except ε (List β)} {feed : List β}

/-- The page of a feed after a cursor, or `none` if the feed does not hold the cursor. -/
def page (key : β → α) (feed : List β) (after : Option α) (n : ℕ) : Option (List β) :=
  match after with
  | none => some (feed.reverse.take n)
  | some c =>
      if c ∈ feed.map key then some ((feed.takeWhile fun e => key e ≠ c).reverse.take n) else none

/-- A cursor of the feed cuts it where it stands first. -/
lemma exists_cut_at {c : α} (h : c ∈ feed.map key) :
    ∃ e newer, key e = c ∧ feed = (feed.takeWhile fun e => key e ≠ c) ++ e :: newer := by
  induction feed with
  | nil => cases h
  | cons e feed ih =>
      by_cases he : key e = c
      · refine ⟨e, feed, he, ?_⟩
        rw [List.takeWhile_cons_of_neg (by simp [he]), List.nil_append]
      · have hmem : c ∈ feed.map key := by
          rcases List.mem_cons.mp h with heq | hmem
          · exact absurd heq.symm he
          · exact hmem
        obtain ⟨e', newer, hkey, hcut⟩ := ih hmem
        refine ⟨e', newer, hkey, ?_⟩
        rw [List.takeWhile_cons_of_pos (by simp [he]), List.cons_append, ← hcut]

/-- **The answers are a function of the feed.** -/
theorem Serves.eq_page (h : Serves answer key feed) {e : ε}
    (hrefused : ∀ c, c ∉ feed.map key → ∀ n, answer (some c) n = .error e) (after : Option α)
    (n : ℕ) : answer after n = Except.expect (page key feed after n) e := by
  cases after with
  | none => exact h.start n
  | some c =>
      by_cases hc : c ∈ feed.map key
      · obtain ⟨b, newer, rfl, hcut⟩ := exists_cut_at hc
        rw [page, if_pos hc, h.resume _ b newer hcut n]
        rfl
      · rw [page, if_neg hc, hrefused c hc]
        rfl

/-- The page after an entry of a feed without repeated keys. -/
lemma page_of_cut (hnodup : (feed.map key).Nodup) {older newer : List β} {e : β}
    (hcut : feed = older ++ e :: newer) (n : ℕ) :
    page key feed (some (key e)) n = some (older.reverse.take n) := by
  subst hcut
  rw [List.map_append, List.map_cons, List.nodup_middle, List.nodup_cons, List.mem_append,
    not_or] at hnodup
  have holder : ∀ b ∈ older, (decide (key b ≠ key e)) = true := by
    intro b hb
    refine decide_eq_true ?_
    intro heq
    exact hnodup.1.1 (heq ▸ List.mem_map_of_mem hb)
  rw [page, if_pos (List.mem_map_of_mem (List.mem_append_right _ List.mem_cons_self)),
    List.takeWhile_append_of_pos holder, List.takeWhile_cons_of_neg (by simp), List.append_nil]

/-- A page holds entries of the feed. -/
lemma mem_of_page {after : Option α} {n : ℕ} {entries : List β}
    (h : page key feed after n = some entries) {b : β} (hb : b ∈ entries) : b ∈ feed := by
  cases after with
  | none =>
      cases h
      exact List.mem_reverse.mp (List.mem_of_mem_take hb)
  | some c =>
      rw [page] at h
      split_ifs at h
      cases h
      exact (List.takeWhile_sublist _).mem (List.mem_reverse.mp (List.mem_of_mem_take hb))

/-- A page of the keys. -/
lemma page_map (g : γ → β) (feed : List γ) (after : Option α) (n : ℕ) :
    page key (feed.map g) after n = (page (key ∘ g) feed after n).map (List.map g) := by
  cases after with
  | none => simp only [page, Option.map_some, ← List.map_reverse, List.map_take]
  | some c =>
      simp only [page, List.map_map]
      split_ifs
      · rw [Option.map_some, List.map_take, List.map_reverse, List.takeWhile_map]
        rfl
      · rfl

end Page

end OisyTrade.Paging
