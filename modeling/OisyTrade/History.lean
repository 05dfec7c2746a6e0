import OisyTrade.Lib.Paging
import OisyTrade.Order.Types

/-!
# Append-and-index stores

`history/mod.rs`: a primary map from keys to records, each stamped with the number of records
before it, and a per-user index from `(user, stamp)` back to the key.

`Indexed` is the invariant of the two maps.  Under it an insertion of a new key cannot collide in
the index, and it appends the key to its user's list (`userKeys_insertOnce`), which is what the
order of a user's trades is.
-/

namespace OisyTrade

/-- `ByUserKey`: the user and the insertion sequence. -/
abbrev ByUserKey := CompositeId UserId InsertionSeq

namespace ByUserKey

/-- `ByUserKey::new`. -/
def new (user : UserId) (seq : InsertionSeq) : ByUserKey := toLex (user, seq)

/-- The user of an index key. -/
def user (key : ByUserKey) : UserId := (ofLex key).1

/-- The insertion sequence of an index key. -/
def seq (key : ByUserKey) : InsertionSeq := (ofLex key).2

@[simp] lemma user_new (u : UserId) (s : InsertionSeq) : (new u s).user = u := rfl

/-- `ByUserKey::first_of`. -/
def firstOf (user : UserId) : ByUserKey := new user Seq.zero

/-- `ByUserKey::last_of`. -/
def lastOf (user : UserId) : ByUserKey := new user ⟨2 ^ 64 - 1, Seq.max_lt⟩

lemma lt_iff {a b : ByUserKey} : a < b ↔ a.user < b.user ∨ (a.user = b.user ∧ a.seq < b.seq) :=
  Prod.Lex.lt_iff

lemma range_iff {user : UserId} (key : ByUserKey) :
    (firstOf user ≤ key ∧ key ≤ lastOf user) ↔ key.user = user := CompositeId.range_iff key

end ByUserKey

/-- `SeqRecord`. -/
structure SeqRecord (V : Type) where
  seq : InsertionSeq
  record : V

/-- `CursorNotFound`. -/
inductive CursorNotFound
  | mk
deriving DecidableEq

/-- `History`. -/
structure History (K V : Type) [LinearOrder K] where
  primary : SortedMap K (SeqRecord V)
  byUser : SortedMap ByUserKey K

namespace History

variable {K V : Type} [LinearOrder K]

/-- `History::new`, over empty memory. -/
def empty : History K V := { primary := SortedMap.empty, byUser := SortedMap.empty }

/-- `History::get`. -/
def get (h : History K V) (key : K) : Option V := (h.primary.get key).map (·.record)

/-- `History::contains_key`. -/
def containsKey (h : History K V) (key : K) : Bool := h.primary.contains key

/-- `History::insert_once`. -/
def insertOnce (h : History K V) (user : UserId) (key : K) (record : V) :
    Except Trap (History K V) := do
  let seq ← Seq.ofLen h.primary.size
  assertBug (!h.primary.contains key) .duplicateHistoryKey
  let primary := h.primary.insert key { seq, record }
  assertBug (!h.byUser.contains (.new user seq)) .duplicateUserIndexEntry
  .ok { primary, byUser := h.byUser.insert (.new user seq) key }

/-- `History::modify`: `f` returns the new record and whether it changed. -/
def modify (h : History K V) (key : K) (f : V → Except Trap (V × Bool)) :
    Except Trap (History K V) := do
  let entry ← expectBug (h.primary.get key) .historyKeyMissing
  let (record, changed) ← f entry.record
  .ok (if changed then { h with primary := h.primary.insert key { entry with record } } else h)

/-- The index entries of `user` up to a bound, newest first. -/
def scan (h : History K V) (user : UserId) (upper : ByUserKey → Bool) (length : ℕ) : List K :=
  ((h.byUser.entries.filter fun e => ByUserKey.firstOf user ≤ e.1 && upper e.1).reverse.take
    length).map (·.2)

/-- `History::page_by_user`. -/
def pageByUser (h : History K V) (user : UserId) (after : Option K) (length : ℕ) :
    Except CursorNotFound (List K) :=
  match after with
  | none => .ok (h.scan user (fun key => key ≤ ByUserKey.lastOf user) length)
  | some cursor =>
      match h.primary.get cursor with
      | none => .error .mk
      | some entry =>
          let key := ByUserKey.new user entry.seq
          if h.byUser.get key = some cursor then .ok (h.scan user (fun k => k < key) length)
          else .error .mk

/-- `History::range_primary`: the entries from `lower` up to a bound, in descending order. -/
def rangePrimary (h : History K V) (lower : K) (upper : K → Bool) (length : ℕ) : List (K × V) :=
  ((h.primary.entries.filter fun e => lower ≤ e.1 && upper e.1).reverse.take length).map
    fun e => (e.1, e.2.record)

/-! ## The two maps in step -/

/-- Every index entry is older than the next insertion and leads to a record with its stamp. -/
structure Indexed (h : History K V) : Prop where
  below : ∀ key k, h.byUser.get key = some k → key.seq.val < h.primary.size
  found : ∀ key k, h.byUser.get key = some k → ∃ e, h.primary.get k = some e ∧ e.seq = key.seq

/-- The keys of one user, oldest first. -/
def userKeys (h : History K V) (user : UserId) : List K :=
  (h.byUser.entries.filter fun e => e.1.user = user).map (·.2)

lemma indexed_empty : (empty : History K V).Indexed :=
  ⟨fun _ _ h => (nomatch h), fun _ _ h => (nomatch h)⟩

variable {h h' : History K V} {user : UserId} {key : K} {record : V}

/-- What a successful insertion did. -/
lemma insertOnce_eq_ok (hok : h.insertOnce user key record = .ok h') :
    ∃ seq : InsertionSeq, seq.val = h.primary.size ∧ h.primary.get key = none ∧
      h.byUser.get (.new user seq) = none ∧
      h' = { primary := h.primary.insert key { seq, record },
             byUser := h.byUser.insert (.new user seq) key } := by
  simp only [insertOnce, Except.bind_eq_ok, Except.assert_eq_ok, Seq.ofLen_eq_ok,
    Bool.not_eq_true', SortedMap.contains, Option.isSome_eq_false_iff,
    Option.isNone_iff_eq_none, Except.ok.injEq] at hok
  obtain ⟨seq, hseq, -, hk, -, hu, rfl⟩ := hok
  exact ⟨seq, hseq, hk, hu, rfl⟩

/-- **A new key is inserted without a trap**, as long as the store can be numbered. -/
lemma insertOnce_outcome (hi : h.Indexed) (hk : h.primary.get key = none) :
    (h.insertOnce user key record).Outcome
      (fun e => e = .exhausted .stableMap ∧ 2 ^ 64 ≤ h.primary.size)
      fun h' => h.insertOnce user key record = .ok h' := by
  by_cases hlt : h.primary.size < 2 ^ 64
  · have hu : h.byUser.get (.new user ⟨h.primary.size, hlt⟩) = none := by
      cases hg : h.byUser.get (.new user ⟨h.primary.size, hlt⟩) with
      | none => rfl
      | some k => exact absurd (hi.below _ k hg) (lt_irrefl _)
    simp only [insertOnce, Seq.ofLen, dif_pos hlt, Except.bind_ok, SortedMap.contains, hk, hu,
      Option.isSome_none, Bool.not_false, Except.assert_true, Except.outcome_ok]
  · simp only [insertOnce, Seq.ofLen, dif_neg hlt, Except.bind_error, Except.outcome_error]
    exact ⟨trivial, Nat.le_of_not_lt hlt⟩

lemma Indexed.insertOnce (hi : h.Indexed) (hok : h.insertOnce user key record = .ok h') :
    h'.Indexed := by
  obtain ⟨seq, hseq, hk, -, rfl⟩ := insertOnce_eq_ok hok
  have hsize : (h.primary.insert key { seq, record }).size = h.primary.size + 1 :=
    SortedMap.size_insert_of_none _ _ hk
  refine ⟨fun key' k hg => ?_, fun key' k hg => ?_⟩
  · show key'.seq.val < (h.primary.insert key { seq, record }).size
    rw [hsize]
    rw [SortedMap.get_insert] at hg
    split_ifs at hg with he
    · rw [← he]
      show seq.val < _
      omega
    · exact Nat.lt_succ_of_lt (hi.below key' k hg)
  · show ∃ e, (h.primary.insert key { seq, record }).get k = some e ∧ e.seq = key'.seq
    rw [SortedMap.get_insert] at hg ⊢
    split_ifs at hg with he
    · rw [if_pos (Option.some.inj hg), ← he]
      exact ⟨_, rfl, rfl⟩
    · obtain ⟨e, hget, hseq⟩ := hi.found key' k hg
      rw [if_neg (fun hkk => by rw [← hkk, hk] at hget; cases hget)]
      exact ⟨e, hget, hseq⟩

lemma get_insertOnce (hok : h.insertOnce user key record = .ok h') (k : K) :
    h'.get k = if key = k then some record else h.get k := by
  obtain ⟨seq, -, -, -, rfl⟩ := insertOnce_eq_ok hok
  rw [get, SortedMap.get_insert]
  split_ifs <;> rfl

lemma get_eq_none_of_insertOnce (hok : h.insertOnce user key record = .ok h') :
    h.get key = none := by
  obtain ⟨seq, -, hk, -, -⟩ := insertOnce_eq_ok hok
  rw [get, hk]
  rfl

/-- **An insertion appends to its user's list** and leaves the other lists alone. -/
lemma userKeys_insertOnce (hi : h.Indexed) (hok : h.insertOnce user key record = .ok h')
    (u : UserId) : h'.userKeys u = h.userKeys u ++ if user = u then [key] else [] := by
  obtain ⟨seq, hseq, -, hu, rfl⟩ := insertOnce_eq_ok hok
  obtain ⟨pre, post, hold, hnew, hpre, hpost⟩ := SortedMap.exists_split_of_none _ hu
  -- Nothing of the same user comes after the new entry.
  have hlater : ∀ e ∈ post, e.1.user ≠ user := by
    intro e he hue
    have hmem : e ∈ h.byUser.entries := by
      rw [hold]
      exact List.mem_append_right _ he
    have hb := hi.below e.1 e.2 (h.byUser.mem_entries_iff.mp hmem)
    rcases ByUserKey.lt_iff.mp (hpost e he) with hlt | ⟨-, hlt⟩
    · exact hlt.ne hue.symm
    · have hlt' : seq.val < e.1.seq.val := hlt
      omega
  rw [userKeys, userKeys, hold, hnew key, List.filter_append, List.filter_append, List.map_append,
    List.map_append, List.append_assoc]
  congr 1
  rw [List.filter_cons]
  by_cases hcase : user = u
  · have hpost' : post.filter (fun e => e.1.user = u) = [] := by
      refine List.filter_eq_nil_iff.mpr fun e he => ?_
      simpa using hcase ▸ hlater e he
    simp [hcase, hpost']
  · simp [hcase]

/-- What a successful modification did. -/
lemma modify_eq_ok {f : V → Except Trap (V × Bool)} (hok : h.modify key f = .ok h') :
    ∃ v r, h.get key = some v ∧ f v = .ok r ∧
      (∀ k, h'.get k = if key = k then some (if r.2 then r.1 else v) else h.get k) ∧
      h'.byUser = h.byUser ∧ h'.primary.size = h.primary.size ∧
      ∀ k, (h'.primary.get k).isSome ↔ (h.primary.get k).isSome := by
  simp only [modify, Except.bind_eq_ok, Except.expect_eq_ok, Except.ok.injEq] at hok
  obtain ⟨entry, he, ⟨record, changed⟩, hf, rfl⟩ := hok
  have hget : h.get key = some entry.record := by rw [get, he]; rfl
  refine ⟨entry.record, (record, changed), hget, hf, ?_⟩
  cases changed with
  | false =>
      refine ⟨fun k => ?_, rfl, rfl, fun _ => Iff.rfl⟩
      simp only [Bool.false_eq_true, if_false]
      split_ifs with hk
      · rw [← hk, hget]
      · rfl
  | true =>
      refine ⟨fun k => ?_, rfl, SortedMap.size_insert_of_some _ _ he, fun k => ?_⟩
      · simp only [if_true, get, SortedMap.get_insert]
        split_ifs <;> rfl
      · simp only [if_true, SortedMap.get_insert]
        split_ifs with hk
        · rw [← hk, he]
          simp
        · exact Iff.rfl

/-- A modification keeps the stamps. -/
lemma seq_modify {f : V → Except Trap (V × Bool)} (hok : h.modify key f = .ok h') {k : K}
    {e : SeqRecord V} (he : h.primary.get k = some e) :
    ∃ e', h'.primary.get k = some e' ∧ e'.seq = e.seq := by
  simp only [modify, Except.bind_eq_ok, Except.expect_eq_ok, Except.ok.injEq] at hok
  obtain ⟨entry, hentry, ⟨record, changed⟩, -, rfl⟩ := hok
  cases changed with
  | false => exact ⟨e, he, rfl⟩
  | true =>
      simp only [if_true, SortedMap.get_insert]
      split_ifs with hk
      · rw [← hk, hentry] at he
        cases he
        exact ⟨_, rfl, rfl⟩
      · exact ⟨e, he, rfl⟩

lemma Indexed.modify {f : V → Except Trap (V × Bool)} (hi : h.Indexed)
    (hok : h.modify key f = .ok h') : h'.Indexed := by
  obtain ⟨v, r, -, -, -, hb, hs, -⟩ := modify_eq_ok hok
  refine ⟨fun key' k hg => ?_, fun key' k hg => ?_⟩
  · rw [hs]
    exact hi.below key' k (hb ▸ hg)
  · obtain ⟨e, he, hseq⟩ := hi.found key' k (hb ▸ hg)
    obtain ⟨e', he', hseq'⟩ := seq_modify hok he
    exact ⟨e', he', hseq'.trans hseq⟩

lemma userKeys_of_byUser (hb : h'.byUser = h.byUser) (u : UserId) :
    h'.userKeys u = h.userKeys u := by rw [userKeys, userKeys, hb]

/-! ## Pages -/

lemma mem_userKeys {k : K} :
    k ∈ h.userKeys user ↔ ∃ seq, h.byUser.get (.new user seq) = some k := by
  simp only [userKeys, List.mem_map, List.mem_filter, decide_eq_true_eq]
  constructor
  · rintro ⟨e, ⟨he, rfl⟩, rfl⟩
    exact ⟨e.1.seq, h.byUser.mem_entries_iff.mp he⟩
  · rintro ⟨seq, hget⟩
    exact ⟨(.new user seq, k), ⟨h.byUser.mem_entries_iff.mpr hget, rfl⟩, rfl⟩

/-- A key stands once in its user's list. -/
lemma Indexed.userKeys_nodup (hi : h.Indexed) (user : UserId) : (h.userKeys user).Nodup := by
  have hentries : (h.byUser.entries.filter fun e => e.1.user = user).Pairwise
      fun a b => a.1 < b.1 := (List.pairwise_map.mp h.byUser.keys_pairwise).filter _
  refine List.pairwise_map.mpr (hentries.imp_of_mem ?_)
  intro a b ha hb hlt heq
  obtain ⟨ha, hua⟩ := List.mem_filter.mp ha
  obtain ⟨hb, hub⟩ := List.mem_filter.mp hb
  obtain ⟨e, he, hseq⟩ := hi.found a.1 a.2 (h.byUser.mem_entries_iff.mp ha)
  obtain ⟨e', he', hseq'⟩ := hi.found b.1 b.2 (h.byUser.mem_entries_iff.mp hb)
  rw [heq, he'] at he
  cases he
  rcases ByUserKey.lt_iff.mp hlt with hu | ⟨-, hs⟩
  · rw [of_decide_eq_true hua, of_decide_eq_true hub] at hu
    exact lt_irrefl _ hu
  · rw [← hseq, ← hseq'] at hs
    exact lt_irrefl _ hs

lemma scan_all (h : History K V) (user : UserId) (n : ℕ) :
    h.scan user (fun key => key ≤ ByUserKey.lastOf user) n = (h.userKeys user).reverse.take n := by
  rw [scan, h.byUser.filter_range ByUserKey.range_iff, List.map_take, List.map_reverse]
  rfl

/-- A cursor cuts the user's list where it stands. -/
lemma Indexed.scan_before (hi : h.Indexed) {seq : InsertionSeq} {c : K} {older newer : List K}
    (hget : h.byUser.get (.new user seq) = some c)
    (hkeys : h.userKeys user = older ++ c :: newer) (n : ℕ) :
    h.scan user (fun k => k < .new user seq) n = older.reverse.take n := by
  obtain ⟨pre, post, hsplit, hrange⟩ :=
    h.byUser.filter_range_before ByUserKey.range_iff hget (ByUserKey.user_new user seq)
  have hcut : h.userKeys user = ((pre.filter fun e => e.1.user = user).map (·.2)) ++
      c :: ((post.filter fun e => e.1.user = user).map (·.2)) := by
    rw [userKeys, hsplit, List.filter_append, List.filter_cons_of_pos (by simp), List.map_append,
      List.map_cons]
  have hnodup := hi.userKeys_nodup user
  rw [hkeys, List.nodup_middle, List.nodup_cons, List.mem_append, not_or] at hnodup
  have holder : older = (pre.filter fun e => e.1.user = user).map (·.2) :=
    ((List.append_cons_inj_of_notMem hnodup.1.1 hnodup.1.2).mp (hkeys.symm.trans hcut)).1
  rw [scan, hrange, List.map_take, List.map_reverse, holder]

/-- **Pages are answered from the user's list.** -/
lemma Indexed.serves (hi : h.Indexed) (user : UserId) :
    Paging.Serves (h.pageByUser user) id (h.userKeys user) where
  start := by
    intro n
    rw [pageByUser, scan_all]
  resume := by
    intro older c newer hkeys n
    have hmem : c ∈ h.userKeys user := by
      rw [hkeys]
      exact List.mem_append_right _ List.mem_cons_self
    obtain ⟨seq, hget⟩ := mem_userKeys.mp hmem
    obtain ⟨e, he, hseq⟩ := hi.found _ c hget
    have hseq' : e.seq = seq := hseq
    simp only [pageByUser, id_eq, he, hseq', hget, if_true]
    rw [hi.scan_before hget hkeys]

/-- **A cursor is refused** exactly when it is not in the user's list. -/
lemma Indexed.pageByUser_error (hi : h.Indexed) {k : K} {n : ℕ} :
    h.pageByUser user (some k) n = .error .mk ↔ k ∉ h.userKeys user := by
  constructor
  · intro herr hmem
    obtain ⟨older, newer, hkeys⟩ := List.append_of_mem hmem
    have hok := (hi.serves user).resume older k newer hkeys n
    rw [id_eq, herr] at hok
    cases hok
  · intro hmem
    simp only [pageByUser]
    cases he : h.primary.get k with
    | none => rfl
    | some e =>
        have hne : ¬ h.byUser.get (.new user e.seq) = some k :=
          fun hget => hmem (mem_userKeys.mpr ⟨_, hget⟩)
        simp only [if_neg hne]

/-- The entries of one user, oldest first. -/
def feed (h : History K V) (user : UserId) : List (K × V) :=
  (h.userKeys user).filterMap fun k => (h.get k).map fun v => (k, v)

lemma mem_feed {k : K} {v : V} :
    (k, v) ∈ h.feed user ↔ k ∈ h.userKeys user ∧ h.get k = some v := by
  simp only [feed, List.mem_filterMap, Option.map_eq_some_iff, Prod.mk.injEq]
  constructor
  · rintro ⟨k', hk, v', hv, rfl, rfl⟩
    exact ⟨hk, hv⟩
  · rintro ⟨hk, hv⟩
    exact ⟨k, hk, v, hv, rfl, rfl⟩

/-- Every key of a user has an entry. -/
lemma Indexed.get_of_mem (hi : h.Indexed) {k : K} (hk : k ∈ h.userKeys user) :
    ∃ v, h.get k = some v := by
  obtain ⟨seq, hget⟩ := mem_userKeys.mp hk
  obtain ⟨e, he, -⟩ := hi.found _ k hget
  exact ⟨e.record, by rw [get, he]; rfl⟩

lemma Indexed.feed_keys (hi : h.Indexed) (user : UserId) :
    (h.feed user).map Prod.fst = h.userKeys user := by
  refine Paging.map_filterMap ?_
  intro k hk
  obtain ⟨v, hv⟩ := hi.get_of_mem hk
  rw [hv]
  rfl

/-- **A page is a function of the user's entries.** -/
lemma Indexed.pageByUser_eq (hi : h.Indexed) {user : UserId} {E : Type} {key : E → K}
    {entries : List E} (hkeys : entries.map key = h.userKeys user) (after : Option K) (n : ℕ) :
    h.pageByUser user after n
      = Except.expect ((Paging.page key entries after n).map (List.map key)) .mk := by
  have hrefused : ∀ c, c ∉ (h.userKeys user).map id → ∀ n,
      h.pageByUser user (some c) n = .error .mk := by
    intro c hc n
    rw [List.map_id] at hc
    exact hi.pageByUser_error.mpr hc
  rw [(hi.serves user).eq_page hrefused, ← hkeys, Paging.page_map]
  rfl

end History

end OisyTrade
