import Mathlib.Data.List.Dedup
import OisyTrade.Dashboard
import OisyTrade.Guarantees.MarketData
import OisyTrade.Guarantees.Traps
import OisyTrade.Lib.Decimal

/-!
# The dashboard

The page that everybody can load is right in every reachable world.  It never traps, and it shows
each listed pair with what its order records say is open.  The decimals of an amount stand for that
amount exactly (`readDecimal_formatScaled`), and the bars compare the quantities
(`BarsCompare`): the division in `bar_width_percent` is by a zero only for quantities that cannot be
on the page.
-/

namespace OisyTrade

/-! ## Amounts -/

/-- **The text of an amount stands for it exactly**: `raw` over `10 ^ decimals`. -/
theorem readDecimal_formatScaled (n : ℕ) (decimals : UInt8) :
    readDecimal (formatScaled (Nat.toDigits 10 n) decimals) = n / 10 ^ decimals.toNat := by
  rw [formatScaled]
  have hraw : ∀ c ∈ Nat.toDigits 10 n, c.isDigit = true := fun c hc =>
    Nat.isDigit_of_mem_toDigits (by decide) (by decide) hc
  split_ifs with hzero
  · rw [readDecimal_whole hraw, Nat.ofDigitChars_ten_toDigits, hzero, pow_zero, div_one]
  · generalize hpad : (Nat.toDigits 10 n).leftpad (decimals.toNat + 1) '0' = padded
    have hdigits : ∀ c ∈ padded, c.isDigit = true := hpad ▸ isDigit_leftpad hraw _
    have hvalue : Nat.ofDigitChars 10 padded 0 = n := by
      rw [← hpad, ofDigitChars_leftpad, Nat.ofDigitChars_ten_toDigits]
    have hlength : decimals.toNat + 1 ≤ padded.length := by
      rw [← hpad, List.length_leftpad]
      exact le_max_left _ _
    have hplaces : (padded.drop (padded.length - decimals.toNat)).length = decimals.toNat := by
      rw [List.length_drop]
      omega
    refine (readDecimal_trim fun c hc => hdigits c (List.mem_of_mem_take hc)).trans ?_
    rw [List.take_append_drop, hvalue, hplaces]

example : formatScaled "1500".toList 3 = "1.5".toList := by decide

/-- Both texts stand for this number. -/
structure Amount.Shows (a : Amount) (texts : Texts) (n : ℕ) (decimals : UInt8) : Prop where
  decimal : readDecimal a.decimalValue = n / 10 ^ decimals.toNat
  raw : a.rawValue = texts.nat n

lemma Amount.shows_new (texts : Texts) (n : ℕ) (decimals : UInt8) :
    (Amount.new texts n decimals).Shows texts n decimals :=
  ⟨readDecimal_formatScaled n decimals, rfl⟩

/-! ## Bars -/

/-- The width of the bar of a quantity, over `ℕ`. -/
def barPercent (q max : ℕ) : ℕ :=
  min 100 (if q * 100 < 2 ^ 128 then q * 100 / max else q / (max / 100))

lemma barPercent_le (q max : ℕ) : barPercent q max ≤ 100 := min_le_left _ _

/-- A wider bar is a larger quantity, also where the product no longer fits. -/
lemma barPercent_mono {q q' max : ℕ} (h : q ≤ q') (hmax : q' ≤ max) :
    barPercent q max ≤ barPercent q' max := by
  refine min_le_min_left 100 ?_
  by_cases hq' : q' * 100 < 2 ^ 128
  · rw [if_pos hq', if_pos (lt_of_le_of_lt (Nat.mul_le_mul_right 100 h) hq')]
    exact Nat.div_le_div_right (Nat.mul_le_mul_right 100 h)
  · rw [if_neg hq']
    have hstep : 0 < max / 100 := by omega
    have hscaled : q / (max / 100) ≤ q' / (max / 100) := Nat.div_le_div_right h
    split_ifs with hq
    · calc q * 100 / max ≤ q * 100 / (max / 100 * 100) :=
            Nat.div_le_div_left (Nat.div_mul_le_self max 100) (by omega)
        _ = q / (max / 100) := Nat.mul_div_mul_right q (max / 100) (by decide)
        _ ≤ q' / (max / 100) := hscaled
    · exact hscaled

lemma barPercent_self {max : ℕ} (h : 0 < max) : barPercent max max = 100 := by
  refine min_eq_left ?_
  split_ifs with hmax
  · exact (Nat.mul_div_cancel_left 100 h).ge
  · rw [Nat.le_div_iff_mul_le (by omega), Nat.mul_comm]
    exact Nat.div_mul_le_self max 100

/-- **A bar is within one percent of the share of the largest quantity.** -/
lemma barPercent_close {q max : ℕ} (h : q ≤ max) (hmax : 0 < max) :
    barPercent q max * max ≤ q * 100 + max ∧ q * 100 < (barPercent q max + 1) * max := by
  rw [barPercent]
  split_ifs with hq
  · have hle : q * 100 / max ≤ 100 := Nat.div_le_of_le_mul (Nat.mul_le_mul_right 100 h)
    rw [min_eq_right hle]
    have hmul := Nat.div_mul_le_self (q * 100) max
    have hlt := Nat.lt_div_mul_add (a := q * 100) hmax
    exact ⟨by omega, by rw [Nat.add_mul, Nat.one_mul]; exact hlt⟩
  · -- The step is the largest quantity over a hundred, rounded down.
    generalize hstep : max / 100 = step
    have hpos : 0 < step := by omega
    have hdiv := Nat.div_mul_le_self q step
    have hlt := Nat.lt_div_mul_add (a := q) hpos
    constructor
    · have hcut : min 100 (q / step) * step ≤ q :=
        (Nat.mul_le_mul_right step (min_le_right _ _)).trans hdiv
      have hcap : min 100 (q / step) ≤ 100 := min_le_left _ _
      calc min 100 (q / step) * max
          ≤ min 100 (q / step) * (step * 100 + 100) := Nat.mul_le_mul_left _ (by omega)
        _ = min 100 (q / step) * step * 100 + min 100 (q / step) * 100 := by ring
        _ ≤ q * 100 + max := by omega
    · rcases le_total 100 (q / step) with hfull | hpart
      · rw [min_eq_left hfull]
        omega
      · rw [min_eq_right hpart]
        calc q * 100 < (q / step * step + step) * 100 := by omega
          _ = (q / step + 1) * (step * 100) := by ring
          _ ≤ (q / step + 1) * max := Nat.mul_le_mul_left _ (by omega)

lemma toNat_saturatingToU128 (q : Quantity) :
    (saturatingToU128 q).toNat = min q.toNat (2 ^ 128 - 1) := by
  have hlow := q.low.isLt
  rw [saturatingToU128, Quantity.toNat]
  split_ifs with hhigh
  · have hpos : 0 < q.high.toNat := by
      refine Nat.pos_of_ne_zero fun hzero => hhigh (BitVec.eq_of_toNat_eq ?_)
      rw [hzero]
      rfl
    rw [BitVec.toNat_allOnes, min_eq_right]
    omega
  · rw [not_not] at hhigh
    have hzero : (0 : U128).toNat = 0 := rfl
    rw [hhigh, hzero, Nat.zero_mul, Nat.zero_add, min_eq_left (by omega)]

lemma U128.div_eq {a b : U128} (h : b ≠ 0) : U128.div a b = .ok (a / b) := if_neg h

/-- The cast to `u8` keeps a percentage. -/
lemma toNat_percent (percent : U128) :
    (UInt8.ofNat (if percent ≤ 100 then percent else 100).toNat).toNat
      = min 100 percent.toNat := by
  have hhundred : percent ≤ 100 ↔ percent.toNat ≤ 100 := Iff.rfl
  split_ifs with hp
  · rw [hhundred] at hp
    rw [Digits.toNat_ofNat_byte (by omega), min_eq_right hp]
  · rw [hhundred] at hp
    rw [min_eq_left (by omega)]
    rfl

/-- **A bar of the page has a width**: the quantity is at most the largest, so the step of the
division is zero only if the product fits. -/
lemma barWidthPercent_eq {q max : U128} (h : q ≤ max) : ∃ bar, barWidthPercent q max = .ok bar ∧
    bar.toNat = barPercent q.toNat max.toNat := by
  have hmax := max.isLt
  have hle : q.toNat ≤ max.toNat := h
  rw [barWidthPercent]
  split_ifs with hzero
  · refine ⟨0, rfl, ?_⟩
    have hq : q.toNat = 0 := by
      rw [hzero] at hle
      exact Nat.le_zero.mp hle
    rw [hq]
    simp [barPercent]
  · cases hmul : U128.checkedMul q 100 with
    | some scaled =>
        have hscaled : scaled.toNat = q.toNat * 100 := U128.checkedMul_eq_some.mp hmul
        have hfits := scaled.isLt
        simp only [U128.div_eq hzero, Except.bind_ok]
        refine ⟨_, rfl, ?_⟩
        rw [toNat_percent, BitVec.toNat_udiv, hscaled, barPercent, if_pos (by omega)]
    | none =>
        have hover : ¬ q.toNat * 100 < 2 ^ 128 := by
          intro hfits
          have hsome : U128.checkedMul q 100 = some (q * 100) := if_pos hfits
          rw [hmul] at hsome
          cases hsome
        have hstep : max / 100 ≠ 0 := by
          intro hstep
          have hstep : (max / 100).toNat = 0 := by rw [hstep]; rfl
          rw [BitVec.toNat_udiv] at hstep
          have hhundred : (100 : U128).toNat = 100 := rfl
          rw [hhundred] at hstep
          omega
        have hhundred : (100 : U128) ≠ 0 := by decide
        simp only [U128.div_eq hhundred, U128.div_eq hstep, Except.bind_ok]
        refine ⟨_, rfl, ?_⟩
        rw [toNat_percent, BitVec.toNat_udiv, BitVec.toNat_udiv, barPercent, if_neg hover]
        rfl

/-! ## Levels -/

lemma le_largestLevel {levels : List (Price × Quantity)} {l : Price × Quantity} (h : l ∈ levels) :
    saturatingToU128 l.2 ≤ largestLevel levels := by
  induction levels with
  | nil => cases h
  | cons l' levels ih =>
      rw [largestLevel, List.foldr_cons, ← largestLevel]
      rcases List.mem_cons.mp h with rfl | h
      · split_ifs with hle
        · exact hle
        · exact BitVec.le_refl _
      · split_ifs with hle
        · exact ih h
        · exact BitVec.le_trans (ih h) (BitVec.le_of_lt (BitVec.not_le.mp hle))

/-- The largest quantity is that of a level. -/
lemma largestLevel_mem {levels : List (Price × Quantity)} (h : levels ≠ []) :
    largestLevel levels = 0 ∨ ∃ l ∈ levels, saturatingToU128 l.2 = largestLevel levels := by
  induction levels with
  | nil => exact absurd rfl h
  | cons l levels ih =>
      rw [largestLevel, List.foldr_cons, ← largestLevel]
      split_ifs with hle
      · cases levels with
        | nil => exact Or.inl rfl
        | cons l' levels =>
            refine (ih (List.cons_ne_nil _ _)).imp_right ?_
            rintro ⟨l', hl', heq⟩
            exact ⟨l', List.mem_cons_of_mem _ hl', heq⟩
      · exact Or.inr ⟨l, List.mem_cons_self, rfl⟩

/-- **The bars compare the quantities**: none is wider than the page, a larger quantity has no
narrower bar, and the largest has the full width.  If the largest is a `u128`, each bar is its share
in percent, off by at most one. -/
structure BarsCompare (levels : List (Price × Quantity)) (width : Quantity → ℕ) : Prop where
  le : ∀ l ∈ levels, width l.2 ≤ 100
  mono : ∀ l ∈ levels, ∀ l' ∈ levels, l.2.toNat ≤ l'.2.toNat → width l.2 ≤ width l'.2
  full : ∀ l ∈ levels, 0 < l.2.toNat → (∀ l' ∈ levels, l'.2.toNat ≤ l.2.toNat) →
    width l.2 = 100
  close : ∀ big ∈ levels, 0 < big.2.toNat → (∀ l' ∈ levels, l'.2.toNat ≤ big.2.toNat) →
    big.2.toNat < 2 ^ 128 → ∀ l ∈ levels,
      width l.2 * big.2.toNat ≤ l.2.toNat * 100 + big.2.toNat ∧
      l.2.toNat * 100 < (width l.2 + 1) * big.2.toNat

/-- The width that the page gives a quantity. -/
def barWidthOf (levels : List (Price × Quantity)) (q : Quantity) : ℕ :=
  barPercent (saturatingToU128 q).toNat (largestLevel levels).toNat

lemma barsCompare (levels : List (Price × Quantity)) :
    BarsCompare levels (barWidthOf levels) := by
  have hsat : ∀ {q q' : Quantity}, q.toNat ≤ q'.toNat →
      (saturatingToU128 q).toNat ≤ (saturatingToU128 q').toNat := by
    intro q q' h
    rw [toNat_saturatingToU128, toNat_saturatingToU128]
    exact min_le_min_right _ h
  -- The largest level is as large as the largest quantity.
  have hbig : ∀ big ∈ levels, (∀ l' ∈ levels, l'.2.toNat ≤ big.2.toNat) →
      (largestLevel levels).toNat = (saturatingToU128 big.2).toNat := by
    intro big hmem hlargest
    refine le_antisymm ?_ (le_largestLevel hmem)
    rcases largestLevel_mem (List.ne_nil_of_mem hmem) with hzero | ⟨l', hl', heq⟩
    · rw [hzero]
      exact Nat.zero_le _
    · rw [← heq]
      exact hsat (hlargest l' hl')
  refine ⟨fun l _ => barPercent_le _ _, fun l _ l' hl' h => ?_, fun l hl hpos hlargest => ?_,
    fun big hmem hpos hlargest hfits l hl => ?_⟩
  · exact barPercent_mono (hsat h) (le_largestLevel hl')
  · rw [barWidthOf, hbig l hl hlargest]
    refine barPercent_self ?_
    rw [toNat_saturatingToU128]
    exact lt_min hpos (by decide)
  · have hle := hlargest l hl
    rw [barWidthOf, hbig big hmem hlargest, toNat_saturatingToU128, toNat_saturatingToU128,
      min_eq_left (by omega), min_eq_left (by omega)]
    exact barPercent_close hle hpos

/-- One row of the depth shows one level. -/
structure DashboardDepthLevel.Shows (row : DashboardDepthLevel) (texts : Texts)
    (decimals : PairDecimals) (width : Quantity → ℕ) (l : Price × Quantity) : Prop where
  price : row.price.Shows texts l.1.toNat decimals.quote
  quantity : row.quantity.Shows texts l.2.toNat decimals.base
  bar : row.barWidthPercent.toNat = width l.2

lemma depthLevels_shown (texts : Texts) (decimals : PairDecimals)
    {levels side : List (Price × Quantity)} (h : ∀ l ∈ side, l ∈ levels) :
    ∃ rows, side.mapM (depthLevel texts (largestLevel levels) decimals) = .ok rows ∧
      List.Forall₂ (fun l row => row.Shows texts decimals (barWidthOf levels) l) side rows := by
  refine Except.mapM_forall₂ fun l hl => ?_
  obtain ⟨bar, hbar, hwidth⟩ := barWidthPercent_eq (le_largestLevel (h l hl))
  rw [depthLevel, hbar]
  exact ⟨_, rfl, Amount.shows_new _ _ _, Amount.shows_new _ _ _, hwidth⟩

/-! ## Counts -/

namespace State

variable {s : State} {bookId : OrderBookId} {b : OrderBook}

/-- The number of orders of a book whose record has this status. -/
def countWith (s : State) (bookId : OrderBookId) (status : OrderStatus) : ℕ :=
  (s.orderHistory.primary.entries.filter fun e =>
    e.1.bookId = bookId ∧ e.2.record.status = status).length

/-- Orders that a status stands for are as many as the records with it. -/
lemma Sound.countWith_eq (hs : s.Sound) (hb : s.orderBooks.get bookId = some b)
    {status : OrderStatus} {orders : List Order} (hnodup : (orders.map Order.id).Nodup)
    (hlive : ∀ o ∈ orders, o ∈ b.live)
    (hstatus : ∀ seq r, RecordAgrees b seq r → (r.status = status ↔ ∃ o ∈ orders, o.id = seq)) :
    s.countWith bookId status = orders.length := by
  have hperm : ((s.orderHistory.primary.entries.filter fun e =>
      e.1.bookId = bookId ∧ e.2.record.status = status).map fun e => e.1.seq).Perm
        (orders.map Order.id) := by
    refine (List.perm_ext_iff_of_nodup (nodup_seqs fun e he => (of_decide_eq_true he).1)
      hnodup).mpr fun seq => ⟨fun h => ?_, fun h => ?_⟩
    · obtain ⟨⟨id, e⟩, he, rfl⟩ := List.mem_map.mp h
      obtain ⟨hmem, hboth⟩ := List.mem_filter.mp he
      obtain ⟨hbook, hwith⟩ := of_decide_eq_true hboth
      have hr : s.orderHistory.get id = some e.record := by
        rw [History.get, (SortedMap.mem_entries_iff _).mp hmem]
        rfl
      obtain ⟨o, ho, hid⟩ := (hstatus _ _ (hs.agrees_of_record hb hr hbook)).mp hwith
      exact List.mem_map.mpr ⟨o, ho, hid⟩
    · obtain ⟨o, ho, rfl⟩ := List.mem_map.mp h
      obtain ⟨r, hr, -⟩ := hs.record_of_live hb (hlive o ho)
      have hwith := (hstatus _ _ (hs.agrees_of_record hb hr rfl)).mpr ⟨o, ho, rfl⟩
      obtain ⟨e, he, rfl⟩ := Option.map_eq_some_iff.mp hr
      exact List.mem_map.mpr ⟨(_, e), List.mem_filter.mpr
        ⟨(SortedMap.mem_entries_iff _).mpr he, decide_eq_true ⟨rfl, hwith⟩⟩, rfl⟩
  have hlength := hperm.length_eq
  rw [List.length_map, List.length_map] at hlength
  exact hlength

lemma Sound.countWith_pending (hs : s.Sound) (hb : s.orderBooks.get bookId = some b) :
    s.countWith bookId .pending = b.pendingOrders.length :=
  hs.countWith_eq hb ((hs.wired.listed _ b hb).wf.pendingSorted.imp fun hlt => hlt.ne)
    (fun _ ho => OrderBook.mem_live.mpr (Or.inl ho)) fun _ _ h => h.pending

/-- The index has one entry for each resting order. -/
lemma Sound.countWith_open (hs : s.Sound) (hb : s.orderBooks.get bookId = some b) :
    s.countWith bookId .open = b.restingOrders.size := by
  have hsound := (hs.wired.listed _ b hb).wf.sound
  have hperm : (b.restingList.map Order.id).Perm b.restingOrders.keys := by
    refine (List.perm_ext_iff_of_nodup hsound.nodup b.restingOrders.keys_nodup).mpr fun seq => ?_
    rw [SortedMap.mem_keys_iff, Option.isSome_iff_exists, List.mem_map]
    constructor
    · rintro ⟨o, ho, hid⟩
      exact ⟨_, (hsound.index seq _).mpr ⟨o, ho, hid, rfl⟩⟩
    · rintro ⟨loc, hloc⟩
      obtain ⟨o, ho, hid, -⟩ := (hsound.index seq loc).mp hloc
      exact ⟨o, ho, hid⟩
  have hlength := hperm.length_eq
  rw [List.length_map, SortedMap.keys, List.length_map] at hlength
  rw [hs.countWith_eq hb hsound.nodup (fun _ ho => OrderBook.mem_live.mpr (Or.inr ho))
    fun _ _ h => h.resting, hlength, SortedMap.size]

/-- **The prices at which orders of a side are open**, each once. -/
def openPrices (s : State) (bookId : OrderBookId) (side : Side) : List Price :=
  ((s.orderHistory.primary.entries.filter fun e =>
    OpenAt bookId side e.2.record.price e.1 e.2.record).map fun e => e.2.record.price).dedup

lemma mem_openPrices {side : Side} {price : Price} : price ∈ s.openPrices bookId side ↔
    (s.orderHistory.primary.entries.filter fun e => OpenAt bookId side price e.1 e.2.record)
      ≠ [] := by
  rw [openPrices, List.mem_dedup, List.mem_map]
  constructor
  · rintro ⟨e, he, rfl⟩
    obtain ⟨hmem, hopen⟩ := List.mem_filter.mp he
    exact List.ne_nil_of_mem (List.mem_filter.mpr ⟨hmem, hopen⟩)
  · intro hne
    obtain ⟨e, he⟩ := List.exists_mem_of_ne_nil _ hne
    obtain ⟨hmem, hopen⟩ := List.mem_filter.mp he
    have hprice : e.2.record.price = price := (of_decide_eq_true hopen).2.2.2
    exact ⟨e, List.mem_filter.mpr ⟨hmem, by rw [hprice]; exact hopen⟩, hprice⟩

/-- **A side has one level for each price at which orders are open.** -/
lemma Sound.length_openPrices (hs : s.Sound) (hb : s.orderBooks.get bookId = some b)
    (side : Side) : (s.openPrices bookId side).length = (b.sideLevels side).length := by
  have hwf := (hs.wired.listed _ b hb).wf
  have hnodup : ((b.sideLevels side).map Prod.fst).Nodup := by
    refine List.pairwise_map.mpr ((b.sideLevels_sorted side).imp fun hbetter he => ?_)
    rw [he] at hbetter
    cases side <;> exact lt_irrefl _ hbetter
  have hlevel : ∀ price, price ∈ s.openPrices bookId side ↔
      price ∈ (b.sideLevels side).map Prod.fst := by
    intro price
    have hempty := (hs.open_perm hb side price).length_eq
    rw [List.length_map, List.length_map] at hempty
    rw [mem_openPrices, ← List.length_pos_iff, hempty, List.mem_map]
    constructor
    · intro hpos
      cases hq : b.levelAt side price with
      | some queue => exact ⟨(price, queue), OrderBook.mem_sideLevels.mpr hq, rfl⟩
      | none =>
          rw [OrderBook.queueAt, hq] at hpos
          exact absurd hpos (lt_irrefl 0)
    · rintro ⟨⟨price, queue⟩, hmem, rfl⟩
      have hq := OrderBook.mem_sideLevels.mp hmem
      have hpos := OrderBook.sumRemaining_pos hwf hq
      rw [OrderBook.queueAt, hq, Option.getD_some]
      refine List.length_pos_iff.mpr fun hnil => ?_
      rw [hnil] at hpos
      exact lt_irrefl 0 hpos
  have hperm := (List.perm_ext_iff_of_nodup (List.nodup_dedup _) hnodup).mpr hlevel
  exact hperm.length_eq.trans (List.length_map _)

end State

/-! ## Pages -/

/-- A level at the head of its side. -/
structure DashboardLevel.Shows (d : DashboardLevel) (texts : Texts) (decimals : PairDecimals)
    (l : Price × Quantity) : Prop where
  price : d.price.Shows texts l.1.toNat decimals.quote
  quantity : d.quantity.Shows texts l.2.toNat decimals.base

/-- **A pair of the page shows what is open**: both sides best price first with bars that compare
them, the best levels, a spread exactly if both sides have one, how many levels each side has and how
many orders wait and rest. -/
structure DashboardPair.Shows (p : DashboardPair) (texts : Texts) (s : State)
    (entry : TradingPair × OrderBookId) (decimals : PairDecimals)
    (bids asks : List (Price × Quantity)) : Prop where
  bookId : p.bookId = entry.2
  base : s.tokens.get entry.1.base = some ⟨p.baseSymbol, decimals.base⟩
  quote : s.tokens.get entry.1.quote = some ⟨p.quoteSymbol, decimals.quote⟩
  terms : ∃ b, s.orderBooks.get entry.2 = some b ∧
    p.tickSize.Shows texts b.tickSize.get.toNat decimals.quote ∧
    p.lotSize.Shows texts b.lotSize.get.toNat decimals.base ∧
    p.makerFeeBps = b.feeRates.maker.value ∧ p.takerFeeBps = b.feeRates.taker.value
  bidsOpen : s.ShowsOpen entry.2 .buy depthLevelsShown bids
  asksOpen : s.ShowsOpen entry.2 .sell depthLevelsShown asks
  counts : bids.length = min depthLevelsShown p.bidsLen ∧
    asks.length = min depthLevelsShown p.asksLen
  bidLevels : p.bidsLen = (s.openPrices entry.2 .buy).length
  askLevels : p.asksLen = (s.openPrices entry.2 .sell).length
  pending : p.pendingOrdersLen = s.countWith entry.2 .pending
  resting : p.restingOrdersLen = s.countWith entry.2 .open
  depth : ∃ width, BarsCompare (bids ++ asks) width ∧
    List.Forall₂ (fun l row => row.Shows texts decimals width l) bids p.depth.bids ∧
    List.Forall₂ (fun l row => row.Shows texts decimals width l) asks p.depth.asks
  bestBid : Option.Rel (fun l d => d.Shows texts decimals l) bids.head? p.bestBid
  bestAsk : Option.Rel (fun l d => d.Shows texts decimals l) asks.head? p.bestAsk
  spread : Option.Rel
    (fun l a => l.1.1 < l.2.1 ∧ a.Shows texts (l.2.1.toNat - l.1.1.toNat) decimals.quote)
    (bids.head?.bind fun bid => asks.head?.map fun ask => (bid, ask)) p.spread

lemma buildDepth_shown (texts : Texts) (decimals : PairDecimals)
    (bids asks : List (Price × Quantity)) : ∃ depth,
    buildDepth texts bids asks decimals = .ok depth ∧
      ∃ width, BarsCompare (bids ++ asks) width ∧
        List.Forall₂ (fun l row => row.Shows texts decimals width l) bids depth.bids ∧
        List.Forall₂ (fun l row => row.Shows texts decimals width l) asks depth.asks := by
  obtain ⟨bidRows, hbids, hbidsShown⟩ := depthLevels_shown texts decimals
    fun l (hl : l ∈ bids) => List.mem_append_left asks hl
  obtain ⟨askRows, hasks, hasksShown⟩ := depthLevels_shown texts decimals
    fun l (hl : l ∈ asks) => List.mem_append_right bids hl
  rw [buildDepth, hbids, Except.bind_ok, hasks, Except.bind_ok]
  exact ⟨_, rfl, _, barsCompare _, hbidsShown, hasksShown⟩

lemma dashboardSpread_shown {texts : Texts} {decimals : PairDecimals}
    {bids asks : List (Price × Quantity)} (h : ∀ bid ∈ bids, ∀ ask ∈ asks, bid.1 < ask.1) :
    Option.Rel (fun l a => l.1.1 < l.2.1 ∧ a.Shows texts (l.2.1.toNat - l.1.1.toNat) decimals.quote)
      (bids.head?.bind fun bid => asks.head?.map fun ask => (bid, ask))
      (dashboardSpread texts decimals bids.head? asks.head?) := by
  cases bids with
  | nil => exact .none
  | cons bid bids =>
      cases asks with
      | nil => exact .none
      | cons ask asks =>
          have hlt := h bid List.mem_cons_self ask List.mem_cons_self
          obtain ⟨s, hs, hsum⟩ := Price.checkedSub_of_le hlt.le
          have hspread : s.toNat = ask.1.toNat - bid.1.toNat := by omega
          simp only [List.head?_cons, dashboardSpread, hs, Option.map_some, Option.bind_some]
          refine .some ⟨hlt, ?_⟩
          rw [← hspread]
          exact Amount.shows_new _ _ _

lemma head?_shown {texts : Texts} {decimals : PairDecimals} (levels : List (Price × Quantity)) :
    Option.Rel (fun l d => d.Shows texts decimals l) levels.head?
      (levels.head?.map (dashboardLevel texts decimals)) := by
  cases levels with
  | nil => exact .none
  | cons l levels => exact .some ⟨Amount.shows_new _ _ _, Amount.shows_new _ _ _⟩

lemma OrderBook.length_shownLevels (b : OrderBook) (limit : ℕ) :
    (b.shownLevels .buy limit).length = min limit b.bids.len ∧
      (b.shownLevels .sell limit).length = min limit b.asks.len := by
  rw [shownLevels, List.length_map, List.length_take, shownLevels, List.length_map,
    List.length_take, sideLevels, List.length_map]
  exact ⟨rfl, rfl⟩

/-- A listed pair is on the page. -/
lemma State.Sound.dashboardPair {s : State} (hs : s.Sound) (texts : Texts)
    {entry : TradingPair × OrderBookId} (hentry : entry ∈ s.tradingPairs.byPair.entries) :
    ∃ p, dashboardPair texts s entry = .ok p ∧
      ∃ decimals bids asks, p.Shows texts s entry decimals bids asks := by
  obtain ⟨pair, bookId⟩ := entry
  obtain ⟨hpair, b, hid, hb, -⟩ := hs.pair_of_book ((SortedMap.mem_entries_iff _).mp hentry)
  have hlisted := hs.wired.listed bookId b hb
  obtain ⟨base, hbase⟩ := Option.isSome_iff_exists.mp (hlisted.knows hpair .base)
  obtain ⟨quote, hquote⟩ := Option.isSome_iff_exists.mp (hlisted.knows hpair .quote)
  replace hbase : s.tokens.get pair.base = some base := hbase
  replace hquote : s.tokens.get pair.quote = some quote := hquote
  obtain ⟨depth, hdepth, hshown⟩ := buildDepth_shown texts
    { base := base.decimals, quote := quote.decimals }
    (b.shownLevels .buy depthLevelsShown) (b.shownLevels .sell depthLevelsShown)
  simp only [OisyTrade.dashboardPair, hb, hbase, hquote, expectBug, Except.expect_some,
    Except.bind_ok, buildPair, OrderBook.bidLevels_eq, OrderBook.askLevels_eq, hdepth]
  refine ⟨_, rfl, ⟨base.decimals, quote.decimals⟩, b.shownLevels .buy depthLevelsShown,
    b.shownLevels .sell depthLevelsShown, ?_⟩
  exact {
    bookId := hlisted.id
    base := hbase
    quote := hquote
    terms := ⟨b, hb, Amount.shows_new _ _ _, Amount.shows_new _ _ _, rfl, rfl⟩
    bidsOpen := hs.showsOpen hb .buy _
    asksOpen := hs.showsOpen hb .sell _
    counts := b.length_shownLevels _
    bidLevels := by rw [hs.length_openPrices hb, OrderBook.sideLevels, List.length_map]; rfl
    askLevels := (hs.length_openPrices hb .sell).symm
    pending := (hs.countWith_pending hb).symm
    resting := (hs.countWith_open hb).symm
    depth := hshown
    bestBid := head?_shown _
    bestAsk := head?_shown _
    spread := dashboardSpread_shown (hlisted.shown_uncrossed _) }

namespace World

variable {w : World}

/-- **The dashboard shows the markets.**  In every reachable world the page loads, with every token
and every pair that is listed, and each pair with what its order records say is open. -/
theorem Reachable.dashboard_shown (h : Reachable w) (texts : Texts) (canisterId : Principal)
    (totalEvents : U64) : ∃ page,
    DashboardTemplate.fromState texts w.canister.state canisterId totalEvents = .ok page ∧
      page.tokens = w.canister.listSupportedTokens.map (fun t =>
        ⟨t.id.principal, t.metadata.symbol, t.metadata.decimals⟩) ∧
      List.Forall₂ (fun entry p => ∃ decimals bids asks,
          DashboardPair.Shows p texts w.canister.state entry decimals bids asks)
        w.canister.state.tradingPairs.byPair.entries page.pairs := by
  obtain ⟨pairs, hrun, hshown⟩ := Except.mapM_forall₂ fun entry hentry =>
    h.guarded.sound.dashboardPair texts hentry
  rw [DashboardTemplate.fromState, hrun]
  refine ⟨_, rfl, ?_, hshown⟩
  rw [Canister.listSupportedTokens, List.map_map]
  rfl

/-- Numbers as Lean writes them. -/
def sampleTexts : Texts := { nat := Nat.toDigits 10, principal := fun p => Nat.toDigits 10 p.code }

/-- The page of the sample run has one pair, with its bid. -/
theorem dashboard_shown_sampleWorld : ∃ page p decimals bids asks,
    DashboardTemplate.fromState sampleTexts sampleWorld.canister.state Principal.managementCanister
      0 = .ok page ∧ page.pairs = [p] ∧
    p.Shows sampleTexts sampleWorld.canister.state (samplePair, p.bookId) decimals bids asks := by
  obtain ⟨page, hpage, -, hshown⟩ :=
    reachable_sampleWorld.dashboard_shown sampleTexts Principal.managementCanister 0
  have hpair : sampleWorld.canister.state.tradingPairs.byPair.entries.map Prod.fst
      = [samplePair] := by decide +kernel
  obtain ⟨⟨pair, bookId⟩, hentries, hfst⟩ := List.map_eq_singleton_iff.mp hpair
  rw [hentries] at hshown
  obtain ⟨p, rest, ⟨decimals, bids, asks, hp⟩, hrest, hpairs⟩ :=
    List.forall₂_cons_left_iff.mp hshown
  rw [List.forall₂_nil_left_iff.mp hrest] at hpairs
  refine ⟨page, p, decimals, bids, asks, hpage, hpairs, ?_⟩
  rw [hp.bookId, ← hfst]
  exact hp

end World

end OisyTrade
