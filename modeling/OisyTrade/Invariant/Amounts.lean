import OisyTrade.Invariant.Trading
import OisyTrade.Order.Round

/-!
# Amounts that a book can settle

A price that is a multiple of the tick and a quantity that is a multiple of the lot give an exact
quote amount, because a listed pair has `tick × lot` a multiple of the base scale.  `Tradable` says
so of one price and one quantity, together with the bound that keeps the product in 256 bits.

It holds of every live order at placement, and stays true of everything that is later multiplied for
the order: a smaller quantity (`Tradable.le`), a lower price (`Tradable.cheaper`) and the difference
of two prices (`Tradable.diff`).
-/

namespace OisyTrade

/-- A product that returns an amount, without remainder and not zero. -/
def Price.ExactTimes (p : Price) (q : Quantity) (scale : BaseScale) : Prop :=
  ∃ r, p.checkedMulQuantityScaled q scale = .ok (some r) ∧
    r.toNat * scale.get.toNat = p.toNat * q.toNat ∧ 0 < r.toNat

namespace OrderBook

/-- **A price and a quantity that the book can settle.** -/
structure Tradable (b : OrderBook) (p : Price) (q : Quantity) : Prop where
  price : 0 < p.toNat
  tick : b.tickSize.get.toNat ∣ p.toNat
  quantity : 0 < q.toNat
  lot : b.lotSize.get.toNat ∣ q.toNat
  fits : p.toNat * q.toNat < 2 ^ 256

variable {b : OrderBook} {p p' : Price} {q q' : Quantity} {scale : BaseScale}

namespace Tradable

/-- A part of the quantity. -/
lemma le (h : b.Tradable p q) (hlot : b.lotSize.get.toNat ∣ q'.toNat) (hpos : 0 < q'.toNat)
    (hle : q'.toNat ≤ q.toNat) : b.Tradable p q' :=
  ⟨h.price, h.tick, hpos, hlot, lt_of_le_of_lt (Nat.mul_le_mul_left _ hle) h.fits⟩

/-- A lower price of the book. -/
lemma cheaper (h : b.Tradable p q) (htick : b.tickSize.get.toNat ∣ p'.toNat) (hpos : 0 < p'.toNat)
    (hle : p' ≤ p) : b.Tradable p' q :=
  ⟨hpos, htick, h.quantity, h.lot,
    lt_of_le_of_lt (Nat.mul_le_mul_right _ (Price.le_def.mp hle)) h.fits⟩

/-- The difference of two prices of the book, if there is one. -/
lemma diff (h : b.Tradable p q) (htick : b.tickSize.get.toNat ∣ p'.toNat) {d : Price}
    (hd : p.checkedSub p' = some d) (hne : d.isZero = false) : b.Tradable d q := by
  have hsum : d.toNat + p'.toNat = p.toNat := Price.checkedSub_eq_some.mp hd
  have hpos : 0 < d.toNat := by
    rw [← Bool.not_eq_true, Price.isZero_iff] at hne
    omega
  refine h.cheaper ?_ hpos (Price.le_def.mpr (by omega))
  have hp := h.tick
  rw [← hsum] at hp
  exact (Nat.dvd_add_left htick).mp hp

lemma dvd (h : b.Tradable p q)
    (hscale : scale.get.toNat ∣ b.tickSize.get.toNat * b.lotSize.get.toNat) :
    scale.get.toNat ∣ p.toNat * q.toNat := hscale.trans (Nat.mul_dvd_mul h.tick h.lot)

/-- **Such an amount is exact.** -/
lemma exactTimes (h : b.Tradable p q)
    (hscale : scale.get.toNat ∣ b.tickSize.get.toNat * b.lotSize.get.toNat) :
    p.ExactTimes q scale := by
  obtain ⟨r, hr, hmul⟩ := Price.checkedMulQuantityScaled_of_dvd h.fits (h.dvd hscale)
  refine ⟨r, hr, hmul, Nat.pos_of_ne_zero fun h0 => ?_⟩
  have hprod := Nat.mul_pos h.price h.quantity
  rw [h0, Nat.zero_mul] at hmul
  omega

end Tradable

end OrderBook

namespace State.Sound

variable {s : State} {id : OrderBookId} {b : OrderBook}

/-- What is left of a live order. -/
lemma tradable_live (h : s.Sound) (hb : s.orderBooks.get id = some b) {o : Order}
    (ho : o ∈ b.live) : b.Tradable o.price o.remainingQuantity := by
  obtain ⟨r, -, -, hterms, hstand, hfind⟩ := h.record_of_live hb ho
  obtain ⟨-, hprice, -, hquantity, -⟩ := hstand.of_live hfind
  obtain ⟨hpos, htick, hq, hlot⟩ := (h.wired.listed id b hb).wf.valid o ho
  refine ⟨hpos, htick, hq, hlot, lt_of_le_of_lt ?_ hterms.fits⟩
  rw [hprice]
  exact Nat.mul_le_mul_left _ (by omega)

/-- A fill takes at most what was left of an order it names. -/
lemma quantity_le_live (h : s.Sound) (hb : s.orderBooks.get id = some b) {orders : List Order}
    {out : OrderBook.StepOut} {b' : OrderBook} (hchunk : OrderBook.Chunk b orders out b') {f : Fill}
    (hf : f ∈ out.fills) {o : Order} (ho : o ∈ b.live)
    (hseq : f.takerOrderSeq = o.id ∨ f.makerOrderSeq = o.id) :
    f.quantity.toNat ≤ o.remainingQuantity.toNat := by
  have hwf := (h.wired.listed id b hb).wf
  have hmem : f ∈ fillsOn out.fills o.id :=
    List.mem_filter.mpr ⟨hf, by rcases hseq with hseq | hseq <;> simp [Fill.involves, hseq]⟩
  have hsum : f.quantity.toNat ≤ fillTotal (fillsOn out.fills o.id) :=
    List.single_le_sum (by simp) _ (List.mem_map_of_mem hmem)
  have hle := hchunk.fillTotal_le hwf o.id
  rw [OrderBook.remainingOf, hwf.find_eq_some.mpr ⟨ho, rfl⟩, Option.elim_some] at hle
  exact hsum.trans hle

/-- **The amounts of a fill**, at the price of either order. -/
lemma tradable_fill (h : s.Sound) (hb : s.orderBooks.get id = some b) {orders : List Order}
    {out : OrderBook.StepOut} {b' : OrderBook} (hchunk : OrderBook.Chunk b orders out b') {f : Fill}
    (hf : f ∈ out.fills) :
    b.Tradable f.makerPrice f.quantity ∧ b.Tradable f.takerPrice f.quantity := by
  obtain ⟨t, m, hok⟩ := hchunk.fillOk (h.wired.listed id b hb).wf hf
  have ht : t ∈ b.live := OrderBook.mem_live.mpr (Or.inl (by
    rw [hchunk.pending]
    exact List.mem_append_left _ hok.taker))
  rw [hok.makerPrice, hok.takerPrice]
  exact ⟨(h.tradable_live hb hok.maker).le hok.lots hok.positive
      (h.quantity_le_live hb hchunk hf hok.maker (Or.inr hok.makerSeq)),
    (h.tradable_live hb ht).le hok.lots hok.positive
      (h.quantity_le_live hb hchunk hf ht (Or.inl hok.takerSeq))⟩

end State.Sound

end OisyTrade
