import OisyTrade.Order.Ids
import OisyTrade.History

/-!
# The forms of composite ids

An id of the canister is a sequence number or a pair of ids.  Whatever the nesting, it has one text
and one byte form, nothing else is read as it, reading never panics, and both forms sort as the ids
do.  A prefix scan therefore asks for a range of keys and gets the keys with that prefix.
-/

namespace OisyTrade

/-- The nestings of `CompositeId` over `Seq`. -/
inductive IdShape : Type 1
  | seq (marker : Type)
  | pair (first second : IdShape)

namespace IdShape

/-- The ids of a shape. -/
def Id : IdShape → Type
  | seq marker => Seq marker
  | pair first second => CompositeId first.Id second.Id

example : (pair (seq OrderBookMarker) (seq OrderSeqMarker)).Id = OrderId := rfl

example : (pair (pair (seq OrderBookMarker) (seq OrderSeqMarker)) (seq FillSeqMarker)).Id
    = TradeId := rfl

example : (pair (seq UserIdMarker) (seq InsertionSeqMarker)).Id = ByUserKey := rfl

instance fixedWidthId : (shape : IdShape) → FixedWidthId shape.Id
  | seq marker => inferInstanceAs (FixedWidthId (Seq marker))
  | pair first second =>
      letI := fixedWidthId first
      letI := fixedWidthId second
      inferInstanceAs (FixedWidthId (CompositeId first.Id second.Id))

/-- The derived `Ord`. -/
instance linearOrder : (shape : IdShape) → LinearOrder shape.Id
  | seq marker => inferInstanceAs (LinearOrder (Seq marker))
  | pair first second => @Prod.Lex.instLinearOrder _ _ (linearOrder first) (linearOrder second)

instance lawful (shape : IdShape) : LawfulFixedWidthId shape.Id := by
  induction shape with
  | seq marker => exact inferInstanceAs (LawfulFixedWidthId (Seq marker))
  | pair first second _ _ =>
      exact inferInstanceAs (LawfulFixedWidthId (CompositeId first.Id second.Id))

instance ordered (shape : IdShape) : OrderedFixedWidthId shape.Id := by
  induction shape with
  | seq marker => exact inferInstanceAs (OrderedFixedWidthId (Seq marker))
  | pair first second _ _ =>
      exact inferInstanceAs (OrderedFixedWidthId (CompositeId first.Id second.Id))

end IdShape

namespace CompositeId

variable {A M : Type}

/-- `first_of` of `TradeId` and of the by-user key. -/
def firstOf (first : A) : CompositeId A (Seq M) := toLex (first, Seq.zero)

/-- `last_of` of `TradeId` and of the by-user key. -/
def lastOf (first : A) : CompositeId A (Seq M) := toLex (first, ⟨2 ^ 64 - 1, Seq.max_lt⟩)

/-- The keys between the first and the last of a prefix, compared by their bytes. -/
lemma bytes_range_iff [FixedWidthId A] [LinearOrder A] [LawfulFixedWidthId A]
    [OrderedFixedWidthId A] (p : A) (key : CompositeId A (Seq M)) :
    (FixedWidthId.writeBeBytes (firstOf p : CompositeId A (Seq M)) ≤ FixedWidthId.writeBeBytes key
        ∧ FixedWidthId.writeBeBytes key
          ≤ FixedWidthId.writeBeBytes (lastOf p : CompositeId A (Seq M)))
      ↔ (ofLex key).1 = p := by
  have hle : ∀ a b : CompositeId A (Seq M),
      FixedWidthId.writeBeBytes a ≤ FixedWidthId.writeBeBytes b ↔ a ≤ b := by
    intro a b
    rw [← not_lt, ← OrderedFixedWidthId.writeBeBytes_lt]
    exact Iff.rfl
  rw [hle, hle]
  exact range_iff key

end CompositeId

/-- **Composite ids have one canonical text and byte form, which preserve the order.**  For every
nesting: no input makes a reader panic; a text is read as an id exactly if it is what the id prints
to, a text of two lower-case digits for each byte; bytes are read as an id exactly if they are what
the id is written as; both forms compare as the ids do; and between the first and the last key of a
prefix lie exactly the keys with it, in the order of the ids and in that of their bytes. -/
theorem IdShape.canonical_forms (shape : IdShape) :
    ((∀ s : List Char, ∃ r, (FixedWidthId.fromHex s : Parsed shape.Id) = .ok r)
        ∧ ∀ (s : List Char) (id : shape.Id),
          FixedWidthId.fromHex s = .ok (.ok id) ↔ s = FixedWidthId.writeHex id)
      ∧ (∀ id : shape.Id, (FixedWidthId.writeHex id).length = 2 * FixedWidthId.width shape.Id
        ∧ (FixedWidthId.writeHex id).all Digits.isHexDigit = true)
      ∧ ((∀ bytes : List UInt8, ∃ r, (FixedWidthId.fromBeBytes bytes : Parsed shape.Id) = .ok r)
        ∧ ∀ (bytes : List UInt8) (id : shape.Id),
          FixedWidthId.fromBeBytes bytes = .ok (.ok id) ↔ bytes = FixedWidthId.writeBeBytes id)
      ∧ (∀ a b : shape.Id,
        (FixedWidthId.writeBeBytes a < FixedWidthId.writeBeBytes b ↔ a < b)
          ∧ (FixedWidthId.writeHex a < FixedWidthId.writeHex b ↔ a < b))
      ∧ ∀ (M : Type) (p : shape.Id) (key : CompositeId shape.Id (Seq M)),
        ((CompositeId.firstOf p ≤ key ∧ key ≤ CompositeId.lastOf p) ↔ (ofLex key).1 = p)
          ∧ ((FixedWidthId.writeBeBytes (CompositeId.firstOf p : CompositeId shape.Id (Seq M))
                ≤ FixedWidthId.writeBeBytes key
              ∧ FixedWidthId.writeBeBytes key
                ≤ FixedWidthId.writeBeBytes (CompositeId.lastOf p : CompositeId shape.Id (Seq M)))
            ↔ (ofLex key).1 = p) := by
  refine ⟨⟨LawfulFixedWidthId.fromHex_returns, LawfulFixedWidthId.fromHex_eq_ok⟩, ?_,
    ⟨LawfulFixedWidthId.fromBeBytes_returns, LawfulFixedWidthId.fromBeBytes_eq_ok⟩, ?_, ?_⟩
  · intro id
    exact isCanonicalHex_iff.mp (LawfulFixedWidthId.canonical id)
  · intro a b
    exact ⟨OrderedFixedWidthId.writeBeBytes_lt a b, OrderedFixedWidthId.writeHex_lt a b⟩
  · intro M p key
    exact ⟨CompositeId.range_iff key, CompositeId.bytes_range_iff p key⟩

end OisyTrade
