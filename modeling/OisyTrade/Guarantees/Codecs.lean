import OisyTrade.Order.Codec

/-!
# The number codecs

Every balance, event and snapshot in stable memory goes through the codecs of `Quantity` and of the
numbers layered on it.  They round-trip over their whole range, their readers never panic, and they
refuse exactly what is out of range.  The CBOR library and the big integers are parameters that keep
their documented promises.
-/

namespace OisyTrade

/-- The decoder returns a value. -/
def Decoded.Accepts {α : Type} (r : Decoded α) : Prop := ∃ a d, r = .ok (.ok a, d)

/-- **What the number codecs guarantee.** -/
structure NumberCodecs (P : Cbor.Primitives) (B : BigUintOps) : Prop where
  /-- A quantity reads back, and exactly its bytes are consumed. -/
  roundTrip : ∀ (q : Quantity) before after, ∃ bytes, q.encode P = .ok bytes
    ∧ Quantity.decode P (.reading before bytes after) = .ok (.ok q, .behind before bytes after)
  plain : ∀ q : Quantity, (∃ n, q.encode P = .ok (P.writeU64 n)) ↔ q.toNat ≤ 2 ^ 64 - 1
  bignum : ∀ q : Quantity, ¬ q.toNat ≤ 2 ^ 64 - 1 → ∃ payload,
    q.encode P = .ok (P.writeTag posBignum ++ P.writeBytes payload)
      ∧ payload.head? ≠ some 0 ∧ payload.length ≤ 32 ∧ Digits.bytes.ofNumeral payload = q.toNat
  /-- No input makes a decoder panic. -/
  total : ∀ d, (∃ r, Quantity.decode P d = .ok r) ∧ (∃ r, U128ViaQuantity.decode P d = .ok r)
    ∧ (∃ r, NonZeroU128ViaQuantity.decode P d = .ok r) ∧ ∃ r, NonZeroU64Field.decode P d = .ok r
  /-- Wherever the readers find a bignum, it is accepted exactly up to 32 bytes. -/
  accepts : ∀ d d₀ d₁ d₂ e bytes, P.readU64 d = (.error e, d₀) → e.isTypeMismatch = true →
    P.readTag { d₀ with pos := d.pos } = (.ok posBignum, d₁) → P.readBytes d₁ = (.ok bytes, d₂) →
      ((Quantity.decode P d).Accepts ↔ bytes.length ≤ 32)
        ∧ ∀ q, (∃ d', Quantity.decode P d = .ok (.ok q, d')) →
          q.toNat = Digits.bytes.ofNumeral bytes
  u128 : ∀ v before after, ∃ bytes, U128ViaQuantity.encode P v = .ok bytes
    ∧ U128ViaQuantity.decode P (.reading before bytes after)
      = .ok (.ok v, .behind before bytes after)
  nonZeroU128 : ∀ v before after, ∃ bytes, NonZeroU128ViaQuantity.encode P v = .ok bytes
    ∧ NonZeroU128ViaQuantity.decode P (.reading before bytes after)
      = .ok (.ok v, .behind before bytes after)
  nonZeroU64 : ∀ v before after, ∃ bytes, NonZeroU64Field.encode P v = .ok bytes
    ∧ NonZeroU64Field.decode P (.reading before bytes after)
      = .ok (.ok v, .behind before bytes after)
  /-- Of the numbers there are, each field refuses exactly those outside its range. -/
  refuses : ∀ (q : Quantity) before bytes after, q.encode P = .ok bytes →
    ((U128ViaQuantity.decode P (.reading before bytes after)).Accepts ↔ q.toNat < 2 ^ 128)
      ∧ ((NonZeroU128ViaQuantity.decode P (.reading before bytes after)).Accepts
        ↔ 0 < q.toNat ∧ q.toNat < 2 ^ 128)
      ∧ ((NonZeroU64Field.decode P (.reading before bytes after)).Accepts
        ↔ 0 < q.toNat ∧ q.toNat < 2 ^ 64)
  /-- On any input a field reads what the codec below it reads, if that is in range. -/
  layered : ∀ d d',
    (∀ v, U128ViaQuantity.decode P d = .ok (.ok v, d')
        ↔ Quantity.decode P d = .ok (.ok (Quantity.fromU128 v), d'))
      ∧ (∀ v, NonZeroU128ViaQuantity.decode P d = .ok (.ok v, d')
        ↔ U128ViaQuantity.decode P d = .ok (.ok v.val, d'))
      ∧ ∀ v, NonZeroU64Field.decode P d = .ok (.ok v, d') ↔ P.readU64 d = (.ok v.val, d')
  beBytes : ∀ q : Quantity, Quantity.fromBeBytes q.toBeBytes = .ok (some q)
  tryFrom : ∀ n, (n < 2 ^ 256 ∧ ∃ q, Quantity.tryFromBigNat B n = .ok (.ok q) ∧ q.toBigNat B = n)
    ∨ (2 ^ 256 ≤ n ∧ Quantity.tryFromBigNat B n = .ok (.error .mk))
  toNat : ∀ q : Quantity, Quantity.tryFromBigNat B (q.toBigNat B) = .ok (.ok q)

variable {P : Cbor.Primitives} {B : BigUintOps}

namespace Quantity

/-- A plain integer is no tag. -/
lemma toNat_lt_of_encode_plain (hP : P.Lawful) {q : Quantity} {n : U64}
    (h : q.encode P = .ok (P.writeU64 n)) : q.toNat < 2 ^ 64 := by
  obtain ⟨bytes, hbytes, hdecode⟩ := decode_encode hP q [] []
  obtain rfl : P.writeU64 n = bytes := Except.ok.inj (h.symm.trans hbytes)
  rw [decode_writeU64 hP] at hdecode
  simp only [Except.ok.injEq, Prod.mk.injEq, and_true] at hdecode
  rw [← hdecode, toNat_fromU64]
  exact n.isLt

lemma fromU128_low {q : Quantity} (h : q.toNat < 2 ^ 128) : fromU128 q.low = q := by
  rw [fromU128, ← high_eq_zero_iff.mpr h]

lemma accepts_u128_iff (hP : P.Lawful) {q : Quantity} {bytes : List UInt8}
    (h : q.encode P = .ok bytes) (before after : List UInt8) :
    (U128ViaQuantity.decode P (.reading before bytes after)).Accepts ↔ q.toNat < 2 ^ 128 := by
  obtain ⟨bytes', hbytes, hdecode⟩ := decode_encode hP q before after
  obtain rfl : bytes = bytes' := Except.ok.inj (h.symm.trans hbytes)
  constructor
  · rintro ⟨v, d, hv⟩
    rw [U128ViaQuantity.decode_eq_ok, hdecode] at hv
    simp only [Except.ok.injEq, Prod.mk.injEq] at hv
    rw [hv.1, toNat_fromU128]
    exact v.isLt
  · intro hlt
    rw [← fromU128_low hlt] at hdecode
    exact ⟨q.low, _, U128ViaQuantity.decode_eq_ok.mpr hdecode⟩

lemma accepts_nonZeroU128_iff (hP : P.Lawful) {q : Quantity} {bytes : List UInt8}
    (h : q.encode P = .ok bytes) (before after : List UInt8) :
    (NonZeroU128ViaQuantity.decode P (.reading before bytes after)).Accepts
      ↔ 0 < q.toNat ∧ q.toNat < 2 ^ 128 := by
  obtain ⟨bytes', hbytes, hdecode⟩ := decode_encode hP q before after
  obtain rfl : bytes = bytes' := Except.ok.inj (h.symm.trans hbytes)
  constructor
  · rintro ⟨v, d, hv⟩
    rw [NonZeroU128ViaQuantity.decode_eq_ok, U128ViaQuantity.decode_eq_ok, hdecode] at hv
    simp only [Except.ok.injEq, Prod.mk.injEq] at hv
    have hpos := v.property
    rw [Ne, BitVec.toNat_eq] at hpos
    rw [hv.1, toNat_fromU128]
    exact ⟨Nat.pos_of_ne_zero hpos, v.val.isLt⟩
  · rintro ⟨hpos, hlt⟩
    have hlow : q.low ≠ 0 := by
      intro hzero
      rw [← fromU128_low hlt, toNat_fromU128, hzero] at hpos
      exact Nat.lt_irrefl 0 hpos
    rw [← fromU128_low hlt] at hdecode
    exact ⟨⟨q.low, hlow⟩, _,
      NonZeroU128ViaQuantity.decode_eq_ok.mpr (U128ViaQuantity.decode_eq_ok.mpr hdecode)⟩

lemma accepts_nonZeroU64_iff (hP : P.Lawful) {q : Quantity} {bytes : List UInt8}
    (h : q.encode P = .ok bytes) (before after : List UInt8) :
    (NonZeroU64Field.decode P (.reading before bytes after)).Accepts
      ↔ 0 < q.toNat ∧ q.toNat < 2 ^ 64 := by
  rcases Nat.lt_or_ge q.toNat (2 ^ 64) with hlt | hge
  · obtain rfl := Except.ok.inj ((encode_plain hlt).symm.trans h)
    have hq := fromU64_setWidth hlt
    constructor
    · rintro ⟨v, d, hv⟩
      rw [NonZeroU64Field.decode_eq_ok, hP.readU64_writeU64] at hv
      simp only [Except.ok.injEq, Prod.mk.injEq] at hv
      have hpos := v.property
      rw [Ne, BitVec.toNat_eq] at hpos
      refine ⟨?_, hlt⟩
      rw [← hq, toNat_fromU64, hv.1]
      exact Nat.pos_of_ne_zero hpos
    · rintro ⟨hpos, -⟩
      have hne : q.low.setWidth 64 ≠ 0 := by
        intro hzero
        rw [← hq, toNat_fromU64, hzero] at hpos
        exact Nat.lt_irrefl 0 hpos
      exact ⟨⟨q.low.setWidth 64, hne⟩, _,
        NonZeroU64Field.decode_eq_ok.mpr (hP.readU64_writeU64 before _ after)⟩
  · obtain rfl := Except.ok.inj ((encode_bignum hge).symm.trans h)
    constructor
    · rintro ⟨v, d, hv⟩
      rw [NonZeroU64Field.decode_eq_ok, Cbor.Decoder.reading_append] at hv
      have hmismatch := hP.readU64_writeTag before posBignum (P.writeBytes q.payload ++ after)
      rw [hv] at hmismatch
      cases hmismatch
    · rintro ⟨-, hlt⟩
      exact absurd hge (Nat.not_le.mpr hlt)

end Quantity

/-- **The number codecs round-trip over their whole range.**  With a CBOR library and big integers
that keep their promises, everything `NumberCodecs` lists holds. -/
theorem number_codecs (hP : P.Lawful) (hB : B.Lawful) : NumberCodecs P B where
  roundTrip := Quantity.decode_encode hP
  plain q := by
    constructor
    · rintro ⟨n, hn⟩
      exact Nat.le_sub_one_of_lt (Quantity.toNat_lt_of_encode_plain hP hn)
    · intro hle
      exact ⟨_, Quantity.encode_plain (by omega)⟩
  bignum q hq := ⟨q.payload, Quantity.encode_bignum (by omega), q.head_payload,
    q.length_payload_le, q.ofNumeral_payload⟩
  total d := ⟨Quantity.decode_returns P d, U128ViaQuantity.decode_returns P d,
    Decoded.check_returns _ (U128ViaQuantity.decode_returns P d), Decoded.check_returns _ ⟨_, rfl⟩⟩
  accepts := by
    intro d d₀ d₁ d₂ e bytes hu he ht hb
    rcases Quantity.decode_of_bignum hu he ht hb with ⟨hle, q, hq, hvalue⟩ | ⟨hlong, herror⟩
    · refine ⟨⟨fun _ => hle, fun _ => ⟨q, d₂, hq⟩⟩, ?_⟩
      rintro q' ⟨d', hq'⟩
      rw [hq] at hq'
      simp only [Except.ok.injEq, Prod.mk.injEq] at hq'
      rw [← hq'.1, hvalue]
    · refine ⟨⟨?_, fun hle => absurd hle (Nat.not_le.mpr hlong)⟩, ?_⟩
      · rintro ⟨q, d', hq⟩
        rw [herror] at hq
        cases hq
      · rintro q ⟨d', hq⟩
        rw [herror] at hq
        cases hq
  u128 v before after := by
    obtain ⟨bytes, hbytes, hdecode⟩ := Quantity.decode_encode hP (.fromU128 v) before after
    exact ⟨bytes, hbytes, U128ViaQuantity.decode_eq_ok.mpr hdecode⟩
  nonZeroU128 v before after := by
    obtain ⟨bytes, hbytes, hdecode⟩ := Quantity.decode_encode hP (.fromU128 v.val) before after
    exact ⟨bytes, hbytes, NonZeroU128ViaQuantity.decode_eq_ok.mpr
      (U128ViaQuantity.decode_eq_ok.mpr hdecode)⟩
  nonZeroU64 v before after :=
    ⟨_, rfl, NonZeroU64Field.decode_eq_ok.mpr (hP.readU64_writeU64 before v.val after)⟩
  refuses q before bytes after h := ⟨q.accepts_u128_iff hP h before after,
    q.accepts_nonZeroU128_iff hP h before after, q.accepts_nonZeroU64_iff hP h before after⟩
  layered _ _ := ⟨fun _ => U128ViaQuantity.decode_eq_ok,
    fun _ => NonZeroU128ViaQuantity.decode_eq_ok, fun _ => NonZeroU64Field.decode_eq_ok⟩
  beBytes := Quantity.fromBeBytes_toBeBytes
  tryFrom n := by
    rw [Quantity.tryFromBigNat_eq hB, Quantity.tryFrom]
    by_cases h : n < 2 ^ 256
    · rw [if_pos h]
      refine Or.inl ⟨h, Quantity.ofNat n, rfl, ?_⟩
      rw [Quantity.toBigNat_eq hB, Quantity.toNat_ofNat h]
    · rw [if_neg h]
      exact Or.inr ⟨Nat.not_lt.mp h, rfl⟩
  toNat q := by
    rw [Quantity.tryFromBigNat_eq hB, Quantity.toBigNat_eq hB, Quantity.tryFrom,
      if_pos q.toNat_lt, Quantity.ofNat_toNat]
    rfl

/-! ## Libraries of this kind exist -/

/-- Big-endian bytes, as many as the number has significant bits for. -/
def BigUintOps.standard : BigUintOps where
  bits := Nat.size
  toBytesBe n := Digits.bytes.numeral (max 1 ((Nat.size n + 7) / 8)) n
  fromBytesBe := Digits.bytes.ofNumeral

lemma BigUintOps.standard_lawful : BigUintOps.standard.Lawful where
  bits_le _ _ := Nat.size_le
  ofNumeral_toBytesBe n := by
    refine Digits.bytes.ofNumeral_numeral ?_
    calc n < 2 ^ Nat.size n := Nat.lt_size_self n
      _ ≤ 2 ^ (8 * max 1 ((Nat.size n + 7) / 8)) :=
          Nat.pow_le_pow_right (by decide) (by omega)
      _ = 256 ^ max 1 ((Nat.size n + 7) / 8) := by rw [pow_mul]; norm_num
  length_toBytesBe n k hk hn := by
    have hbits : Nat.size n ≤ 8 * k := by
      rw [Nat.size_le, pow_mul]
      exact hn
    have hwidth : max 1 ((Nat.size n + 7) / 8) ≤ k := by omega
    exact (Digits.bytes.length_numeral _ n).trans_le hwidth
  fromBytesBe_eq _ := rfl

theorem number_codecs_standard : NumberCodecs Cbor.standard BigUintOps.standard :=
  number_codecs Cbor.standard_lawful BigUintOps.standard_lawful

end OisyTrade
