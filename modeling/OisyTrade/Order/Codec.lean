import Mathlib.Data.Nat.Size
import OisyTrade.Lib.Cbor
import OisyTrade.Order.Ids

/-!
# Numbers in stable memory

The hand-written codecs of `order/mod.rs` and `cbor/mod.rs`.  A `Quantity` up to `u64::MAX` is a
plain CBOR integer, a larger one a `PosBignum`: tag 2 and its big-endian bytes without leading
zeros.  The `u128`, `NonZeroU128` and `NonZeroU64` fields of `Price`, `TickSize` and `LotSize` are
layered on it.

`minicbor` and `num-bigint` are parameters, `Cbor.Primitives` and `BigUintOps`.  The slices and
copies of the source can panic, so that its functions return in `Except Trap`.
-/

namespace OisyTrade

/-- What the canister uses of `num-bigint`, over the natural numbers. -/
structure BigUintOps where
  bits : ℕ → ℕ
  toBytesBe : ℕ → List UInt8
  fromBytesBe : List UInt8 → ℕ

/-- The documented behaviour: the number of significant bits, and the big-endian bytes without
superfluous leading zeros. -/
structure BigUintOps.Lawful (B : BigUintOps) : Prop where
  bits_le : ∀ n k, B.bits n ≤ k ↔ n < 2 ^ k
  ofNumeral_toBytesBe : ∀ n, Digits.bytes.ofNumeral (B.toBytesBe n) = n
  length_toBytesBe : ∀ n k, 0 < k → n < 256 ^ k → (B.toBytesBe n).length ≤ k
  fromBytesBe_eq : ∀ s, B.fromBytesBe s = Digits.bytes.ofNumeral s

/-- `QuantityOverflowError`. -/
inductive QuantityOverflowError
  | mk
deriving DecidableEq

/-- What a CBOR decoder returns: a result, and the decoder behind it. -/
abbrev Decoded (α : Type) := Except Trap (Except Cbor.DecodeError α × Cbor.Decoder)

/-- `decode(d)?` followed by a check of the value. -/
def Decoded.check {α β : Type} (r : Decoded α) (f : α → Except Cbor.DecodeError β) : Decoded β :=
  match r with
  | .error t => .error t
  | .ok (.error e, d) => .ok (.error e, d)
  | .ok (.ok a, d) => .ok (f a, d)

/-- `Tag::PosBignum`. -/
def posBignum : BitVec 64 := 2

namespace Quantity

/-- `Quantity::to_be_bytes`. -/
def toBeBytes (q : Quantity) : List UInt8 :=
  Digits.bytes.numeral 16 q.high.toNat ++ Digits.bytes.numeral 16 q.low.toNat

/-- `u128::from_be_bytes(slice.try_into().unwrap())`. -/
def limbFromBeBytes (bytes : List UInt8) : Except Trap U128 := do
  assertBug (bytes.length = 16) .sliceLength
  .ok (BitVec.ofNat 128 (Digits.bytes.ofNumeral bytes))

/-- `Quantity::from_be_bytes`. -/
def fromBeBytes (bytes : List UInt8) : Except Trap (Option Quantity) :=
  if 32 < bytes.length then .ok none
  else do
    let buf := List.replicate 32 (0 : UInt8)
    -- `buf[32 - bytes.len()..].copy_from_slice(bytes)`
    assertBug (bytes.length ≤ 32) .sliceIndex
    let tail ← bytesFrom buf (32 - bytes.length)
    assertBug (tail.length = bytes.length) .sliceLength
    let buf := buf.take (32 - bytes.length) ++ bytes
    let first ← bytesTo buf 16
    let high ← limbFromBeBytes first
    let second ← bytesFrom buf 16
    let low ← limbFromBeBytes second
    .ok (some ⟨high, low⟩)

/-- `Quantity::to_nat`. -/
def toBigNat (B : BigUintOps) (q : Quantity) : ℕ :=
  if q.high = 0 then q.low.toNat else B.fromBytesBe q.toBeBytes

/-- `TryFrom<&Nat> for Quantity`. -/
def tryFromBigNat (B : BigUintOps) (n : ℕ) :
    Except Trap (Except QuantityOverflowError Quantity) :=
  if 256 < B.bits n then .ok (.error .mk)
  else do
    let q ← fromBeBytes (B.toBytesBe n)
    match q with
    | some q => .ok (.ok q)
    | none => .ok (.error .mk)

/-- `Encode for Quantity`: the bytes appended to the writer. -/
def encode (P : Cbor.Primitives) (q : Quantity) : Except Trap (List UInt8) :=
  if q.high = 0 ∧ q.low.toNat ≤ 2 ^ 64 - 1 then .ok (P.writeU64 (q.low.setWidth 64))
  else do
    let buf := q.toBeBytes
    let start := buf.findIdx (· ≠ 0)
    let payload ← bytesFrom buf start
    .ok (P.writeTag posBignum ++ P.writeBytes payload)

/-- The bignum half of `Decode for Quantity`. -/
def decodeBignum (P : Cbor.Primitives) (d : Cbor.Decoder) : Decoded Quantity :=
  match P.readTag d with
  | (.error e, d') => .ok (.error e, d')
  | (.ok tag, d') =>
      if tag ≠ posBignum then
        .ok (.error (.message "expected u64 or Tag::PosBignum for Quantity"), d')
      else
        match P.readBytes d' with
        | (.error e, d'') => .ok (.error e, d'')
        | (.ok bytes, d'') =>
            match fromBeBytes bytes with
            | .error t => .error t
            | .ok (some q) => .ok (.ok q, d'')
            | .ok none => .ok (.error (.message "Quantity exceeds 256 bits"), d'')

/-- `Decode for Quantity`: on a type mismatch the position is set back. -/
def decode (P : Cbor.Primitives) (d : Cbor.Decoder) : Decoded Quantity :=
  match P.readU64 d with
  | (.ok n, d') => .ok (.ok (fromU64 n), d')
  | (.error e, d') =>
      if e.isTypeMismatch then decodeBignum P { d' with pos := d.pos } else .ok (.error e, d')

end Quantity

/-- `NonZeroU128`. -/
abbrev NonZeroU128 := { v : U128 // v ≠ 0 }

/-- `NonZeroU64`. -/
abbrev NonZeroU64 := { v : U64 // v ≠ 0 }

namespace U128ViaQuantity

/-- `u128_via_quantity::encode`. -/
def encode (P : Cbor.Primitives) (v : U128) : Except Trap (List UInt8) :=
  (Quantity.fromU128 v).encode P

/-- The range check of `u128_via_quantity::decode`. -/
def ofQuantity (q : Quantity) : Except Cbor.DecodeError U128 :=
  match q.asU128 with
  | some v => .ok v
  | none => .error (.message "value exceeds u128")

/-- `u128_via_quantity::decode`. -/
def decode (P : Cbor.Primitives) (d : Cbor.Decoder) : Decoded U128 :=
  (Quantity.decode P d).check ofQuantity

end U128ViaQuantity

namespace NonZeroU128ViaQuantity

/-- `non_zero_u128_via_quantity::encode`. -/
def encode (P : Cbor.Primitives) (v : NonZeroU128) : Except Trap (List UInt8) :=
  U128ViaQuantity.encode P v.val

/-- `NonZeroU128::new`, with the codec's error. -/
def ofU128 (v : U128) : Except Cbor.DecodeError NonZeroU128 :=
  if h : v ≠ 0 then .ok ⟨v, h⟩ else .error (.message "expected non-zero u128")

/-- `non_zero_u128_via_quantity::decode`. -/
def decode (P : Cbor.Primitives) (d : Cbor.Decoder) : Decoded NonZeroU128 :=
  (U128ViaQuantity.decode P d).check ofU128

end NonZeroU128ViaQuantity

namespace NonZeroU64Field

/-- `non_zero_u64::encode`. -/
def encode (P : Cbor.Primitives) (v : NonZeroU64) : Except Trap (List UInt8) :=
  .ok (P.writeU64 v.val)

/-- `NonZeroU64::new`, with the codec's error. -/
def ofU64 (v : U64) : Except Cbor.DecodeError NonZeroU64 :=
  if h : v ≠ 0 then .ok ⟨v, h⟩ else .error (.message "expected non-zero u64")

/-- `non_zero_u64::decode`. -/
def decode (P : Cbor.Primitives) (d : Cbor.Decoder) : Decoded NonZeroU64 :=
  Decoded.check (.ok (P.readU64 d)) ofU64

end NonZeroU64Field

/-! ## Big-endian bytes -/

namespace Quantity

@[simp] lemma length_toBeBytes (q : Quantity) : q.toBeBytes.length = 32 := by
  simp [toBeBytes]

lemma pow_limb : 256 ^ 16 = 2 ^ 128 := by norm_num

lemma ofNumeral_limb (v : U128) : Digits.bytes.ofNumeral (Digits.bytes.numeral 16 v.toNat) = v.toNat :=
  Digits.bytes.ofNumeral_numeral (v.isLt.trans_eq pow_limb.symm)

/-- The bytes of a quantity write its number. -/
lemma ofNumeral_toBeBytes (q : Quantity) : Digits.bytes.ofNumeral q.toBeBytes = q.toNat := by
  have hbase : Digits.bytes.base ^ 16 = 2 ^ 128 := pow_limb
  rw [toBeBytes, Digits.ofNumeral_append, ofNumeral_limb, ofNumeral_limb, Digits.length_numeral,
    hbase, toNat]

lemma limbFromBeBytes_eq {bytes : List UInt8} (h : bytes.length = 16) :
    ∃ v : U128, limbFromBeBytes bytes = .ok v ∧ v.toNat = Digits.bytes.ofNumeral bytes := by
  have hlt : Digits.bytes.ofNumeral bytes < 2 ^ 128 := by
    calc Digits.bytes.ofNumeral bytes < 256 ^ bytes.length :=
          Digits.bytes.ofNumeral_lt (Digits.all_bytes bytes)
      _ = 2 ^ 128 := by rw [h, pow_limb]
  refine ⟨BitVec.ofNat 128 (Digits.bytes.ofNumeral bytes), ?_, ?_⟩
  · simp only [limbFromBeBytes, h, decide_true]
    rfl
  · rw [BitVec.toNat_ofNat, Nat.mod_eq_of_lt hlt]

/-- **Up to 32 bytes are read as the number they write**, padded on the left. -/
lemma fromBeBytes_eq {bytes : List UInt8} (h : bytes.length ≤ 32) :
    ∃ q : Quantity, fromBeBytes bytes = .ok (some q) ∧ q.toNat = Digits.bytes.ofNumeral bytes := by
  have hpad : (List.replicate 32 (0 : UInt8)).take (32 - bytes.length) ++ bytes
      = List.replicate (32 - bytes.length) 0 ++ bytes := by
    rw [List.take_replicate, Nat.min_eq_left (Nat.sub_le 32 bytes.length)]
  have hzero : ∀ n, Digits.bytes.ofNumeral (List.replicate n (0 : UInt8)) = 0 := by
    intro n
    induction n with
    | zero => rfl
    | succ n ih =>
        rw [List.replicate_succ', Digits.ofNumeral_append_singleton, ih]
        rfl
  have hvalue : Digits.bytes.ofNumeral (List.replicate (32 - bytes.length) 0 ++ bytes)
      = Digits.bytes.ofNumeral bytes := by
    rw [Digits.ofNumeral_append, hzero, Nat.zero_mul, Nat.zero_add]
  have hlength : (List.replicate (32 - bytes.length) (0 : UInt8) ++ bytes).length = 32 := by
    rw [List.length_append, List.length_replicate]
    omega
  generalize hbuf : List.replicate (32 - bytes.length) (0 : UInt8) ++ bytes = buf
    at hpad hvalue hlength
  have hfirst : (buf.take 16).length = 16 := by
    rw [List.length_take, hlength]
    rfl
  have hsecond : (buf.drop 16).length = 16 := by
    rw [List.length_drop, hlength]
  obtain ⟨high, hhigh, hhighNat⟩ := limbFromBeBytes_eq hfirst
  obtain ⟨low, hlow, hlowNat⟩ := limbFromBeBytes_eq hsecond
  have htail : ((List.replicate 32 (0 : UInt8)).drop (32 - bytes.length)).length
      = bytes.length := by
    rw [List.length_drop, List.length_replicate]
    omega
  refine ⟨⟨high, low⟩, ?_, ?_⟩
  · rw [fromBeBytes, if_neg (Nat.not_lt.mpr h)]
    simp only [bytesFrom, bytesTo, List.length_replicate, Nat.sub_le, h, decide_true, htail, hpad,
      hlength, Except.assert_true, Except.bind_ok, Nat.reduceLeDiff, hhigh, hlow]
  · have hbase : Digits.bytes.base ^ (buf.drop 16).length = 2 ^ 128 := by
      rw [hsecond]
      exact pow_limb
    rw [toNat, hhighNat, hlowNat, ← hvalue, ← buf.take_append_drop 16, Digits.ofNumeral_append,
      hbase, List.take_append_drop]

lemma fromBeBytes_of_long {bytes : List UInt8} (h : 32 < bytes.length) :
    fromBeBytes bytes = .ok none := if_pos h

lemma fromBeBytes_returns (bytes : List UInt8) : ∃ r, fromBeBytes bytes = .ok r := by
  rcases Nat.lt_or_ge 32 bytes.length with h | h
  · exact ⟨none, fromBeBytes_of_long h⟩
  · obtain ⟨q, hq, -⟩ := fromBeBytes_eq h
    exact ⟨some q, hq⟩

lemma fromBeBytes_toBeBytes (q : Quantity) : fromBeBytes q.toBeBytes = .ok (some q) := by
  obtain ⟨q', hq', hvalue⟩ := fromBeBytes_eq (q.length_toBeBytes.le)
  rw [ofNumeral_toBeBytes] at hvalue
  rw [hq', toNat_inj hvalue]

lemma high_eq_zero_iff {q : Quantity} : q.high = 0 ↔ q.toNat < 2 ^ 128 := by
  have hlow := q.low.isLt
  have hhigh : q.high = 0 ↔ q.high.toNat = 0 := (BitVec.toNat_eq (y := 0#128))
  rw [hhigh, toNat]
  omega

/-! ## The conversions to and from `Nat` -/

variable {B : BigUintOps}

/-- `to_nat` is the number of the quantity. -/
lemma toBigNat_eq (hB : B.Lawful) (q : Quantity) : q.toBigNat B = q.toNat := by
  rw [toBigNat]
  split_ifs with h
  · rw [toNat, h]
    simp
  · rw [hB.fromBytesBe_eq, ofNumeral_toBeBytes]

/-- **`try_from` is the model's conversion**: it fails exactly from 256 bits on. -/
lemma tryFromBigNat_eq (hB : B.Lawful) (n : ℕ) :
    tryFromBigNat B n = .ok ((tryFrom n).elim (.error .mk) .ok) := by
  have hbits := hB.bits_le n 256
  rw [tryFromBigNat, tryFrom]
  by_cases h : n < 2 ^ 256
  · obtain ⟨q, hq, hvalue⟩ := fromBeBytes_eq
      (hB.length_toBytesBe n 32 (by decide) (h.trans_eq (by norm_num)))
    rw [hB.ofNumeral_toBytesBe] at hvalue
    have hof : ofNat n = q := by
      rw [← hvalue, ofNat_toNat]
    rw [if_neg (Nat.not_lt.mpr (hbits.mpr h)), if_pos h, hq, hof]
    rfl
  · rw [if_pos (Nat.lt_of_not_le fun hle => h (hbits.mp hle)), if_neg h]
    rfl

/-! ## Encoding -/

variable {P : Cbor.Primitives}

/-- The bytes of a bignum: those of the quantity without leading zeros. -/
def payload (q : Quantity) : List UInt8 := q.toBeBytes.dropWhile (· = 0)

lemma length_payload_le (q : Quantity) : q.payload.length ≤ 32 := by
  rw [← q.length_toBeBytes]
  exact (List.dropWhile_sublist _).length_le

lemma ofNumeral_payload (q : Quantity) : Digits.bytes.ofNumeral q.payload = q.toNat := by
  have hzero : ∀ b : UInt8, decide (b = 0) = true → Digits.bytes.value b = 0 := by
    intro b hb
    rw [of_decide_eq_true hb]
    rfl
  rw [payload, Digits.ofNumeral_dropWhile _ hzero, ofNumeral_toBeBytes]

lemma head_dropWhile_zero (s : List UInt8) : (s.dropWhile (· = 0)).head? ≠ some 0 := by
  induction s with
  | nil => simp
  | cons b s ih =>
      by_cases hb : b = 0
      · simpa [List.dropWhile_cons, hb] using ih
      · simp [hb]

lemma head_payload (q : Quantity) : q.payload.head? ≠ some 0 := head_dropWhile_zero q.toBeBytes

/-- The size switch of the encoder. -/
lemma plain_iff {q : Quantity} : (q.high = 0 ∧ q.low.toNat ≤ 2 ^ 64 - 1) ↔ q.toNat < 2 ^ 64 := by
  have hlow := q.low.isLt
  rw [high_eq_zero_iff, toNat]
  omega

lemma fromU64_setWidth {q : Quantity} (h : q.toNat < 2 ^ 64) :
    fromU64 (q.low.setWidth 64) = q := by
  have hlow : q.low.toNat < 2 ^ 64 := by
    rw [toNat] at h
    omega
  refine toNat_inj ?_
  rw [toNat_fromU64, BitVec.toNat_setWidth, Nat.mod_eq_of_lt hlow]
  rw [toNat] at h ⊢
  omega

lemma encode_plain {q : Quantity} (h : q.toNat < 2 ^ 64) :
    encode P q = .ok (P.writeU64 (q.low.setWidth 64)) := if_pos (plain_iff.mpr h)

lemma encode_bignum {q : Quantity} (h : 2 ^ 64 ≤ q.toNat) :
    encode P q = .ok (P.writeTag posBignum ++ P.writeBytes q.payload) := by
  have hstart : q.toBeBytes.drop (q.toBeBytes.findIdx (· ≠ 0)) = q.payload := by
    rw [payload, List.dropWhile_eq_drop_findIdx_not]
    simp
  have hle : decide (q.toBeBytes.findIdx (· ≠ 0) ≤ q.toBeBytes.length) = true :=
    decide_eq_true List.findIdx_le_length
  rw [encode, if_neg (plain_iff.not.mpr (Nat.not_lt.mpr h))]
  simp only [bytesFrom, hle, Except.assert_true, Except.bind_ok, hstart]

/-! ## Decoding -/

/-- No input makes the decoder panic. -/
lemma decode_returns (P : Cbor.Primitives) (d : Cbor.Decoder) : ∃ r, decode P d = .ok r := by
  have hbignum : ∀ d, ∃ r, decodeBignum P d = .ok r := by
    intro d
    rw [decodeBignum]
    rcases P.readTag d with ⟨e | tag, d'⟩
    · exact ⟨_, rfl⟩
    · simp only
      split_ifs with htag
      · exact ⟨_, rfl⟩
      · rcases P.readBytes d' with ⟨e | bytes, d''⟩
        · exact ⟨_, rfl⟩
        · obtain ⟨r, hr⟩ := fromBeBytes_returns bytes
          simp only [hr]
          rcases r with _ | q
          · exact ⟨_, rfl⟩
          · exact ⟨_, rfl⟩
  rw [decode]
  rcases P.readU64 d with ⟨e | n, d'⟩
  · simp only
    split_ifs
    · exact hbignum _
    · exact ⟨_, rfl⟩
  · exact ⟨_, rfl⟩

/-- **A bignum is accepted up to 32 bytes.**  Wherever the readers find a bignum, its bytes decide:
up to 32 are the number they write, more are an error. -/
lemma decode_of_bignum {d d₀ d₁ d₂ : Cbor.Decoder} {e : Cbor.DecodeError} {bytes : List UInt8}
    (hu : P.readU64 d = (.error e, d₀)) (he : e.isTypeMismatch = true)
    (ht : P.readTag { d₀ with pos := d.pos } = (.ok posBignum, d₁))
    (hb : P.readBytes d₁ = (.ok bytes, d₂)) :
    (bytes.length ≤ 32 ∧ ∃ q : Quantity, decode P d = .ok (.ok q, d₂)
        ∧ q.toNat = Digits.bytes.ofNumeral bytes)
      ∨ (32 < bytes.length
        ∧ decode P d = .ok (.error (.message "Quantity exceeds 256 bits"), d₂)) := by
  have hdecode : decode P d = decodeBignum P { d₀ with pos := d.pos } := by
    simp only [decode, hu, he, if_true]
  rcases Nat.lt_or_ge 32 bytes.length with h | h
  · refine Or.inr ⟨h, ?_⟩
    rw [hdecode, decodeBignum]
    simp only [ht, hb, ne_eq, not_true_eq_false, if_false, fromBeBytes_of_long h]
  · obtain ⟨q, hq, hvalue⟩ := fromBeBytes_eq h
    refine Or.inl ⟨h, q, ?_, hvalue⟩
    rw [hdecode, decodeBignum]
    simp only [ht, hb, ne_eq, not_true_eq_false, if_false, hq]

lemma decode_writeU64 (hP : P.Lawful) (n : U64) (before after : List UInt8) :
    decode P (.reading before (P.writeU64 n) after)
      = .ok (.ok (fromU64 n), .behind before (P.writeU64 n) after) := by
  simp only [decode, hP.readU64_writeU64]

/-- A written bignum is found by the readers, whatever follows it. -/
lemma decode_writeBignum (hP : P.Lawful) {bytes : List UInt8} (hlength : bytes.length < 2 ^ 32)
    (before after : List UInt8) :
    (bytes.length ≤ 32 ∧ ∃ q : Quantity,
        decode P (.reading before (P.writeTag posBignum ++ P.writeBytes bytes) after)
            = .ok (.ok q, .behind before (P.writeTag posBignum ++ P.writeBytes bytes) after)
          ∧ q.toNat = Digits.bytes.ofNumeral bytes)
      ∨ (32 < bytes.length
        ∧ decode P (.reading before (P.writeTag posBignum ++ P.writeBytes bytes) after)
          = .ok (.error (.message "Quantity exceeds 256 bits"),
            .behind before (P.writeTag posBignum ++ P.writeBytes bytes) after)) := by
  rw [Cbor.Decoder.reading_append]
  have hmismatch := hP.readU64_writeTag before posBignum (P.writeBytes bytes ++ after)
  have hbuf := hP.readU64_buf (.reading before (P.writeTag posBignum) (P.writeBytes bytes ++ after))
  rcases hread : P.readU64 (.reading before (P.writeTag posBignum) (P.writeBytes bytes ++ after))
    with ⟨r, d₀⟩
  rw [hread] at hmismatch hbuf
  simp only at hmismatch hbuf
  rw [hmismatch] at hread
  have hback : ({ d₀ with pos := (Cbor.Decoder.reading before (P.writeTag posBignum)
      (P.writeBytes bytes ++ after)).pos } : Cbor.Decoder)
      = .reading before (P.writeTag posBignum) (P.writeBytes bytes ++ after) := by
    rw [hbuf]
  have htag := hP.readTag_writeTag before posBignum (P.writeBytes bytes ++ after)
  rw [← hback] at htag
  refine decode_of_bignum hread rfl htag ?_
  rw [Cbor.Decoder.behind_eq_reading, hP.readBytes_writeBytes _ _ _ hlength,
    Cbor.Decoder.behind_append]

/-- **Every quantity reads back**, and its encoding is read to its end and no further. -/
theorem decode_encode (hP : P.Lawful) (q : Quantity) (before after : List UInt8) :
    ∃ bytes, encode P q = .ok bytes
      ∧ decode P (.reading before bytes after) = .ok (.ok q, .behind before bytes after) := by
  rcases Nat.lt_or_ge q.toNat (2 ^ 64) with h | h
  · refine ⟨_, encode_plain h, ?_⟩
    rw [decode_writeU64 hP, fromU64_setWidth h]
  · refine ⟨_, encode_bignum h, ?_⟩
    have hlength := q.length_payload_le
    have hfits : q.payload.length < 2 ^ 32 := by omega
    rcases decode_writeBignum hP hfits before after with ⟨-, q', hdecode, hvalue⟩ | ⟨hlong, -⟩
    · rw [ofNumeral_payload] at hvalue
      rw [hdecode, toNat_inj hvalue]
    · omega

end Quantity

/-! ## The layered codecs -/

lemma Decoded.check_eq_ok {α β : Type} {r : Decoded α} {f : α → Except Cbor.DecodeError β} {b : β}
    {d : Cbor.Decoder} :
    r.check f = .ok (.ok b, d) ↔ ∃ a, r = .ok (.ok a, d) ∧ f a = .ok b := by
  rcases r with t | ⟨e | a, d'⟩
  · simp [Decoded.check]
  · simp [Decoded.check]
  · simp only [Decoded.check, Except.ok.injEq, Prod.mk.injEq]
    constructor
    · rintro ⟨hf, rfl⟩
      exact ⟨a, ⟨rfl, rfl⟩, hf⟩
    · rintro ⟨a', ⟨rfl, rfl⟩, hf⟩
      exact ⟨hf, rfl⟩

lemma Decoded.check_returns {α β : Type} {r : Decoded α} (f : α → Except Cbor.DecodeError β)
    (h : ∃ x, r = .ok x) : ∃ x, r.check f = .ok x := by
  obtain ⟨⟨e | a, d⟩, rfl⟩ := h
  · exact ⟨_, rfl⟩
  · exact ⟨_, rfl⟩

variable {P : Cbor.Primitives} {d d' : Cbor.Decoder}

lemma Quantity.toNat_fromU128 (v : U128) : (fromU128 v).toNat = v.toNat := by
  simp [toNat, fromU128]

namespace U128ViaQuantity

lemma ofQuantity_eq_ok {q : Quantity} {v : U128} :
    ofQuantity q = .ok v ↔ q = Quantity.fromU128 v := by
  rw [ofQuantity, Quantity.asU128]
  by_cases h : q.high = 0
  · simp only [if_pos h, Except.ok.injEq]
    constructor
    · rintro rfl
      rw [Quantity.fromU128, ← h]
    · rintro rfl
      rfl
  · simp only [if_neg h]
    constructor
    · intro hv
      cases hv
    · rintro rfl
      exact absurd rfl h

lemma decode_eq_ok {v : U128} :
    decode P d = .ok (.ok v, d') ↔ Quantity.decode P d = .ok (.ok (Quantity.fromU128 v), d') := by
  rw [decode, Decoded.check_eq_ok]
  constructor
  · rintro ⟨q, hq, hv⟩
    rw [hq, ofQuantity_eq_ok.mp hv]
  · intro h
    exact ⟨_, h, ofQuantity_eq_ok.mpr rfl⟩

lemma decode_returns (P : Cbor.Primitives) (d : Cbor.Decoder) : ∃ r, decode P d = .ok r :=
  Decoded.check_returns _ (Quantity.decode_returns P d)

end U128ViaQuantity

namespace NonZeroU128ViaQuantity

lemma ofU128_eq_ok {v : U128} {w : NonZeroU128} : ofU128 v = .ok w ↔ v = w.val := by
  rw [ofU128]
  split_ifs with h
  · rw [Except.ok.injEq, Subtype.ext_iff]
  · constructor
    · intro hw
      cases hw
    · rintro rfl
      exact absurd w.property h

lemma decode_eq_ok {w : NonZeroU128} :
    decode P d = .ok (.ok w, d') ↔ U128ViaQuantity.decode P d = .ok (.ok w.val, d') := by
  rw [decode, Decoded.check_eq_ok]
  constructor
  · rintro ⟨v, hv, hw⟩
    rw [hv, ofU128_eq_ok.mp hw]
  · intro h
    exact ⟨_, h, ofU128_eq_ok.mpr rfl⟩

end NonZeroU128ViaQuantity

namespace NonZeroU64Field

lemma ofU64_eq_ok {v : U64} {w : NonZeroU64} : ofU64 v = .ok w ↔ v = w.val := by
  rw [ofU64]
  split_ifs with h
  · rw [Except.ok.injEq, Subtype.ext_iff]
  · constructor
    · intro hw
      cases hw
    · rintro rfl
      exact absurd w.property h

lemma decode_eq_ok {w : NonZeroU64} :
    decode P d = .ok (.ok w, d') ↔ P.readU64 d = (.ok w.val, d') := by
  rw [decode, Decoded.check_eq_ok]
  constructor
  · rintro ⟨v, hv, hw⟩
    rw [Except.ok.inj hv, ofU64_eq_ok.mp hw]
  · intro h
    exact ⟨_, by rw [h], ofU64_eq_ok.mpr rfl⟩

end NonZeroU64Field

end OisyTrade
