import OisyTrade.Lib.Numeral

/-!
# CBOR primitives

What a codec uses of a CBOR library: three writers, which append bytes, and three readers, which move
a decoder forward over an unchanging buffer.  The library is a parameter, `Primitives`; `Lawful`
states what its documentation promises, that each reader undoes its writer and that a tag is not
mistaken for an integer.  A failed reader may stop anywhere.

`standard` is a library of this kind: every item starts with a head, three bits of major type and an
argument in the shortest of five forms.
-/

namespace Cbor

/-- A buffer and the position of the next byte. -/
structure Decoder where
  buf : List UInt8
  pos : ℕ
deriving DecidableEq

namespace Decoder

/-- At the start of `item`, between `before` and `after`. -/
def reading (before item after : List UInt8) : Decoder := ⟨before ++ item ++ after, before.length⟩

/-- At the end of `item`. -/
def behind (before item after : List UInt8) : Decoder :=
  ⟨before ++ item ++ after, before.length + item.length⟩

lemma reading_append (before item item' after : List UInt8) :
    reading before (item ++ item') after = reading before item (item' ++ after) := by
  simp [reading]

lemma behind_eq_reading (before item item' after : List UInt8) :
    behind before item (item' ++ after) = reading (before ++ item) item' after := by
  simp [behind, reading]

lemma behind_append (before item item' after : List UInt8) :
    behind (before ++ item) item' after = behind before (item ++ item') after := by
  simp [behind, Nat.add_assoc]

/-- The bytes not read yet. -/
def rest (d : Decoder) : List UInt8 := d.buf.drop d.pos

@[simp] lemma rest_reading (before item after : List UInt8) :
    (reading before item after).rest = item ++ after := by
  simp [rest, reading]

end Decoder

/-- Why decoding failed. -/
inductive DecodeError
  | endOfInput
  | typeMismatch
  | message (text : String)
deriving DecidableEq

/-- `is_type_mismatch`. -/
def DecodeError.isTypeMismatch : DecodeError → Bool
  | typeMismatch => true
  | _ => false

/-- A reader: its result, and the decoder it leaves. -/
abbrev Read (α : Type) := Decoder → Except DecodeError α × Decoder

/-- The writers and readers of a CBOR library.  A tag is its number. -/
structure Primitives where
  writeU64 : BitVec 64 → List UInt8
  writeTag : BitVec 64 → List UInt8
  writeBytes : List UInt8 → List UInt8
  readU64 : Read (BitVec 64)
  readTag : Read (BitVec 64)
  readBytes : Read (List UInt8)

/-- **What the library promises.** -/
structure Primitives.Lawful (P : Primitives) : Prop where
  readU64_writeU64 : ∀ before n after,
    P.readU64 (.reading before (P.writeU64 n) after) = (.ok n, .behind before (P.writeU64 n) after)
  readTag_writeTag : ∀ before t after,
    P.readTag (.reading before (P.writeTag t) after) = (.ok t, .behind before (P.writeTag t) after)
  readBytes_writeBytes : ∀ before (s : List UInt8) after, s.length < 2 ^ 32 →
    P.readBytes (.reading before (P.writeBytes s) after)
      = (.ok s, .behind before (P.writeBytes s) after)
  readU64_writeTag : ∀ before t after,
    (P.readU64 (.reading before (P.writeTag t) after)).1 = .error .typeMismatch
  readU64_buf : ∀ d, (P.readU64 d).2.buf = d.buf

/-! ## Heads -/

/-- The bytes of an argument that stand behind the first byte, by the low five bits of that byte. -/
def argumentWidth : ℕ → Option ℕ
  | 24 => some 1
  | 25 => some 2
  | 26 => some 4
  | 27 => some 8
  | _ => none

/-- The head of an item in a form with `width` further bytes. -/
def longHead (major info width n : ℕ) : List UInt8 :=
  UInt8.ofNat (32 * major + info) :: Digits.bytes.numeral width n

/-- The shortest head of an item. -/
def head (major n : ℕ) : List UInt8 :=
  if n < 24 then [UInt8.ofNat (32 * major + n)]
  else if n < 2 ^ 8 then longHead major 24 1 n
  else if n < 2 ^ 16 then longHead major 25 2 n
  else if n < 2 ^ 32 then longHead major 26 4 n
  else longHead major 27 8 n

/-- The major type and the argument of a head, and the number of its bytes. -/
def readHead : List UInt8 → Option (ℕ × ℕ × ℕ)
  | [] => none
  | b :: rest =>
      if b.toNat % 32 < 24 then some (b.toNat / 32, b.toNat % 32, 1)
      else
        match argumentWidth (b.toNat % 32) with
        | none => none
        | some width =>
            if width ≤ rest.length then
              some (b.toNat / 32, Digits.bytes.ofNumeral (rest.take width), 1 + width)
            else none

lemma firstByte_eq (major info : ℕ) (hmajor : major < 8) (hinfo : info < 32) :
    (UInt8.ofNat (32 * major + info)).toNat / 32 = major
      ∧ (UInt8.ofNat (32 * major + info)).toNat % 32 = info := by
  rw [Digits.toNat_ofNat_byte (by omega)]
  omega

lemma readHead_longHead {major info width n : ℕ} (hmajor : major < 8) (hinfo : 24 ≤ info)
    (hwidth : argumentWidth info = some width) (hn : n < 256 ^ width) (hlt : info < 32)
    (after : List UInt8) :
    readHead (longHead major info width n ++ after)
      = some (major, n, (longHead major info width n).length) := by
  obtain ⟨hdiv, hmod⟩ := firstByte_eq major info hmajor hlt
  rw [longHead, List.cons_append, readHead, hdiv, hmod, if_neg (Nat.not_lt.mpr hinfo), hwidth]
  simp only [List.length_append, Digits.length_numeral, Nat.le_add_right, if_true, List.length_cons]
  rw [List.take_left' (Digits.bytes.length_numeral width n), Digits.bytes.ofNumeral_numeral hn,
    Nat.add_comm 1 width]

/-- **A head reads back**, and the bytes behind it are left alone. -/
theorem readHead_head {major n : ℕ} (hmajor : major < 8) (hn : n < 2 ^ 64) (after : List UInt8) :
    readHead (head major n ++ after) = some (major, n, (head major n).length) := by
  rw [head]
  split_ifs with h1 h2 h3 h4
  · obtain ⟨hdiv, hmod⟩ := firstByte_eq major n hmajor (by omega)
    rw [List.singleton_append, readHead, hdiv, hmod, if_pos h1]
    rfl
  · exact readHead_longHead hmajor (by decide) rfl (h2.trans_eq (by norm_num)) (by decide) after
  · exact readHead_longHead hmajor (by decide) rfl (h3.trans_eq (by norm_num)) (by decide) after
  · exact readHead_longHead hmajor (by decide) rfl (h4.trans_eq (by norm_num)) (by decide) after
  · exact readHead_longHead hmajor (by decide) rfl (hn.trans_eq (by norm_num)) (by decide) after

/-! ## The standard library -/

/-- Reads the argument of an item of one major type. -/
def readArgument (major : ℕ) : Read (BitVec 64) := fun d =>
  match readHead d.rest with
  | none => (.error .endOfInput, d)
  | some (major', n, k) =>
      if major' = major then (.ok (BitVec.ofNat 64 n), ⟨d.buf, d.pos + k⟩)
      else (.error .typeMismatch, ⟨d.buf, d.pos + 1⟩)

/-- Reads a byte string. -/
def readByteString : Read (List UInt8) := fun d =>
  match readArgument 2 d with
  | (.error e, d') => (.error e, d')
  | (.ok n, d') =>
      if n.toNat ≤ d'.rest.length then (.ok (d'.rest.take n.toNat), ⟨d'.buf, d'.pos + n.toNat⟩)
      else (.error .endOfInput, d')

/-- Integers have major type 0, byte strings 2 and tags 6. -/
def standard : Primitives where
  writeU64 n := head 0 n.toNat
  writeTag t := head 6 t.toNat
  writeBytes s := head 2 s.length ++ s
  readU64 := readArgument 0
  readTag := readArgument 6
  readBytes := readByteString

lemma readArgument_head {major : ℕ} (hmajor : major < 8) (n : BitVec 64)
    (before after : List UInt8) :
    readArgument major (.reading before (head major n.toNat) after)
      = (.ok n, .behind before (head major n.toNat) after) := by
  rw [readArgument, Decoder.rest_reading, readHead_head hmajor n.isLt]
  simp only [if_true, BitVec.ofNat_toNat, BitVec.setWidth_eq]
  rfl

lemma readArgument_other {major major' : ℕ} (hmajor : major' < 8) (hne : major' ≠ major)
    (n : BitVec 64) (before after : List UInt8) :
    (readArgument major (.reading before (head major' n.toNat) after)).1
      = .error .typeMismatch := by
  rw [readArgument, Decoder.rest_reading, readHead_head hmajor n.isLt]
  simp only [if_neg hne]

lemma readArgument_buf (major : ℕ) (d : Decoder) : (readArgument major d).2.buf = d.buf := by
  rw [readArgument]
  split
  · rfl
  · split_ifs <;> rfl

/-- **The standard library keeps the promises.** -/
theorem standard_lawful : standard.Lawful where
  readU64_writeU64 before n after := readArgument_head (by decide) n before after
  readTag_writeTag before t after := readArgument_head (by decide) t before after
  readBytes_writeBytes before s after hs := by
    have hn : (BitVec.ofNat 64 s.length).toNat = s.length := by
      rw [BitVec.toNat_ofNat, Nat.mod_eq_of_lt (by omega)]
    have hread := readArgument_head (by decide : 2 < 8) (BitVec.ofNat 64 s.length) before
      (s ++ after)
    rw [hn] at hread
    show readByteString (.reading before (head 2 s.length ++ s) after)
      = (.ok s, .behind before (head 2 s.length ++ s) after)
    rw [Decoder.reading_append, readByteString, hread, Decoder.behind_eq_reading]
    simp only [Decoder.rest_reading, hn, List.length_append, Nat.le_add_right, if_true,
      List.take_left, ← Decoder.behind_append]
    rfl
  readU64_writeTag before t after := readArgument_other (by decide) (by decide) t before after
  readU64_buf := readArgument_buf 0

end Cbor
