import OisyTrade.Lib.Text
import OisyTrade.Order.Types

/-!
# Ids as text and as bytes

`ids/mod.rs`: outside the canister an id is a text of hexadecimal digits, two for each of its bytes;
in stable memory it is its big-endian bytes.  A sequence number has 8 bytes, and a composite id is
its two parts one after the other.  Parsing cuts an unchecked text at a byte offset, and such a cut
panics inside a character, so the readers return in `Except Trap`.

`LawfulFixedWidthId` says that writing and reading are inverse to each other and that reading never
panics; `OrderedFixedWidthId` that both forms compare as the ids do.  Composite ids have both from
their parts.
-/

namespace OisyTrade

/-- `ParseFixedWithIdError`. -/
inductive ParseFixedWithIdError
  | mk
deriving DecidableEq

/-- What a reader returns. -/
abbrev Parsed (α : Type) := Except Trap (Except ParseFixedWithIdError α)

/-- `is_canonical_hex`. -/
def isCanonicalHex (s : List Char) (byteWidth : ℕ) : Bool :=
  decide ((Text.utf8 s).length = 2 * byteWidth) && (Text.utf8 s).all Text.isHexByte

/-- `FixedWidthId`: an id of `width` bytes. -/
class FixedWidthId (α : Type) where
  width : ℕ
  writeBeBytes : α → List UInt8
  fromBeBytes : List UInt8 → Parsed α
  writeHex : α → List Char
  fromHex : List Char → Parsed α

/-! ## Sequence numbers -/

/-- `char::to_digit(16)`. -/
def toDigit16 (c : Char) : Option ℕ :=
  if 48 ≤ c.toNat ∧ c.toNat ≤ 57 then some (c.toNat - 48)
  else if 97 ≤ c.toNat ∧ c.toNat ≤ 102 then some (c.toNat - 87)
  else if 65 ≤ c.toNat ∧ c.toNat ≤ 70 then some (c.toNat - 55)
  else none

/-- One digit of `u64::from_str_radix(_, 16)`, with its overflow check. -/
def pushDigit16 (acc : Option ℕ) (c : Char) : Option ℕ :=
  match acc, toDigit16 c with
  | some n, some d => if 16 * n + d < 2 ^ 64 then some (16 * n + d) else none
  | _, _ => none

/-- `u64::from_str_radix(_, 16)`: at least one digit of either case, after an optional sign. -/
def fromStrRadix16 : List Char → Option ℕ
  | [] => none
  | ['+'] => none
  | '+' :: digits => digits.foldl pushDigit16 (some 0)
  | digits => digits.foldl pushDigit16 (some 0)

/-- `FixedWidthId for Seq<M>`. -/
instance {M : Type} : FixedWidthId (Seq M) where
  width := 8
  writeBeBytes s := Digits.bytes.numeral 8 s.val
  fromBeBytes bytes :=
    -- `try_into` to eight bytes
    if bytes.length = 8 then .ok (.ok (.wrap (Digits.bytes.ofNumeral bytes)))
    else .ok (.error .mk)
  -- the format `{:016x}`
  writeHex s := Digits.hex.numeral 16 s.val
  fromHex s :=
    if isCanonicalHex s 8 then
      match fromStrRadix16 s with
      | some n => .ok (.ok (.wrap n))
      | none => .ok (.error .mk)
    else .ok (.error .mk)

/-! ## Composite ids -/

/-- `Self(first?, second?)`: the second part is read only after the first one was. -/
def CompositeId.ofParts {A B : Type} : Parsed A → Parsed B → Parsed (CompositeId A B)
  | .error t, _ => .error t
  | .ok (.error e), _ => .ok (.error e)
  | .ok (.ok _), .error t => .error t
  | .ok (.ok _), .ok (.error e) => .ok (.error e)
  | .ok (.ok a), .ok (.ok b) => .ok (.ok (toLex (a, b)))

/-- `&bytes[..i]`. -/
def bytesTo (bytes : List UInt8) (i : ℕ) : Except Trap (List UInt8) := do
  assertBug (i ≤ bytes.length) .sliceIndex
  .ok (bytes.take i)

/-- `&bytes[i..]`. -/
def bytesFrom (bytes : List UInt8) (i : ℕ) : Except Trap (List UInt8) := do
  assertBug (i ≤ bytes.length) .sliceIndex
  .ok (bytes.drop i)

/-- `FixedWidthId for CompositeId<A, B>`. -/
instance {A B : Type} [FixedWidthId A] [FixedWidthId B] : FixedWidthId (CompositeId A B) where
  width := FixedWidthId.width A + FixedWidthId.width B
  writeBeBytes id :=
    FixedWidthId.writeBeBytes (ofLex id).1 ++ FixedWidthId.writeBeBytes (ofLex id).2
  fromBeBytes bytes :=
    if bytes.length ≠ FixedWidthId.width A + FixedWidthId.width B then .ok (.error .mk)
    else CompositeId.ofParts
      ((bytesTo bytes (FixedWidthId.width A)).bind FixedWidthId.fromBeBytes)
      ((bytesFrom bytes (FixedWidthId.width A)).bind FixedWidthId.fromBeBytes)
  writeHex id := FixedWidthId.writeHex (ofLex id).1 ++ FixedWidthId.writeHex (ofLex id).2
  fromHex s :=
    if isCanonicalHex s (FixedWidthId.width A + FixedWidthId.width B) then
      CompositeId.ofParts
        ((expectBug (Text.sliceTo s (FixedWidthId.width A * 2)) .sliceIndex).bind
          FixedWidthId.fromHex)
        ((expectBug (Text.sliceFrom s (FixedWidthId.width A * 2)) .sliceIndex).bind
          FixedWidthId.fromHex)
    else .ok (.error .mk)

namespace FixedWidthId

/-- `Display::fmt`, as `to_string` calls it. -/
def toText {α : Type} [FixedWidthId α] (id : α) : String := String.ofList (writeHex id)

/-- `FromStr::from_str`, as `parse` calls it.  It does not panic (`fromHex_toList`), so that its
callers see only its result. -/
def parse (α : Type) [FixedWidthId α] (s : String) : Except ParseFixedWithIdError α :=
  (fromHex s.toList).valueD (.error .mk)

end FixedWidthId

/-! ## Reading and writing are inverse to each other -/

/-- **Ids have one text and one byte form**, and reading them never panics. -/
class LawfulFixedWidthId (α : Type) [FixedWidthId α] : Prop where
  length_writeBeBytes : ∀ id : α, (FixedWidthId.writeBeBytes id).length = FixedWidthId.width α
  fromBeBytes_returns : ∀ bytes : List UInt8, ∃ r,
    (FixedWidthId.fromBeBytes bytes : Parsed α) = .ok r
  fromBeBytes_eq_ok : ∀ (bytes : List UInt8) (id : α),
    FixedWidthId.fromBeBytes bytes = .ok (.ok id) ↔ bytes = FixedWidthId.writeBeBytes id
  canonical : ∀ id : α, isCanonicalHex (FixedWidthId.writeHex id) (FixedWidthId.width α) = true
  fromHex_returns : ∀ s : List Char, ∃ r, (FixedWidthId.fromHex s : Parsed α) = .ok r
  fromHex_eq_ok : ∀ (s : List Char) (id : α),
    FixedWidthId.fromHex s = .ok (.ok id) ↔ s = FixedWidthId.writeHex id

/-- A canonical text is made of digits, two for each byte. -/
lemma isCanonicalHex_iff {s : List Char} {byteWidth : ℕ} : isCanonicalHex s byteWidth = true ↔
    s.length = 2 * byteWidth ∧ s.all Digits.isHexDigit = true := by
  rw [isCanonicalHex, Bool.and_eq_true, decide_eq_true_eq, Text.all_utf8]
  constructor
  · rintro ⟨hlength, hall⟩
    exact ⟨(Text.length_utf8 hall).symm.trans hlength, hall⟩
  · rintro ⟨hlength, hall⟩
    exact ⟨(Text.length_utf8 hall).trans hlength, hall⟩

lemma isCanonicalHex_append {s t : List Char} {m n : ℕ} (hs : isCanonicalHex s m = true)
    (ht : isCanonicalHex t n = true) : isCanonicalHex (s ++ t) (m + n) = true := by
  rw [isCanonicalHex_iff] at hs ht ⊢
  rw [List.length_append, List.all_append, hs.2, ht.2]
  exact ⟨by omega, rfl⟩

lemma toDigit16_of_isHexDigit {c : Char} (h : Digits.isHexDigit c = true) :
    toDigit16 c = some (Digits.hexValue c) := by
  rw [Digits.isHexDigit_iff] at h
  rw [toDigit16, Digits.hexValue]
  rcases h with h | h
  · rw [if_pos h, if_pos h.2]
  · rw [if_neg (by omega), if_pos h, if_neg (by omega)]

/-- Up to sixteen digits do not overflow. -/
lemma foldl_pushDigit16 {s : List Char} (h : s.all Digits.isHexDigit = true)
    (hlength : s.length ≤ 16) :
    s.foldl pushDigit16 (some 0) = some (Digits.hex.ofNumeral s) := by
  induction s using List.reverseRecOn with
  | nil => rfl
  | append_singleton s c ih =>
      have hlt : Digits.hex.ofNumeral (s ++ [c]) < 2 ^ 64 := by
        calc Digits.hex.ofNumeral (s ++ [c]) < 16 ^ (s ++ [c]).length := Digits.hex.ofNumeral_lt h
          _ ≤ 16 ^ 16 := Nat.pow_le_pow_right (by decide) hlength
          _ = 2 ^ 64 := by norm_num
      rw [List.all_append, Bool.and_eq_true, List.all_cons, List.all_nil, Bool.and_true] at h
      rw [List.length_append, List.length_singleton] at hlength
      rw [Digits.ofNumeral_append_singleton] at hlt ⊢
      rw [List.foldl_append, ih h.1 (by omega), List.foldl_cons, List.foldl_nil]
      simp only [pushDigit16, toDigit16_of_isHexDigit h.2]
      exact if_pos hlt

/-- A sign is no digit. -/
lemma fromStrRadix16_eq {s : List Char} (h : s.all Digits.isHexDigit = true)
    (hlength : s.length = 16) : fromStrRadix16 s = some (Digits.hex.ofNumeral s) := by
  rw [fromStrRadix16]
  · exact foldl_pushDigit16 h hlength.le
  · rintro rfl
    cases hlength
  · rintro rfl
    cases hlength
  · rintro digits rfl
    cases h

namespace Seq

variable {M : Type}

lemma writeHex_eq (id : Seq M) : FixedWidthId.writeHex id = Digits.hex.numeral 16 id.val := rfl

lemma fromHex_of_canonical {s : List Char} (h : isCanonicalHex s 8 = true) :
    (FixedWidthId.fromHex s : Parsed (Seq M)) = .ok (.ok (.wrap (Digits.hex.ofNumeral s))) := by
  obtain ⟨hlength, hall⟩ := isCanonicalHex_iff.mp h
  simp only [FixedWidthId.fromHex]
  rw [if_pos h, fromStrRadix16_eq hall hlength]

lemma fromHex_of_not_canonical {s : List Char} (h : ¬ isCanonicalHex s 8 = true) :
    (FixedWidthId.fromHex s : Parsed (Seq M)) = .ok (.error .mk) := if_neg h

lemma canonical_numeral (n : ℕ) : isCanonicalHex (Digits.hex.numeral 16 n) 8 = true :=
  isCanonicalHex_iff.mpr ⟨Digits.hex.length_numeral 16 n, Digits.hex.all_numeral 16 n⟩

lemma hex_lt (id : Seq M) : id.val < Digits.hex.base ^ 16 :=
  id.isLt.trans_eq (show 2 ^ 64 = 16 ^ 16 by norm_num)

lemma bytes_lt (id : Seq M) : id.val < Digits.bytes.base ^ 8 :=
  id.isLt.trans_eq (show 2 ^ 64 = 256 ^ 8 by norm_num)

end Seq

instance {M : Type} : LawfulFixedWidthId (Seq M) where
  length_writeBeBytes id := Digits.bytes.length_numeral 8 id.val
  fromBeBytes_returns bytes := by
    by_cases h : bytes.length = 8
    · exact ⟨_, if_pos h⟩
    · exact ⟨_, if_neg h⟩
  fromBeBytes_eq_ok := by
    intro bytes id
    constructor
    · intro h
      by_cases hlength : bytes.length = 8
      · have hread := (if_pos hlength).symm.trans h
        rw [Except.ok.injEq, Except.ok.injEq] at hread
        have hlt : Digits.bytes.ofNumeral bytes < 2 ^ 64 := by
          calc Digits.bytes.ofNumeral bytes < 256 ^ bytes.length :=
                Digits.bytes.ofNumeral_lt (Digits.all_bytes bytes)
            _ = 2 ^ 64 := by rw [hlength]; norm_num
        have hback := Digits.bytes.numeral_ofNumeral (Digits.all_bytes bytes)
        rw [hlength, ← Seq.val_wrap (M := M) hlt, hread] at hback
        exact hback.symm
      · cases (if_neg hlength).symm.trans h
    · intro h
      have hlength : bytes.length = 8 := by
        rw [h]
        exact Digits.bytes.length_numeral 8 id.val
      have hvalue : Digits.bytes.ofNumeral bytes = id.val := by
        rw [h]
        exact Digits.bytes.ofNumeral_numeral id.bytes_lt
      refine (if_pos hlength).trans ?_
      rw [hvalue, Seq.wrap_val]
  canonical id := Seq.canonical_numeral id.val
  fromHex_returns s := by
    by_cases h : isCanonicalHex s 8 = true
    · exact ⟨_, Seq.fromHex_of_canonical h⟩
    · exact ⟨_, Seq.fromHex_of_not_canonical h⟩
  fromHex_eq_ok := by
    intro s id
    rw [Seq.writeHex_eq]
    constructor
    · intro h
      by_cases hcanonical : isCanonicalHex s 8 = true
      · obtain ⟨hlength, hall⟩ := isCanonicalHex_iff.mp hcanonical
        rw [Seq.fromHex_of_canonical hcanonical, Except.ok.injEq, Except.ok.injEq] at h
        have hlt : Digits.hex.ofNumeral s < 2 ^ 64 := by
          calc Digits.hex.ofNumeral s < 16 ^ s.length := Digits.hex.ofNumeral_lt hall
            _ = 2 ^ 64 := by rw [hlength]; norm_num
        have hback := Digits.hex.numeral_ofNumeral hall
        rw [hlength, ← Seq.val_wrap (M := M) hlt, h] at hback
        exact hback.symm
      · rw [Seq.fromHex_of_not_canonical hcanonical] at h
        cases h
    · intro h
      rw [h, Seq.fromHex_of_canonical (Seq.canonical_numeral id.val),
        Digits.hex.ofNumeral_numeral id.hex_lt, Seq.wrap_val]

namespace CompositeId

variable {A B : Type}

lemma ofParts_eq_ok {first : Parsed A} {second : Parsed B} {id : CompositeId A B} :
    ofParts first second = .ok (.ok id)
      ↔ first = .ok (.ok (ofLex id).1) ∧ second = .ok (.ok (ofLex id).2) := by
  constructor
  · intro h
    rcases first with t | ⟨e | a⟩
    · cases h
    · cases h
    rcases second with t | ⟨e | b⟩
    · cases h
    · cases h
    cases h
    exact ⟨rfl, rfl⟩
  · rintro ⟨rfl, rfl⟩
    rfl

lemma ofParts_returns {first : Parsed A} {second : Parsed B} (hfirst : ∃ r, first = .ok r)
    (hsecond : ∃ r, second = .ok r) : ∃ r, ofParts first second = .ok r := by
  obtain ⟨r, rfl⟩ := hfirst
  obtain ⟨r', rfl⟩ := hsecond
  rcases r with e | a
  · exact ⟨_, rfl⟩
  rcases r' with e | b
  · exact ⟨_, rfl⟩
  · exact ⟨_, rfl⟩

variable [FixedWidthId A] [FixedWidthId B]

lemma fromBeBytes_of_length {bytes : List UInt8}
    (h : bytes.length = FixedWidthId.width A + FixedWidthId.width B) :
    (FixedWidthId.fromBeBytes bytes : Parsed (CompositeId A B))
      = ofParts (FixedWidthId.fromBeBytes (bytes.take (FixedWidthId.width A)))
        (FixedWidthId.fromBeBytes (bytes.drop (FixedWidthId.width A))) := by
  have hle : decide (FixedWidthId.width A ≤ bytes.length) = true := by
    rw [decide_eq_true_eq]
    omega
  simp only [FixedWidthId.fromBeBytes, bytesTo, bytesFrom, hle]
  rw [if_neg (not_not.mpr h)]
  rfl

lemma fromHex_of_canonical {s : List Char}
    (h : isCanonicalHex s (FixedWidthId.width A + FixedWidthId.width B) = true) :
    (FixedWidthId.fromHex s : Parsed (CompositeId A B))
      = ofParts (FixedWidthId.fromHex (s.take (FixedWidthId.width A * 2)))
        (FixedWidthId.fromHex (s.drop (FixedWidthId.width A * 2))) := by
  obtain ⟨hlength, hall⟩ := isCanonicalHex_iff.mp h
  have hle : FixedWidthId.width A * 2 ≤ s.length := by omega
  simp only [FixedWidthId.fromHex, Text.sliceTo_eq hall hle, Text.sliceFrom_eq hall hle]
  rw [if_pos h]
  rfl

end CompositeId

instance {A B : Type} [FixedWidthId A] [FixedWidthId B] [LawfulFixedWidthId A]
    [LawfulFixedWidthId B] : LawfulFixedWidthId (CompositeId A B) where
  length_writeBeBytes id := by
    simp only [FixedWidthId.writeBeBytes, FixedWidthId.width, List.length_append,
      LawfulFixedWidthId.length_writeBeBytes]
  fromBeBytes_returns bytes := by
    by_cases h : bytes.length = FixedWidthId.width A + FixedWidthId.width B
    · rw [CompositeId.fromBeBytes_of_length h]
      exact CompositeId.ofParts_returns (LawfulFixedWidthId.fromBeBytes_returns _)
        (LawfulFixedWidthId.fromBeBytes_returns _)
    · exact ⟨_, if_pos h⟩
  fromBeBytes_eq_ok := by
    intro bytes id
    constructor
    · intro h
      by_cases hlength : bytes.length = FixedWidthId.width A + FixedWidthId.width B
      · rw [CompositeId.fromBeBytes_of_length hlength, CompositeId.ofParts_eq_ok,
          LawfulFixedWidthId.fromBeBytes_eq_ok, LawfulFixedWidthId.fromBeBytes_eq_ok] at h
        rw [← bytes.take_append_drop (FixedWidthId.width A), h.1, h.2]
        rfl
      · cases (if_pos hlength).symm.trans h
    · rintro rfl
      -- the first part ends where the bytes are cut
      have hwidth := LawfulFixedWidthId.length_writeBeBytes (ofLex id).1
      have hlength : (FixedWidthId.writeBeBytes id).length
          = FixedWidthId.width A + FixedWidthId.width B := by
        simp only [FixedWidthId.writeBeBytes, List.length_append,
          LawfulFixedWidthId.length_writeBeBytes]
      rw [CompositeId.fromBeBytes_of_length hlength, CompositeId.ofParts_eq_ok,
        LawfulFixedWidthId.fromBeBytes_eq_ok, LawfulFixedWidthId.fromBeBytes_eq_ok, ← hwidth]
      exact ⟨List.take_left, List.drop_left⟩
  canonical id := isCanonicalHex_append (LawfulFixedWidthId.canonical (ofLex id).1)
    (LawfulFixedWidthId.canonical (ofLex id).2)
  fromHex_returns s := by
    by_cases h : isCanonicalHex s (FixedWidthId.width A + FixedWidthId.width B) = true
    · rw [CompositeId.fromHex_of_canonical h]
      exact CompositeId.ofParts_returns (LawfulFixedWidthId.fromHex_returns _)
        (LawfulFixedWidthId.fromHex_returns _)
    · exact ⟨_, if_neg h⟩
  fromHex_eq_ok := by
    intro s id
    constructor
    · intro h
      by_cases hcanonical : isCanonicalHex s (FixedWidthId.width A + FixedWidthId.width B) = true
      · rw [CompositeId.fromHex_of_canonical hcanonical, CompositeId.ofParts_eq_ok,
          LawfulFixedWidthId.fromHex_eq_ok, LawfulFixedWidthId.fromHex_eq_ok] at h
        rw [← s.take_append_drop (FixedWidthId.width A * 2), h.1, h.2]
        rfl
      · cases (if_neg hcanonical).symm.trans h
    · rintro rfl
      have hcanonical := LawfulFixedWidthId.canonical (ofLex id).1
      have hwidth : FixedWidthId.width A * 2 = (FixedWidthId.writeHex (ofLex id).1).length := by
        rw [(isCanonicalHex_iff.mp hcanonical).1, Nat.mul_comm]
      have hwhole : isCanonicalHex (FixedWidthId.writeHex id)
          (FixedWidthId.width A + FixedWidthId.width B) = true :=
        isCanonicalHex_append hcanonical (LawfulFixedWidthId.canonical (ofLex id).2)
      rw [CompositeId.fromHex_of_canonical hwhole, CompositeId.ofParts_eq_ok,
        LawfulFixedWidthId.fromHex_eq_ok, LawfulFixedWidthId.fromHex_eq_ok, hwidth]
      exact ⟨List.take_left, List.drop_left⟩

namespace FixedWidthId

variable {α : Type} [FixedWidthId α] [LawfulFixedWidthId α]

/-- Parsing does not panic. -/
lemma fromHex_toList (s : String) : fromHex s.toList = .ok (parse α s) := by
  obtain ⟨r, hr⟩ := LawfulFixedWidthId.fromHex_returns (α := α) s.toList
  rw [parse, hr]
  rfl

/-- **A text parses to an id exactly if the id prints to it.** -/
theorem parse_eq_ok {s : String} {id : α} : parse α s = .ok id ↔ s = toText id := by
  have hread : parse α s = .ok id ↔ fromHex s.toList = .ok (.ok id) := by
    rw [fromHex_toList, Except.ok.injEq]
  rw [hread, LawfulFixedWidthId.fromHex_eq_ok, toText]
  constructor
  · intro h
    rw [← h, String.ofList_toList]
  · rintro rfl
    rw [String.toList_ofList]

@[simp] lemma parse_toText (id : α) : parse α (toText id) = .ok id := parse_eq_ok.mpr rfl

lemma writeHex_inj {a b : α} : writeHex a = writeHex b ↔ a = b := by
  constructor
  · intro h
    have hb : fromHex (writeHex b) = .ok (.ok a) :=
      (LawfulFixedWidthId.fromHex_eq_ok _ a).mpr h.symm
    rw [(LawfulFixedWidthId.fromHex_eq_ok _ b).mpr rfl] at hb
    exact (Except.ok.inj (Except.ok.inj hb)).symm
  · rintro rfl
    rfl

lemma writeBeBytes_inj {a b : α} : writeBeBytes a = writeBeBytes b ↔ a = b := by
  constructor
  · intro h
    have hb : fromBeBytes (writeBeBytes b) = .ok (.ok a) :=
      (LawfulFixedWidthId.fromBeBytes_eq_ok _ a).mpr h.symm
    rw [(LawfulFixedWidthId.fromBeBytes_eq_ok _ b).mpr rfl] at hb
    exact (Except.ok.inj (Except.ok.inj hb)).symm
  · rintro rfl
    rfl

end FixedWidthId

example : FixedWidthId.toText (OrderId.new (Seq.wrap 1) (Seq.wrap 255))
    = "000000000000000100000000000000ff" := by decide +kernel

/-! ## Both forms keep the order -/

/-- **The bytes and the text of ids compare as the ids do.** -/
class OrderedFixedWidthId (α : Type) [FixedWidthId α] [LinearOrder α] : Prop where
  writeBeBytes_lt : ∀ a b : α,
    FixedWidthId.writeBeBytes a < FixedWidthId.writeBeBytes b ↔ a < b
  writeHex_lt : ∀ a b : α, FixedWidthId.writeHex a < FixedWidthId.writeHex b ↔ a < b

instance {M : Type} : OrderedFixedWidthId (Seq M) where
  writeBeBytes_lt a b := Digits.bytes.numeral_lt_numeral Digits.byte_lt_byte a.bytes_lt b.bytes_lt
  writeHex_lt a b := Digits.hex.numeral_lt_numeral Digits.hexDigit_lt_hexDigit a.hex_lt b.hex_lt

instance {A B : Type} [FixedWidthId A] [FixedWidthId B] [LinearOrder A] [LinearOrder B]
    [LawfulFixedWidthId A] [LawfulFixedWidthId B] [OrderedFixedWidthId A]
    [OrderedFixedWidthId B] : OrderedFixedWidthId (CompositeId A B) where
  writeBeBytes_lt a b := by
    have hlength : (FixedWidthId.writeBeBytes (ofLex a).1).length
        = (FixedWidthId.writeBeBytes (ofLex b).1).length := by
      rw [LawfulFixedWidthId.length_writeBeBytes, LawfulFixedWidthId.length_writeBeBytes]
    rw [Prod.Lex.lt_iff]
    simp only [FixedWidthId.writeBeBytes]
    rw [Digits.append_lt_append hlength, OrderedFixedWidthId.writeBeBytes_lt,
      FixedWidthId.writeBeBytes_inj, OrderedFixedWidthId.writeBeBytes_lt]
  writeHex_lt a b := by
    have hlength : (FixedWidthId.writeHex (ofLex a).1).length
        = (FixedWidthId.writeHex (ofLex b).1).length := by
      rw [(isCanonicalHex_iff.mp (LawfulFixedWidthId.canonical (ofLex a).1)).1,
        (isCanonicalHex_iff.mp (LawfulFixedWidthId.canonical (ofLex b).1)).1]
    rw [Prod.Lex.lt_iff]
    simp only [FixedWidthId.writeHex]
    rw [Digits.append_lt_append hlength, OrderedFixedWidthId.writeHex_lt,
      FixedWidthId.writeHex_inj, OrderedFixedWidthId.writeHex_lt]

end OisyTrade
