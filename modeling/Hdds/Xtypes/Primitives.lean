import Mathlib
import Hdds.Foundations.Bytes
import Hdds.Ser.Cdr2

/-! # CDR2 primitives of the type-object codec

`xtypes/cdr2/primitives.rs` and `xtypes/cdr2/helpers.rs`.

* An encoder writes into a caller's `&mut [u8]` of length `dst` from its offset 0. Its state is
  the list of its writes so far, whose length is the offset: the bytes it steps over to align
  are `none` and keep what the buffer held. `Ok(n)` is a list of writes of length `n`.
* A decoder reads `src` from an offset and returns the value with the offset after it.
* `Fault` is how a call ends without a value: the `Err` the code returns, or the panic of a
  range `&src[offset..]` (or `&mut dst[offset..]`) that starts past the end. One more fault
  belongs to the model: the end of the fuel that bounds the nesting of inline type objects.
-/

namespace Hdds.Xtypes
open Wire
open Hdds.Ser (CdrError utf8Bytes)
set_option autoImplicit false

/-- How a call of the codec ends without a value. -/
inductive Fault
  | err (e : CdrError)
  | sliceOutOfRange
  | fuelExhausted
deriving DecidableEq, Repr

/-- The writes of an encoder, from its offset 0. -/
abbrev Writes := List (Option UInt8)

/-- `align_offset`: `(offset + alignment - 1) & !(alignment - 1)`, which for the powers of two
the code passes rounds up to a multiple of `alignment`. -/
def alignOffset (offset alignment : ℕ) : ℕ := (offset + alignment - 1) / alignment * alignment

/-- The writes with the offset moved up to `alignOffset`. -/
def pad (w : Writes) (alignment : ℕ) : Writes :=
  w ++ List.replicate (alignOffset w.length alignment - w.length) none

/-! ## Encoding -/

/-- `encode_u8`. -/
def encodeU8 (value : UInt8) (dst : ℕ) (w : Writes) : Except Fault Writes :=
  if dst ≤ w.length then .error (.err .bufferTooSmall) else .ok (w ++ [some value])

/-- `encode_u16`, `encode_u32` and `encode_i32`: align to the width, check, and write the value's
`to_le_bytes`. -/
def encodeLe (width value : ℕ) (dst : ℕ) (w : Writes) : Except Fault Writes :=
  if dst < alignOffset w.length width + width then .error (.err .bufferTooSmall)
  else .ok (pad w width ++ (toLE width value).map some)

/-- `encode_u16`. -/
def encodeU16 (value : UInt16) : ℕ → Writes → Except Fault Writes := encodeLe 2 value.toNat

/-- `encode_i16`. -/
def encodeI16 (value : Int16) : ℕ → Writes → Except Fault Writes :=
  encodeLe 2 value.toUInt16.toNat

/-- `encode_u32`. -/
def encodeU32 (value : UInt32) : ℕ → Writes → Except Fault Writes := encodeLe 4 value.toNat

/-- `encode_i32`. -/
def encodeI32 (value : Int32) : ℕ → Writes → Except Fault Writes :=
  encodeLe 4 value.toUInt32.toNat

/-- `encode_bool`. -/
def encodeBool (value : Bool) : ℕ → Writes → Except Fault Writes := encodeU8 (cond value 1 0)

/-- `dst[offset..offset + n].copy_from_slice(bytes)` after the check `offset + n > dst.len()`. -/
def encodeBytes (bytes : List UInt8) (dst : ℕ) (w : Writes) : Except Fault Writes :=
  if dst < w.length + bytes.length then .error (.err .bufferTooSmall)
  else .ok (w ++ bytes.map some)

/-- A `u32` length: `u32::try_from(len)` fails with `msg`. -/
def encodeLength (len : ℕ) (msg : String) (dst : ℕ) (w : Writes) : Except Fault Writes :=
  if 2 ^ 32 ≤ len then .error (.err (.other msg)) else encodeU32 (UInt32.ofNat len) dst w

/-- `encode_string`: the length with the terminator, the bytes, and the terminator. -/
def encodeString (value : String) (dst : ℕ) (w : Writes) : Except Fault Writes :=
  let bytes := utf8Bytes value
  if 2 ^ 32 ≤ bytes.length + 1 then .error (.err (.other "String too long for CDR2 encoding"))
  else encodeU32 (UInt32.ofNat (bytes.length + 1)) dst w >>= encodeBytes (bytes ++ [0]) dst

/-- `encode_option`. -/
def encodeOption {α : Type} (value : Option α) (encodeFn : α → ℕ → Writes → Except Fault Writes)
    (dst : ℕ) (w : Writes) : Except Fault Writes :=
  match value with
  | none => encodeBool false dst w
  | some v => encodeBool true dst w >>= encodeFn v dst

/-- The loop of `encode_vec`: each element at an offset aligned to 4. -/
def encodeElems {α : Type} (encodeFn : α → ℕ → Writes → Except Fault Writes) (dst : ℕ) :
    List α → Writes → Except Fault Writes
  | [], w => .ok w
  | a :: l, w => encodeFn a dst (pad w 4) >>= encodeElems encodeFn dst l

/-- A loop `for item in seq { encode(item, dst, &mut offset)?; }`: the values written one after
another, with no alignment between them. -/
def encodeRepeat {α : Type} (encodeFn : α → ℕ → Writes → Except Fault Writes) (dst : ℕ) :
    List α → Writes → Except Fault Writes
  | [], w => .ok w
  | a :: l, w => encodeFn a dst w >>= encodeRepeat encodeFn dst l

/-- `encode_vec`. -/
def encodeVec {α : Type} (vec : List α) (encodeFn : α → ℕ → Writes → Except Fault Writes)
    (dst : ℕ) (w : Writes) : Except Fault Writes :=
  encodeLength vec.length "Vector too long for CDR2 encoding" dst w >>= encodeElems encodeFn dst vec

/-- `let len = f(&mut dst[offset..])?; offset += len`: an encoder run on the rest of the buffer. -/
def encodeAt (f : ℕ → Except Fault Writes) (dst : ℕ) (w : Writes) : Except Fault Writes :=
  if dst < w.length then .error .sliceOutOfRange else (f (dst - w.length)).map (w ++ ·)

/-- `encode_fields_sequential`: each field encoder on the rest of the buffer, in order. -/
def encodeFieldsSequential (dst : ℕ) (encoders : List (ℕ → Except Fault Writes)) :
    Except Fault Writes :=
  encoders.foldlM (fun w f => encodeAt f dst w) []

/-! ## Decoding -/

/-- `decode_u8`. -/
def decodeU8 (src : List UInt8) (offset : ℕ) : Except Fault (UInt8 × ℕ) :=
  if src.length ≤ offset then .error (.err .unexpectedEof) else .ok (src.getD offset 0, offset + 1)

/-- `decode_u16`, `decode_u32` and `decode_i32`: align to the width, check, and read the
`from_le_bytes` value. -/
def decodeLe (width : ℕ) (src : List UInt8) (offset : ℕ) : Except Fault (ℕ × ℕ) :=
  let offset := alignOffset offset width
  if src.length < offset + width then .error (.err .unexpectedEof)
  else .ok (ofLE (field src offset width), offset + width)

/-- `decode_u16`. -/
def decodeU16 (src : List UInt8) (offset : ℕ) : Except Fault (UInt16 × ℕ) :=
  (decodeLe 2 src offset).map fun r => (UInt16.ofNat r.1, r.2)

/-- `decode_u32`. -/
def decodeU32 (src : List UInt8) (offset : ℕ) : Except Fault (UInt32 × ℕ) :=
  (decodeLe 4 src offset).map fun r => (UInt32.ofNat r.1, r.2)

/-- `decode_i16`. -/
def decodeI16 (src : List UInt8) (offset : ℕ) : Except Fault (Int16 × ℕ) :=
  (decodeLe 2 src offset).map fun r => ((UInt16.ofNat r.1).toInt16, r.2)

/-- `decode_i32`. -/
def decodeI32 (src : List UInt8) (offset : ℕ) : Except Fault (Int32 × ℕ) :=
  (decodeLe 4 src offset).map fun r => ((UInt32.ofNat r.1).toInt32, r.2)

/-- `decode_bool`. -/
def decodeBool (src : List UInt8) (offset : ℕ) : Except Fault (Bool × ℕ) :=
  (decodeU8 src offset).map fun r => (r.1 != 0, r.2)

theorem length_field_of_not_lt {src : List UInt8} {offset n : ℕ}
    (h : ¬src.length < offset + n) : (field src offset n).length = n := by
  simp only [field, List.length_take, List.length_drop]
  omega

/-- `src[offset..offset + n].try_into()` as a `[u8; n]`, after the check `offset + n > src.len()`. -/
def decodeByteArr (n : ℕ) (src : List UInt8) (offset : ℕ) : Except Fault (ByteArr n × ℕ) :=
  if h : src.length < offset + n then .error (.err .unexpectedEof)
  else .ok (⟨field src offset n, length_field_of_not_lt h⟩, offset + n)

/-- `decode_string`: a length of 0 is the empty string; otherwise the bytes before the
terminator, which must be UTF-8. -/
def decodeString (src : List UInt8) (offset : ℕ) : Except Fault (String × ℕ) := do
  let (len, offset) ← decodeU32 src offset
  if len.toNat = 0 then return ("", offset)
  if src.length < offset + len.toNat then throw (.err .unexpectedEof)
  match String.fromUTF8? ⟨(field src offset (len.toNat - 1)).toArray⟩ with
  | none => throw (.err .invalidEncoding)
  | some s => return (s, offset + len.toNat)

/-- `decode_option`. -/
def decodeOption {α : Type} (decodeFn : List UInt8 → ℕ → Except Fault (α × ℕ))
    (src : List UInt8) (offset : ℕ) : Except Fault (Option α × ℕ) := do
  let (present, offset) ← decodeBool src offset
  if present then
    let (v, offset) ← decodeFn src offset
    return (some v, offset)
  else return (none, offset)

/-- `MAX_SEQUENCE_LENGTH`. -/
def maxSequenceLength : ℕ := 1000000

/-- `checked_usize`. -/
def checkedUsize (value : UInt32) (context : String) : Except Fault ℕ :=
  if maxSequenceLength < value.toNat then
    .error (.err (.other (context ++ " exceeds maximum allowed (" ++
      toString maxSequenceLength ++ ")")))
  else .ok value.toNat

/-- The loop of `decode_member_sequence`: `count` elements, each at an offset aligned to 4. -/
def decodeElems {α : Type} (decodeFn : List UInt8 → ℕ → Except Fault (α × ℕ))
    (src : List UInt8) : ℕ → ℕ → Except Fault (List α × ℕ)
  | 0, offset => .ok ([], offset)
  | count + 1, offset => do
    let (a, offset) ← decodeFn src (alignOffset offset 4)
    let (l, offset) ← decodeElems decodeFn src count offset
    return (a :: l, offset)

/-- A loop `for _ in 0..count { seq.push(decode(src, &mut offset)?) }`: `count` values read
one after another, with no alignment between them. -/
def decodeRepeat {α : Type} (decodeFn : List UInt8 → ℕ → Except Fault (α × ℕ))
    (src : List UInt8) : ℕ → ℕ → Except Fault (List α × ℕ)
  | 0, offset => .ok ([], offset)
  | count + 1, offset => do
    let (a, offset) ← decodeFn src offset
    let (l, offset) ← decodeRepeat decodeFn src count offset
    return (a :: l, offset)

/-- The sequences the type decoders read themselves: a `u32` length, `checked_usize` with the
loop's own `context`, and the elements, each at an offset aligned to 4. -/
def decodeCheckedSeq {α : Type} (context : String)
    (decodeFn : List UInt8 → ℕ → Except Fault (α × ℕ)) (src : List UInt8) (offset : ℕ) :
    Except Fault (List α × ℕ) := do
  let (len, offset) ← decodeU32 src offset
  let count ← checkedUsize len context
  decodeElems decodeFn src count offset

/-- `decode_member_sequence`. -/
def decodeMemberSequence {α : Type} (decodeFn : List UInt8 → ℕ → Except Fault (α × ℕ))
    (src : List UInt8) (offset : ℕ) : Except Fault (List α × ℕ) := do
  let (len, offset) ← decodeU32 src offset
  let count ← checkedUsize len "member sequence length"
  decodeElems decodeFn src count offset

/-- `let (v, used) = T::decode_cdr2_le(&src[offset..])?; offset += used` (the shape of
`decode_detail_with_reencoding`). -/
def decodeAt {α : Type} (decode : List UInt8 → Except Fault (α × ℕ)) (src : List UInt8)
    (offset : ℕ) : Except Fault (α × ℕ) :=
  if src.length < offset then .error .sliceOutOfRange
  else (decode (src.drop offset)).map fun r => (r.1, offset + r.2)

/-- The shape of the `decode_*_internal` helpers of a member, a literal, a flag or a header: the
first part from the offset, then a detail through `decode_cdr2_le` on the rest of the slice. -/
def decodeThenAt {α β γ : Type} (first : List UInt8 → ℕ → Except Fault (α × ℕ))
    (detail : List UInt8 → Except Fault (β × ℕ)) (mk : α → β → γ) (src : List UInt8)
    (offset : ℕ) : Except Fault (γ × ℕ) := do
  let (a, offset) ← first src offset
  let (b, offset) ← decodeAt detail src offset
  return (mk a b, offset)

/-! ## Alignment -/

theorem alignOffset_of_dvd {offset alignment : ℕ} (ha : 0 < alignment) (h : alignment ∣ offset) :
    alignOffset offset alignment = offset := by
  obtain ⟨k, rfl⟩ := h
  unfold alignOffset
  rw [show alignment * k + alignment - 1 = (alignment - 1) + alignment * k by omega,
    Nat.add_mul_div_left _ _ ha, Nat.div_eq_of_lt (by omega), Nat.zero_add, Nat.mul_comm]

theorem le_alignOffset (offset : ℕ) {alignment : ℕ} (ha : 0 < alignment) :
    offset ≤ alignOffset offset alignment := by
  unfold alignOffset
  have := Nat.lt_div_mul_add (a := offset + alignment - 1) ha
  omega

/-! ## Writing -/

theorem encodeU8_of_lt {value : UInt8} {dst : ℕ} {w : Writes} (h : w.length < dst) :
    encodeU8 value dst w = .ok (w ++ [some value]) := by
  rw [encodeU8, if_neg (by omega)]

theorem encodeLe_of_le {width value dst : ℕ} {w : Writes}
    (h : alignOffset w.length width + width ≤ dst) :
    encodeLe width value dst w = .ok (pad w width ++ (toLE width value).map some) := by
  rw [encodeLe, if_neg (by omega)]

theorem encodeBytes_of_le {bytes : List UInt8} {dst : ℕ} {w : Writes}
    (h : w.length + bytes.length ≤ dst) : encodeBytes bytes dst w = .ok (w ++ bytes.map some) := by
  rw [encodeBytes, if_neg (by omega)]

theorem encodeU8_eq_ok {value : UInt8} {dst : ℕ} {w w' : Writes}
    (h : encodeU8 value dst w = .ok w') : w' = w ++ [some value] ∧ w.length < dst := by
  unfold encodeU8 at h
  split at h
  · cases h
  · cases h
    exact ⟨rfl, by omega⟩

theorem encodeLe_eq_ok {width value dst : ℕ} {w w' : Writes}
    (h : encodeLe width value dst w = .ok w') :
    w' = pad w width ++ (toLE width value).map some ∧ alignOffset w.length width + width ≤ dst := by
  unfold encodeLe at h
  split at h
  · cases h
  · cases h
    exact ⟨rfl, by omega⟩

theorem encodeBytes_eq_ok {bytes : List UInt8} {dst : ℕ} {w w' : Writes}
    (h : encodeBytes bytes dst w = .ok w') :
    w' = w ++ bytes.map some ∧ w.length + bytes.length ≤ dst := by
  unfold encodeBytes at h
  split at h
  · cases h
  · cases h
    exact ⟨rfl, by omega⟩

theorem encodeAt_eq_ok {f : ℕ → Except Fault Writes} {dst : ℕ} {w w' : Writes}
    (h : encodeAt f dst w = .ok w') :
    ∃ w₁, f (dst - w.length) = .ok w₁ ∧ w' = w ++ w₁ ∧ w.length ≤ dst := by
  unfold encodeAt at h
  split at h
  · cases h
  · cases hf : f (dst - w.length) with
    | error e => rw [hf] at h; cases h
    | ok w₁ =>
      rw [hf] at h
      cases h
      exact ⟨w₁, rfl, rfl, by omega⟩

theorem encodeAt_of_ok {f : ℕ → Except Fault Writes} {dst : ℕ} {w w₁ : Writes}
    (hw : w.length ≤ dst) (h : f (dst - w.length) = .ok w₁) : encodeAt f dst w = .ok (w ++ w₁) := by
  rw [encodeAt, if_neg (by omega), h]
  rfl

theorem encodeAt_of_error {f : ℕ → Except Fault Writes} {dst : ℕ} {w : Writes} {e : Fault}
    (hw : w.length ≤ dst) (h : f (dst - w.length) = .error e) : encodeAt f dst w = .error e := by
  rw [encodeAt, if_neg (by omega), h]
  rfl

/-! ## Reading -/

theorem decodeU8_of_lt {src : List UInt8} {offset : ℕ} (h : offset < src.length) :
    decodeU8 src offset = .ok (src.getD offset 0, offset + 1) := by
  rw [decodeU8, if_neg (by omega)]

theorem decodeU8_of_le {src : List UInt8} {offset : ℕ} (h : src.length ≤ offset) :
    decodeU8 src offset = .error (.err .unexpectedEof) := by
  rw [decodeU8, if_pos h]

theorem decodeLe_of_le {width : ℕ} {src : List UInt8} {offset : ℕ}
    (h : alignOffset offset width + width ≤ src.length) :
    decodeLe width src offset =
      .ok (ofLE (field src (alignOffset offset width) width), alignOffset offset width + width) := by
  rw [decodeLe, if_neg (by omega)]

theorem decodeAt_of_le {α : Type} (decode : List UInt8 → Except Fault (α × ℕ)) {src : List UInt8}
    {offset : ℕ} (h : offset ≤ src.length) :
    decodeAt decode src offset = (decode (src.drop offset)).map fun r => (r.1, offset + r.2) := by
  rw [decodeAt, if_neg (by omega)]

theorem decodeAt_of_lt {α : Type} (decode : List UInt8 → Except Fault (α × ℕ)) {src : List UInt8}
    {offset : ℕ} (h : src.length < offset) : decodeAt decode src offset = .error .sliceOutOfRange := by
  rw [decodeAt, if_pos h]

theorem checkedUsize_of_le {value : UInt32} (context : String) (h : value.toNat ≤ maxSequenceLength) :
    checkedUsize value context = .ok value.toNat := by
  rw [checkedUsize, if_neg (by omega)]

theorem lt_alignOffset {offset alignment : ℕ} (ha : 0 < alignment) (h : ¬alignment ∣ offset) :
    offset < alignOffset offset alignment := by
  have hdvd : alignment ∣ alignOffset offset alignment := Nat.dvd_mul_left _ _
  rcases Nat.lt_or_eq_of_le (le_alignOffset offset ha) with hlt | heq
  · exact hlt
  · exact absurd (heq ▸ hdvd) h

/-! ## Reading a value back at its own offset -/

theorem decodeU8_append (pre : List UInt8) (b : UInt8) (rest : List UInt8) :
    decodeU8 (pre ++ b :: rest) pre.length = .ok (b, pre.length + 1) := by
  rw [decodeU8_of_lt (by simp)]
  simp [List.getD_eq_getElem?_getD]

/-- A value read at an offset that aligns to where its bytes start. -/
theorem decodeLe_toLE {width offset : ℕ} (pre rest : List UInt8) (value : ℕ)
    (h : alignOffset offset width = pre.length) :
    decodeLe width (pre ++ toLE width value ++ rest) offset =
      .ok (ofLE (toLE width value), pre.length + width) := by
  have hfield := field_append_self pre (toLE width value) rest
  rw [length_toLE] at hfield
  rw [decodeLe_of_le (by simp [h]), h, hfield]

theorem decodeU16_toLE {offset : ℕ} (pre rest : List UInt8) (value : UInt16)
    (h : alignOffset offset 2 = pre.length) :
    decodeU16 (pre ++ toLE 2 value.toNat ++ rest) offset = .ok (value, pre.length + 2) := by
  rw [decodeU16, decodeLe_toLE pre rest _ h, ofLE_toLE_of_lt (by simpa using value.toNat_lt)]
  simp only [Except.map, UInt16.ofNat_toNat]

theorem decodeU32_toLE {offset : ℕ} (pre rest : List UInt8) (value : UInt32)
    (h : alignOffset offset 4 = pre.length) :
    decodeU32 (pre ++ toLE 4 value.toNat ++ rest) offset = .ok (value, pre.length + 4) := by
  rw [decodeU32, decodeLe_toLE pre rest _ h, ofLE_toLE_of_lt (by simpa using value.toNat_lt)]
  simp only [Except.map, UInt32.ofNat_toNat]

theorem decodeI32_toLE {offset : ℕ} (pre rest : List UInt8) (value : Int32)
    (h : alignOffset offset 4 = pre.length) :
    decodeI32 (pre ++ toLE 4 value.toUInt32.toNat ++ rest) offset = .ok (value, pre.length + 4) := by
  rw [decodeI32, decodeLe_toLE pre rest _ h,
    ofLE_toLE_of_lt (by simpa using value.toUInt32.toNat_lt)]
  simp only [Except.map, UInt32.ofNat_toNat]
  simp

theorem decodeByteArr_append {n : ℕ} (pre rest : List UInt8) (a : ByteArr n) :
    decodeByteArr n (pre ++ a.bytes ++ rest) pre.length = .ok (a, pre.length + n) := by
  have hfield := field_append_self pre a.bytes rest
  rw [a.length_eq] at hfield
  rw [decodeByteArr, dif_neg (by simp [a.length_eq])]
  congr

end Hdds.Xtypes
