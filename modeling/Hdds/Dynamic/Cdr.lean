import Mathlib
import Hdds.Foundations.Bytes
import Hdds.Foundations.Cursor
import Hdds.Foundations.Utf16
import Hdds.Xtypes.Primitives
import Hdds.Dynamic.Types

/-! # CDR of dynamic values

`dynamic/cdr_dynamic.rs`: `CdrEncoder` and `CdrDecoder`, which write and read a
`DynamicValue` against the `TypeKind` of its descriptor, little-endian, each field aligned to
its size from the start of the buffer.

* The encoder's state is its buffer: `encodeValue value kind buffer` is the buffer after
  `encode_value`, or the error it returned.
* The decoder's state is its offset into a fixed buffer: `decodeValue kind buffer offset` is
  the value and the offset after it.
* The recursion over the descriptor is structural: the cases of a union are searched by
  `encodeCase` and `decodeCase`, and the default case is read off the descriptor, so that
  each recursive call is on a part of the kind; `encodeValue_union` and `decodeValue_union`
  restate both through `case_by_discriminator`, as the code has them.
-/

namespace Hdds.Dynamic
open Wire
open Hdds.Ser (utf8Bytes)
set_option autoImplicit false

/-- `if let Some(max) = max_length { if n > max { .. } }`. -/
def exceedsBound (maxLength : Option ℕ) (n : ℕ) : Bool :=
  match maxLength with
  | some max => decide (n > max)
  | none => false

/-! ## Encoder -/

namespace CdrEncoder

/-- `CdrEncoder::align`: zeros up to the next multiple of `alignment`. -/
def align (buffer : List UInt8) (alignment : ℕ) : List UInt8 :=
  buffer ++ List.replicate ((alignment - buffer.length % alignment) % alignment) 0

/-- `self.align(width); self.buffer.extend(&v.to_le_bytes())` for a `width`-byte integer. -/
def writeLe (buffer : List UInt8) (width n : ℕ) : List UInt8 :=
  align buffer width ++ toLE width n

/-- `CdrEncoder::encode_primitive`. -/
def encodePrimitive (value : DynamicValue) (kind : PrimitiveKind) (buffer : List UInt8) :
    Except DynamicCdrError (List UInt8) :=
  match value, kind with
  | .bool v, .bool => .ok (buffer ++ [if v then 1 else 0])
  | .u8 v, .u8 => .ok (buffer ++ [v])
  | .u16 v, .u16 => .ok (writeLe buffer 2 v.toNat)
  | .u32 v, .u32 => .ok (writeLe buffer 4 v.toNat)
  | .u64 v, .u64 => .ok (writeLe buffer 8 v.toNat)
  | .i8 v, .i8 => .ok (buffer ++ [v.toUInt8])
  | .i16 v, .i16 => .ok (writeLe buffer 2 v.toUInt16.toNat)
  | .i32 v, .i32 => .ok (writeLe buffer 4 v.toUInt32.toNat)
  | .i64 v, .i64 => .ok (writeLe buffer 8 v.toUInt64.toNat)
  | .f32 bits, .f32 => .ok (writeLe buffer 4 bits.toNat)
  | .f64 bits, .f64 => .ok (writeLe buffer 8 bits.toNat)
  | .longDouble v, .longDouble => .ok (align buffer longDoubleAlign ++ v.bytes)
  -- `*v as u8` keeps the low byte of the scalar value
  | .char c, .char => .ok (buffer ++ [UInt8.ofNat c.toNat])
  | .string s, .string maxLength =>
    if exceedsBound maxLength (utf8Bytes s).length then
      .error (.invalidData "string exceeds bound")
    else
      -- the length counts the terminating zero
      .ok (writeLe buffer 4 ((utf8Bytes s).length + 1) ++ utf8Bytes s ++ [0])
  | .wstring s, .wstring maxLength =>
    if exceedsBound maxLength (Utf16.encode s.toList).length then
      .error (.invalidData "wstring exceeds bound")
    else
      .ok (writeLe buffer 4 ((Utf16.encode s.toList).length + 1) ++
        (Utf16.encode s.toList).flatMap (fun c => toLE 2 c.toNat) ++ toLE 2 0)
  | value, kind => .error (.typeMismatch kind.debug value)

theorem encodePrimitive_string (s : String) (maxLength : Option ℕ) (buffer : List UInt8) :
    encodePrimitive (.string s) (.string maxLength) buffer =
      if exceedsBound maxLength (utf8Bytes s).length then
        .error (.invalidData "string exceeds bound")
      else .ok (writeLe buffer 4 ((utf8Bytes s).length + 1) ++ utf8Bytes s ++ [0]) := rfl

theorem encodePrimitive_wstring (s : String) (maxLength : Option ℕ) (buffer : List UInt8) :
    encodePrimitive (.wstring s) (.wstring maxLength) buffer =
      if exceedsBound maxLength (Utf16.encode s.toList).length then
        .error (.invalidData "wstring exceeds bound")
      else .ok (writeLe buffer 4 ((Utf16.encode s.toList).length + 1) ++
        (Utf16.encode s.toList).flatMap (fun c => toLE 2 c.toNat) ++ toLE 2 0) := rfl

mutual

/-- `CdrEncoder::encode_value`: the kind is matched first, then the value against it. -/
def encodeValue : DynamicValue → TypeKind → List UInt8 → Except DynamicCdrError (List UInt8)
  | value, .primitive p, buffer => encodePrimitive value p buffer
  | value, .struct fields, buffer =>
    match value with
    | .struct map => encodeFields map fields buffer
    | _ => .error (.typeMismatch "struct" value)
  | value, .sequence elementType, buffer =>
    match value with
    | .sequence vec =>
      vec.foldlM (fun buffer elem => encodeValue elem elementType buffer)
        (writeLe buffer 4 vec.length)
    | _ => .error (.typeMismatch "sequence" value)
  | value, .array elementType length, buffer =>
    match value with
    | .array vec =>
      if vec.length ≠ length then
        .error (.invalidData ("Array length mismatch: expected " ++ toString length ++ ", got " ++
          toString vec.length))
      else vec.foldlM (fun buffer elem => encodeValue elem elementType buffer) buffer
    | _ => .error (.typeMismatch "array" value)
  | value, .enum _, buffer =>
    match value with
    | .enum val _ => .ok (writeLe buffer 4 val.toUInt64.toUInt32.toNat)
    | _ => .error (.typeMismatch "enum" value)
  | value, .union discriminator cases defaultCase, buffer =>
    match value with
    | .union disc _ inner => do
      -- the discriminator is written as an `I64`, whatever the kind of the discriminator
      let buffer ← encodeValue (.i64 disc) discriminator buffer
      match encodeCase inner cases disc buffer with
      | some r => r
      | none =>
        match defaultCase with
        | some ⟨_, _, typeDesc⟩ => encodeValue inner typeDesc buffer
        | none => .ok buffer
    | _ => .error (.typeMismatch "union" value)
  | value, .nested inner, buffer => encodeValue value inner buffer

/-- The loop over the fields of a struct: each is looked up in the map by its name. -/
def encodeFields : List (String × DynamicValue) → List (FieldDescriptor TypeKind) → List UInt8 →
    Except DynamicCdrError (List UInt8)
  | _, [], buffer => .ok buffer
  | map, ⟨name, typeDesc⟩ :: fields, buffer =>
    match map.lookup name with
    | none => .error (.invalidData ("Missing field: " ++ name))
    | some fieldValue => encodeValue fieldValue typeDesc buffer >>= encodeFields map fields

/-- The search of `case_by_discriminator` through the cases, writing the value of the first
case with the label; `none` when no case has it. -/
def encodeCase : DynamicValue → List (UnionCase TypeKind) → Int64 → List UInt8 →
    Option (Except DynamicCdrError (List UInt8))
  | _, [], _, _ => none
  | inner, ⟨_, labels, typeDesc⟩ :: cases, disc, buffer =>
    if labels.contains disc then some (encodeValue inner typeDesc buffer)
    else encodeCase inner cases disc buffer

end

end CdrEncoder

/-- `encode_dynamic`. -/
def encodeDynamic (value : DynamicValue) (kind : TypeKind) : Except DynamicCdrError (List UInt8) :=
  CdrEncoder.encodeValue value kind []

/-! ## Decoder -/

namespace CdrDecoder

/-- `CdrDecoder::align`: `(offset + alignment - 1) & !(alignment - 1)`, which for the powers of
two the code passes rounds up to a multiple of `alignment`. -/
def align (offset alignment : ℕ) : ℕ := (offset + alignment - 1) / alignment * alignment

/-- `CdrDecoder::read_bytes`. -/
def readBytes (buffer : List UInt8) (offset count : ℕ) :
    Except DynamicCdrError (List UInt8 × ℕ) :=
  if offset + count > buffer.length then
    .error (.bufferTooSmall count (buffer.length - offset))
  else .ok (field buffer offset count, offset + count)

/-- `let bytes = self.read_bytes(1)?; bytes[0]`. -/
def readByte (buffer : List UInt8) (offset : ℕ) : Except DynamicCdrError (UInt8 × ℕ) := do
  let (bytes, offset) ← readBytes buffer offset 1
  pure (bytes.headD 0, offset)

/-- `self.align(width); let bytes = self.read_bytes(width)?; from_le_bytes(bytes)`, as a
natural. -/
def readLe (buffer : List UInt8) (offset width : ℕ) : Except DynamicCdrError (ℕ × ℕ) := do
  let (bytes, offset) ← readBytes buffer (align offset width) width
  pure (ofLE bytes, offset)

/-- `read_bytes(n)` copied into a `[u8; n]`. -/
def readArray (buffer : List UInt8) (offset n : ℕ) :
    Except DynamicCdrError (ByteArr n × ℕ) :=
  if h : offset + n > buffer.length then
    .error (.bufferTooSmall n (buffer.length - offset))
  else .ok (⟨field buffer offset n, Hdds.Xtypes.length_field_of_not_lt h⟩, offset + n)

/-- The `for _ in 0..len` loop of a wide string: `len` little-endian UTF-16 units. -/
def readUnits (buffer : List UInt8) : ℕ → ℕ → Except DynamicCdrError (List UInt16 × ℕ)
  | 0, offset => .ok ([], offset)
  | n + 1, offset => do
    let (bytes, offset) ← readBytes buffer offset 2
    let (units, offset) ← readUnits buffer n offset
    pure (UInt16.ofNat (ofLE bytes) :: units, offset)

/-- The `String` arm of `CdrDecoder::decode_primitive`. -/
def decodeString (maxLength : Option ℕ) (buffer : List UInt8) (offset : ℕ) :
    Except DynamicCdrError (DynamicValue × ℕ) := do
  let (len, offset) ← readLe buffer offset 4
  if exceedsBound (maxLength.map (· + 1)) len then throw (.invalidData "string exceeds bound")
  if len = 0 then return (.string "", offset)
  let (strBytes, offset) ← readBytes buffer offset len
  -- a last byte of zero is the terminator
  let actualLen := if strBytes.getD (len - 1) 0 = 0 then len - 1 else len
  match String.fromUTF8? ⟨(strBytes.take actualLen).toArray⟩ with
  | some s => pure (.string s, offset)
  | none => throw (.utf8Error (strBytes.take actualLen))

/-- The `WString` arm of `CdrDecoder::decode_primitive`. -/
def decodeWString (maxLength : Option ℕ) (buffer : List UInt8) (offset : ℕ) :
    Except DynamicCdrError (DynamicValue × ℕ) := do
  let (len, offset) ← readLe buffer offset 4
  if exceedsBound (maxLength.map (· + 1)) len then throw (.invalidData "wstring exceeds bound")
  if len = 0 then return (.wstring "", offset)
  let (chars, offset) ← readUnits buffer len offset
  -- a last unit of zero is the terminator
  let chars := if chars.getLast? = some 0 then chars.dropLast else chars
  match Utf16.decode chars with
  | some cs => pure (.wstring (String.ofList cs), offset)
  | none => throw (.invalidData "Invalid UTF-16")

/-- `CdrDecoder::decode_primitive`. -/
def decodePrimitive (kind : PrimitiveKind) (buffer : List UInt8) (offset : ℕ) :
    Except DynamicCdrError (DynamicValue × ℕ) :=
  match kind with
  | .bool => do
    let (b, offset) ← readByte buffer offset
    pure (.bool (b != 0), offset)
  | .u8 => do
    let (b, offset) ← readByte buffer offset
    pure (.u8 b, offset)
  | .u16 => do
    let (n, offset) ← readLe buffer offset 2
    pure (.u16 (UInt16.ofNat n), offset)
  | .u32 => do
    let (n, offset) ← readLe buffer offset 4
    pure (.u32 (UInt32.ofNat n), offset)
  | .u64 => do
    let (n, offset) ← readLe buffer offset 8
    pure (.u64 (UInt64.ofNat n), offset)
  | .i8 => do
    let (b, offset) ← readByte buffer offset
    pure (.i8 b.toInt8, offset)
  | .i16 => do
    let (n, offset) ← readLe buffer offset 2
    pure (.i16 (UInt16.ofNat n).toInt16, offset)
  | .i32 => do
    let (n, offset) ← readLe buffer offset 4
    pure (.i32 (UInt32.ofNat n).toInt32, offset)
  | .i64 => do
    let (n, offset) ← readLe buffer offset 8
    pure (.i64 (UInt64.ofNat n).toInt64, offset)
  | .f32 => do
    let (n, offset) ← readLe buffer offset 4
    pure (.f32 (UInt32.ofNat n), offset)
  | .f64 => do
    let (n, offset) ← readLe buffer offset 8
    pure (.f64 (UInt64.ofNat n), offset)
  | .longDouble => do
    let (v, offset) ← readArray buffer (align offset longDoubleAlign) longDoubleSize
    pure (.longDouble v, offset)
  -- `bytes[0] as char` is the scalar value of the byte
  | .char => do
    let (b, offset) ← readByte buffer offset
    pure (.char (Char.ofNat b.toNat), offset)
  | .string maxLength => decodeString maxLength buffer offset
  | .wstring maxLength => decodeWString maxLength buffer offset

/-- The discriminator a union reads: `v as i64` of an `I32`, `U32`, `I64` or `U64`, and `0`
for any other value. -/
def discriminatorOf : DynamicValue → Int64
  | .i32 v => v.toInt64
  | .u32 v => v.toUInt64.toInt64
  | .i64 v => v
  | .u64 v => v.toInt64
  | _ => 0

mutual

/-- `CdrDecoder::decode_value`. -/
def decodeValue : TypeKind → List UInt8 → ℕ → Except DynamicCdrError (DynamicValue × ℕ)
  | .primitive p, buffer, offset => decodePrimitive p buffer offset
  | .struct fields, buffer, offset => do
    let (map, offset) ← decodeFields fields [] buffer offset
    pure (.struct map, offset)
  | .sequence elementType, buffer, offset => do
    let (len, offset) ← readLe buffer offset 4
    let (vec, offset) ← Cursor.times (fun o => decodeValue elementType buffer o) len offset
    pure (.sequence vec, offset)
  | .array elementType length, buffer, offset => do
    let (vec, offset) ← Cursor.times (fun o => decodeValue elementType buffer o) length offset
    pure (.array vec, offset)
  | .enum variants, buffer, offset => do
    let (n, offset) ← readLe buffer offset 4
    -- `u32 as i64`
    let val := Int64.ofNat n
    pure (.enum val (((variantByValue variants val).map (·.name)).getD ""), offset)
  | .union discriminator cases defaultCase, buffer, offset => do
    let (discValue, offset) ← decodeValue discriminator buffer offset
    let disc := discriminatorOf discValue
    match decodeCase cases disc buffer offset with
    | some r => r
    | none =>
      match defaultCase with
      | some ⟨name, _, typeDesc⟩ => do
        let (inner, offset) ← decodeValue typeDesc buffer offset
        pure (.union disc name inner, offset)
      | none => pure (.union disc "" .null, offset)
  | .nested inner, buffer, offset => decodeValue inner buffer offset

/-- The loop over the fields of a struct, inserting each into the map. -/
def decodeFields : List (FieldDescriptor TypeKind) → List (String × DynamicValue) → List UInt8 →
    ℕ → Except DynamicCdrError (List (String × DynamicValue) × ℕ)
  | [], map, _, offset => .ok (map, offset)
  | ⟨name, typeDesc⟩ :: fields, map, buffer, offset => do
    let (value, offset) ← decodeValue typeDesc buffer offset
    decodeFields fields (insertEntry name value map) buffer offset

/-- The search of `case_by_discriminator` through the cases, reading the value of the first
case with the label; `none` when no case has it. -/
def decodeCase : List (UnionCase TypeKind) → Int64 → List UInt8 → ℕ →
    Option (Except DynamicCdrError (DynamicValue × ℕ))
  | [], _, _, _ => none
  | ⟨name, labels, typeDesc⟩ :: cases, disc, buffer, offset =>
    if labels.contains disc then
      some (do
        let (inner, offset) ← decodeValue typeDesc buffer offset
        pure (.union disc name inner, offset))
    else decodeCase cases disc buffer offset

end

end CdrDecoder

/-! ## Unions through `case_by_discriminator` -/

section Unions
open CdrEncoder CdrDecoder

theorem encodeCase_eq (inner : DynamicValue) (cases : List (UnionCase TypeKind)) (disc : Int64)
    (buffer : List UInt8) :
    encodeCase inner cases disc buffer =
      (cases.find? (·.labels.contains disc)).map (fun c => encodeValue inner c.typeDesc buffer) := by
  induction cases with
  | nil => rfl
  | cons c cases ih =>
    obtain ⟨name, labels, typeDesc⟩ := c
    by_cases h : labels.contains disc = true
    · rw [encodeCase, if_pos h, List.find?_cons_of_pos (p := fun c => c.labels.contains disc) (l := cases) h]
      rfl
    · rw [encodeCase, if_neg h, List.find?_cons_of_neg (p := fun c => c.labels.contains disc) (l := cases) h, ih]

theorem decodeCase_eq (cases : List (UnionCase TypeKind)) (disc : Int64) (buffer : List UInt8)
    (offset : ℕ) :
    decodeCase cases disc buffer offset =
      (cases.find? (·.labels.contains disc)).map (fun c => do
        let (inner, offset) ← decodeValue c.typeDesc buffer offset
        pure (.union disc c.name inner, offset)) := by
  induction cases with
  | nil => rfl
  | cons c cases ih =>
    obtain ⟨name, labels, typeDesc⟩ := c
    by_cases h : labels.contains disc = true
    · rw [decodeCase, if_pos h, List.find?_cons_of_pos (p := fun c => c.labels.contains disc) (l := cases) h]
      rfl
    · rw [decodeCase, if_neg h, List.find?_cons_of_neg (p := fun c => c.labels.contains disc) (l := cases) h, ih]

/-- What `encode_value` writes after a union's discriminator: the value under the case that
`case_by_discriminator` selected, and nothing when it selected none. -/
def encodeSelected (inner : DynamicValue) (selected : Option (UnionCase TypeKind))
    (buffer : List UInt8) : Except DynamicCdrError (List UInt8) :=
  match selected with
  | some c => encodeValue inner c.typeDesc buffer
  | none => .ok buffer

/-- What `decode_value` reads after a union's discriminator: the value of the selected case
under its name, and `Null` under the empty name when none was selected. -/
def decodeSelected (disc : Int64) (selected : Option (UnionCase TypeKind)) (buffer : List UInt8)
    (offset : ℕ) : Except DynamicCdrError (DynamicValue × ℕ) :=
  match selected with
  | some c => do
    let (inner, offset) ← decodeValue c.typeDesc buffer offset
    pure (.union disc c.name inner, offset)
  | none => pure (.union disc "" .null, offset)

theorem encodeValue_union (disc : Int64) (caseName : String) (inner : DynamicValue)
    (discriminator : TypeKind) (cases : List (UnionCase TypeKind))
    (defaultCase : Option (UnionCase TypeKind)) (buffer : List UInt8) :
    encodeValue (.union disc caseName inner) (.union discriminator cases defaultCase) buffer =
      (encodeValue (.i64 disc) discriminator buffer >>=
        encodeSelected inner (caseByDiscriminator cases defaultCase disc)) := by
  rw [encodeValue]
  congr 1
  funext b
  rw [encodeCase_eq, caseByDiscriminator]
  cases cases.find? (·.labels.contains disc) with
  | some c => rfl
  | none =>
    cases defaultCase with
    | some c => rfl
    | none => rfl

theorem decodeValue_union (discriminator : TypeKind) (cases : List (UnionCase TypeKind))
    (defaultCase : Option (UnionCase TypeKind)) (buffer : List UInt8) (offset : ℕ) :
    decodeValue (.union discriminator cases defaultCase) buffer offset =
      (decodeValue discriminator buffer offset >>= fun p =>
        decodeSelected (discriminatorOf p.1)
          (caseByDiscriminator cases defaultCase (discriminatorOf p.1)) buffer p.2) := by
  rw [decodeValue]
  congr 1
  funext p
  obtain ⟨discValue, o⟩ := p
  dsimp only
  rw [decodeCase_eq, caseByDiscriminator]
  cases cases.find? (·.labels.contains (discriminatorOf discValue)) with
  | some c => rfl
  | none =>
    cases defaultCase with
    | some c => rfl
    | none => rfl

end Unions

/-- `decode_dynamic`: `DynamicData::from_value` checks nothing, and the bytes after the value
are not looked at. -/
def decodeDynamic (bytes : List UInt8) (kind : TypeKind) : Except DynamicCdrError DynamicValue :=
  (CdrDecoder.decodeValue kind bytes 0).map Prod.fst

end Hdds.Dynamic
