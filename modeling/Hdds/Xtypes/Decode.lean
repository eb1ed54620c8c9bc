import Mathlib
import Hdds.Xtypes.TypeObject
import Hdds.Xtypes.Primitives

/-! # CDR2 decoding of type objects

`xtypes/cdr2/`: `decode_cdr2_le` of the type identifiers and of the type objects of every kind,
and the `decode_*_internal` helpers, which read `src` from an offset.

* The one recursion is an inline type identifier, which decodes a whole `CompleteTypeObject`
  from the rest of its slice. The decoders take that decoder as their argument `decodeObject`,
  and `CompleteTypeObject.decodeFuel` ties the knot. Each nesting reads at least one byte, so
  the length of the input plus one is fuel enough; and every `Err` stops the decoding at once,
  so a result other than `fuelExhausted` is the source's.
* The helpers that read a first part and then a detail from the rest of the slice are
  `decodeThenAt` at their own parts; the enumerated and bitmask decoders hold no type
  identifier and take no `decodeObject`.
-/

namespace Hdds.Xtypes
open Wire
open Hdds.Ser (CdrError)
set_option autoImplicit false

/-- `MinimalMemberDetail::decode_cdr2_le`: the name hash, from the detail's own slice. -/
def MinimalMemberDetail.decodeCdr2Le (src : List UInt8) : Except Fault (UInt32 × ℕ) :=
  decodeU32 src 0

/-- `MinimalTypeDetail::decode_cdr2_le`: the detail is empty and reads nothing. -/
def MinimalTypeDetail.decodeCdr2Le (_ : List UInt8) : Except Fault (Unit × ℕ) := .ok ((), 0)

/-- `decode_common_enumerated_literal_internal`. -/
def decodeCommonEnumeratedLiteralInternal (src : List UInt8) (offset : ℕ) :
    Except Fault (CommonEnumeratedLiteral × ℕ) := do
  let (value, offset) ← decodeI32 src offset
  let (flags, offset) ← decodeU16 src offset
  return (⟨value, flags⟩, offset)

/-- `decode_minimal_enumerated_literal_internal`. -/
def decodeMinimalEnumeratedLiteralInternal :
    List UInt8 → ℕ → Except Fault (MinimalEnumeratedLiteral × ℕ) :=
  decodeThenAt decodeCommonEnumeratedLiteralInternal MinimalMemberDetail.decodeCdr2Le
    MinimalEnumeratedLiteral.mk

/-- `decode_minimal_enumerated_header_internal`: the bit bound. -/
def decodeMinimalEnumeratedHeaderInternal : List UInt8 → ℕ → Except Fault (Int16 × ℕ) :=
  decodeThenAt decodeI16 MinimalTypeDetail.decodeCdr2Le fun bitBound _ => bitBound

/-- `MinimalEnumeratedType::decode_cdr2_le`. -/
def MinimalEnumeratedType.decodeCdr2Le (src : List UInt8) :
    Except Fault (MinimalEnumeratedType × ℕ) := do
  let (bitBound, offset) ← decodeMinimalEnumeratedHeaderInternal src 0
  let (literalSeq, offset) ← decodeCheckedSeq "minimal enumeration literal sequence length"
    decodeMinimalEnumeratedLiteralInternal src offset
  return (⟨bitBound, literalSeq⟩, offset)

/-- `decode_common_bitflag_internal`. -/
def decodeCommonBitflagInternal (src : List UInt8) (offset : ℕ) :
    Except Fault (CommonBitflag × ℕ) := do
  let (position, offset) ← decodeU16 src offset
  let (flags, offset) ← decodeU16 src offset
  return (⟨position, flags⟩, offset)

/-- `decode_minimal_bitflag_internal`. -/
def decodeMinimalBitflagInternal : List UInt8 → ℕ → Except Fault (MinimalBitflag × ℕ) :=
  decodeThenAt decodeCommonBitflagInternal MinimalMemberDetail.decodeCdr2Le MinimalBitflag.mk

/-- `decode_minimal_bitmask_header_internal`: the bit bound. -/
def decodeMinimalBitmaskHeaderInternal : List UInt8 → ℕ → Except Fault (Int16 × ℕ) :=
  decodeThenAt decodeI16 MinimalTypeDetail.decodeCdr2Le fun bitBound _ => bitBound

/-- `MinimalBitmaskType::decode_cdr2_le`. -/
def MinimalBitmaskType.decodeCdr2Le (src : List UInt8) : Except Fault (MinimalBitmaskType × ℕ) := do
  let (bitBound, offset) ← decodeMinimalBitmaskHeaderInternal src 0
  let (flagSeq, offset) ← decodeCheckedSeq "minimal bitflag sequence length"
    decodeMinimalBitflagInternal src offset
  return (⟨bitBound, flagSeq⟩, offset)

section Details

variable {Id : Type}

/-- `CompleteTypeDetail::decode_cdr2_le`: `ann_custom` comes back empty. -/
def CompleteTypeDetail.decodeCdr2Le (src : List UInt8) :
    Except Fault (CompleteTypeDetail Id × ℕ) := do
  let (typeName, offset) ← decodeString src 0
  let (annBuiltin, offset) ← decodeOption (fun src offset => do
    let (verbatim, offset) ← decodeOption decodeString src offset
    return (⟨verbatim⟩, offset)) src offset
  let (annCustom, offset) ← decodeOption (fun src offset => do
    let (_, offset) ← decodeU32 src offset
    return ([], offset)) src offset
  return (⟨typeName, annBuiltin, annCustom⟩, offset)

/-- `CompleteMemberDetail::decode_cdr2_le`: `ann_custom` comes back empty. -/
def CompleteMemberDetail.decodeCdr2Le (src : List UInt8) :
    Except Fault (CompleteMemberDetail Id × ℕ) := do
  let (name, offset) ← decodeString src 0
  let (annBuiltin, offset) ← decodeOption (fun src offset => do
    let (unit, offset) ← decodeOption decodeString src offset
    let (hashId, offset) ← decodeOption decodeString src offset
    return (⟨unit, hashId⟩, offset)) src offset
  let (annCustom, offset) ← decodeOption (fun src offset => do
    let (_, offset) ← decodeU32 src offset
    return ([], offset)) src offset
  return (⟨name, annBuiltin, annCustom⟩, offset)

/-- `decode_complete_enumerated_literal_internal`. -/
def decodeCompleteEnumeratedLiteralInternal :
    List UInt8 → ℕ → Except Fault (CompleteEnumeratedLiteral Id × ℕ) :=
  decodeThenAt decodeCommonEnumeratedLiteralInternal CompleteMemberDetail.decodeCdr2Le
    CompleteEnumeratedLiteral.mk

/-- `decode_complete_enumerated_header_internal`. -/
def decodeCompleteEnumeratedHeaderInternal :
    List UInt8 → ℕ → Except Fault (CompleteEnumeratedHeader Id × ℕ) :=
  decodeThenAt decodeI16 CompleteTypeDetail.decodeCdr2Le CompleteEnumeratedHeader.mk

/-- `CompleteEnumeratedType::decode_cdr2_le`. -/
def CompleteEnumeratedType.decodeCdr2Le (src : List UInt8) :
    Except Fault (CompleteEnumeratedType Id × ℕ) := do
  let (header, offset) ← decodeCompleteEnumeratedHeaderInternal src 0
  let (literalSeq, offset) ← decodeCheckedSeq "enumeration literal sequence length"
    decodeCompleteEnumeratedLiteralInternal src offset
  return (⟨header, literalSeq⟩, offset)

/-- `decode_complete_bitflag_internal`. -/
def decodeCompleteBitflagInternal : List UInt8 → ℕ → Except Fault (CompleteBitflag Id × ℕ) :=
  decodeThenAt decodeCommonBitflagInternal CompleteMemberDetail.decodeCdr2Le CompleteBitflag.mk

/-- `decode_complete_bitmask_header_internal`. -/
def decodeCompleteBitmaskHeaderInternal :
    List UInt8 → ℕ → Except Fault (CompleteBitmaskHeader Id × ℕ) :=
  decodeThenAt decodeI16 CompleteTypeDetail.decodeCdr2Le CompleteBitmaskHeader.mk

/-- `CompleteBitmaskType::decode_cdr2_le`. -/
def CompleteBitmaskType.decodeCdr2Le (src : List UInt8) :
    Except Fault (CompleteBitmaskType Id × ℕ) := do
  let (header, offset) ← decodeCompleteBitmaskHeaderInternal src 0
  let (flagSeq, offset) ← decodeCheckedSeq "bitflag sequence length"
    decodeCompleteBitflagInternal src offset
  return (⟨header, flagSeq⟩, offset)

/-- `decode_complete_collection_header_internal`. -/
def decodeCompleteCollectionHeaderInternal :
    List UInt8 → ℕ → Except Fault (CompleteCollectionHeader Id × ℕ) :=
  decodeThenAt decodeU32 CompleteTypeDetail.decodeCdr2Le CompleteCollectionHeader.mk

end Details

/-- `AnnotationParameterValue::decode_cdr2_le`. -/
def AnnotationParameterValue.decodeCdr2Le (src : List UInt8) :
    Except Fault (AnnotationParameterValue × ℕ) := do
  let (discriminator, offset) ← decodeU8 src 0
  match discriminator.toNat with
  | 0x00 => do
    let (b, offset) ← decodeBool src offset
    return (.boolean b, offset)
  | 0x01 => do
    let (i, offset) ← decodeI32 src offset
    return (.int32 i, offset)
  | 0x02 => do
    let (s, offset) ← decodeString src offset
    return (.string s, offset)
  | 0x03 => do
    let (e, offset) ← decodeI32 src offset
    return (.enumerated e, offset)
  | _ => throw (.err .invalidEncoding)

section Decoders

variable (decodeObject : List UInt8 → Except Fault (CompleteTypeObject TypeIdentifier × ℕ))

/-- `decode_type_identifier_internal`. -/
def decodeTypeIdentifierInternal (src : List UInt8) (offset : ℕ) :
    Except Fault (TypeIdentifier × ℕ) := do
  let (discriminator, offset) ← decodeU8 src offset
  match discriminator.toNat with
  | 0x01 => do
    let (kindByte, offset) ← decodeU8 src offset
    match TypeKind.fromU8 kindByte with
    | none => throw (.err (.other ("Invalid TypeKind: " ++ toString kindByte)))
    | some kind => return (.primitive kind, offset)
  | 0x02 => do
    let (bound, offset) ← decodeU8 src offset
    return (.stringSmall bound, offset)
  | 0x03 => do
    let (bound, offset) ← decodeU32 src offset
    return (.stringLarge bound, offset)
  | 0x04 => do
    let (bound, offset) ← decodeU8 src offset
    return (.wstringSmall bound, offset)
  | 0x05 => do
    let (bound, offset) ← decodeU32 src offset
    return (.wstringLarge bound, offset)
  | 0x06 => do
    let (hash, offset) ← decodeByteArr 14 src offset
    return (.minimal hash, offset)
  | 0x07 => do
    let (hash, offset) ← decodeByteArr 14 src offset
    return (.complete hash, offset)
  | 0x08 => do
    let (hash, offset) ← decodeByteArr 14 src offset
    let (sccLength, offset) ← decodeI32 src offset
    let (sccIndex, offset) ← decodeI32 src offset
    return (.stronglyConnected ⟨hash, sccLength, sccIndex⟩, offset)
  | 0x09 => do
    let (typeObj, offset) ← decodeAt decodeObject src offset
    return (.inline typeObj, offset)
  | _ => throw (.err (.other ("Invalid TypeIdentifier discriminator: " ++ toString discriminator)))

/-- `decode_complete_struct_header_internal`. -/
def decodeCompleteStructHeaderInternal (src : List UInt8) (offset : ℕ) :
    Except Fault (CompleteStructHeader TypeIdentifier × ℕ) := do
  let (baseType, offset) ← decodeOption (decodeTypeIdentifierInternal decodeObject) src offset
  let (detail, offset) ← decodeAt CompleteTypeDetail.decodeCdr2Le src offset
  return (⟨baseType, detail⟩, offset)

/-- `decode_common_struct_member_internal`. -/
def decodeCommonStructMemberInternal (src : List UInt8) (offset : ℕ) :
    Except Fault (CommonStructMember TypeIdentifier × ℕ) := do
  let (memberId, offset) ← decodeU32 src offset
  let (memberFlags, offset) ← decodeU16 src offset
  let (memberTypeId, offset) ← decodeTypeIdentifierInternal decodeObject src offset
  return (⟨memberId, memberFlags, memberTypeId⟩, offset)

/-- `decode_complete_struct_member_internal`. -/
def decodeCompleteStructMemberInternal (src : List UInt8) (offset : ℕ) :
    Except Fault (CompleteStructMember TypeIdentifier × ℕ) := do
  let (common, offset) ← decodeCommonStructMemberInternal decodeObject src offset
  let (detail, offset) ← decodeAt CompleteMemberDetail.decodeCdr2Le src offset
  return (⟨common, detail⟩, offset)

/-- `decode_minimal_struct_member_internal`; `MinimalMemberDetail` is a `u32` read from its own
slice. -/
def decodeMinimalStructMemberInternal (src : List UInt8) (offset : ℕ) :
    Except Fault (MinimalStructMember TypeIdentifier × ℕ) := do
  let (common, offset) ← decodeCommonStructMemberInternal decodeObject src offset
  let (nameHash, offset) ← decodeAt (fun src => decodeU32 src 0) src offset
  return (⟨common, nameHash⟩, offset)

/-- `CompleteStructType::decode_cdr2_le`. -/
def CompleteStructType.decodeCdr2Le (src : List UInt8) :
    Except Fault (CompleteStructType TypeIdentifier × ℕ) := do
  let (structFlags, offset) ← decodeU16 src 0
  let (header, offset) ← decodeCompleteStructHeaderInternal decodeObject src offset
  let (memberSeq, offset) ←
    decodeMemberSequence (decodeCompleteStructMemberInternal decodeObject) src offset
  return (⟨structFlags, header, memberSeq⟩, offset)

/-- `MinimalStructType::decode_cdr2_le`; the header's detail is empty and reads nothing. -/
def MinimalStructType.decodeCdr2Le (src : List UInt8) :
    Except Fault (MinimalStructType TypeIdentifier × ℕ) := do
  let (structFlags, offset) ← decodeU16 src 0
  let (baseType, offset) ← decodeOption (decodeTypeIdentifierInternal decodeObject) src offset
  let (_, offset) ← decodeAt (fun _ => .ok ((), 0)) src offset
  let (memberSeq, offset) ←
    decodeMemberSequence (decodeMinimalStructMemberInternal decodeObject) src offset
  return (⟨structFlags, baseType, memberSeq⟩, offset)

/-- `CommonAnnotationParameter::decode_cdr2_le`: the flags and the type, each from its own
slice. -/
def CommonAnnotationParameter.decodeCdr2Le (src : List UInt8) :
    Except Fault (CommonAnnotationParameter TypeIdentifier × ℕ) := do
  let (memberFlags, offset) ← decodeAt (fun src => decodeU16 src 0) src 0
  let (memberTypeId, offset) ←
    decodeAt (fun src => decodeTypeIdentifierInternal decodeObject src 0) src offset
  return (⟨memberFlags, memberTypeId⟩, offset)

/-- `CompleteAnnotationParameter::decode_cdr2_le`. -/
def CompleteAnnotationParameter.decodeCdr2Le (src : List UInt8) :
    Except Fault (CompleteAnnotationParameter TypeIdentifier × ℕ) := do
  let (common, offset) ← decodeAt (CommonAnnotationParameter.decodeCdr2Le decodeObject) src 0
  let (name, offset) ← decodeString src offset
  let (defaultValue, offset) ← decodeOption (decodeAt AnnotationParameterValue.decodeCdr2Le) src offset
  return (⟨common, name, defaultValue⟩, offset)

/-- `MinimalAnnotationParameter::decode_cdr2_le`. -/
def MinimalAnnotationParameter.decodeCdr2Le (src : List UInt8) :
    Except Fault (MinimalAnnotationParameter TypeIdentifier × ℕ) := do
  let (common, offset) ← decodeAt (CommonAnnotationParameter.decodeCdr2Le decodeObject) src 0
  let (nameHash, offset) ← decodeU32 src offset
  let (defaultValue, offset) ← decodeOption (decodeAt AnnotationParameterValue.decodeCdr2Le) src offset
  return (⟨common, nameHash, defaultValue⟩, offset)

/-- The parameter loop of `CompleteAnnotationType::decode_cdr2_le`: after aligning, it checks
that the offset lies within `src` before slicing. -/
def decodeCompleteAnnotationParams (src : List UInt8) :
    ℕ → ℕ → Except Fault (List (CompleteAnnotationParameter TypeIdentifier) × ℕ)
  | 0, offset => .ok ([], offset)
  | count + 1, offset => do
    let offset := alignOffset offset 4
    if src.length < offset then throw (.err .unexpectedEof)
    let (param, offset) ← decodeAt (CompleteAnnotationParameter.decodeCdr2Le decodeObject) src offset
    let (params, offset) ← decodeCompleteAnnotationParams src count offset
    return (param :: params, offset)

/-- `CompleteAnnotationType::decode_cdr2_le`. -/
def CompleteAnnotationType.decodeCdr2Le (src : List UInt8) :
    Except Fault (CompleteAnnotationType TypeIdentifier × ℕ) := do
  let (detail, offset) ← decodeAt CompleteTypeDetail.decodeCdr2Le src 0
  let (paramLen, offset) ← decodeU32 src offset
  let capacity ← checkedUsize paramLen "annotation parameter sequence length"
  let (memberSeq, offset) ← decodeCompleteAnnotationParams decodeObject src capacity offset
  return (⟨detail, memberSeq⟩, offset)

/-- `MinimalAnnotationType::decode_cdr2_le`: its loop slices `&src[offset..]` right after
aligning, with no check. -/
def MinimalAnnotationType.decodeCdr2Le (src : List UInt8) :
    Except Fault (MinimalAnnotationType TypeIdentifier × ℕ) := do
  let (_, offset) ← decodeAt (fun _ => .ok ((), 0)) src 0
  let (paramLen, offset) ← decodeU32 src offset
  let capacity ← checkedUsize paramLen "minimal annotation parameter sequence length"
  let (memberSeq, offset) ←
    decodeElems (decodeAt (MinimalAnnotationParameter.decodeCdr2Le decodeObject)) src capacity offset
  return (⟨memberSeq⟩, offset)

/-! ### Unions -/

/-- `decode_common_union_member_internal`: the labels are `i32`s read one after another. -/
def decodeCommonUnionMemberInternal (src : List UInt8) (offset : ℕ) :
    Except Fault (CommonUnionMember TypeIdentifier × ℕ) := do
  let (memberId, offset) ← decodeU32 src offset
  let (memberFlags, offset) ← decodeU16 src offset
  let (memberTypeId, offset) ← decodeTypeIdentifierInternal decodeObject src offset
  let (labelLen, offset) ← decodeU32 src offset
  let labelCount ← checkedUsize labelLen "union label sequence length"
  let (labelSeq, offset) ← decodeRepeat decodeI32 src labelCount offset
  return (⟨memberId, memberFlags, memberTypeId, labelSeq⟩, offset)

/-- `decode_complete_union_member_internal`. -/
def decodeCompleteUnionMemberInternal :
    List UInt8 → ℕ → Except Fault (CompleteUnionMember TypeIdentifier × ℕ) :=
  decodeThenAt (decodeCommonUnionMemberInternal decodeObject) CompleteMemberDetail.decodeCdr2Le
    CompleteUnionMember.mk

/-- `decode_minimal_union_member_internal`. -/
def decodeMinimalUnionMemberInternal :
    List UInt8 → ℕ → Except Fault (MinimalUnionMember TypeIdentifier × ℕ) :=
  decodeThenAt (decodeCommonUnionMemberInternal decodeObject) MinimalMemberDetail.decodeCdr2Le
    MinimalUnionMember.mk

/-- `decode_complete_union_header_internal`. -/
def decodeCompleteUnionHeaderInternal :
    List UInt8 → ℕ → Except Fault (CompleteUnionHeader TypeIdentifier × ℕ) :=
  decodeThenAt (decodeTypeIdentifierInternal decodeObject) CompleteTypeDetail.decodeCdr2Le
    CompleteUnionHeader.mk

/-- `decode_minimal_union_header_internal`: the discriminator's type. -/
def decodeMinimalUnionHeaderInternal : List UInt8 → ℕ → Except Fault (TypeIdentifier × ℕ) :=
  decodeThenAt (decodeTypeIdentifierInternal decodeObject) MinimalTypeDetail.decodeCdr2Le
    fun discriminator _ => discriminator

/-- `CompleteUnionType::decode_cdr2_le`. -/
def CompleteUnionType.decodeCdr2Le (src : List UInt8) :
    Except Fault (CompleteUnionType TypeIdentifier × ℕ) := do
  let (unionFlags, offset) ← decodeU16 src 0
  let (header, offset) ← decodeCompleteUnionHeaderInternal decodeObject src offset
  let (memberSeq, offset) ←
    decodeMemberSequence (decodeCompleteUnionMemberInternal decodeObject) src offset
  return (⟨unionFlags, header, memberSeq⟩, offset)

/-- `MinimalUnionType::decode_cdr2_le`. -/
def MinimalUnionType.decodeCdr2Le (src : List UInt8) :
    Except Fault (MinimalUnionType TypeIdentifier × ℕ) := do
  let (unionFlags, offset) ← decodeU16 src 0
  let (discriminator, offset) ← decodeMinimalUnionHeaderInternal decodeObject src offset
  let (memberSeq, offset) ←
    decodeMemberSequence (decodeMinimalUnionMemberInternal decodeObject) src offset
  return (⟨unionFlags, discriminator, memberSeq⟩, offset)

/-! ### Bitsets -/

/-- `decode_common_bitfield_internal`. -/
def decodeCommonBitfieldInternal (src : List UInt8) (offset : ℕ) :
    Except Fault (CommonBitfield TypeIdentifier × ℕ) := do
  let (position, offset) ← decodeU16 src offset
  let (flags, offset) ← decodeU16 src offset
  let (bitCount, offset) ← decodeU8 src offset
  let (holderType, offset) ← decodeTypeIdentifierInternal decodeObject src offset
  return (⟨position, flags, bitCount, holderType⟩, offset)

/-- `decode_complete_bitfield_internal`. -/
def decodeCompleteBitfieldInternal :
    List UInt8 → ℕ → Except Fault (CompleteBitfield TypeIdentifier × ℕ) :=
  decodeThenAt (decodeCommonBitfieldInternal decodeObject) CompleteMemberDetail.decodeCdr2Le
    CompleteBitfield.mk

/-- `decode_minimal_bitfield_internal`. -/
def decodeMinimalBitfieldInternal :
    List UInt8 → ℕ → Except Fault (MinimalBitfield TypeIdentifier × ℕ) :=
  decodeThenAt (decodeCommonBitfieldInternal decodeObject) MinimalMemberDetail.decodeCdr2Le
    MinimalBitfield.mk

/-- The base type of a bitset header: present when its flag byte is `1`, where `decode_option`
takes any byte other than `0`. -/
def decodeBitsetBaseType (src : List UInt8) (offset : ℕ) :
    Except Fault (Option TypeIdentifier × ℕ) := do
  let (baseTypePresent, offset) ← decodeU8 src offset
  if baseTypePresent = 1 then
    let (baseType, offset) ← decodeTypeIdentifierInternal decodeObject src offset
    return (some baseType, offset)
  else return (none, offset)

/-- `decode_complete_bitset_header_internal`. -/
def decodeCompleteBitsetHeaderInternal :
    List UInt8 → ℕ → Except Fault (CompleteBitsetHeader TypeIdentifier × ℕ) :=
  decodeThenAt (decodeBitsetBaseType decodeObject) CompleteTypeDetail.decodeCdr2Le
    CompleteBitsetHeader.mk

/-- `decode_minimal_bitset_header_internal`: the base type. -/
def decodeMinimalBitsetHeaderInternal :
    List UInt8 → ℕ → Except Fault (Option TypeIdentifier × ℕ) :=
  decodeThenAt (decodeBitsetBaseType decodeObject) MinimalTypeDetail.decodeCdr2Le
    fun baseType _ => baseType

/-- `CompleteBitsetType::decode_cdr2_le`. -/
def CompleteBitsetType.decodeCdr2Le (src : List UInt8) :
    Except Fault (CompleteBitsetType TypeIdentifier × ℕ) := do
  let (bitsetFlags, offset) ← decodeU16 src 0
  let (header, offset) ← decodeCompleteBitsetHeaderInternal decodeObject src offset
  let (fieldSeq, offset) ← decodeCheckedSeq "bitfield sequence length"
    (decodeCompleteBitfieldInternal decodeObject) src offset
  return (⟨bitsetFlags, header, fieldSeq⟩, offset)

/-- `MinimalBitsetType::decode_cdr2_le`. -/
def MinimalBitsetType.decodeCdr2Le (src : List UInt8) :
    Except Fault (MinimalBitsetType TypeIdentifier × ℕ) := do
  let (bitsetFlags, offset) ← decodeU16 src 0
  let (baseType, offset) ← decodeMinimalBitsetHeaderInternal decodeObject src offset
  let (fieldSeq, offset) ← decodeCheckedSeq "minimal bitfield sequence length"
    (decodeMinimalBitfieldInternal decodeObject) src offset
  return (⟨bitsetFlags, baseType, fieldSeq⟩, offset)

/-! ### Collections -/

/-- `decode_complete_collection_element_internal`, which is also
`decode_minimal_collection_element_internal`. -/
def decodeCompleteCollectionElementInternal (src : List UInt8) (offset : ℕ) :
    Except Fault (CompleteCollectionElement TypeIdentifier × ℕ) := do
  let (flags, offset) ← decodeU16 src offset
  let (typeId, offset) ← decodeTypeIdentifierInternal decodeObject src offset
  return (⟨flags, typeId⟩, offset)

/-- `CompleteSequenceType::decode_cdr2_le`. -/
def CompleteSequenceType.decodeCdr2Le (src : List UInt8) :
    Except Fault (CompleteSequenceType TypeIdentifier × ℕ) := do
  let (header, offset) ← decodeCompleteCollectionHeaderInternal src 0
  let (element, offset) ← decodeCompleteCollectionElementInternal decodeObject src offset
  return (⟨header, element⟩, offset)

/-- `MinimalSequenceType::decode_cdr2_le`: the header, its bound, from its own slice. -/
def MinimalSequenceType.decodeCdr2Le (src : List UInt8) :
    Except Fault (MinimalSequenceType TypeIdentifier × ℕ) := do
  let (bound, offset) ← decodeAt (fun src => decodeU32 src 0) src 0
  let (element, offset) ← decodeCompleteCollectionElementInternal decodeObject src offset
  return (⟨bound, element⟩, offset)

/-- `CompleteArrayType::decode_cdr2_le`: the header and the element each from its own slice,
then the bounds, `u32`s read one after another. -/
def CompleteArrayType.decodeCdr2Le (src : List UInt8) :
    Except Fault (CompleteArrayType TypeIdentifier × ℕ) := do
  let (header, offset) ← decodeAt (fun src => decodeCompleteCollectionHeaderInternal src 0) src 0
  let (element, offset) ←
    decodeAt (fun src => decodeCompleteCollectionElementInternal decodeObject src 0) src offset
  let (boundsCount, offset) ← decodeU32 src offset
  let capacity ← checkedUsize boundsCount "collection bound sequence length"
  let (boundSeq, offset) ← decodeRepeat decodeU32 src capacity offset
  return (⟨header, element, boundSeq⟩, offset)

/-- `MinimalArrayType::decode_cdr2_le`. -/
def MinimalArrayType.decodeCdr2Le (src : List UInt8) :
    Except Fault (MinimalArrayType TypeIdentifier × ℕ) := do
  let (bound, offset) ← decodeAt (fun src => decodeU32 src 0) src 0
  let (element, offset) ← decodeCompleteCollectionElementInternal decodeObject src offset
  let (boundsCount, offset) ← decodeU32 src offset
  let capacity ← checkedUsize boundsCount "collection bound sequence length"
  let (boundSeq, offset) ← decodeRepeat decodeU32 src capacity offset
  return (⟨bound, element, boundSeq⟩, offset)

/-- `CompleteMapType::decode_cdr2_le`: header, key and element, each from its own slice. -/
def CompleteMapType.decodeCdr2Le (src : List UInt8) :
    Except Fault (CompleteMapType TypeIdentifier × ℕ) := do
  let (header, offset) ← decodeAt (fun src => decodeCompleteCollectionHeaderInternal src 0) src 0
  let (key, offset) ←
    decodeAt (fun src => decodeCompleteCollectionElementInternal decodeObject src 0) src offset
  let (element, offset) ←
    decodeAt (fun src => decodeCompleteCollectionElementInternal decodeObject src 0) src offset
  return (⟨header, key, element⟩, offset)

/-- `MinimalMapType::decode_cdr2_le`. -/
def MinimalMapType.decodeCdr2Le (src : List UInt8) :
    Except Fault (MinimalMapType TypeIdentifier × ℕ) := do
  let (bound, offset) ← decodeAt (fun src => decodeU32 src 0) src 0
  let (key, offset) ← decodeCompleteCollectionElementInternal decodeObject src offset
  let (element, offset) ← decodeCompleteCollectionElementInternal decodeObject src offset
  return (⟨bound, key, element⟩, offset)

/-! ### Aliases -/

/-- `CommonAliasBody::decode_cdr2_le`: the flags, and the type through
`TypeIdentifier::decode_cdr2_le`, each from its own slice. -/
def CommonAliasBody.decodeCdr2Le (src : List UInt8) :
    Except Fault (CommonAliasBody TypeIdentifier × ℕ) := do
  let (relatedFlags, offset) ← decodeAt (fun src => decodeU16 src 0) src 0
  let (relatedType, offset) ←
    decodeAt (fun src => decodeTypeIdentifierInternal decodeObject src 0) src offset
  return (⟨relatedFlags, relatedType⟩, offset)

/-- `CompleteAliasBody::decode_cdr2_le`. -/
def CompleteAliasBody.decodeCdr2Le (src : List UInt8) :
    Except Fault (CompleteAliasBody TypeIdentifier × ℕ) :=
  decodeThenAt (decodeAt (CommonAliasBody.decodeCdr2Le decodeObject))
    CompleteTypeDetail.decodeCdr2Le CompleteAliasBody.mk src 0

/-- `CompleteAliasType::decode_cdr2_le`: flags, header and body, each from its own slice. -/
def CompleteAliasType.decodeCdr2Le (src : List UInt8) :
    Except Fault (CompleteAliasType TypeIdentifier × ℕ) := do
  let (aliasFlags, offset) ← decodeAt (fun src => decodeU16 src 0) src 0
  let (header, offset) ← decodeAt CompleteTypeDetail.decodeCdr2Le src offset
  let (body, offset) ← decodeAt (CompleteAliasBody.decodeCdr2Le decodeObject) src offset
  return (⟨aliasFlags, header, body⟩, offset)

/-- `MinimalAliasType::decode_cdr2_le`; `MinimalAliasBody::decode_cdr2_le` is
`CommonAliasBody::decode_cdr2_le`. -/
def MinimalAliasType.decodeCdr2Le (src : List UInt8) :
    Except Fault (MinimalAliasType TypeIdentifier × ℕ) := do
  let (aliasFlags, offset) ← decodeAt (fun src => decodeU16 src 0) src 0
  let (_, offset) ← decodeAt MinimalTypeDetail.decodeCdr2Le src offset
  let (body, offset) ← decodeAt (CommonAliasBody.decodeCdr2Le decodeObject) src offset
  return (⟨aliasFlags, body⟩, offset)

/-! ### Type objects -/

/-- `CompleteTypeObject::decode_cdr2_le`, with `decodeObject` for the inline objects within:
the discriminator, then the kind's `decode_cdr2_le` on the rest of the input. -/
def CompleteTypeObject.decodeWith (src : List UInt8) :
    Except Fault (CompleteTypeObject TypeIdentifier × ℕ) := do
  let (discriminator, offset) ← decodeU8 src 0
  match discriminator.toNat with
  | 0x01 => do
    let (s, offset) ← decodeAt (CompleteStructType.decodeCdr2Le decodeObject) src offset
    return (.struct s, offset)
  | 0x02 => do
    let (u, offset) ← decodeAt (CompleteUnionType.decodeCdr2Le decodeObject) src offset
    return (.union u, offset)
  | 0x03 => do
    let (e, offset) ← decodeAt CompleteEnumeratedType.decodeCdr2Le src offset
    return (.enumerated e, offset)
  | 0x04 => do
    let (b, offset) ← decodeAt CompleteBitmaskType.decodeCdr2Le src offset
    return (.bitmask b, offset)
  | 0x05 => do
    let (b, offset) ← decodeAt (CompleteBitsetType.decodeCdr2Le decodeObject) src offset
    return (.bitset b, offset)
  | 0x06 => do
    let (s, offset) ← decodeAt (CompleteSequenceType.decodeCdr2Le decodeObject) src offset
    return (.sequence s, offset)
  | 0x07 => do
    let (a, offset) ← decodeAt (CompleteArrayType.decodeCdr2Le decodeObject) src offset
    return (.array a, offset)
  | 0x08 => do
    let (m, offset) ← decodeAt (CompleteMapType.decodeCdr2Le decodeObject) src offset
    return (.map m, offset)
  | 0x09 => do
    let (a, offset) ← decodeAt (CompleteAliasType.decodeCdr2Le decodeObject) src offset
    return (.alias a, offset)
  | 0x0A => do
    let (a, offset) ← decodeAt (CompleteAnnotationType.decodeCdr2Le decodeObject) src offset
    return ( CompleteTypeObject.annotation a, offset)
  | _ => throw (.err .invalidEncoding)

end Decoders

/-- `CompleteTypeObject::decode_cdr2_le` with at most `fuel` type objects nested. -/
def CompleteTypeObject.decodeFuel :
    ℕ → List UInt8 → Except Fault (CompleteTypeObject TypeIdentifier × ℕ)
  | 0, _ => .error .fuelExhausted
  | fuel + 1, src => CompleteTypeObject.decodeWith (CompleteTypeObject.decodeFuel fuel) src

/-- `CompleteTypeObject::decode_cdr2_le`. -/
def CompleteTypeObject.decodeCdr2Le (src : List UInt8) :
    Except Fault (CompleteTypeObject TypeIdentifier × ℕ) :=
  CompleteTypeObject.decodeFuel (src.length + 1) src

/-- `TypeIdentifier::decode_cdr2_le`. -/
def TypeIdentifier.decodeCdr2Le (src : List UInt8) : Except Fault (TypeIdentifier × ℕ) :=
  decodeTypeIdentifierInternal (CompleteTypeObject.decodeFuel src.length) src 0

/-- `MinimalTypeObject::decode_cdr2_le`. -/
def MinimalTypeObject.decodeCdr2Le (src : List UInt8) :
    Except Fault (MinimalTypeObject TypeIdentifier × ℕ) := do
  let decodeObject := CompleteTypeObject.decodeFuel src.length
  let (discriminator, offset) ← decodeU8 src 0
  match discriminator.toNat with
  | 0x01 => do
    let (s, offset) ← decodeAt (MinimalStructType.decodeCdr2Le decodeObject) src offset
    return (.struct s, offset)
  | 0x02 => do
    let (u, offset) ← decodeAt (MinimalUnionType.decodeCdr2Le decodeObject) src offset
    return (.union u, offset)
  | 0x03 => do
    let (e, offset) ← decodeAt MinimalEnumeratedType.decodeCdr2Le src offset
    return (.enumerated e, offset)
  | 0x04 => do
    let (b, offset) ← decodeAt MinimalBitmaskType.decodeCdr2Le src offset
    return (.bitmask b, offset)
  | 0x05 => do
    let (b, offset) ← decodeAt (MinimalBitsetType.decodeCdr2Le decodeObject) src offset
    return (.bitset b, offset)
  | 0x06 => do
    let (s, offset) ← decodeAt (MinimalSequenceType.decodeCdr2Le decodeObject) src offset
    return (.sequence s, offset)
  | 0x07 => do
    let (a, offset) ← decodeAt (MinimalArrayType.decodeCdr2Le decodeObject) src offset
    return (.array a, offset)
  | 0x08 => do
    let (m, offset) ← decodeAt (MinimalMapType.decodeCdr2Le decodeObject) src offset
    return (.map m, offset)
  | 0x09 => do
    let (a, offset) ← decodeAt (MinimalAliasType.decodeCdr2Le decodeObject) src offset
    return (.alias a, offset)
  | 0x0A => do
    let (a, offset) ← decodeAt (MinimalAnnotationType.decodeCdr2Le decodeObject) src offset
    return ( MinimalTypeObject.annotation a, offset)
  | _ => throw (.err .invalidEncoding)

example : MinimalTypeObject.decodeCdr2Le
    [0x0A, 2, 0, 0, 0, 0, 0, 0x02, 7, 1, 0, 0, 0, 0] = .error .sliceOutOfRange := by
  rfl

end Hdds.Xtypes
