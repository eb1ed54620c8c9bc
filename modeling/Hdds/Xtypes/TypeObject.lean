import Mathlib
import Hdds.Foundations.Bytes

/-! # XTypes type objects

`xtypes/type_kind.rs`, `xtypes/type_id.rs` and `xtypes/type_object/`: type kinds, type
identifiers, and the type objects of all ten kinds, complete and minimal.

* The records of a type object take the type `Id` of the identifiers they hold as a parameter,
  so that `TypeIdentifier.inline` can hold a `CompleteTypeObject TypeIdentifier`.
* `AppliedBuiltinMemberAnnotations` keeps `unit` and `hash_id`: its `min` and `max` are written
  by no encoder and read back as `None`. `MinimalTypeDetail` is empty and left out with the
  minimal headers that hold only it; a minimal header that holds something besides it is that
  field (`MinimalUnionHeader` is its discriminator, `MinimalCollectionHeader` its bound).
* A `MinimalMemberDetail` is its name hash, and a flag word (`StructTypeFlag`, `MemberFlag`,
  `UnionTypeFlag`, `BitflagFlag`, …) is its `u16`.
-/

namespace Hdds.Xtypes
open Wire
set_option autoImplicit false

/-- `TypeKind`. -/
inductive TypeKind
  | tkNone | tkBoolean | tkByte | tkInt16 | tkInt32 | tkInt64 | tkUint16 | tkUint32 | tkUint64
  | tkFloat32 | tkFloat64 | tkFloat128 | tkInt8 | tkUint8 | tkChar8 | tkChar16
  | tkString8 | tkString16
  | tkAlias | tkEnum | tkBitmask | tkAnnotation | tkStructure | tkUnion | tkBitset
  | tkSequence | tkArray | tkMap
deriving DecidableEq, Repr

/-- `TypeKind::to_u8`. -/
def TypeKind.toU8 : TypeKind → UInt8
  | .tkNone => 0x00
  | .tkBoolean => 0x01
  | .tkByte => 0x02
  | .tkInt16 => 0x03
  | .tkInt32 => 0x04
  | .tkInt64 => 0x05
  | .tkUint16 => 0x06
  | .tkUint32 => 0x07
  | .tkUint64 => 0x08
  | .tkFloat32 => 0x09
  | .tkFloat64 => 0x0A
  | .tkFloat128 => 0x0B
  | .tkInt8 => 0x0C
  | .tkUint8 => 0x0D
  | .tkChar8 => 0x10
  | .tkChar16 => 0x11
  | .tkString8 => 0x20
  | .tkString16 => 0x21
  | .tkAlias => 0x30
  | .tkEnum => 0x31
  | .tkBitmask => 0x32
  | TypeKind.tkAnnotation => 0x33
  | .tkStructure => 0x40
  | .tkUnion => 0x41
  | .tkBitset => 0x42
  | .tkSequence => 0x50
  | .tkArray => 0x51
  | .tkMap => 0x52

/-- `TypeKind::from_u8`. -/
def TypeKind.fromU8 (value : UInt8) : Option TypeKind :=
  match value.toNat with
  | 0x00 => some .tkNone
  | 0x01 => some .tkBoolean
  | 0x02 => some .tkByte
  | 0x03 => some .tkInt16
  | 0x04 => some .tkInt32
  | 0x05 => some .tkInt64
  | 0x06 => some .tkUint16
  | 0x07 => some .tkUint32
  | 0x08 => some .tkUint64
  | 0x09 => some .tkFloat32
  | 0x0A => some .tkFloat64
  | 0x0B => some .tkFloat128
  | 0x0C => some .tkInt8
  | 0x0D => some .tkUint8
  | 0x10 => some .tkChar8
  | 0x11 => some .tkChar16
  | 0x20 => some .tkString8
  | 0x21 => some .tkString16
  | 0x30 => some .tkAlias
  | 0x31 => some .tkEnum
  | 0x32 => some .tkBitmask
  | 0x33 => some TypeKind.tkAnnotation
  | 0x40 => some .tkStructure
  | 0x41 => some .tkUnion
  | 0x42 => some .tkBitset
  | 0x50 => some .tkSequence
  | 0x51 => some .tkArray
  | 0x52 => some .tkMap
  | _ => none

@[simp] theorem TypeKind.fromU8_toU8 (k : TypeKind) : TypeKind.fromU8 k.toU8 = some k := by
  cases k <;> rfl

/-- `EquivalenceHash`: the first 14 bytes of an MD5 digest. -/
abbrev EquivalenceHash := ByteArr 14

/-- `StronglyConnectedComponentId`. -/
structure StronglyConnectedComponentId where
  scComponentId : EquivalenceHash
  sccLength : Int32
  sccIndex : Int32
deriving DecidableEq, Repr

/-- `AnnotationParameterValue`. -/
inductive AnnotationParameterValue
  | boolean (b : Bool)
  | int32 (i : Int32)
  | string (s : String)
  | enumerated (e : Int32)
deriving DecidableEq, Repr

/-- `CommonEnumeratedLiteral`. -/
structure CommonEnumeratedLiteral where
  value : Int32
  flags : UInt16
deriving DecidableEq, Repr

/-- `MinimalEnumeratedLiteral`. -/
structure MinimalEnumeratedLiteral where
  common : CommonEnumeratedLiteral
  nameHash : UInt32
deriving DecidableEq, Repr

/-- `MinimalEnumeratedType`; its `MinimalEnumeratedHeader` is the bit bound. -/
structure MinimalEnumeratedType where
  bitBound : Int16
  literalSeq : List MinimalEnumeratedLiteral
deriving DecidableEq, Repr

/-- `CommonBitflag`. -/
structure CommonBitflag where
  position : UInt16
  flags : UInt16
deriving DecidableEq, Repr

/-- `MinimalBitflag`. -/
structure MinimalBitflag where
  common : CommonBitflag
  nameHash : UInt32
deriving DecidableEq, Repr

/-- `MinimalBitmaskType`; its `MinimalBitmaskHeader` is the bit bound. -/
structure MinimalBitmaskType where
  bitBound : Int16
  flagSeq : List MinimalBitflag
deriving DecidableEq, Repr

/-- `AppliedBuiltinTypeAnnotations`. -/
structure AppliedBuiltinTypeAnnotations where
  verbatim : Option String
deriving DecidableEq, Repr

/-- `AppliedBuiltinMemberAnnotations`, without `min` and `max`. -/
structure AppliedBuiltinMemberAnnotations where
  unit : Option String
  hashId : Option String
deriving DecidableEq, Repr

/-! ## Records over the identifier type -/

section Records

variable (Id : Type)

/-- `AppliedAnnotation`. -/
structure AppliedAnnotation where
  annotationTypeId : Id
  paramSeq : List AnnotationParameterValue
deriving Repr

/-- `CompleteTypeDetail`. -/
structure CompleteTypeDetail where
  typeName : String
  annBuiltin : Option AppliedBuiltinTypeAnnotations
  annCustom : Option (List <| AppliedAnnotation Id)
deriving Repr

/-- `CompleteMemberDetail`. -/
structure CompleteMemberDetail where
  name : String
  annBuiltin : Option AppliedBuiltinMemberAnnotations
  annCustom : Option (List <| AppliedAnnotation Id)
deriving Repr

/-- `CommonStructMember`. -/
structure CommonStructMember where
  memberId : UInt32
  memberFlags : UInt16
  memberTypeId : Id
deriving Repr

/-- `CompleteStructMember`. -/
structure CompleteStructMember where
  common : CommonStructMember Id
  detail : CompleteMemberDetail Id
deriving Repr

/-- `CompleteStructHeader`. -/
structure CompleteStructHeader where
  baseType : Option Id
  detail : CompleteTypeDetail Id
deriving Repr

/-- `CompleteStructType`. -/
structure CompleteStructType where
  structFlags : UInt16
  header : CompleteStructHeader Id
  memberSeq : List (CompleteStructMember Id)
deriving Repr

/-- `MinimalStructMember`; its `MinimalMemberDetail` is the name hash. -/
structure MinimalStructMember where
  common : CommonStructMember Id
  nameHash : UInt32
deriving Repr

/-- `MinimalStructType`; its `MinimalStructHeader` is the base type. -/
structure MinimalStructType where
  structFlags : UInt16
  baseType : Option Id
  memberSeq : List (MinimalStructMember Id)
deriving Repr

/-- `CommonAnnotationParameter`. -/
structure CommonAnnotationParameter where
  memberFlags : UInt16
  memberTypeId : Id
deriving Repr

/-- `CompleteAnnotationParameter`. -/
structure CompleteAnnotationParameter where
  common : CommonAnnotationParameter Id
  name : String
  defaultValue : Option AnnotationParameterValue
deriving Repr

/-- `MinimalAnnotationParameter`. -/
structure MinimalAnnotationParameter where
  common : CommonAnnotationParameter Id
  nameHash : UInt32
  defaultValue : Option AnnotationParameterValue
deriving Repr

/-- `CompleteAnnotationType`; its `CompleteAnnotationHeader` is the type detail. -/
structure CompleteAnnotationType where
  detail : CompleteTypeDetail Id
  memberSeq : List (CompleteAnnotationParameter Id)
deriving Repr

/-- `MinimalAnnotationType`; its header is empty. -/
structure MinimalAnnotationType where
  memberSeq : List (MinimalAnnotationParameter Id)
deriving Repr

/-- `CommonUnionMember`. -/
structure CommonUnionMember where
  memberId : UInt32
  memberFlags : UInt16
  memberTypeId : Id
  labelSeq : List Int32
deriving Repr

/-- `CompleteUnionMember`. -/
structure CompleteUnionMember where
  common : CommonUnionMember Id
  detail : CompleteMemberDetail Id
deriving Repr

/-- `MinimalUnionMember`. -/
structure MinimalUnionMember where
  common : CommonUnionMember Id
  nameHash : UInt32
deriving Repr

/-- `CompleteUnionHeader`. -/
structure CompleteUnionHeader where
  discriminator : Id
  detail : CompleteTypeDetail Id
deriving Repr

/-- `CompleteUnionType`. -/
structure CompleteUnionType where
  unionFlags : UInt16
  header : CompleteUnionHeader Id
  memberSeq : List (CompleteUnionMember Id)
deriving Repr

/-- `MinimalUnionType`; its `MinimalUnionHeader` is the discriminator's type. -/
structure MinimalUnionType where
  unionFlags : UInt16
  discriminator : Id
  memberSeq : List (MinimalUnionMember Id)
deriving Repr

/-- `CompleteEnumeratedLiteral`. -/
structure CompleteEnumeratedLiteral where
  common : CommonEnumeratedLiteral
  detail : CompleteMemberDetail Id
deriving Repr

/-- `CompleteEnumeratedHeader`. -/
structure CompleteEnumeratedHeader where
  bitBound : Int16
  detail : CompleteTypeDetail Id
deriving Repr

/-- `CompleteEnumeratedType`. -/
structure CompleteEnumeratedType where
  header : CompleteEnumeratedHeader Id
  literalSeq : List (CompleteEnumeratedLiteral Id)
deriving Repr

/-- `CompleteBitflag`. -/
structure CompleteBitflag where
  common : CommonBitflag
  detail : CompleteMemberDetail Id
deriving Repr

/-- `CompleteBitmaskHeader`. -/
structure CompleteBitmaskHeader where
  bitBound : Int16
  detail : CompleteTypeDetail Id
deriving Repr

/-- `CompleteBitmaskType`. -/
structure CompleteBitmaskType where
  header : CompleteBitmaskHeader Id
  flagSeq : List (CompleteBitflag Id)
deriving Repr

/-- `CommonBitfield`. -/
structure CommonBitfield where
  position : UInt16
  flags : UInt16
  bitCount : UInt8
  holderType : Id
deriving Repr

/-- `CompleteBitfield`. -/
structure CompleteBitfield where
  common : CommonBitfield Id
  detail : CompleteMemberDetail Id
deriving Repr

/-- `MinimalBitfield`. -/
structure MinimalBitfield where
  common : CommonBitfield Id
  nameHash : UInt32
deriving Repr

/-- `CompleteBitsetHeader`. -/
structure CompleteBitsetHeader where
  baseType : Option Id
  detail : CompleteTypeDetail Id
deriving Repr

/-- `CompleteBitsetType`. -/
structure CompleteBitsetType where
  bitsetFlags : UInt16
  header : CompleteBitsetHeader Id
  fieldSeq : List (CompleteBitfield Id)
deriving Repr

/-- `MinimalBitsetType`; its `MinimalBitsetHeader` is the base type. -/
structure MinimalBitsetType where
  bitsetFlags : UInt16
  baseType : Option Id
  fieldSeq : List (MinimalBitfield Id)
deriving Repr

/-- `CompleteCollectionHeader`. -/
structure CompleteCollectionHeader where
  bound : UInt32
  detail : CompleteTypeDetail Id
deriving Repr

/-- `CompleteCollectionElement`. -/
structure CompleteCollectionElement where
  flags : UInt16
  typeId : Id
deriving Repr

/-- `MinimalCollectionElement`, whose fields are those of `CompleteCollectionElement`. -/
abbrev MinimalCollectionElement := CompleteCollectionElement Id

/-- `CompleteSequenceType`. -/
structure CompleteSequenceType where
  header : CompleteCollectionHeader Id
  element : CompleteCollectionElement Id
deriving Repr

/-- `MinimalSequenceType`. -/
structure MinimalSequenceType where
  bound : UInt32
  element : MinimalCollectionElement Id
deriving Repr

/-- `CompleteArrayType`. -/
structure CompleteArrayType where
  header : CompleteCollectionHeader Id
  element : CompleteCollectionElement Id
  boundSeq : List UInt32
deriving Repr

/-- `MinimalArrayType`. -/
structure MinimalArrayType where
  bound : UInt32
  element : MinimalCollectionElement Id
  boundSeq : List UInt32
deriving Repr

/-- `CompleteMapType`. -/
structure CompleteMapType where
  header : CompleteCollectionHeader Id
  key : CompleteCollectionElement Id
  element : CompleteCollectionElement Id
deriving Repr

/-- `MinimalMapType`. -/
structure MinimalMapType where
  bound : UInt32
  key : MinimalCollectionElement Id
  element : MinimalCollectionElement Id
deriving Repr

/-- `CommonAliasBody`. -/
structure CommonAliasBody where
  relatedFlags : UInt16
  relatedType : Id
deriving Repr

/-- `CompleteAliasBody`. -/
structure CompleteAliasBody where
  common : CommonAliasBody Id
  detail : CompleteTypeDetail Id
deriving Repr

/-- `CompleteAliasType`; its `CompleteAliasHeader` is the type detail. -/
structure CompleteAliasType where
  aliasFlags : UInt16
  header : CompleteTypeDetail Id
  body : CompleteAliasBody Id
deriving Repr

/-- `MinimalAliasType`; its `MinimalAliasBody` is the common body. -/
structure MinimalAliasType where
  aliasFlags : UInt16
  body : CommonAliasBody Id
deriving Repr

/-- `CompleteTypeObject`. -/
inductive CompleteTypeObject
  | struct (s : CompleteStructType Id)
  | union (u : CompleteUnionType Id)
  | enumerated (e : CompleteEnumeratedType Id)
  | bitmask (b : CompleteBitmaskType Id)
  | bitset (b : CompleteBitsetType Id)
  | sequence (s : CompleteSequenceType Id)
  | array (a : CompleteArrayType Id)
  | map (m : CompleteMapType Id)
  | alias (a : CompleteAliasType Id)
  | annotation (a : CompleteAnnotationType Id)
deriving Repr

/-- `MinimalTypeObject`. -/
inductive MinimalTypeObject
  | struct (s : MinimalStructType Id)
  | union (u : MinimalUnionType Id)
  | enumerated (e : MinimalEnumeratedType)
  | bitmask (b : MinimalBitmaskType)
  | bitset (b : MinimalBitsetType Id)
  | sequence (s : MinimalSequenceType Id)
  | array (a : MinimalArrayType Id)
  | map (m : MinimalMapType Id)
  | alias (a : MinimalAliasType Id)
  | annotation (a : MinimalAnnotationType Id)
deriving Repr

end Records

/-- `TypeIdentifier`; `inline` is the hdds extension that carries a whole type object. -/
inductive TypeIdentifier
  | primitive (kind : TypeKind)
  | stringSmall (bound : UInt8)
  | stringLarge (bound : UInt32)
  | wstringSmall (bound : UInt8)
  | wstringLarge (bound : UInt32)
  | minimal (hash : EquivalenceHash)
  | complete (hash : EquivalenceHash)
  | stronglyConnected (sc : StronglyConnectedComponentId)
  | inline (typeObj : CompleteTypeObject TypeIdentifier)
deriving Repr

end Hdds.Xtypes
