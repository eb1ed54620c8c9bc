import Mathlib
import Hdds.Xtypes.TypeObject
import Hdds.Xtypes.Primitives

/-! # CDR2 encoding of type objects

`xtypes/cdr2/`: `encode_cdr2_le` and `max_cdr2_size` of the type identifiers and of the type
objects of every kind, and `compute_equivalence_hash`.

* The encoders of the records that hold a `TypeIdentifier` form one `mutual` block, each
  structurally recursive on its record. The closures that `encode_option` and `encode_vec` get
  from these records are written out as `TypeIdentifier.encodeOption` and the `encodeElems`;
  `encodeOption_eq` and the `encodeElems_eq` lemmas say they are `encodeOption` and `encodeElems`
  at those closures. The enumerated and bitmask kinds hold no type identifier and are encoded
  before the block.
* `compute_equivalence_hash` takes the MD5 digest as a parameter: what it hashes is modelled, the
  digest is not.
-/

namespace Hdds.Xtypes
open Wire
open Hdds.Ser (CdrError utf8Bytes)
set_option autoImplicit false

/-- `MinimalTypeDetail::encode_cdr2_le`: the detail is empty and writes nothing. -/
def MinimalTypeDetail.encodeCdr2Le (_ : ℕ) : Except Fault Writes := .ok []

/-- `MinimalMemberDetail::encode_cdr2_le`: the name hash. -/
def MinimalMemberDetail.encodeCdr2Le (nameHash : UInt32) (dst : ℕ) : Except Fault Writes :=
  encodeU32 nameHash dst []

/-- `CommonEnumeratedLiteral::encode_cdr2_le`. -/
def CommonEnumeratedLiteral.encodeCdr2Le (l : CommonEnumeratedLiteral) (dst : ℕ) :
    Except Fault Writes :=
  encodeFieldsSequential dst [fun buf => encodeI32 l.value buf [], fun buf => encodeU16 l.flags buf []]

/-- `MinimalEnumeratedLiteral::encode_cdr2_le`. -/
def MinimalEnumeratedLiteral.encodeCdr2Le (l : MinimalEnumeratedLiteral) (dst : ℕ) :
    Except Fault Writes :=
  encodeFieldsSequential dst [l.common.encodeCdr2Le, MinimalMemberDetail.encodeCdr2Le l.nameHash]

/-- `MinimalEnumeratedHeader::encode_cdr2_le`: the bit bound, then the empty detail. -/
def MinimalEnumeratedHeader.encodeCdr2Le (bitBound : Int16) (dst : ℕ) : Except Fault Writes :=
  encodeI16 bitBound dst [] >>= encodeAt MinimalTypeDetail.encodeCdr2Le dst

/-- `MinimalEnumeratedType::encode_cdr2_le`. -/
def MinimalEnumeratedType.encodeCdr2Le (e : MinimalEnumeratedType) (dst : ℕ) :
    Except Fault Writes :=
  encodeAt (MinimalEnumeratedHeader.encodeCdr2Le e.bitBound) dst [] >>=
    encodeVec e.literalSeq (fun l => encodeAt l.encodeCdr2Le) dst

/-- `CommonBitflag::encode_cdr2_le`. -/
def CommonBitflag.encodeCdr2Le (f : CommonBitflag) (dst : ℕ) : Except Fault Writes :=
  encodeFieldsSequential dst
    [fun buf => encodeU16 f.position buf [], fun buf => encodeU16 f.flags buf []]

/-- `MinimalBitflag::encode_cdr2_le`. -/
def MinimalBitflag.encodeCdr2Le (f : MinimalBitflag) (dst : ℕ) : Except Fault Writes :=
  encodeFieldsSequential dst [f.common.encodeCdr2Le, MinimalMemberDetail.encodeCdr2Le f.nameHash]

/-- `MinimalBitmaskHeader::encode_cdr2_le`. -/
def MinimalBitmaskHeader.encodeCdr2Le (bitBound : Int16) (dst : ℕ) : Except Fault Writes :=
  encodeFieldsSequential dst [fun buf => encodeI16 bitBound buf [], MinimalTypeDetail.encodeCdr2Le]

/-- `MinimalBitmaskType::encode_cdr2_le`. -/
def MinimalBitmaskType.encodeCdr2Le (b : MinimalBitmaskType) (dst : ℕ) : Except Fault Writes :=
  encodeFieldsSequential dst [MinimalBitmaskHeader.encodeCdr2Le b.bitBound,
    fun buf => encodeVec b.flagSeq (fun f => encodeAt f.encodeCdr2Le) buf []]

/-- `MinimalCollectionHeader::encode_cdr2_le`: the bound. -/
def MinimalCollectionHeader.encodeCdr2Le (bound : UInt32) (dst : ℕ) : Except Fault Writes :=
  encodeU32 bound dst []

section Details

variable {Id : Type}

/-- `CompleteTypeDetail::encode_cdr2_le`: `ann_custom` is written as its length alone. -/
def CompleteTypeDetail.encodeCdr2Le (d : CompleteTypeDetail Id) (dst : ℕ) : Except Fault Writes :=
  encodeString d.typeName dst [] >>=
    encodeOption d.annBuiltin (fun ann => encodeOption ann.verbatim encodeString) dst >>=
    encodeOption d.annCustom
      (fun v => encodeLength v.length "Annotation list exceeds u32::MAX entries") dst

/-- `CompleteMemberDetail::encode_cdr2_le`: `min` and `max` are skipped and `ann_custom` is
written as its length alone. -/
def CompleteMemberDetail.encodeCdr2Le (d : CompleteMemberDetail Id) (dst : ℕ) :
    Except Fault Writes :=
  encodeString d.name dst [] >>=
    encodeOption d.annBuiltin (fun ann dst w =>
      encodeOption ann.unit encodeString dst w >>= encodeOption ann.hashId encodeString dst) dst >>=
    encodeOption d.annCustom
      (fun v => encodeLength v.length "Member annotation list exceeds u32::MAX entries") dst

/-- `CompleteEnumeratedLiteral::encode_cdr2_le`. -/
def CompleteEnumeratedLiteral.encodeCdr2Le (l : CompleteEnumeratedLiteral Id) (dst : ℕ) :
    Except Fault Writes :=
  encodeFieldsSequential dst [l.common.encodeCdr2Le, l.detail.encodeCdr2Le]

/-- `CompleteEnumeratedHeader::encode_cdr2_le`. -/
def CompleteEnumeratedHeader.encodeCdr2Le (h : CompleteEnumeratedHeader Id) (dst : ℕ) :
    Except Fault Writes :=
  encodeFieldsSequential dst [fun buf => encodeI16 h.bitBound buf [], h.detail.encodeCdr2Le]

/-- `CompleteEnumeratedType::encode_cdr2_le`: the header on the buffer, the literal sequence at
the type's own offsets. -/
def CompleteEnumeratedType.encodeCdr2Le (e : CompleteEnumeratedType Id) (dst : ℕ) :
    Except Fault Writes :=
  encodeAt e.header.encodeCdr2Le dst [] >>=
    encodeVec e.literalSeq (fun l => encodeAt l.encodeCdr2Le) dst

/-- `CompleteBitflag::encode_cdr2_le`. -/
def CompleteBitflag.encodeCdr2Le (f : CompleteBitflag Id) (dst : ℕ) : Except Fault Writes :=
  encodeFieldsSequential dst [f.common.encodeCdr2Le, f.detail.encodeCdr2Le]

/-- `CompleteBitmaskHeader::encode_cdr2_le`. -/
def CompleteBitmaskHeader.encodeCdr2Le (h : CompleteBitmaskHeader Id) (dst : ℕ) :
    Except Fault Writes :=
  encodeFieldsSequential dst [fun buf => encodeI16 h.bitBound buf [], h.detail.encodeCdr2Le]

/-- `CompleteBitmaskType::encode_cdr2_le`: the header, then the flag sequence from its own
offset 0. -/
def CompleteBitmaskType.encodeCdr2Le (b : CompleteBitmaskType Id) (dst : ℕ) :
    Except Fault Writes :=
  encodeFieldsSequential dst [b.header.encodeCdr2Le,
    fun buf => encodeVec b.flagSeq (fun f => encodeAt f.encodeCdr2Le) buf []]

/-- `CompleteCollectionHeader::encode_cdr2_le`. -/
def CompleteCollectionHeader.encodeCdr2Le (h : CompleteCollectionHeader Id) (dst : ℕ) :
    Except Fault Writes :=
  encodeFieldsSequential dst [fun buf => encodeU32 h.bound buf [], h.detail.encodeCdr2Le]

end Details

/-- `AnnotationParameterValue::encode_cdr2_le`. -/
def AnnotationParameterValue.encodeCdr2Le : AnnotationParameterValue → ℕ → Except Fault Writes
  | .boolean b, dst => encodeU8 0x00 dst [] >>= encodeBool b dst
  | .int32 i, dst => encodeU8 0x01 dst [] >>= encodeI32 i dst
  | .string s, dst => encodeU8 0x02 dst [] >>= encodeString s dst
  | .enumerated e, dst => encodeU8 0x03 dst [] >>= encodeI32 e dst

mutual

/-- `TypeIdentifier::encode_cdr2_le`: the discriminator, then the variant's data. -/
def TypeIdentifier.encodeCdr2Le : TypeIdentifier → ℕ → Except Fault Writes
  | .primitive kind, dst => encodeU8 0x01 dst [] >>= encodeU8 kind.toU8 dst
  | .stringSmall bound, dst => encodeU8 0x02 dst [] >>= encodeU8 bound dst
  | .stringLarge bound, dst => encodeU8 0x03 dst [] >>= encodeU32 bound dst
  | .wstringSmall bound, dst => encodeU8 0x04 dst [] >>= encodeU8 bound dst
  | .wstringLarge bound, dst => encodeU8 0x05 dst [] >>= encodeU32 bound dst
  | .minimal hash, dst => encodeU8 0x06 dst [] >>= encodeBytes hash.bytes dst
  | .complete hash, dst => encodeU8 0x07 dst [] >>= encodeBytes hash.bytes dst
  | .stronglyConnected sc, dst =>
    encodeU8 0x08 dst [] >>= encodeBytes sc.scComponentId.bytes dst >>=
      encodeI32 sc.sccLength dst >>= encodeI32 sc.sccIndex dst
  | .inline typeObj, dst => encodeU8 0x09 dst [] >>= encodeAt typeObj.encodeCdr2Le dst

/-- `encode_option` of a base type, with the closure that encodes it on the rest of the
buffer. -/
def TypeIdentifier.encodeOption : Option TypeIdentifier → ℕ → Writes → Except Fault Writes
  | none, dst, w => encodeBool false dst w
  | some t, dst, w => encodeBool true dst w >>= encodeAt t.encodeCdr2Le dst

/-- `CompleteTypeObject::encode_cdr2_le`: the discriminator, then the kind's encoding, each on
the rest of the buffer. -/
def CompleteTypeObject.encodeCdr2Le : CompleteTypeObject TypeIdentifier → ℕ → Except Fault Writes
  | .struct s, dst => encodeFieldsSequential dst [fun buf => encodeU8 0x01 buf [], s.encodeCdr2Le]
  | .union u, dst => encodeFieldsSequential dst [fun buf => encodeU8 0x02 buf [], u.encodeCdr2Le]
  | .enumerated e, dst =>
    encodeFieldsSequential dst [fun buf => encodeU8 0x03 buf [], e.encodeCdr2Le]
  | .bitmask b, dst => encodeFieldsSequential dst [fun buf => encodeU8 0x04 buf [], b.encodeCdr2Le]
  | .bitset b, dst => encodeFieldsSequential dst [fun buf => encodeU8 0x05 buf [], b.encodeCdr2Le]
  | .sequence s, dst =>
    encodeFieldsSequential dst [fun buf => encodeU8 0x06 buf [], s.encodeCdr2Le]
  | .array a, dst => encodeFieldsSequential dst [fun buf => encodeU8 0x07 buf [], a.encodeCdr2Le]
  | .map m, dst => encodeFieldsSequential dst [fun buf => encodeU8 0x08 buf [], m.encodeCdr2Le]
  | .alias a, dst => encodeFieldsSequential dst [fun buf => encodeU8 0x09 buf [], a.encodeCdr2Le]
  | CompleteTypeObject.annotation a, dst =>
    encodeFieldsSequential dst [fun buf => encodeU8 0x0A buf [], a.encodeCdr2Le]

/-- `CompleteStructType::encode_cdr2_le`: the header on the rest of the buffer, the member
sequence at the struct's own offsets. -/
def CompleteStructType.encodeCdr2Le : CompleteStructType TypeIdentifier → ℕ → Except Fault Writes
  | ⟨structFlags, header, memberSeq⟩, dst =>
    encodeU16 structFlags dst [] >>= encodeAt header.encodeCdr2Le dst >>=
      encodeLength memberSeq.length "Vector too long for CDR2 encoding" dst >>=
      CompleteStructMember.encodeElems memberSeq dst

/-- `CompleteStructHeader::encode_cdr2_le`. -/
def CompleteStructHeader.encodeCdr2Le :
    CompleteStructHeader TypeIdentifier → ℕ → Except Fault Writes
  | ⟨baseType, detail⟩, dst =>
    encodeFieldsSequential dst
      [fun buf => TypeIdentifier.encodeOption baseType buf [], detail.encodeCdr2Le]

/-- The loop of `encode_vec` over struct members. -/
def CompleteStructMember.encodeElems :
    List (CompleteStructMember TypeIdentifier) → ℕ → Writes → Except Fault Writes
  | [], _, w => .ok w
  | m :: ms, dst, w =>
    encodeAt m.encodeCdr2Le dst (pad w 4) >>= CompleteStructMember.encodeElems ms dst

/-- `CompleteStructMember::encode_cdr2_le`. -/
def CompleteStructMember.encodeCdr2Le :
    CompleteStructMember TypeIdentifier → ℕ → Except Fault Writes
  | ⟨common, detail⟩, dst => encodeFieldsSequential dst [common.encodeCdr2Le, detail.encodeCdr2Le]

/-- `CommonStructMember::encode_cdr2_le`: id, flags and type, each on the rest of the buffer. -/
def CommonStructMember.encodeCdr2Le : CommonStructMember TypeIdentifier → ℕ → Except Fault Writes
  | ⟨memberId, memberFlags, memberTypeId⟩, dst =>
    encodeFieldsSequential dst [fun buf => encodeU32 memberId buf [],
      fun buf => encodeU16 memberFlags buf [], memberTypeId.encodeCdr2Le]

/-- `CompleteAnnotationType::encode_cdr2_le`: the header, then the parameter sequence from its
own offset 0. -/
def CompleteAnnotationType.encodeCdr2Le :
    CompleteAnnotationType TypeIdentifier → ℕ → Except Fault Writes
  | ⟨detail, memberSeq⟩, dst =>
    encodeFieldsSequential dst [detail.encodeCdr2Le, fun buf =>
      encodeLength memberSeq.length "Vector too long for CDR2 encoding" buf [] >>=
        CompleteAnnotationParameter.encodeElems memberSeq buf]

/-- The loop of `encode_vec` over annotation parameters. -/
def CompleteAnnotationParameter.encodeElems :
    List (CompleteAnnotationParameter TypeIdentifier) → ℕ → Writes → Except Fault Writes
  | [], _, w => .ok w
  | p :: ps, dst, w =>
    encodeAt p.encodeCdr2Le dst (pad w 4) >>= CompleteAnnotationParameter.encodeElems ps dst

/-- `CompleteAnnotationParameter::encode_cdr2_le`. -/
def CompleteAnnotationParameter.encodeCdr2Le :
    CompleteAnnotationParameter TypeIdentifier → ℕ → Except Fault Writes
  | ⟨common, name, defaultValue⟩, dst =>
    encodeFieldsSequential dst [common.encodeCdr2Le, fun buf => encodeString name buf [],
      fun buf => encodeOption defaultValue (fun v => encodeAt v.encodeCdr2Le) buf []]

/-- `CommonAnnotationParameter::encode_cdr2_le`. -/
def CommonAnnotationParameter.encodeCdr2Le :
    CommonAnnotationParameter TypeIdentifier → ℕ → Except Fault Writes
  | ⟨memberFlags, memberTypeId⟩, dst =>
    encodeFieldsSequential dst [fun buf => encodeU16 memberFlags buf [], memberTypeId.encodeCdr2Le]

/-- `CompleteUnionType::encode_cdr2_le`: the header on the rest of the buffer, the member
sequence at the union's own offsets. -/
def CompleteUnionType.encodeCdr2Le : CompleteUnionType TypeIdentifier → ℕ → Except Fault Writes
  | ⟨unionFlags, header, memberSeq⟩, dst =>
    encodeU16 unionFlags dst [] >>= encodeAt header.encodeCdr2Le dst >>=
      encodeLength memberSeq.length "Vector too long for CDR2 encoding" dst >>=
      CompleteUnionMember.encodeElems memberSeq dst

/-- `CompleteUnionHeader::encode_cdr2_le`. -/
def CompleteUnionHeader.encodeCdr2Le : CompleteUnionHeader TypeIdentifier → ℕ → Except Fault Writes
  | ⟨discriminator, detail⟩, dst =>
    encodeFieldsSequential dst [discriminator.encodeCdr2Le, detail.encodeCdr2Le]

/-- The loop of `encode_vec` over union members. -/
def CompleteUnionMember.encodeElems :
    List (CompleteUnionMember TypeIdentifier) → ℕ → Writes → Except Fault Writes
  | [], _, w => .ok w
  | m :: ms, dst, w =>
    encodeAt m.encodeCdr2Le dst (pad w 4) >>= CompleteUnionMember.encodeElems ms dst

/-- `CompleteUnionMember::encode_cdr2_le`. -/
def CompleteUnionMember.encodeCdr2Le : CompleteUnionMember TypeIdentifier → ℕ → Except Fault Writes
  | ⟨common, detail⟩, dst => encodeFieldsSequential dst [common.encodeCdr2Le, detail.encodeCdr2Le]

/-- `CommonUnionMember::encode_cdr2_le`: id, flags, type and labels, each on the rest of the
buffer; the labels are their count and the `i32`s one after another. -/
def CommonUnionMember.encodeCdr2Le : CommonUnionMember TypeIdentifier → ℕ → Except Fault Writes
  | ⟨memberId, memberFlags, memberTypeId, labelSeq⟩, dst =>
    encodeFieldsSequential dst [fun buf => encodeU32 memberId buf [],
      fun buf => encodeU16 memberFlags buf [], memberTypeId.encodeCdr2Le,
      fun buf => encodeLength labelSeq.length "Union label sequence exceeds u32::MAX elements" buf []
        >>= encodeRepeat encodeI32 buf labelSeq]

/-- `CompleteBitsetType::encode_cdr2_le`: flags, header and the field sequence, each from its
own offset 0. -/
def CompleteBitsetType.encodeCdr2Le : CompleteBitsetType TypeIdentifier → ℕ → Except Fault Writes
  | ⟨bitsetFlags, header, fieldSeq⟩, dst =>
    encodeFieldsSequential dst [fun buf => encodeU16 bitsetFlags buf [], header.encodeCdr2Le,
      fun buf => encodeLength fieldSeq.length "Vector too long for CDR2 encoding" buf [] >>=
        CompleteBitfield.encodeElems fieldSeq buf]

/-- `CompleteBitsetHeader::encode_cdr2_le`. -/
def CompleteBitsetHeader.encodeCdr2Le :
    CompleteBitsetHeader TypeIdentifier → ℕ → Except Fault Writes
  | ⟨baseType, detail⟩, dst =>
    encodeFieldsSequential dst [TypeIdentifier.encodeBitsetBase baseType, detail.encodeCdr2Le]

/-- The base type of a bitset header: the byte `1` and the type on the rest of the buffer, or
the byte `0`. -/
def TypeIdentifier.encodeBitsetBase : Option TypeIdentifier → ℕ → Except Fault Writes
  | some base, buf => encodeU8 1 buf [] >>= encodeAt base.encodeCdr2Le buf
  | none, buf => encodeU8 0 buf []

/-- The loop of `encode_vec` over bitfields. -/
def CompleteBitfield.encodeElems :
    List (CompleteBitfield TypeIdentifier) → ℕ → Writes → Except Fault Writes
  | [], _, w => .ok w
  | f :: fs, dst, w => encodeAt f.encodeCdr2Le dst (pad w 4) >>= CompleteBitfield.encodeElems fs dst

/-- `CompleteBitfield::encode_cdr2_le`. -/
def CompleteBitfield.encodeCdr2Le : CompleteBitfield TypeIdentifier → ℕ → Except Fault Writes
  | ⟨common, detail⟩, dst => encodeFieldsSequential dst [common.encodeCdr2Le, detail.encodeCdr2Le]

/-- `CommonBitfield::encode_cdr2_le`. -/
def CommonBitfield.encodeCdr2Le : CommonBitfield TypeIdentifier → ℕ → Except Fault Writes
  | ⟨position, flags, bitCount, holderType⟩, dst =>
    encodeFieldsSequential dst [fun buf => encodeU16 position buf [],
      fun buf => encodeU16 flags buf [], fun buf => encodeU8 bitCount buf [],
      holderType.encodeCdr2Le]

/-- `CompleteCollectionElement::encode_cdr2_le`, which is also
`MinimalCollectionElement::encode_cdr2_le`. -/
def CompleteCollectionElement.encodeCdr2Le :
    CompleteCollectionElement TypeIdentifier → ℕ → Except Fault Writes
  | ⟨flags, typeId⟩, dst =>
    encodeFieldsSequential dst [fun buf => encodeU16 flags buf [], typeId.encodeCdr2Le]

/-- `CompleteSequenceType::encode_cdr2_le`. -/
def CompleteSequenceType.encodeCdr2Le :
    CompleteSequenceType TypeIdentifier → ℕ → Except Fault Writes
  | ⟨header, element⟩, dst => encodeFieldsSequential dst [header.encodeCdr2Le, element.encodeCdr2Le]

/-- `CompleteArrayType::encode_cdr2_le`: the bounds are a sequence of `u32`s from its own
offset 0. -/
def CompleteArrayType.encodeCdr2Le : CompleteArrayType TypeIdentifier → ℕ → Except Fault Writes
  | ⟨header, element, boundSeq⟩, dst =>
    encodeFieldsSequential dst [header.encodeCdr2Le, element.encodeCdr2Le,
      fun buf => encodeVec boundSeq encodeU32 buf []]

/-- `CompleteMapType::encode_cdr2_le`. -/
def CompleteMapType.encodeCdr2Le : CompleteMapType TypeIdentifier → ℕ → Except Fault Writes
  | ⟨header, key, element⟩, dst =>
    encodeFieldsSequential dst [header.encodeCdr2Le, key.encodeCdr2Le, element.encodeCdr2Le]

/-- `CommonAliasBody::encode_cdr2_le`. -/
def CommonAliasBody.encodeCdr2Le : CommonAliasBody TypeIdentifier → ℕ → Except Fault Writes
  | ⟨relatedFlags, relatedType⟩, dst =>
    encodeFieldsSequential dst [fun buf => encodeU16 relatedFlags buf [], relatedType.encodeCdr2Le]

/-- `CompleteAliasBody::encode_cdr2_le`. -/
def CompleteAliasBody.encodeCdr2Le : CompleteAliasBody TypeIdentifier → ℕ → Except Fault Writes
  | ⟨common, detail⟩, dst => encodeFieldsSequential dst [common.encodeCdr2Le, detail.encodeCdr2Le]

/-- `CompleteAliasType::encode_cdr2_le`. -/
def CompleteAliasType.encodeCdr2Le : CompleteAliasType TypeIdentifier → ℕ → Except Fault Writes
  | ⟨aliasFlags, header, body⟩, dst =>
    encodeFieldsSequential dst
      [fun buf => encodeU16 aliasFlags buf [], header.encodeCdr2Le, body.encodeCdr2Le]

end

theorem TypeIdentifier.encodeOption_eq (o : Option TypeIdentifier) :
    TypeIdentifier.encodeOption o = Xtypes.encodeOption o (fun t => encodeAt t.encodeCdr2Le) := by
  cases o <;> rfl

theorem CompleteStructMember.encodeElems_eq (ms : List (CompleteStructMember TypeIdentifier))
    (dst : ℕ) :
    CompleteStructMember.encodeElems ms dst =
      Xtypes.encodeElems (fun m => encodeAt m.encodeCdr2Le) dst ms := by
  induction ms with
  | nil => rfl
  | cons m ms ih =>
    funext w
    rw [CompleteStructMember.encodeElems, Xtypes.encodeElems, ih]

theorem CompleteAnnotationParameter.encodeElems_eq
    (ps : List (CompleteAnnotationParameter TypeIdentifier)) (dst : ℕ) :
    CompleteAnnotationParameter.encodeElems ps dst =
      Xtypes.encodeElems (fun p => encodeAt p.encodeCdr2Le) dst ps := by
  induction ps with
  | nil => rfl
  | cons p ps ih =>
    funext w
    rw [CompleteAnnotationParameter.encodeElems, Xtypes.encodeElems, ih]

/-! ## Minimal type objects -/

/-- `MinimalStructMember::encode_cdr2_le`. -/
def MinimalStructMember.encodeCdr2Le (m : MinimalStructMember TypeIdentifier) (dst : ℕ) :
    Except Fault Writes :=
  encodeFieldsSequential dst [m.common.encodeCdr2Le, fun buf => encodeU32 m.nameHash buf []]

/-- `MinimalStructType::encode_cdr2_le`; the header's detail is empty and writes nothing. -/
def MinimalStructType.encodeCdr2Le (s : MinimalStructType TypeIdentifier) (dst : ℕ) :
    Except Fault Writes :=
  encodeU16 s.structFlags dst [] >>=
    encodeAt (fun buf => encodeFieldsSequential buf
      [fun buf => TypeIdentifier.encodeOption s.baseType buf [], fun _ => .ok []]) dst >>=
    encodeVec s.memberSeq (fun m => encodeAt m.encodeCdr2Le) dst

/-- `MinimalAnnotationParameter::encode_cdr2_le`. -/
def MinimalAnnotationParameter.encodeCdr2Le (p : MinimalAnnotationParameter TypeIdentifier)
    (dst : ℕ) : Except Fault Writes :=
  encodeFieldsSequential dst [p.common.encodeCdr2Le, fun buf => encodeU32 p.nameHash buf [],
    fun buf => encodeOption p.defaultValue (fun v => encodeAt v.encodeCdr2Le) buf []]

/-- `MinimalAnnotationType::encode_cdr2_le`; the header is empty and writes nothing. -/
def MinimalAnnotationType.encodeCdr2Le (a : MinimalAnnotationType TypeIdentifier) (dst : ℕ) :
    Except Fault Writes :=
  encodeFieldsSequential dst [fun _ => .ok [],
    fun buf => encodeVec a.memberSeq (fun p => encodeAt p.encodeCdr2Le) buf []]

/-- `MinimalUnionMember::encode_cdr2_le`. -/
def MinimalUnionMember.encodeCdr2Le (m : MinimalUnionMember TypeIdentifier) (dst : ℕ) :
    Except Fault Writes :=
  encodeFieldsSequential dst [m.common.encodeCdr2Le, MinimalMemberDetail.encodeCdr2Le m.nameHash]

/-- `MinimalUnionHeader::encode_cdr2_le`. -/
def MinimalUnionHeader.encodeCdr2Le (discriminator : TypeIdentifier) (dst : ℕ) :
    Except Fault Writes :=
  encodeFieldsSequential dst [discriminator.encodeCdr2Le, MinimalTypeDetail.encodeCdr2Le]

/-- `MinimalUnionType::encode_cdr2_le`. -/
def MinimalUnionType.encodeCdr2Le (u : MinimalUnionType TypeIdentifier) (dst : ℕ) :
    Except Fault Writes :=
  encodeU16 u.unionFlags dst [] >>= encodeAt (MinimalUnionHeader.encodeCdr2Le u.discriminator) dst >>=
    encodeVec u.memberSeq (fun m => encodeAt m.encodeCdr2Le) dst

/-- `MinimalBitfield::encode_cdr2_le`. -/
def MinimalBitfield.encodeCdr2Le (f : MinimalBitfield TypeIdentifier) (dst : ℕ) :
    Except Fault Writes :=
  encodeFieldsSequential dst [f.common.encodeCdr2Le, MinimalMemberDetail.encodeCdr2Le f.nameHash]

/-- `MinimalBitsetHeader::encode_cdr2_le`. -/
def MinimalBitsetHeader.encodeCdr2Le (baseType : Option TypeIdentifier) (dst : ℕ) :
    Except Fault Writes :=
  encodeFieldsSequential dst [TypeIdentifier.encodeBitsetBase baseType, MinimalTypeDetail.encodeCdr2Le]

/-- `MinimalBitsetType::encode_cdr2_le`. -/
def MinimalBitsetType.encodeCdr2Le (b : MinimalBitsetType TypeIdentifier) (dst : ℕ) :
    Except Fault Writes :=
  encodeFieldsSequential dst [fun buf => encodeU16 b.bitsetFlags buf [],
    MinimalBitsetHeader.encodeCdr2Le b.baseType,
    fun buf => encodeVec b.fieldSeq (fun f => encodeAt f.encodeCdr2Le) buf []]

/-- `MinimalSequenceType::encode_cdr2_le`. -/
def MinimalSequenceType.encodeCdr2Le (s : MinimalSequenceType TypeIdentifier) (dst : ℕ) :
    Except Fault Writes :=
  encodeFieldsSequential dst [MinimalCollectionHeader.encodeCdr2Le s.bound, s.element.encodeCdr2Le]

/-- `MinimalArrayType::encode_cdr2_le`. -/
def MinimalArrayType.encodeCdr2Le (a : MinimalArrayType TypeIdentifier) (dst : ℕ) :
    Except Fault Writes :=
  encodeFieldsSequential dst [MinimalCollectionHeader.encodeCdr2Le a.bound, a.element.encodeCdr2Le,
    fun buf => encodeVec a.boundSeq encodeU32 buf []]

/-- `MinimalMapType::encode_cdr2_le`. -/
def MinimalMapType.encodeCdr2Le (m : MinimalMapType TypeIdentifier) (dst : ℕ) :
    Except Fault Writes :=
  encodeFieldsSequential dst
    [MinimalCollectionHeader.encodeCdr2Le m.bound, m.key.encodeCdr2Le, m.element.encodeCdr2Le]

/-- `MinimalAliasType::encode_cdr2_le`; `MinimalAliasBody::encode_cdr2_le` is the common body's. -/
def MinimalAliasType.encodeCdr2Le (a : MinimalAliasType TypeIdentifier) (dst : ℕ) :
    Except Fault Writes :=
  encodeFieldsSequential dst
    [fun buf => encodeU16 a.aliasFlags buf [], MinimalTypeDetail.encodeCdr2Le, a.body.encodeCdr2Le]

/-- `MinimalTypeObject::encode_cdr2_le`. -/
def MinimalTypeObject.encodeCdr2Le : MinimalTypeObject TypeIdentifier → ℕ → Except Fault Writes
  | .struct s, dst => encodeFieldsSequential dst [fun buf => encodeU8 0x01 buf [], s.encodeCdr2Le]
  | .union u, dst => encodeFieldsSequential dst [fun buf => encodeU8 0x02 buf [], u.encodeCdr2Le]
  | .enumerated e, dst =>
    encodeFieldsSequential dst [fun buf => encodeU8 0x03 buf [], e.encodeCdr2Le]
  | .bitmask b, dst => encodeFieldsSequential dst [fun buf => encodeU8 0x04 buf [], b.encodeCdr2Le]
  | .bitset b, dst => encodeFieldsSequential dst [fun buf => encodeU8 0x05 buf [], b.encodeCdr2Le]
  | .sequence s, dst =>
    encodeFieldsSequential dst [fun buf => encodeU8 0x06 buf [], s.encodeCdr2Le]
  | .array a, dst => encodeFieldsSequential dst [fun buf => encodeU8 0x07 buf [], a.encodeCdr2Le]
  | .map m, dst => encodeFieldsSequential dst [fun buf => encodeU8 0x08 buf [], m.encodeCdr2Le]
  | .alias a, dst => encodeFieldsSequential dst [fun buf => encodeU8 0x09 buf [], a.encodeCdr2Le]
  | MinimalTypeObject.annotation a, dst =>
    encodeFieldsSequential dst [fun buf => encodeU8 0x0A buf [], a.encodeCdr2Le]

/-! ## Maximal sizes -/

section MaxSize

variable {Id : Type}

/-- `max_size_type_with_members`. -/
def maxSizeTypeWithMembers (header : ℕ) (members : List ℕ) : ℕ := 4 + header + 4 + members.sum

/-- `CompleteTypeDetail::max_cdr2_size`, a constant. -/
def CompleteTypeDetail.maxCdr2Size (_ : CompleteTypeDetail Id) : ℕ := 1024

/-- `CompleteMemberDetail::max_cdr2_size`, a constant. -/
def CompleteMemberDetail.maxCdr2Size (_ : CompleteMemberDetail Id) : ℕ := 512

/-- `CommonStructMember::max_cdr2_size`, a constant whatever the member's type. -/
def CommonStructMember.maxCdr2Size (_ : CommonStructMember Id) : ℕ := 64

/-- `CompleteStructHeader::max_cdr2_size`. -/
def CompleteStructHeader.maxCdr2Size (h : CompleteStructHeader Id) : ℕ := 32 + h.detail.maxCdr2Size

/-- `CompleteStructMember::max_cdr2_size`. -/
def CompleteStructMember.maxCdr2Size (m : CompleteStructMember Id) : ℕ :=
  m.common.maxCdr2Size + m.detail.maxCdr2Size

/-- `CompleteStructType::max_cdr2_size`. -/
def CompleteStructType.maxCdr2Size (s : CompleteStructType Id) : ℕ :=
  maxSizeTypeWithMembers s.header.maxCdr2Size (s.memberSeq.map (·.maxCdr2Size))

/-- `MinimalStructType::max_cdr2_size`: a header of `32 + 0` and members of `64 + 8`. -/
def MinimalStructType.maxCdr2Size (s : MinimalStructType Id) : ℕ :=
  maxSizeTypeWithMembers (32 + 0) (s.memberSeq.map fun m => m.common.maxCdr2Size + 8)

/-- `CommonUnionMember::max_cdr2_size`: 128 and four bytes a label. -/
def CommonUnionMember.maxCdr2Size (m : CommonUnionMember Id) : ℕ := 128 + m.labelSeq.length * 4

/-- `CompleteUnionType::max_cdr2_size`: a header of `32 + 1024`. -/
def CompleteUnionType.maxCdr2Size (u : CompleteUnionType Id) : ℕ :=
  maxSizeTypeWithMembers (32 + u.header.detail.maxCdr2Size)
    (u.memberSeq.map fun m => m.common.maxCdr2Size + m.detail.maxCdr2Size)

/-- `MinimalUnionType::max_cdr2_size`: a header of `32 + 0`. -/
def MinimalUnionType.maxCdr2Size (u : MinimalUnionType Id) : ℕ :=
  maxSizeTypeWithMembers (32 + 0) (u.memberSeq.map fun m => m.common.maxCdr2Size + 8)

/-- `CompleteEnumeratedType::max_cdr2_size`: literals of `(4 + 2) + 512`. -/
def CompleteEnumeratedType.maxCdr2Size (e : CompleteEnumeratedType Id) : ℕ :=
  (2 + e.header.detail.maxCdr2Size) + 4 +
    (e.literalSeq.map fun l => (4 + 2) + l.detail.maxCdr2Size).sum

/-- `CompleteBitmaskType::max_cdr2_size`: flags of `8 + 512`. -/
def CompleteBitmaskType.maxCdr2Size (b : CompleteBitmaskType Id) : ℕ :=
  (4 + b.header.detail.maxCdr2Size) + 4 + (b.flagSeq.map fun f => 8 + f.detail.maxCdr2Size).sum

/-- `CompleteBitsetType::max_cdr2_size`: a header of `1 + 32 + 1024` and fields of `64 + 512`. -/
def CompleteBitsetType.maxCdr2Size (b : CompleteBitsetType Id) : ℕ :=
  4 + (1 + 32 + b.header.detail.maxCdr2Size) + 4 +
    (b.fieldSeq.map fun f => 64 + f.detail.maxCdr2Size).sum

/-- `MinimalBitsetType::max_cdr2_size`. -/
def MinimalBitsetType.maxCdr2Size (b : MinimalBitsetType Id) : ℕ :=
  4 + (1 + 32 + 0) + 4 + (b.fieldSeq.map fun _ => 64 + 8).sum

/-- `CompleteCollectionHeader::max_cdr2_size`. -/
def CompleteCollectionHeader.maxCdr2Size (h : CompleteCollectionHeader Id) : ℕ :=
  4 + h.detail.maxCdr2Size

end MaxSize

/-- `MinimalEnumeratedType::max_cdr2_size`: a header of `2 + 0` and literals of `(4 + 2) + 8`. -/
def MinimalEnumeratedType.maxCdr2Size (e : MinimalEnumeratedType) : ℕ :=
  (2 + 0) + 4 + (e.literalSeq.map fun _ => (4 + 2) + 8).sum

/-- `MinimalBitmaskType::max_cdr2_size`: a header of `4 + 0` and flags of `8 + 8`. -/
def MinimalBitmaskType.maxCdr2Size (b : MinimalBitmaskType) : ℕ :=
  (4 + 0) + 4 + (b.flagSeq.map fun _ => 8 + 8).sum

/-- `AnnotationParameterValue::max_cdr2_size`. -/
def AnnotationParameterValue.maxCdr2Size : AnnotationParameterValue → ℕ
  | .boolean _ => 4 + 4
  | .int32 _ => 4 + 4
  | .string s => 4 + 4 + (utf8Bytes s).length + 1
  | .enumerated _ => 4 + 4

mutual

/-- `TypeIdentifier::max_cdr2_size`: 32, except for an inline type object. -/
def TypeIdentifier.maxCdr2Size : TypeIdentifier → ℕ
  | .inline typeObj => 1 + typeObj.maxCdr2Size
  | _ => 32

/-- `CompleteTypeObject::max_cdr2_size`. -/
def CompleteTypeObject.maxCdr2Size : CompleteTypeObject TypeIdentifier → ℕ
  | .struct s => 1 + s.maxCdr2Size
  | .union u => 1 + u.maxCdr2Size
  | .enumerated e => 1 + e.maxCdr2Size
  | .bitmask b => 1 + b.maxCdr2Size
  | .bitset b => 1 + b.maxCdr2Size
  | .sequence s => 1 + s.maxCdr2Size
  | .array a => 1 + a.maxCdr2Size
  | .map m => 1 + m.maxCdr2Size
  | .alias a => 1 + a.maxCdr2Size
  | CompleteTypeObject.annotation a => 1 + a.maxCdr2Size

/-- `CompleteCollectionElement::max_cdr2_size`. -/
def CompleteCollectionElement.maxCdr2Size : CompleteCollectionElement TypeIdentifier → ℕ
  | ⟨_, typeId⟩ => 4 + typeId.maxCdr2Size

/-- `CompleteSequenceType::max_cdr2_size`. -/
def CompleteSequenceType.maxCdr2Size : CompleteSequenceType TypeIdentifier → ℕ
  | ⟨header, element⟩ => header.maxCdr2Size + element.maxCdr2Size

/-- `CompleteArrayType::max_cdr2_size`. -/
def CompleteArrayType.maxCdr2Size : CompleteArrayType TypeIdentifier → ℕ
  | ⟨header, element, boundSeq⟩ => header.maxCdr2Size + element.maxCdr2Size + 4 + boundSeq.length * 4

/-- `CompleteMapType::max_cdr2_size`. -/
def CompleteMapType.maxCdr2Size : CompleteMapType TypeIdentifier → ℕ
  | ⟨header, key, element⟩ => header.maxCdr2Size + key.maxCdr2Size + element.maxCdr2Size

/-- `CommonAliasBody::max_cdr2_size`: 4 for the flags and the type's size. -/
def CommonAliasBody.maxCdr2Size : CommonAliasBody TypeIdentifier → ℕ
  | ⟨_, relatedType⟩ => 4 + relatedType.maxCdr2Size

/-- `CompleteAliasType::max_cdr2_size`: flags, header and body. -/
def CompleteAliasType.maxCdr2Size : CompleteAliasType TypeIdentifier → ℕ
  | ⟨_, header, ⟨common, detail⟩⟩ => 4 + header.maxCdr2Size + (common.maxCdr2Size + detail.maxCdr2Size)

/-- `CompleteAnnotationType::max_cdr2_size`. -/
def CompleteAnnotationType.maxCdr2Size : CompleteAnnotationType TypeIdentifier → ℕ
  | ⟨detail, memberSeq⟩ => detail.maxCdr2Size + 4 + CompleteAnnotationParameter.sumMaxCdr2Size memberSeq

/-- The sum of `max_cdr2_size` over annotation parameters. -/
def CompleteAnnotationParameter.sumMaxCdr2Size : List (CompleteAnnotationParameter TypeIdentifier) → ℕ
  | [] => 0
  | p :: ps => p.maxCdr2Size + CompleteAnnotationParameter.sumMaxCdr2Size ps

/-- `CompleteAnnotationParameter::max_cdr2_size`. -/
def CompleteAnnotationParameter.maxCdr2Size : CompleteAnnotationParameter TypeIdentifier → ℕ
  | ⟨common, name, defaultValue⟩ =>
    common.maxCdr2Size + 4 + (utf8Bytes name).length + 1 +
      match defaultValue with
      | none => 4
      | some v => 4 + v.maxCdr2Size

/-- `CommonAnnotationParameter::max_cdr2_size`: 4 for the flags and the type's size. -/
def CommonAnnotationParameter.maxCdr2Size : CommonAnnotationParameter TypeIdentifier → ℕ
  | ⟨_, memberTypeId⟩ => 4 + memberTypeId.maxCdr2Size

end

/-- `MinimalSequenceType::max_cdr2_size`: a header of 4. -/
def MinimalSequenceType.maxCdr2Size (s : MinimalSequenceType TypeIdentifier) : ℕ :=
  4 + s.element.maxCdr2Size

/-- `MinimalArrayType::max_cdr2_size`. -/
def MinimalArrayType.maxCdr2Size (a : MinimalArrayType TypeIdentifier) : ℕ :=
  4 + a.element.maxCdr2Size + 4 + a.boundSeq.length * 4

/-- `MinimalMapType::max_cdr2_size`. -/
def MinimalMapType.maxCdr2Size (m : MinimalMapType TypeIdentifier) : ℕ :=
  4 + m.key.maxCdr2Size + m.element.maxCdr2Size

/-- `MinimalAliasType::max_cdr2_size`: flags, an empty header and the body. -/
def MinimalAliasType.maxCdr2Size (a : MinimalAliasType TypeIdentifier) : ℕ :=
  4 + 0 + a.body.maxCdr2Size

/-- `MinimalTypeObject::max_cdr2_size`: 4096 for an annotation. -/
def MinimalTypeObject.maxCdr2Size : MinimalTypeObject TypeIdentifier → ℕ
  | .struct s => 1 + s.maxCdr2Size
  | .union u => 1 + u.maxCdr2Size
  | .enumerated e => 1 + e.maxCdr2Size
  | .bitmask b => 1 + b.maxCdr2Size
  | .bitset b => 1 + b.maxCdr2Size
  | .sequence s => 1 + s.maxCdr2Size
  | .array a => 1 + a.maxCdr2Size
  | .map m => 1 + m.maxCdr2Size
  | .alias a => 1 + a.maxCdr2Size
  | MinimalTypeObject.annotation _ => 1 + 4096

/-! ## Equivalence hashes -/

/-- `CompleteTypeObject::compute_equivalence_hash` with the digest `compute`: the object
encoded into `max_cdr2_size` zero bytes, and the digest of what was written. -/
def CompleteTypeObject.computeEquivalenceHash (compute : List UInt8 → EquivalenceHash)
    (t : CompleteTypeObject TypeIdentifier) : Except Fault EquivalenceHash :=
  let buf := List.replicate t.maxCdr2Size 0
  (t.encodeCdr2Le buf.length).map fun w => compute (written w buf)

/-- `MinimalTypeObject::compute_equivalence_hash` with the digest `compute`. -/
def MinimalTypeObject.computeEquivalenceHash (compute : List UInt8 → EquivalenceHash)
    (t : MinimalTypeObject TypeIdentifier) : Except Fault EquivalenceHash :=
  let buf := List.replicate t.maxCdr2Size 0
  (t.encodeCdr2Le buf.length).map fun w => compute (written w buf)

end Hdds.Xtypes
