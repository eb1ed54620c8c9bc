import Mathlib
import Hdds.Foundations.Cursor
import Hdds.Xtypes.Decode

/-! # The complete type-object decoders stay within their input

`CompleteTypeObject::decode_cdr2_le` and `TypeIdentifier::decode_cdr2_le` never take a slice
`&src[offset..]` past the end of `src`, and what they report as used is at most `src.len()`
(`complete_decoders_stay_within_input`), for every input and every nesting of inline objects.
Every slice they take is at an offset that a read before it left within the input, and the one
loop that aligns before it slices checks the offset first. Each decoder's lemma assumes this of
the decoder it is given for inline objects, and `CompleteTypeObject.decodeFuel_stays` closes the
recursion by induction on the fuel.

The minimal annotation loop has no such check: `minimal_annotation_decoder_slices_past_end`
gives the inputs on which `MinimalTypeObject::decode_cdr2_le` slices past the end, and
`minimal_decoder_stays_within_input_but_annotations` shows that the other nine minimal kinds
never do.
-/

namespace Hdds.Xtypes
open Wire Cursor Codec
open Hdds.Ser (CdrError)
set_option autoImplicit false

theorem err_ne_sliceOutOfRange (e : CdrError) : Fault.err e ≠ .sliceOutOfRange := nofun

/-! ## Primitives -/

theorem decodeU8_stays (src : List UInt8) (offset : ℕ) :
    Stays .sliceOutOfRange src.length (decodeU8 src offset) := by
  unfold decodeU8
  split
  · exact stays_error (err_ne_sliceOutOfRange _)
  · apply stays_ok
    omega

theorem decodeLe_stays (width : ℕ) (src : List UInt8) (offset : ℕ) :
    Stays .sliceOutOfRange src.length (decodeLe width src offset) := by
  unfold decodeLe
  dsimp only
  split
  · exact stays_error (err_ne_sliceOutOfRange _)
  · apply stays_ok
    omega

theorem decodeU16_stays (src : List UInt8) (offset : ℕ) :
    Stays .sliceOutOfRange src.length (decodeU16 src offset) :=
  (decodeLe_stays 2 src offset).map UInt16.ofNat

theorem decodeU32_stays (src : List UInt8) (offset : ℕ) :
    Stays .sliceOutOfRange src.length (decodeU32 src offset) :=
  (decodeLe_stays 4 src offset).map UInt32.ofNat

theorem decodeI32_stays (src : List UInt8) (offset : ℕ) :
    Stays .sliceOutOfRange src.length (decodeI32 src offset) :=
  (decodeLe_stays 4 src offset).map fun n => (UInt32.ofNat n).toInt32

theorem decodeI16_stays (src : List UInt8) (offset : ℕ) :
    Stays .sliceOutOfRange src.length (decodeI16 src offset) :=
  (decodeLe_stays 2 src offset).map fun n => (UInt16.ofNat n).toInt16

theorem decodeBool_stays (src : List UInt8) (offset : ℕ) :
    Stays .sliceOutOfRange src.length (decodeBool src offset) :=
  (decodeU8_stays src offset).map fun b => b != 0

theorem decodeByteArr_stays (n : ℕ) (src : List UInt8) (offset : ℕ) :
    Stays .sliceOutOfRange src.length (decodeByteArr n src offset) := by
  unfold decodeByteArr
  split
  · exact stays_error (err_ne_sliceOutOfRange _)
  · apply stays_ok
    omega

theorem decodeString_stays (src : List UInt8) (offset : ℕ) :
    Stays .sliceOutOfRange src.length (decodeString src offset) := by
  unfold decodeString
  apply (decodeU32_stays src offset).bind
  intro len o ho
  dsimp only
  split
  · exact stays_ok _ ho
  · split
    · exact stays_error (err_ne_sliceOutOfRange _)
    · split
      · exact stays_error (err_ne_sliceOutOfRange _)
      · apply stays_ok
        omega

theorem checkedUsize_ne (value : UInt32) (context : String) :
    checkedUsize value context ≠ .error .sliceOutOfRange := by
  unfold checkedUsize
  split <;> exact nofun

section Combinators

variable {α : Type} {src : List UInt8}

/-- The value of an option is read from the offset after its flag, which lies within `src`. -/
theorem decodeOption_stays {decodeFn : List UInt8 → ℕ → Except Fault (α × ℕ)}
    (hfn : ∀ offset, offset ≤ src.length → Stays .sliceOutOfRange src.length (decodeFn src offset))
    (offset : ℕ) : Stays .sliceOutOfRange src.length (decodeOption decodeFn src offset) := by
  unfold decodeOption
  apply (decodeBool_stays src offset).bind
  intro present o ho
  dsimp only
  split
  · exact (hfn o ho).bind_return fun _ _ => ⟨_, rfl⟩
  · exact stays_ok _ ho

theorem decodeElems_stays {decodeFn : List UInt8 → ℕ → Except Fault (α × ℕ)}
    (hfn : ∀ offset, Stays .sliceOutOfRange src.length (decodeFn src offset)) :
    ∀ count offset, offset ≤ src.length →
      Stays .sliceOutOfRange src.length (decodeElems decodeFn src count offset)
  | 0, _, h => stays_ok _ h
  | count + 1, offset, _ => by
    unfold decodeElems
    apply (hfn _).bind
    intro a o ho
    exact (decodeElems_stays hfn count o ho).bind_return fun _ _ => ⟨_, rfl⟩

theorem decodeMemberSequence_stays {decodeFn : List UInt8 → ℕ → Except Fault (α × ℕ)}
    (hfn : ∀ offset, Stays .sliceOutOfRange src.length (decodeFn src offset)) (offset : ℕ) :
    Stays .sliceOutOfRange src.length (decodeMemberSequence decodeFn src offset) := by
  unfold decodeMemberSequence
  apply (decodeU32_stays src offset).bind
  intro len o ho
  apply Stays.bind_value (checkedUsize_ne _ _)
  intro count
  exact decodeElems_stays hfn count o ho

theorem decodeAt_stays {decode : List UInt8 → Except Fault (α × ℕ)}
    (hdec : ∀ s, Stays .sliceOutOfRange s.length (decode s)) {offset : ℕ}
    (h : offset ≤ src.length) : Stays .sliceOutOfRange src.length (decodeAt decode src offset) := by
  unfold decodeAt
  rw [if_neg (by omega)]
  apply Stays.shift _ h
  simpa using hdec (src.drop offset)

theorem decodeRepeat_stays {decodeFn : List UInt8 → ℕ → Except Fault (α × ℕ)}
    (hfn : ∀ offset, Stays .sliceOutOfRange src.length (decodeFn src offset)) :
    ∀ count offset, offset ≤ src.length →
      Stays .sliceOutOfRange src.length (decodeRepeat decodeFn src count offset)
  | 0, _, h => stays_ok _ h
  | count + 1, offset, _ => by
    unfold decodeRepeat
    apply (hfn offset).bind
    intro a o ho
    exact (decodeRepeat_stays hfn count o ho).bind_return fun _ _ => ⟨_, rfl⟩

theorem decodeCheckedSeq_stays (context : String)
    {decodeFn : List UInt8 → ℕ → Except Fault (α × ℕ)}
    (hfn : ∀ offset, Stays .sliceOutOfRange src.length (decodeFn src offset)) (offset : ℕ) :
    Stays .sliceOutOfRange src.length (decodeCheckedSeq context decodeFn src offset) := by
  unfold decodeCheckedSeq
  apply (decodeU32_stays src offset).bind
  intro len o ho
  apply Stays.bind_value (checkedUsize_ne _ _)
  intro count
  exact decodeElems_stays hfn count o ho

/-- A kind of type object, read from the rest of the input and wrapped in its constructor. -/
theorem decodeAt_wrap_stays {β : Type} {decode : List UInt8 → Except Fault (α × ℕ)} (mk : α → β)
    (hdec : ∀ s, Stays .sliceOutOfRange s.length (decode s)) {offset : ℕ}
    (h : offset ≤ src.length) :
    Stays .sliceOutOfRange src.length (decodeAt decode src offset >>= fun r => pure (mk r.1, r.2)) :=
  (decodeAt_stays hdec h).bind_return fun _ _ => ⟨_, rfl⟩

/-- The detail is sliced at the offset the first part ended at, which lies within `src`. -/
theorem decodeThenAt_stays {β γ : Type} {first : List UInt8 → ℕ → Except Fault (α × ℕ)}
    {detail : List UInt8 → Except Fault (β × ℕ)} {mk : α → β → γ} {offset : ℕ}
    (hfirst : Stays .sliceOutOfRange src.length (first src offset))
    (hdetail : ∀ s, Stays .sliceOutOfRange s.length (detail s)) :
    Stays .sliceOutOfRange src.length (decodeThenAt first detail mk src offset) := by
  unfold decodeThenAt
  apply hfirst.bind
  intro a o ho
  exact (decodeAt_stays hdetail ho).bind_return fun _ _ => ⟨_, rfl⟩

end Combinators

/-! ## Details and parameter values -/

theorem CompleteTypeDetail.decodeCdr2Le_stays {Id : Type} (src : List UInt8) :
    Stays .sliceOutOfRange src.length
      (CompleteTypeDetail.decodeCdr2Le src : Except Fault (CompleteTypeDetail Id × ℕ)) := by
  unfold CompleteTypeDetail.decodeCdr2Le
  apply (decodeString_stays src 0).bind
  intro typeName o _
  refine (decodeOption_stays ?_ o).bind ?_
  · intro offset _
    exact (decodeOption_stays (fun offset _ => decodeString_stays src offset) offset).bind_return
      fun _ _ => ⟨_, rfl⟩
  · intro annBuiltin o₁ _
    refine (decodeOption_stays ?_ o₁).bind_return fun _ _ => ⟨_, rfl⟩
    intro offset _
    exact (decodeU32_stays src offset).bind_return fun _ _ => ⟨_, rfl⟩

theorem CompleteMemberDetail.decodeCdr2Le_stays {Id : Type} (src : List UInt8) :
    Stays .sliceOutOfRange src.length
      (CompleteMemberDetail.decodeCdr2Le src : Except Fault (CompleteMemberDetail Id × ℕ)) := by
  unfold CompleteMemberDetail.decodeCdr2Le
  apply (decodeString_stays src 0).bind
  intro name o _
  refine (decodeOption_stays ?_ o).bind ?_
  · intro offset _
    apply (decodeOption_stays (fun offset _ => decodeString_stays src offset) offset).bind
    intro unit o₁ _
    exact (decodeOption_stays (fun offset _ => decodeString_stays src offset) o₁).bind_return
      fun _ _ => ⟨_, rfl⟩
  · intro annBuiltin o₁ _
    refine (decodeOption_stays ?_ o₁).bind_return fun _ _ => ⟨_, rfl⟩
    intro offset _
    exact (decodeU32_stays src offset).bind_return fun _ _ => ⟨_, rfl⟩

theorem MinimalMemberDetail.decodeCdr2Le_stays (src : List UInt8) :
    Stays .sliceOutOfRange src.length (MinimalMemberDetail.decodeCdr2Le src) :=
  decodeU32_stays src 0

theorem MinimalTypeDetail.decodeCdr2Le_stays (src : List UInt8) :
    Stays .sliceOutOfRange src.length (MinimalTypeDetail.decodeCdr2Le src) :=
  stays_ok () (Nat.zero_le _)

/-! ## Enumerated, bitmask and collection headers, which hold no type identifier -/

section Details

variable {Id : Type}

theorem decodeCommonEnumeratedLiteralInternal_stays (src : List UInt8) (offset : ℕ) :
    Stays .sliceOutOfRange src.length (decodeCommonEnumeratedLiteralInternal src offset) := by
  unfold decodeCommonEnumeratedLiteralInternal
  apply (decodeI32_stays src offset).bind
  intro value o _
  exact (decodeU16_stays src o).bind_return fun _ _ => ⟨_, rfl⟩

theorem CompleteEnumeratedType.decodeCdr2Le_stays (src : List UInt8) :
    Stays .sliceOutOfRange src.length
      (CompleteEnumeratedType.decodeCdr2Le src : Except Fault (CompleteEnumeratedType Id × ℕ)) := by
  unfold CompleteEnumeratedType.decodeCdr2Le
  apply (decodeThenAt_stays (decodeI16_stays src 0) CompleteTypeDetail.decodeCdr2Le_stays).bind
  intro header o _
  refine (decodeCheckedSeq_stays _ (fun offset => ?_) o).bind_return fun _ _ => ⟨_, rfl⟩
  exact decodeThenAt_stays (decodeCommonEnumeratedLiteralInternal_stays src _)
    CompleteMemberDetail.decodeCdr2Le_stays

theorem decodeCommonBitflagInternal_stays (src : List UInt8) (offset : ℕ) :
    Stays .sliceOutOfRange src.length (decodeCommonBitflagInternal src offset) := by
  unfold decodeCommonBitflagInternal
  apply (decodeU16_stays src offset).bind
  intro position o _
  exact (decodeU16_stays src o).bind_return fun _ _ => ⟨_, rfl⟩

theorem CompleteBitmaskType.decodeCdr2Le_stays (src : List UInt8) :
    Stays .sliceOutOfRange src.length
      (CompleteBitmaskType.decodeCdr2Le src : Except Fault (CompleteBitmaskType Id × ℕ)) := by
  unfold CompleteBitmaskType.decodeCdr2Le
  apply (decodeThenAt_stays (decodeI16_stays src 0) CompleteTypeDetail.decodeCdr2Le_stays).bind
  intro header o _
  refine (decodeCheckedSeq_stays _ (fun offset => ?_) o).bind_return fun _ _ => ⟨_, rfl⟩
  exact decodeThenAt_stays (decodeCommonBitflagInternal_stays src _)
    CompleteMemberDetail.decodeCdr2Le_stays

theorem decodeCompleteCollectionHeaderInternal_stays (src : List UInt8) (offset : ℕ) :
    Stays .sliceOutOfRange src.length (decodeCompleteCollectionHeaderInternal src offset :
      Except Fault (CompleteCollectionHeader Id × ℕ)) :=
  decodeThenAt_stays (decodeU32_stays src offset) CompleteTypeDetail.decodeCdr2Le_stays

end Details

theorem MinimalEnumeratedType.decodeCdr2Le_stays (src : List UInt8) :
    Stays .sliceOutOfRange src.length (MinimalEnumeratedType.decodeCdr2Le src) := by
  unfold MinimalEnumeratedType.decodeCdr2Le
  apply (decodeThenAt_stays (decodeI16_stays src 0) MinimalTypeDetail.decodeCdr2Le_stays).bind
  intro bitBound o _
  refine (decodeCheckedSeq_stays _ (fun offset => ?_) o).bind_return fun _ _ => ⟨_, rfl⟩
  exact decodeThenAt_stays (decodeCommonEnumeratedLiteralInternal_stays src _)
    MinimalMemberDetail.decodeCdr2Le_stays

theorem MinimalBitmaskType.decodeCdr2Le_stays (src : List UInt8) :
    Stays .sliceOutOfRange src.length (MinimalBitmaskType.decodeCdr2Le src) := by
  unfold MinimalBitmaskType.decodeCdr2Le
  apply (decodeThenAt_stays (decodeI16_stays src 0) MinimalTypeDetail.decodeCdr2Le_stays).bind
  intro bitBound o _
  refine (decodeCheckedSeq_stays _ (fun offset => ?_) o).bind_return fun _ _ => ⟨_, rfl⟩
  exact decodeThenAt_stays (decodeCommonBitflagInternal_stays src _)
    MinimalMemberDetail.decodeCdr2Le_stays

theorem AnnotationParameterValue.decodeCdr2Le_stays (src : List UInt8) :
    Stays .sliceOutOfRange src.length (AnnotationParameterValue.decodeCdr2Le src) := by
  unfold AnnotationParameterValue.decodeCdr2Le
  apply (decodeU8_stays src 0).bind
  intro discriminator o _
  dsimp only
  split
  · exact (decodeBool_stays src o).bind_return fun _ _ => ⟨_, rfl⟩
  · exact (decodeI32_stays src o).bind_return fun _ _ => ⟨_, rfl⟩
  · exact (decodeString_stays src o).bind_return fun _ _ => ⟨_, rfl⟩
  · exact (decodeI32_stays src o).bind_return fun _ _ => ⟨_, rfl⟩
  · exact stays_error (err_ne_sliceOutOfRange _)

/-! ## The decoders, given a decoder of inline objects that stays within its input -/

section Decoders

variable {decodeObject : List UInt8 → Except Fault (CompleteTypeObject TypeIdentifier × ℕ)}
  (hd : ∀ s, Stays .sliceOutOfRange s.length (decodeObject s))
include hd

theorem decodeTypeIdentifierInternal_stays (src : List UInt8) (offset : ℕ) :
    Stays .sliceOutOfRange src.length (decodeTypeIdentifierInternal decodeObject src offset) := by
  unfold decodeTypeIdentifierInternal
  apply (decodeU8_stays src offset).bind
  intro discriminator o ho
  dsimp only
  split
  · apply (decodeU8_stays src o).bind
    intro kindByte o₁ ho₁
    dsimp only
    split
    · exact stays_error (err_ne_sliceOutOfRange _)
    · exact stays_ok _ ho₁
  · exact (decodeU8_stays src o).bind_return fun _ _ => ⟨_, rfl⟩
  · exact (decodeU32_stays src o).bind_return fun _ _ => ⟨_, rfl⟩
  · exact (decodeU8_stays src o).bind_return fun _ _ => ⟨_, rfl⟩
  · exact (decodeU32_stays src o).bind_return fun _ _ => ⟨_, rfl⟩
  · exact (decodeByteArr_stays 14 src o).bind_return fun _ _ => ⟨_, rfl⟩
  · exact (decodeByteArr_stays 14 src o).bind_return fun _ _ => ⟨_, rfl⟩
  · apply (decodeByteArr_stays 14 src o).bind
    intro hash o₁ _
    apply (decodeI32_stays src o₁).bind
    intro sccLength o₂ _
    exact (decodeI32_stays src o₂).bind_return fun _ _ => ⟨_, rfl⟩
  -- the inline object is decoded from the rest of the input, after the discriminator
  · exact (decodeAt_stays hd ho).bind_return fun _ _ => ⟨_, rfl⟩
  · exact stays_error (err_ne_sliceOutOfRange _)

theorem decodeCompleteStructHeaderInternal_stays (src : List UInt8) (offset : ℕ) :
    Stays .sliceOutOfRange src.length
      (decodeCompleteStructHeaderInternal decodeObject src offset) := by
  unfold decodeCompleteStructHeaderInternal
  apply (decodeOption_stays (fun offset _ => decodeTypeIdentifierInternal_stays hd src offset) offset).bind
  intro baseType o ho
  exact (decodeAt_stays CompleteTypeDetail.decodeCdr2Le_stays ho).bind_return
    fun _ _ => ⟨_, rfl⟩

theorem decodeCommonStructMemberInternal_stays (src : List UInt8) (offset : ℕ) :
    Stays .sliceOutOfRange src.length (decodeCommonStructMemberInternal decodeObject src offset) := by
  unfold decodeCommonStructMemberInternal
  apply (decodeU32_stays src offset).bind
  intro memberId o _
  apply (decodeU16_stays src o).bind
  intro memberFlags o₁ _
  exact (decodeTypeIdentifierInternal_stays hd src o₁).bind_return fun _ _ => ⟨_, rfl⟩

theorem decodeCompleteStructMemberInternal_stays (src : List UInt8) (offset : ℕ) :
    Stays .sliceOutOfRange src.length
      (decodeCompleteStructMemberInternal decodeObject src offset) := by
  unfold decodeCompleteStructMemberInternal
  apply (decodeCommonStructMemberInternal_stays hd src offset).bind
  intro common o ho
  exact (decodeAt_stays CompleteMemberDetail.decodeCdr2Le_stays ho).bind_return
    fun _ _ => ⟨_, rfl⟩

theorem CompleteStructType.decodeCdr2Le_stays (src : List UInt8) :
    Stays .sliceOutOfRange src.length (CompleteStructType.decodeCdr2Le decodeObject src) := by
  unfold CompleteStructType.decodeCdr2Le
  apply (decodeU16_stays src 0).bind
  intro structFlags o _
  apply (decodeCompleteStructHeaderInternal_stays hd src o).bind
  intro header o₁ _
  exact (decodeMemberSequence_stays (decodeCompleteStructMemberInternal_stays hd src) o₁).bind_return
    fun _ _ => ⟨_, rfl⟩

theorem CommonAnnotationParameter.decodeCdr2Le_stays (src : List UInt8) :
    Stays .sliceOutOfRange src.length (CommonAnnotationParameter.decodeCdr2Le decodeObject src) := by
  unfold CommonAnnotationParameter.decodeCdr2Le
  apply (decodeAt_stays (fun s => decodeU16_stays s 0) (Nat.zero_le _)).bind
  intro memberFlags o ho
  exact (decodeAt_stays (fun s => decodeTypeIdentifierInternal_stays hd s 0) ho).bind_return
    fun _ _ => ⟨_, rfl⟩

theorem CompleteAnnotationParameter.decodeCdr2Le_stays (src : List UInt8) :
    Stays .sliceOutOfRange src.length
      (CompleteAnnotationParameter.decodeCdr2Le decodeObject src) := by
  unfold CompleteAnnotationParameter.decodeCdr2Le
  apply (decodeAt_stays (CommonAnnotationParameter.decodeCdr2Le_stays hd) (Nat.zero_le _)).bind
  intro common o _
  apply (decodeString_stays src o).bind
  intro name o₁ _
  refine (decodeOption_stays ?_ o₁).bind_return fun _ _ => ⟨_, rfl⟩
  intro offset ho
  exact decodeAt_stays AnnotationParameterValue.decodeCdr2Le_stays ho

/-- The complete parameter loop checks the aligned offset before it slices. -/
theorem decodeCompleteAnnotationParams_stays (src : List UInt8) :
    ∀ count offset, offset ≤ src.length →
      Stays .sliceOutOfRange src.length
        (decodeCompleteAnnotationParams decodeObject src count offset)
  | 0, _, h => stays_ok _ h
  | count + 1, offset, _ => by
    unfold decodeCompleteAnnotationParams
    dsimp only
    split
    · exact stays_error (err_ne_sliceOutOfRange _)
    · rename_i hin
      apply (decodeAt_stays (CompleteAnnotationParameter.decodeCdr2Le_stays hd)
        (Nat.le_of_not_lt hin)).bind
      intro param o ho
      exact (decodeCompleteAnnotationParams_stays src count o ho).bind_return fun _ _ => ⟨_, rfl⟩

theorem CompleteAnnotationType.decodeCdr2Le_stays (src : List UInt8) :
    Stays .sliceOutOfRange src.length (CompleteAnnotationType.decodeCdr2Le decodeObject src) := by
  unfold CompleteAnnotationType.decodeCdr2Le
  apply (decodeAt_stays CompleteTypeDetail.decodeCdr2Le_stays (Nat.zero_le _)).bind
  intro detail o _
  apply (decodeU32_stays src o).bind
  intro paramLen o₁ ho₁
  apply Stays.bind_value (checkedUsize_ne _ _)
  intro capacity
  exact (decodeCompleteAnnotationParams_stays hd src capacity o₁ ho₁).bind_return
    fun _ _ => ⟨_, rfl⟩

/-! ### Unions -/

theorem decodeCommonUnionMemberInternal_stays (src : List UInt8) (offset : ℕ) :
    Stays .sliceOutOfRange src.length (decodeCommonUnionMemberInternal decodeObject src offset) := by
  unfold decodeCommonUnionMemberInternal
  apply (decodeU32_stays src offset).bind
  intro memberId o _
  apply (decodeU16_stays src o).bind
  intro memberFlags o₁ _
  apply (decodeTypeIdentifierInternal_stays hd src o₁).bind
  intro memberTypeId o₂ _
  apply (decodeU32_stays src o₂).bind
  intro labelLen o₃ ho₃
  apply Stays.bind_value (checkedUsize_ne _ _)
  intro labelCount
  exact (decodeRepeat_stays (decodeI32_stays src) labelCount o₃ ho₃).bind_return
    fun _ _ => ⟨_, rfl⟩

theorem CompleteUnionType.decodeCdr2Le_stays (src : List UInt8) :
    Stays .sliceOutOfRange src.length (CompleteUnionType.decodeCdr2Le decodeObject src) := by
  unfold CompleteUnionType.decodeCdr2Le
  apply (decodeU16_stays src 0).bind
  intro unionFlags o _
  apply (decodeThenAt_stays (decodeTypeIdentifierInternal_stays hd src o)
    CompleteTypeDetail.decodeCdr2Le_stays).bind
  intro header o₁ _
  refine (decodeMemberSequence_stays (fun offset => ?_) o₁).bind_return fun _ _ => ⟨_, rfl⟩
  exact decodeThenAt_stays (decodeCommonUnionMemberInternal_stays hd src offset)
    CompleteMemberDetail.decodeCdr2Le_stays

/-! ### Bitsets -/

theorem decodeCommonBitfieldInternal_stays (src : List UInt8) (offset : ℕ) :
    Stays .sliceOutOfRange src.length (decodeCommonBitfieldInternal decodeObject src offset) := by
  unfold decodeCommonBitfieldInternal
  apply (decodeU16_stays src offset).bind
  intro position o _
  apply (decodeU16_stays src o).bind
  intro flags o₁ _
  apply (decodeU8_stays src o₁).bind
  intro bitCount o₂ _
  exact (decodeTypeIdentifierInternal_stays hd src o₂).bind_return fun _ _ => ⟨_, rfl⟩

theorem decodeBitsetBaseType_stays (src : List UInt8) (offset : ℕ) :
    Stays .sliceOutOfRange src.length (decodeBitsetBaseType decodeObject src offset) := by
  unfold decodeBitsetBaseType
  apply (decodeU8_stays src offset).bind
  intro baseTypePresent o ho
  dsimp only
  split
  · exact (decodeTypeIdentifierInternal_stays hd src o).bind_return fun _ _ => ⟨_, rfl⟩
  · exact stays_ok _ ho

theorem CompleteBitsetType.decodeCdr2Le_stays (src : List UInt8) :
    Stays .sliceOutOfRange src.length (CompleteBitsetType.decodeCdr2Le decodeObject src) := by
  unfold CompleteBitsetType.decodeCdr2Le
  apply (decodeU16_stays src 0).bind
  intro bitsetFlags o _
  apply (decodeThenAt_stays (decodeBitsetBaseType_stays hd src o)
    CompleteTypeDetail.decodeCdr2Le_stays).bind
  intro header o₁ _
  refine (decodeCheckedSeq_stays _ (fun offset => ?_) o₁).bind_return fun _ _ => ⟨_, rfl⟩
  exact decodeThenAt_stays (decodeCommonBitfieldInternal_stays hd src offset)
    CompleteMemberDetail.decodeCdr2Le_stays

/-! ### Collections -/

theorem decodeCompleteCollectionElementInternal_stays (src : List UInt8) (offset : ℕ) :
    Stays .sliceOutOfRange src.length
      (decodeCompleteCollectionElementInternal decodeObject src offset) := by
  unfold decodeCompleteCollectionElementInternal
  apply (decodeU16_stays src offset).bind
  intro flags o _
  exact (decodeTypeIdentifierInternal_stays hd src o).bind_return fun _ _ => ⟨_, rfl⟩

theorem CompleteSequenceType.decodeCdr2Le_stays (src : List UInt8) :
    Stays .sliceOutOfRange src.length (CompleteSequenceType.decodeCdr2Le decodeObject src) := by
  unfold CompleteSequenceType.decodeCdr2Le
  apply (decodeCompleteCollectionHeaderInternal_stays src 0).bind
  intro header o _
  exact (decodeCompleteCollectionElementInternal_stays hd src o).bind_return fun _ _ => ⟨_, rfl⟩

theorem CompleteArrayType.decodeCdr2Le_stays (src : List UInt8) :
    Stays .sliceOutOfRange src.length (CompleteArrayType.decodeCdr2Le decodeObject src) := by
  unfold CompleteArrayType.decodeCdr2Le
  apply (decodeAt_stays (fun s => decodeCompleteCollectionHeaderInternal_stays s 0)
    (Nat.zero_le _)).bind
  intro header o ho
  apply (decodeAt_stays (fun s => decodeCompleteCollectionElementInternal_stays hd s 0) ho).bind
  intro element o₁ _
  apply (decodeU32_stays src o₁).bind
  intro boundsCount o₂ ho₂
  apply Stays.bind_value (checkedUsize_ne _ _)
  intro capacity
  exact (decodeRepeat_stays (decodeU32_stays src) capacity o₂ ho₂).bind_return
    fun _ _ => ⟨_, rfl⟩

theorem CompleteMapType.decodeCdr2Le_stays (src : List UInt8) :
    Stays .sliceOutOfRange src.length (CompleteMapType.decodeCdr2Le decodeObject src) := by
  unfold CompleteMapType.decodeCdr2Le
  apply (decodeAt_stays (fun s => decodeCompleteCollectionHeaderInternal_stays s 0)
    (Nat.zero_le _)).bind
  intro header o ho
  apply (decodeAt_stays (fun s => decodeCompleteCollectionElementInternal_stays hd s 0) ho).bind
  intro key o₁ ho₁
  exact (decodeAt_stays (fun s => decodeCompleteCollectionElementInternal_stays hd s 0)
    ho₁).bind_return fun _ _ => ⟨_, rfl⟩

/-! ### Aliases -/

theorem CommonAliasBody.decodeCdr2Le_stays (src : List UInt8) :
    Stays .sliceOutOfRange src.length (CommonAliasBody.decodeCdr2Le decodeObject src) := by
  unfold CommonAliasBody.decodeCdr2Le
  apply (decodeAt_stays (fun s => decodeU16_stays s 0) (Nat.zero_le _)).bind
  intro relatedFlags o ho
  exact (decodeAt_stays (fun s => decodeTypeIdentifierInternal_stays hd s 0) ho).bind_return
    fun _ _ => ⟨_, rfl⟩

theorem CompleteAliasType.decodeCdr2Le_stays (src : List UInt8) :
    Stays .sliceOutOfRange src.length (CompleteAliasType.decodeCdr2Le decodeObject src) := by
  unfold CompleteAliasType.decodeCdr2Le
  apply (decodeAt_stays (fun s => decodeU16_stays s 0) (Nat.zero_le _)).bind
  intro aliasFlags o ho
  apply (decodeAt_stays CompleteTypeDetail.decodeCdr2Le_stays ho).bind
  intro header o₁ ho₁
  -- the body's common part is itself read from the body's own slice
  refine (decodeAt_stays (fun s => ?_) ho₁).bind_return fun _ _ => ⟨_, rfl⟩
  exact decodeThenAt_stays (decodeAt_stays (CommonAliasBody.decodeCdr2Le_stays hd) (Nat.zero_le _))
    CompleteTypeDetail.decodeCdr2Le_stays

/-! ### Type objects -/

theorem CompleteTypeObject.decodeWith_stays (src : List UInt8) :
    Stays .sliceOutOfRange src.length (CompleteTypeObject.decodeWith decodeObject src) := by
  unfold CompleteTypeObject.decodeWith
  apply (decodeU8_stays src 0).bind
  intro discriminator o ho
  dsimp only
  -- every kind is decoded from the rest of the input, after the discriminator
  split
  · exact decodeAt_wrap_stays _ (CompleteStructType.decodeCdr2Le_stays hd) ho
  · exact decodeAt_wrap_stays _ (CompleteUnionType.decodeCdr2Le_stays hd) ho
  · exact decodeAt_wrap_stays _ CompleteEnumeratedType.decodeCdr2Le_stays ho
  · exact decodeAt_wrap_stays _ CompleteBitmaskType.decodeCdr2Le_stays ho
  · exact decodeAt_wrap_stays _ (CompleteBitsetType.decodeCdr2Le_stays hd) ho
  · exact decodeAt_wrap_stays _ (CompleteSequenceType.decodeCdr2Le_stays hd) ho
  · exact decodeAt_wrap_stays _ (CompleteArrayType.decodeCdr2Le_stays hd) ho
  · exact decodeAt_wrap_stays _ (CompleteMapType.decodeCdr2Le_stays hd) ho
  · exact decodeAt_wrap_stays _ (CompleteAliasType.decodeCdr2Le_stays hd) ho
  · exact decodeAt_wrap_stays _ (CompleteAnnotationType.decodeCdr2Le_stays hd) ho
  · exact stays_error nofun

theorem MinimalStructType.decodeCdr2Le_stays (src : List UInt8) :
    Stays .sliceOutOfRange src.length (MinimalStructType.decodeCdr2Le decodeObject src) := by
  unfold MinimalStructType.decodeCdr2Le
  apply (decodeU16_stays src 0).bind
  intro structFlags o _
  apply (decodeOption_stays (fun offset _ => decodeTypeIdentifierInternal_stays hd src offset) o).bind
  intro baseType o₁ ho₁
  apply (decodeAt_stays (fun s => stays_ok () (Nat.zero_le s.length)) ho₁).bind
  intro _ o₂ _
  refine (decodeMemberSequence_stays ?_ o₂).bind_return fun _ _ => ⟨_, rfl⟩
  intro offset
  unfold decodeMinimalStructMemberInternal
  apply (decodeCommonStructMemberInternal_stays hd src offset).bind
  intro common o₃ ho₃
  exact (decodeAt_stays (fun s => decodeU32_stays s 0) ho₃).bind_return fun _ _ => ⟨_, rfl⟩

/-! ### The minimal kinds other than the annotation -/

theorem MinimalUnionType.decodeCdr2Le_stays (src : List UInt8) :
    Stays .sliceOutOfRange src.length (MinimalUnionType.decodeCdr2Le decodeObject src) := by
  unfold MinimalUnionType.decodeCdr2Le
  apply (decodeU16_stays src 0).bind
  intro unionFlags o _
  apply (decodeThenAt_stays (decodeTypeIdentifierInternal_stays hd src o)
    MinimalTypeDetail.decodeCdr2Le_stays).bind
  intro discriminator o₁ _
  refine (decodeMemberSequence_stays (fun offset => ?_) o₁).bind_return fun _ _ => ⟨_, rfl⟩
  exact decodeThenAt_stays (decodeCommonUnionMemberInternal_stays hd src offset)
    MinimalMemberDetail.decodeCdr2Le_stays

theorem MinimalBitsetType.decodeCdr2Le_stays (src : List UInt8) :
    Stays .sliceOutOfRange src.length (MinimalBitsetType.decodeCdr2Le decodeObject src) := by
  unfold MinimalBitsetType.decodeCdr2Le
  apply (decodeU16_stays src 0).bind
  intro bitsetFlags o _
  apply (decodeThenAt_stays (decodeBitsetBaseType_stays hd src o)
    MinimalTypeDetail.decodeCdr2Le_stays).bind
  intro baseType o₁ _
  refine (decodeCheckedSeq_stays _ (fun offset => ?_) o₁).bind_return fun _ _ => ⟨_, rfl⟩
  exact decodeThenAt_stays (decodeCommonBitfieldInternal_stays hd src offset)
    MinimalMemberDetail.decodeCdr2Le_stays

theorem MinimalSequenceType.decodeCdr2Le_stays (src : List UInt8) :
    Stays .sliceOutOfRange src.length (MinimalSequenceType.decodeCdr2Le decodeObject src) := by
  unfold MinimalSequenceType.decodeCdr2Le
  apply (decodeAt_stays (fun s => decodeU32_stays s 0) (Nat.zero_le _)).bind
  intro bound o _
  exact (decodeCompleteCollectionElementInternal_stays hd src o).bind_return fun _ _ => ⟨_, rfl⟩

theorem MinimalArrayType.decodeCdr2Le_stays (src : List UInt8) :
    Stays .sliceOutOfRange src.length (MinimalArrayType.decodeCdr2Le decodeObject src) := by
  unfold MinimalArrayType.decodeCdr2Le
  apply (decodeAt_stays (fun s => decodeU32_stays s 0) (Nat.zero_le _)).bind
  intro bound o _
  apply (decodeCompleteCollectionElementInternal_stays hd src o).bind
  intro element o₁ _
  apply (decodeU32_stays src o₁).bind
  intro boundsCount o₂ ho₂
  apply Stays.bind_value (checkedUsize_ne _ _)
  intro capacity
  exact (decodeRepeat_stays (decodeU32_stays src) capacity o₂ ho₂).bind_return
    fun _ _ => ⟨_, rfl⟩

theorem MinimalMapType.decodeCdr2Le_stays (src : List UInt8) :
    Stays .sliceOutOfRange src.length (MinimalMapType.decodeCdr2Le decodeObject src) := by
  unfold MinimalMapType.decodeCdr2Le
  apply (decodeAt_stays (fun s => decodeU32_stays s 0) (Nat.zero_le _)).bind
  intro bound o _
  apply (decodeCompleteCollectionElementInternal_stays hd src o).bind
  intro key o₁ _
  exact (decodeCompleteCollectionElementInternal_stays hd src o₁).bind_return fun _ _ => ⟨_, rfl⟩

theorem MinimalAliasType.decodeCdr2Le_stays (src : List UInt8) :
    Stays .sliceOutOfRange src.length (MinimalAliasType.decodeCdr2Le decodeObject src) := by
  unfold MinimalAliasType.decodeCdr2Le
  apply (decodeAt_stays (fun s => decodeU16_stays s 0) (Nat.zero_le _)).bind
  intro aliasFlags o ho
  apply (decodeAt_stays MinimalTypeDetail.decodeCdr2Le_stays ho).bind
  intro _ o₁ ho₁
  exact (decodeAt_stays (CommonAliasBody.decodeCdr2Le_stays hd) ho₁).bind_return
    fun _ _ => ⟨_, rfl⟩

end Decoders

/-! ## The decoders -/

/-- Every fuel: a nesting the fuel does not reach ends in `fuelExhausted`, not in a panic. -/
theorem CompleteTypeObject.decodeFuel_stays :
    ∀ fuel src, Stays .sliceOutOfRange (List.length src) (CompleteTypeObject.decodeFuel fuel src)
  | 0, _ => stays_error nofun
  | fuel + 1, src => CompleteTypeObject.decodeWith_stays (decodeFuel_stays fuel) src

/-- **The complete decoders stay within their input.** On every byte string,
`CompleteTypeObject::decode_cdr2_le` and `TypeIdentifier::decode_cdr2_le` never slice past the
end, and what they report as used is at most the input's length. -/
theorem complete_decoders_stay_within_input (src : List UInt8) :
    (CompleteTypeObject.decodeCdr2Le src ≠ .error .sliceOutOfRange ∧
      ∀ t n, CompleteTypeObject.decodeCdr2Le src = .ok (t, n) → n ≤ src.length) ∧
    (TypeIdentifier.decodeCdr2Le src ≠ .error .sliceOutOfRange ∧
      ∀ t n, TypeIdentifier.decodeCdr2Le src = .ok (t, n) → n ≤ src.length) :=
  ⟨CompleteTypeObject.decodeFuel_stays _ src,
    decodeTypeIdentifierInternal_stays (CompleteTypeObject.decodeFuel_stays _) src 0⟩

/-! ## The minimal decoders -/

/-- Every minimal kind but the annotation: its decoder is read from the rest of the input, after
the discriminator, and stays within it. -/
theorem MinimalTypeObject.decodeCdr2Le_stays_of_ne (src : List UInt8)
    (hkind : src.head? ≠ some 0x0A) :
    Stays .sliceOutOfRange src.length (MinimalTypeObject.decodeCdr2Le src) := by
  have hd := CompleteTypeObject.decodeFuel_stays src.length
  unfold MinimalTypeObject.decodeCdr2Le
  dsimp only
  cases src with
  | nil =>
    rw [decodeU8_of_le (show ([] : List UInt8).length ≤ 0 from le_refl 0)]
    exact stays_error (err_ne_sliceOutOfRange _)
  | cons b rest =>
    have hb : b ≠ 0x0A := fun h => hkind (by rw [h]; rfl)
    have ho : 0 + 1 ≤ (b :: rest).length := by simp
    rw [decodeU8_of_lt (Nat.zero_lt_succ _), ok_bind, List.getD_cons_zero]
    -- the discriminator is `b`, and the kind is decoded from the rest of the input
    split
    · exact decodeAt_wrap_stays _ (MinimalStructType.decodeCdr2Le_stays hd) ho
    · exact decodeAt_wrap_stays _ (MinimalUnionType.decodeCdr2Le_stays hd) ho
    · exact decodeAt_wrap_stays _ MinimalEnumeratedType.decodeCdr2Le_stays ho
    · exact decodeAt_wrap_stays _ MinimalBitmaskType.decodeCdr2Le_stays ho
    · exact decodeAt_wrap_stays _ (MinimalBitsetType.decodeCdr2Le_stays hd) ho
    · exact decodeAt_wrap_stays _ (MinimalSequenceType.decodeCdr2Le_stays hd) ho
    · exact decodeAt_wrap_stays _ (MinimalArrayType.decodeCdr2Le_stays hd) ho
    · exact decodeAt_wrap_stays _ (MinimalMapType.decodeCdr2Le_stays hd) ho
    · exact decodeAt_wrap_stays _ (MinimalAliasType.decodeCdr2Le_stays hd) ho
    · rename_i hann
      exact absurd (UInt8.toNat_inj.mp (by rw [hann]; rfl)) hb
    · exact stays_error (err_ne_sliceOutOfRange _)

/-- **The minimal decoder stays within its input, annotations apart.** On every byte string
whose first byte is not the annotation kind `0x0A`, `MinimalTypeObject::decode_cdr2_le` never
slices past the end, and what it reports as used is at most the input's length. -/
theorem minimal_decoder_stays_within_input_but_annotations (src : List UInt8)
    (hkind : src.head? ≠ some 0x0A) :
    MinimalTypeObject.decodeCdr2Le src ≠ .error .sliceOutOfRange ∧
      ∀ t n, MinimalTypeObject.decodeCdr2Le src = .ok (t, n) → n ≤ src.length :=
  MinimalTypeObject.decodeCdr2Le_stays_of_ne src hkind

/-- The fourteen bytes on which the annotation loop slices past the end, read as a minimal
bitmask. -/
theorem minimal_decoder_stays_within_input_but_annotations_bitmask :
    ([0x04, 2, 0, 0, 0, 0, 0, 0x02, 7, 1, 0, 0, 0, 0] : List UInt8).head? ≠ some 0x0A ∧
      MinimalTypeObject.decodeCdr2Le [0x04, 2, 0, 0, 0, 0, 0, 0x02, 7, 1, 0, 0, 0, 0] ≠
        .error .sliceOutOfRange :=
  ⟨by decide, (minimal_decoder_stays_within_input_but_annotations _ (by decide)).1⟩

/-! ## The minimal annotation loop -/

/-- **The minimal annotation decoder slices past the end of its input.** A first parameter that
ends the input at an offset that is not a multiple of 4, with a count of at least two: the loop
aligns the offset of the second parameter past the end and takes `&src[offset..]` there, where
`decodeCompleteAnnotationParams` checks the offset first. -/
theorem minimal_annotation_decoder_slices_past_end (count : UInt32) (hcount : 2 ≤ count.toNat)
    (hmax : count.toNat ≤ maxSequenceLength) (p : List UInt8)
    (param : MinimalAnnotationParameter TypeIdentifier)
    (hp : MinimalAnnotationParameter.decodeCdr2Le (CompleteTypeObject.decodeFuel (p.length + 5)) p =
      .ok (param, p.length))
    (hend : ¬4 ∣ p.length) :
    MinimalTypeObject.decodeCdr2Le ([0x0A] ++ toLE 4 count.toNat ++ p) = .error .sliceOutOfRange := by
  set d := CompleteTypeObject.decodeFuel (p.length + 5)
  set s := toLE 4 count.toNat ++ p with hs
  have hslen : s.length = 4 + p.length := by
    simp only [hs, List.length_append, length_toLE]
  have hdrop : s.drop 4 = p := List.drop_left' (length_toLE 4 _)
  obtain ⟨k, hk⟩ : ∃ k, count.toNat = k + 2 := ⟨count.toNat - 2, by omega⟩
  -- the first parameter ends the slice; the second is aligned past its end
  have hloop : decodeElems (decodeAt (MinimalAnnotationParameter.decodeCdr2Le d)) s count.toNat 4 =
      .error .sliceOutOfRange := by
    have hpast : s.length < alignOffset (4 + p.length) 4 := by
      rw [hslen]
      exact lt_alignOffset (by norm_num) (by omega)
    rw [hk, decodeElems, alignOffset_of_dvd (by norm_num) (dvd_refl 4),
      decodeAt_of_le _ (by omega), hdrop, hp, map_ok, ok_bind]
    simp only [decodeElems, decodeAt_of_lt _ hpast, error_bind]
  have hann : MinimalAnnotationType.decodeCdr2Le d s = .error .sliceOutOfRange := by
    have hcount := @decodeU32_toLE 0 [] p count (by simp [alignOffset])
    simp only [List.nil_append, List.length_nil, Nat.zero_add, ← hs] at hcount
    rw [MinimalAnnotationType.decodeCdr2Le, decodeAt_of_le _ (Nat.zero_le _)]
    simp only [map_ok, ok_bind, Nat.add_zero, hcount, checkedUsize_of_le _ hmax, hloop]
    rfl
  have hlen : ([0x0A] ++ s).length = p.length + 5 := by
    rw [List.length_append, hslen]
    simp only [List.length_singleton]
    omega
  rw [List.append_assoc, ← hs, MinimalTypeObject.decodeCdr2Le, hlen, decodeU8_of_lt (by omega)]
  have hdisc : ([0x0A] ++ s).getD 0 0 = 0x0A := rfl
  have hslice : ([0x0A] ++ s).drop 1 = s := rfl
  have hcode : (0x0A : UInt8).toNat = 0x0A := rfl
  simp only [ok_bind, hdisc, hcode]
  rw [decodeAt_of_le _ (by omega), hslice, hann]
  rfl

/-- Fourteen bytes: an annotation of two parameters whose first, of type `string<7>`, ends the
input at offset 13. -/
theorem minimal_annotation_decoder_slices_past_end_fourteen_bytes :
    2 ≤ (2 : UInt32).toNat ∧ (2 : UInt32).toNat ≤ maxSequenceLength ∧
    MinimalAnnotationParameter.decodeCdr2Le (CompleteTypeObject.decodeFuel (9 + 5))
      [0, 0, 0x02, 7, 1, 0, 0, 0, 0] = .ok (⟨⟨0, .stringSmall 7⟩, 1, none⟩, 9) ∧ ¬4 ∣ 9 ∧
    MinimalTypeObject.decodeCdr2Le ([0x0A] ++ toLE 4 (2 : UInt32).toNat ++ [0, 0, 0x02, 7, 1, 0, 0, 0, 0]) =
      .error .sliceOutOfRange :=
  ⟨by decide, by decide, rfl, by decide,
    minimal_annotation_decoder_slices_past_end 2 (by decide) (by decide) _ _ rfl (by decide)⟩

end Hdds.Xtypes
