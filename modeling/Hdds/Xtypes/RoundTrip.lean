import Mathlib
import Hdds.Foundations.Codec
import Hdds.Xtypes.Encode
import Hdds.Xtypes.Decode

/-! # What the type-object decoders read back

`TypeIdentifier::encode_cdr2_le` writes an identifier from its own offset 0, and
`decode_type_identifier_internal` reads it from an offset into a larger input, aligning its
`u32` and `i32` fields from the start of that input. The two agree when the identifier starts at
an offset aligned to 4, or holds no aligned field: `decodeTypeIdentifierInternal_written` reads
back every identifier but an inline one from any such position, and
`type_identifier_round_trip` is its instance at the start of the buffer.

A struct member's type is written after its 4-byte id and 2-byte flags, six bytes past an offset
the member loop aligns to 4. A large string bound there is written at member offset 10 and read
at member offset 8: `large_string_member_type_misread`.

A union member's labels are written after its type, from their own offset 0. After a hashed
identifier, 21 bytes into the member, the decoder aligns the label count to member offset 24:
`union_member_label_count_misread`.

`compute_equivalence_hash` encodes into `max_cdr2_size` bytes, which counts 1024 for a type
detail whatever its name: `equivalence_hash_fails_for_long_type_names`.
-/

namespace Hdds.Xtypes
open Wire Codec
open Hdds.Ser (utf8Bytes)
set_option autoImplicit false

/-! ## The writes of an identifier -/

theorem written_bytes_gap_bytes (a b old : List UInt8) (k : ℕ)
    (h : a.length + k + b.length ≤ old.length) :
    written (a.map some ++ List.replicate k none ++ b.map some) old =
      a ++ (old.drop a.length).take k ++ b := by
  rw [written_append _ _ _ (by simp; omega), written_append _ _ _ (by simp; omega),
    written_map_some _ _ (by omega), written_replicate_none, written_map_some _ _ (by simp; omega)]
  simp

section Shapes
variable {d : UInt8} {dst : ℕ} {w : Writes}

theorem encodeU8_encodeU8_eq_ok {v : UInt8} (h : (encodeU8 d dst [] >>= encodeU8 v dst) = .ok w) :
    w = [d, v].map some ∧ 2 ≤ dst := by
  obtain ⟨w₁, h₁, h₂⟩ := bind_eq_ok h
  obtain ⟨rfl, -⟩ := encodeU8_eq_ok h₁
  obtain ⟨rfl, hlt⟩ := encodeU8_eq_ok h₂
  simp at hlt
  exact ⟨rfl, hlt⟩

/-- A `u32` after the discriminator is aligned to the identifier's offset 4. -/
theorem encodeU8_encodeU32_eq_ok {v : UInt32} (h : (encodeU8 d dst [] >>= encodeU32 v dst) = .ok w) :
    w = [d].map some ++ List.replicate 3 none ++ (toLE 4 v.toNat).map some ∧ 8 ≤ dst := by
  obtain ⟨w₁, h₁, h₂⟩ := bind_eq_ok h
  obtain ⟨rfl, -⟩ := encodeU8_eq_ok h₁
  obtain ⟨rfl, hle⟩ := encodeLe_eq_ok h₂
  simp [pad, alignOffset] at hle ⊢
  exact hle

theorem encodeU8_encodeBytes_eq_ok {bytes : List UInt8}
    (h : (encodeU8 d dst [] >>= encodeBytes bytes dst) = .ok w) :
    w = (d :: bytes).map some ∧ bytes.length + 1 ≤ dst := by
  obtain ⟨w₁, h₁, h₂⟩ := bind_eq_ok h
  obtain ⟨rfl, -⟩ := encodeU8_eq_ok h₁
  obtain ⟨rfl, hle⟩ := encodeBytes_eq_ok h₂
  exact ⟨rfl, by simpa [Nat.add_comm] using hle⟩

/-- The hash ends at offset 15, so the first `i32` steps over one byte. -/
theorem encodeStronglyConnected_eq_ok {sc : StronglyConnectedComponentId}
    (h : (encodeU8 0x08 dst [] >>= encodeBytes sc.scComponentId.bytes dst >>=
      encodeI32 sc.sccLength dst >>= encodeI32 sc.sccIndex dst) = .ok w) :
    w = (0x08 :: sc.scComponentId.bytes).map some ++ List.replicate 1 none ++
      (toLE 4 sc.sccLength.toUInt32.toNat ++ toLE 4 sc.sccIndex.toUInt32.toNat).map some ∧
      24 ≤ dst := by
  obtain ⟨w₃, h₃, h₄⟩ := bind_eq_ok h
  obtain ⟨w₂, h₂, h₃⟩ := bind_eq_ok h₃
  obtain ⟨rfl, -⟩ := encodeU8_encodeBytes_eq_ok h₂
  obtain ⟨rfl, -⟩ := encodeLe_eq_ok h₃
  obtain ⟨rfl, hle⟩ := encodeLe_eq_ok h₄
  have hlen := sc.scComponentId.length_eq
  simp [pad, alignOffset, hlen] at hle ⊢
  exact hle

end Shapes

/-- Every identifier but an inline one fits in 24 bytes. -/
theorem TypeIdentifier.encodeCdr2Le_ok_of_le {t : TypeIdentifier} (ht : ∀ o, t ≠ .inline o)
    {dst : ℕ} (hdst : 24 ≤ dst) : ∃ w, t.encodeCdr2Le dst = .ok w := by
  cases t with
  | inline o => exact absurd rfl (ht o)
  | stronglyConnected sc =>
    have hlen := sc.scComponentId.length_eq
    simp (disch := simp [pad, alignOffset, hlen]; omega) only [TypeIdentifier.encodeCdr2Le,
      encodeI32, encodeU8_of_lt, ok_bind, encodeBytes_of_le, encodeLe_of_le, Except.ok.injEq,
      exists_eq']
  | _ =>
    simp (disch := simp [pad, alignOffset, ByteArr.length_eq]; omega) only
      [TypeIdentifier.encodeCdr2Le, encodeU32, encodeU8_of_lt, ok_bind, encodeBytes_of_le,
        encodeLe_of_le, Except.ok.injEq, exists_eq']

/-! ## Reading an identifier back -/

/-- The identifiers whose encoding holds a field aligned from the identifier's own start: the
`u32` bound of a large string, the `i32`s of a strongly connected component, and what an inline
type object holds. -/
def TypeIdentifier.hasAlignedField : TypeIdentifier → Bool
  | .stringLarge _ | .wstringLarge _ | .stronglyConnected _ | .inline _ => true
  | _ => false

theorem TypeIdentifier.ne_inline_of_hasAlignedField {t : TypeIdentifier}
    (ht : t.hasAlignedField = false) (o : CompleteTypeObject TypeIdentifier) : t ≠ .inline o := by
  rintro rfl
  cases ht

theorem decodeU8_append_cons (pre : List UInt8) (b c : UInt8) (rest : List UInt8) :
    decodeU8 (pre ++ b :: c :: rest) (pre.length + 1) = .ok (c, pre.length + 2) := by
  have h := decodeU8_append (pre ++ [b]) c rest
  simpa only [List.append_assoc, List.singleton_append, List.length_append,
    List.length_singleton] using h

theorem decodeU32_after_tag (pre mid rest : List UInt8) (b : UInt8) (value : UInt32)
    (hmid : mid.length = 3) (hpre : 4 ∣ pre.length) :
    decodeU32 (pre ++ b :: (mid ++ (toLE 4 value.toNat ++ rest))) (pre.length + 1) =
      .ok (value, pre.length + 8) := by
  have h := @decodeU32_toLE (pre.length + 1) (pre ++ b :: mid) rest value (by
    simp only [alignOffset, List.length_append, List.length_cons, hmid]
    omega)
  simpa only [List.append_assoc, List.cons_append, List.length_append, List.length_cons, hmid]
    using h

theorem decodeByteArr_after_tag {n : ℕ} (pre rest : List UInt8) (b : UInt8) (a : ByteArr n) :
    decodeByteArr n (pre ++ b :: (a.bytes ++ rest)) (pre.length + 1) =
      .ok (a, pre.length + 1 + n) := by
  have h := decodeByteArr_append (pre ++ [b]) rest a
  simp only [List.append_assoc, List.cons_append, List.nil_append, List.length_append,
    List.length_singleton] at h
  exact h

section Reading
variable (decodeObject : List UInt8 → Except Fault (CompleteTypeObject TypeIdentifier × ℕ))

/-- What the encoder wrote for an identifier, with any bytes before and after it, is read back
from where it starts, if that is aligned to 4 or the identifier holds no aligned field. -/
theorem decodeTypeIdentifierInternal_written {t : TypeIdentifier} (ht : ∀ o, t ≠ .inline o)
    {buf : List UInt8} {w : Writes} (henc : t.encodeCdr2Le buf.length = .ok w)
    (pre rest : List UInt8) (hpre : t.hasAlignedField → 4 ∣ pre.length) :
    decodeTypeIdentifierInternal decodeObject (pre ++ written w buf ++ rest) pre.length =
      .ok (t, pre.length + w.length) := by
  cases t with
  | primitive kind =>
    obtain ⟨rfl, hdst⟩ := encodeU8_encodeU8_eq_ok henc
    rw [written_map_some _ _ (by simpa using hdst)]
    simp only [decodeTypeIdentifierInternal, List.append_assoc, List.cons_append, List.nil_append,
      decodeU8_append, ok_bind, decodeU8_append_cons, TypeKind.fromU8_toU8]
    rfl
  | stringSmall bound | wstringSmall bound =>
    obtain ⟨rfl, hdst⟩ := encodeU8_encodeU8_eq_ok henc
    rw [written_map_some _ _ (by simpa using hdst)]
    simp only [decodeTypeIdentifierInternal, List.append_assoc, List.cons_append, List.nil_append,
      decodeU8_append, ok_bind, decodeU8_append_cons]
    rfl
  | stringLarge bound | wstringLarge bound =>
    obtain ⟨rfl, hdst⟩ := encodeU8_encodeU32_eq_ok henc
    rw [written_bytes_gap_bytes _ _ _ _ (by simp; omega)]
    have hmid : ((buf.drop 1).take 3).length = 3 := by simp; omega
    simp only [decodeTypeIdentifierInternal, List.append_assoc, List.cons_append, List.nil_append,
      List.length_singleton, decodeU8_append, ok_bind, UInt8.reduceToNat,
      decodeU32_after_tag pre _ rest _ bound hmid (hpre rfl)]
    rfl
  | minimal hash | complete hash =>
    obtain ⟨rfl, hdst⟩ := encodeU8_encodeBytes_eq_ok henc
    rw [written_map_some _ _ (by simpa using hdst)]
    simp only [decodeTypeIdentifierInternal, List.append_assoc, List.cons_append,
      decodeU8_append, ok_bind, UInt8.reduceToNat, decodeByteArr_after_tag]
    simp [hash.length_eq]
    rfl
  | stronglyConnected sc =>
    obtain ⟨rfl, hdst⟩ := encodeStronglyConnected_eq_ok henc
    obtain ⟨hash, length, index⟩ := sc
    have hlen := hash.length_eq
    rw [written_bytes_gap_bytes _ _ _ _ (by simp [hlen]; omega)]
    have h4 := hpre rfl
    -- the byte the first `i32` steps over keeps what the buffer held
    set mid := (buf.drop (0x08 :: hash.bytes).length).take 1
    have hmid : mid.length = 1 := by simp [mid, hlen]; omega
    set lengthBytes := toLE 4 length.toUInt32.toNat
    set indexBytes := toLE 4 index.toUInt32.toNat
    have hlength : decodeI32 (pre ++ 8 :: (hash.bytes ++ (mid ++ (lengthBytes ++
        (indexBytes ++ rest))))) (pre.length + 15) = .ok (length, pre.length + 20) := by
      have h := @decodeI32_toLE (pre.length + 15) (pre ++ 8 :: (hash.bytes ++ mid))
        (indexBytes ++ rest) length (by simp [alignOffset, hlen, hmid]; omega)
      simp only [List.append_assoc, List.cons_append, List.length_append, List.length_cons, hlen,
        hmid] at h
      rw [h]
    have hindex : decodeI32 (pre ++ 8 :: (hash.bytes ++ (mid ++ (lengthBytes ++
        (indexBytes ++ rest))))) (pre.length + 20) = .ok (index, pre.length + 24) := by
      have h := @decodeI32_toLE (pre.length + 20)
        (pre ++ 8 :: (hash.bytes ++ (mid ++ lengthBytes))) rest index
        (by simp [alignOffset, hlen, hmid, lengthBytes]; omega)
      simp only [List.append_assoc, List.cons_append, List.length_append, List.length_cons, hlen,
        hmid, lengthBytes, length_toLE] at h
      rw [h]
    simp only [decodeTypeIdentifierInternal, List.append_assoc, List.cons_append,
      decodeU8_append, ok_bind, UInt8.reduceToNat, decodeByteArr_after_tag, hlength, hindex]
    simp [hlen, lengthBytes, indexBytes]
    rfl
  | inline o => exact absurd rfl (ht o)

theorem ofLE_pair_append_toLE_div (m₁ m₂ : UInt8) (n : ℕ) :
    ofLE ([m₁, m₂] ++ toLE 2 n) / 2 ^ 16 = n % 2 ^ 16 := by
  have h₁ := m₁.toNat_lt
  have h₂ := m₂.toNat_lt
  rw [ofLE_append, ofLE_toLE]
  simp only [ofLE_cons, ofLE_nil, List.length_cons, List.length_nil]
  omega

/-- A large string identifier at an offset two past a multiple of 4: the bound is read from
the input's next multiple of 4, two bytes before where the encoder, aligning from the
identifier's own start, wrote it. -/
theorem decodeTypeIdentifierInternal_stringLarge_shifted (pre mid rest : List UInt8)
    (bound : UInt32) (hmid : mid.length = 3) (hpre : pre.length % 4 = 2) :
    decodeTypeIdentifierInternal decodeObject (pre ++ 3 :: (mid ++ (toLE 4 bound.toNat ++ rest)))
        pre.length =
      .ok (.stringLarge (UInt32.ofNat (ofLE (mid.drop 1 ++ toLE 2 bound.toNat))), pre.length + 6) := by
  obtain ⟨m₀, m₁, m₂, rfl⟩ := List.length_eq_three.mp hmid
  have hsrc : pre ++ 3 :: ([m₀, m₁, m₂] ++ (toLE 4 bound.toNat ++ rest)) =
      (pre ++ [3, m₀]) ++ ([m₁, m₂] ++ toLE 2 bound.toNat) ++
        (toLE 2 (bound.toNat / 256 ^ 2) ++ rest) := by
    rw [show 4 = 2 + 2 from rfl, toLE_add]
    simp
  have hfield := field_append_self (pre ++ [3, m₀]) ([m₁, m₂] ++ toLE 2 bound.toNat)
    (toLE 2 (bound.toNat / 256 ^ 2) ++ rest)
  have halign : alignOffset (pre.length + 1) 4 = pre.length + 2 := by
    unfold alignOffset
    omega
  have hread : decodeU32 (pre ++ 3 :: ([m₀, m₁, m₂] ++ (toLE 4 bound.toNat ++ rest)))
      (pre.length + 1) =
        .ok (UInt32.ofNat (ofLE ([m₁, m₂] ++ toLE 2 bound.toNat)), pre.length + 6) := by
    rw [hsrc, decodeU32, decodeLe_of_le (by simp [halign]; omega), halign]
    simp only [List.length_append, List.length_cons, List.length_nil, length_toLE] at hfield
    rw [hfield]
    rfl
  simp only [decodeTypeIdentifierInternal, decodeU8_append, ok_bind, UInt8.reduceToNat, hread]
  rfl

/-- The bound read two bytes early has the written bound's low half as its high half. -/
theorem stringLarge_misread_ne {bound : UInt32} (hb : bound.toNat % 2 ^ 16 ≠ bound.toNat / 2 ^ 16)
    (m₁ m₂ : UInt8) : UInt32.ofNat (ofLE ([m₁, m₂] ++ toLE 2 bound.toNat)) ≠ bound := by
  intro heq
  have hlt : ofLE ([m₁, m₂] ++ toLE 2 bound.toNat) < 2 ^ 32 := by
    have := ofLE_lt ([m₁, m₂] ++ toLE 2 bound.toNat)
    simpa using this
  have hnat := UInt32.toNat_ofNat_of_lt' hlt
  rw [heq] at hnat
  apply hb
  rw [← ofLE_pair_append_toLE_div m₁ m₂, ← hnat]

end Reading

/-- Round trip: every identifier but an inline one is encoded into any buffer of 24 bytes or
more, and decoding that buffer gives it back with the length the encoder reported. -/
theorem type_identifier_round_trip (t : TypeIdentifier) (ht : ∀ o, t ≠ .inline o)
    (buf : List UInt8) (hbuf : 24 ≤ buf.length) :
    ∃ w, t.encodeCdr2Le buf.length = .ok w ∧
      TypeIdentifier.decodeCdr2Le (overwrite buf w) = .ok (t, w.length) := by
  obtain ⟨w, hw⟩ := TypeIdentifier.encodeCdr2Le_ok_of_le ht hbuf
  refine ⟨w, hw, ?_⟩
  have h := decodeTypeIdentifierInternal_written
    (CompleteTypeObject.decodeFuel (overwrite buf w).length) ht hw [] (buf.drop w.length)
    (fun _ => dvd_zero 4)
  simpa [TypeIdentifier.decodeCdr2Le, overwrite] using h

theorem type_identifier_round_trip_string_large :
    (∀ o, TypeIdentifier.stringLarge 300 ≠ .inline o) ∧ 24 ≤ (List.replicate 24 (0 : UInt8)).length ∧
      ∃ w, (TypeIdentifier.stringLarge 300).encodeCdr2Le (List.replicate 24 (0 : UInt8)).length =
          .ok w ∧
        TypeIdentifier.decodeCdr2Le (overwrite (List.replicate 24 0) w) =
          .ok (.stringLarge 300, w.length) :=
  ⟨fun _ => nofun, by decide,
    type_identifier_round_trip (.stringLarge 300) (fun _ => nofun) (List.replicate 24 0) (by decide)⟩

/-! ## Struct members -/

/-- The id and the flags each from offset 0 of the rest of the buffer, then the type. -/
theorem CommonStructMember.encodeCdr2Le_eq_ok {c : CommonStructMember TypeIdentifier} {dst : ℕ}
    {w : Writes} (h : c.encodeCdr2Le dst = .ok w) :
    ∃ wt, c.memberTypeId.encodeCdr2Le (dst - 6) = .ok wt ∧
      w = (toLE 4 c.memberId.toNat ++ toLE 2 c.memberFlags.toNat).map some ++ wt ∧ 6 ≤ dst := by
  obtain ⟨memberId, memberFlags, memberTypeId⟩ := c
  simp only [CommonStructMember.encodeCdr2Le, encodeFieldsSequential, List.foldlM_cons,
    List.foldlM_nil] at h
  obtain ⟨w₁, h₁, h⟩ := bind_eq_ok h
  obtain ⟨w₂, h₂, h⟩ := bind_eq_ok h
  obtain ⟨w₃, h₃, h⟩ := bind_eq_ok h
  cases h
  obtain ⟨v₁, hv₁, rfl, -⟩ := encodeAt_eq_ok h₁
  obtain ⟨rfl, hle₁⟩ := encodeLe_eq_ok hv₁
  obtain ⟨v₂, hv₂, rfl, -⟩ := encodeAt_eq_ok h₂
  obtain ⟨rfl, hle₂⟩ := encodeLe_eq_ok hv₂
  obtain ⟨v₃, hv₃, rfl, -⟩ := encodeAt_eq_ok h₃
  simp [pad, alignOffset] at hle₁ hle₂ hv₃ ⊢
  exact ⟨hv₃, by omega⟩

/-- The id and the flags a member starts with, read from an offset aligned to 4. -/
theorem decodeIdFlags_toLE (memberId : UInt32) (memberFlags : UInt16) (pre rest : List UInt8)
    (hpre : 4 ∣ pre.length) :
    decodeU32 (pre ++ (toLE 4 memberId.toNat ++ (toLE 2 memberFlags.toNat ++ rest))) pre.length =
        .ok (memberId, pre.length + 4) ∧
      decodeU16 (pre ++ (toLE 4 memberId.toNat ++ (toLE 2 memberFlags.toNat ++ rest)))
        (pre.length + 4) = .ok (memberFlags, pre.length + 4 + 2) := by
  have hid := decodeU32_toLE pre (toLE 2 memberFlags.toNat ++ rest) memberId
    (alignOffset_of_dvd (by norm_num) hpre)
  have hflags := decodeU16_toLE (pre ++ toLE 4 memberId.toNat) rest memberFlags (by
    simp only [List.length_append, length_toLE]
    exact alignOffset_of_dvd (by norm_num) (by omega))
  simp only [List.append_assoc, List.length_append, length_toLE] at hid hflags
  exact ⟨hid, hflags⟩

section Members
variable (decodeObject : List UInt8 → Except Fault (CompleteTypeObject TypeIdentifier × ℕ))

/-- A member whose type holds no aligned field is read back from an offset aligned to 4, where
`decode_member_sequence` starts each member. -/
theorem decodeCommonStructMemberInternal_written {c : CommonStructMember TypeIdentifier}
    (ht : c.memberTypeId.hasAlignedField = false) {buf : List UInt8} {w : Writes}
    (henc : c.encodeCdr2Le buf.length = .ok w) (pre rest : List UInt8) (hpre : 4 ∣ pre.length) :
    decodeCommonStructMemberInternal decodeObject (pre ++ written w buf ++ rest) pre.length =
      .ok (c, pre.length + w.length) := by
  obtain ⟨wt, hwt, rfl, h6⟩ := CommonStructMember.encodeCdr2Le_eq_ok henc
  rw [← List.length_drop] at hwt
  rw [written_append _ _ _ (by simp; omega), written_map_some _ _ (by simp; omega)]
  simp only [List.length_map, List.length_append, length_toLE, Nat.reduceAdd]
  obtain ⟨hid, hflags⟩ :=
    decodeIdFlags_toLE c.memberId c.memberFlags pre (written wt (buf.drop 6) ++ rest) hpre
  have htype := decodeTypeIdentifierInternal_written decodeObject
    (TypeIdentifier.ne_inline_of_hasAlignedField ht) hwt
    (pre ++ toLE 4 c.memberId.toNat ++ toLE 2 c.memberFlags.toNat) rest (by simp [ht])
  simp only [List.append_assoc, List.length_append, length_toLE] at htype
  simp only [decodeCommonStructMemberInternal, List.append_assoc, hid, ok_bind, hflags, htype]
  simp only [Nat.add_assoc, Nat.reduceAdd]
  rfl

/-- **A member of a large string type is misread.** Its bound is written at member offset 10,
aligned from the type's own start six bytes into the member, and read at member offset 8,
aligned from the start of the input: the decoder returns another bound, whose high half is the
written bound's low half, and stops two bytes before the end of what the encoder wrote. -/
theorem large_string_member_type_misread {c : CommonStructMember TypeIdentifier} {bound : UInt32}
    (hc : c.memberTypeId = .stringLarge bound) (hb : bound.toNat % 2 ^ 16 ≠ bound.toNat / 2 ^ 16)
    {buf : List UInt8} {w : Writes} (henc : c.encodeCdr2Le buf.length = .ok w)
    (pre rest : List UInt8) (hpre : 4 ∣ pre.length) :
    w.length = 14 ∧ ∃ bound', bound' ≠ bound ∧
      decodeCommonStructMemberInternal decodeObject (pre ++ written w buf ++ rest) pre.length =
        .ok (⟨c.memberId, c.memberFlags, .stringLarge bound'⟩, pre.length + 12) := by
  obtain ⟨wt, hwt, rfl, h6⟩ := CommonStructMember.encodeCdr2Le_eq_ok henc
  rw [hc] at hwt
  obtain ⟨rfl, h8⟩ := encodeU8_encodeU32_eq_ok hwt
  refine ⟨by simp, ?_⟩
  rw [written_append _ _ _ (by simp; omega), written_map_some _ _ (by simp; omega),
    written_bytes_gap_bytes _ _ _ _ (by simp; omega)]
  simp only [List.length_map, List.length_append, length_toLE, List.length_singleton,
    Nat.reduceAdd]
  -- the three bytes the bound's alignment steps over keep what the buffer held
  set mid := ((buf.drop 6).drop 1).take 3
  have hmid : mid.length = 3 := by simp [mid]; omega
  refine ⟨UInt32.ofNat (ofLE (mid.drop 1 ++ toLE 2 bound.toNat)), ?_, ?_⟩
  · obtain ⟨m₀, m₁, m₂, hm⟩ := List.length_eq_three.mp hmid
    rw [hm]
    exact stringLarge_misread_ne hb m₁ m₂
  · obtain ⟨hid, hflags⟩ :=
      decodeIdFlags_toLE c.memberId c.memberFlags pre ((3 :: mid) ++ toLE 4 bound.toNat ++ rest) hpre
    have htype := decodeTypeIdentifierInternal_stringLarge_shifted decodeObject
      (pre ++ toLE 4 c.memberId.toNat ++ toLE 2 c.memberFlags.toNat) mid rest bound hmid
      (by simp; omega)
    simp only [List.append_assoc, List.cons_append, List.length_append,
      length_toLE] at hid hflags htype
    simp only [List.cons_append, List.nil_append, List.append_assoc,
      decodeCommonStructMemberInternal, hid, ok_bind, hflags, htype]
    simp only [Nat.add_assoc, Nat.reduceAdd]
    rfl

end Members

/-- A member `string<300>` with id 1 encoded into 20 zero bytes. -/
theorem large_string_member_type_misread_string_300 :
    (⟨1, 0, .stringLarge 300⟩ : CommonStructMember TypeIdentifier).memberTypeId =
        .stringLarge 300 ∧
      (300 : UInt32).toNat % 2 ^ 16 ≠ (300 : UInt32).toNat / 2 ^ 16 ∧
      (⟨1, 0, .stringLarge 300⟩ : CommonStructMember TypeIdentifier).encodeCdr2Le
          (List.replicate 20 (0 : UInt8)).length =
        .ok ((toLE 4 1 ++ toLE 2 0).map some ++ [some 3, none, none, none] ++
          (toLE 4 300).map some) ∧
      4 ∣ ([] : List UInt8).length ∧
      (((toLE 4 1 ++ toLE 2 0).map some ++ [some 3, none, none, none] ++
          (toLE 4 300).map some).length = 14 ∧ ∃ bound', bound' ≠ 300 ∧
        decodeCommonStructMemberInternal (CompleteTypeObject.decodeFuel 0)
            ([] ++ written ((toLE 4 1 ++ toLE 2 0).map some ++ [some 3, none, none, none] ++
              (toLE 4 300).map some) (List.replicate 20 0) ++ []) ([] : List UInt8).length =
          .ok (⟨1, 0, .stringLarge bound'⟩, ([] : List UInt8).length + 12)) :=
  ⟨rfl, by decide, rfl, by decide,
    @large_string_member_type_misread (CompleteTypeObject.decodeFuel 0) ⟨1, 0, .stringLarge 300⟩ 300
      rfl (by decide) (List.replicate 20 0) _ rfl [] [] (by decide)⟩

/-! ## Union members -/

/-- `i32`s written one after another from an offset aligned to 4 leave no gap between them. -/
theorem encodeRepeat_encodeI32_eq_ok {dst : ℕ} :
    ∀ {labels : List Int32} {w w' : Writes}, 4 ∣ w.length →
      encodeRepeat encodeI32 dst labels w = .ok w' →
      w' = w ++ (labels.flatMap fun l => toLE 4 l.toUInt32.toNat).map some ∧
        w'.length ≤ max w.length dst
  | [], w, w', _, h => by
    cases h
    simp
  | l :: ls, w, w', hw, h => by
    obtain ⟨w₁, h₁, h₂⟩ := bind_eq_ok h
    obtain ⟨rfl, hle⟩ := encodeLe_eq_ok h₁
    have halign : alignOffset w.length 4 = w.length := alignOffset_of_dvd (by norm_num) hw
    have hpad : pad w 4 = w := by simp [pad, halign]
    rw [hpad] at h₂
    rw [halign] at hle
    obtain ⟨rfl, hlen⟩ := encodeRepeat_encodeI32_eq_ok (by simp; omega) h₂
    refine ⟨by simp, ?_⟩
    simp only [List.length_append, List.length_map, length_toLE] at hlen ⊢
    exact hlen.trans (max_le (le_max_of_le_right (by omega)) (le_max_right _ _))

/-- The labels of a union member: their count, then the labels, from their own offset 0. -/
theorem encodeLabels_eq_ok {labels : List Int32} {msg : String} {dst : ℕ} {wl : Writes}
    (h : (encodeLength labels.length msg dst [] >>= encodeRepeat encodeI32 dst labels) = .ok wl) :
    wl = (toLE 4 labels.length ++ labels.flatMap fun l => toLE 4 l.toUInt32.toNat).map some ∧
      wl.length ≤ dst := by
  obtain ⟨w₁, h₁, h₂⟩ := bind_eq_ok h
  unfold encodeLength at h₁
  split at h₁
  · cases h₁
  · rename_i hfit
    obtain ⟨rfl, hle⟩ := encodeLe_eq_ok h₁
    have hn : (UInt32.ofNat labels.length).toNat = labels.length :=
      UInt32.toNat_ofNat_of_lt' (by unfold UInt32.size; omega)
    have hpad : pad [] 4 = [] := rfl
    have halign : alignOffset ([] : Writes).length 4 = 0 := rfl
    rw [hpad, List.nil_append, hn] at h₂
    rw [halign] at hle
    obtain ⟨rfl, hlen⟩ := encodeRepeat_encodeI32_eq_ok (by simp) h₂
    simp only [List.length_map, length_toLE] at hlen
    exact ⟨by simp, hlen.trans (max_le (by omega) le_rfl)⟩

/-- Id, flags and type each from offset 0 of the rest of the buffer, then the labels. -/
theorem CommonUnionMember.encodeCdr2Le_eq_ok {c : CommonUnionMember TypeIdentifier} {dst : ℕ}
    {w : Writes} (h : c.encodeCdr2Le dst = .ok w) :
    ∃ wt wl, c.memberTypeId.encodeCdr2Le (dst - 6) = .ok wt ∧
      (encodeLength c.labelSeq.length "Union label sequence exceeds u32::MAX elements"
        (dst - (6 + wt.length)) [] >>=
          encodeRepeat encodeI32 (dst - (6 + wt.length)) c.labelSeq) = .ok wl ∧
      w = (toLE 4 c.memberId.toNat ++ toLE 2 c.memberFlags.toNat).map some ++ wt ++ wl ∧
      6 + wt.length ≤ dst := by
  obtain ⟨memberId, memberFlags, memberTypeId, labelSeq⟩ := c
  simp only [CommonUnionMember.encodeCdr2Le, encodeFieldsSequential, List.foldlM_cons,
    List.foldlM_nil] at h
  obtain ⟨w₁, h₁, h⟩ := bind_eq_ok h
  obtain ⟨w₂, h₂, h⟩ := bind_eq_ok h
  obtain ⟨w₃, h₃, h⟩ := bind_eq_ok h
  obtain ⟨w₄, h₄, h⟩ := bind_eq_ok h
  cases h
  obtain ⟨v₁, hv₁, rfl, -⟩ := encodeAt_eq_ok h₁
  obtain ⟨rfl, hle₁⟩ := encodeLe_eq_ok hv₁
  obtain ⟨v₂, hv₂, rfl, -⟩ := encodeAt_eq_ok h₂
  obtain ⟨rfl, hle₂⟩ := encodeLe_eq_ok hv₂
  obtain ⟨v₃, hv₃, rfl, -⟩ := encodeAt_eq_ok h₃
  obtain ⟨v₄, hv₄, rfl, hle₄⟩ := encodeAt_eq_ok h₄
  simp [pad, alignOffset] at hle₁ hle₂ hv₃ hv₄ hle₄
  have h6 : v₃.length + 1 + 1 + 1 + 1 + 1 + 1 = 6 + v₃.length := by omega
  rw [h6] at hv₄
  exact ⟨v₃, v₄, hv₃, hv₄, by simp [pad, alignOffset], by omega⟩

theorem checkedUsize_eq_ok {value : UInt32} {context : String} {n : ℕ}
    (h : checkedUsize value context = .ok n) : n = value.toNat := by
  unfold checkedUsize at h
  split at h
  · cases h
  · cases h
    rfl

/-- `decodeRepeat` returns as many elements as it was asked for. -/
theorem decodeRepeat_length {α : Type} {decodeFn : List UInt8 → ℕ → Except Fault (α × ℕ)}
    {src : List UInt8} : ∀ {count offset : ℕ} {l : List α} {offset' : ℕ},
      decodeRepeat decodeFn src count offset = .ok (l, offset') → l.length = count
  | 0, _, _, _, h => by
    cases h
    rfl
  | count + 1, offset, l, offset', h => by
    obtain ⟨⟨a, o₁⟩, -, h⟩ := bind_eq_ok h
    obtain ⟨⟨l', o₂⟩, hl', h⟩ := bind_eq_ok h
    cases h
    simp [decodeRepeat_length hl']

/-- The low byte of a `u32` read is the byte at the aligned offset. -/
theorem decodeU32_toNat_mod {a rest : List UInt8} {b : UInt8} {offset : ℕ} {v : UInt32} {o : ℕ}
    (halign : alignOffset offset 4 = a.length) (h : decodeU32 (a ++ b :: rest) offset = .ok (v, o)) :
    v.toNat % 256 = b.toNat := by
  unfold decodeU32 decodeLe at h
  rw [halign] at h
  dsimp only at h
  split at h
  · cases h
  · have hfield : field (a ++ b :: rest) a.length 4 = b :: rest.take 3 := by
      rw [← Nat.add_zero a.length, field_append_right]
      rfl
    rw [hfield, map_ok] at h
    cases h
    have hb := b.toNat_lt
    simp only [UInt32.toNat_ofNat', ofLE_cons]
    omega

/-- A count below 256 has three zero bytes above its low one. -/
theorem toLE_four_of_lt {n : ℕ} (hn : n < 256) : toLE 4 n = toLE 3 n ++ [0] := by
  rw [show 4 = 3 + 1 from rfl, toLE_add, Nat.div_eq_of_lt (by omega)]
  rfl

section UnionMembers
variable (decodeObject : List UInt8 → Except Fault (CompleteTypeObject TypeIdentifier × ℕ))

/-- **A union member of a hashed type misreads its label count.** The hashed identifier ends 21
bytes into the member, where the encoder writes the count, from the labels' own offset 0; the
decoder aligns the count's offset from the start of the input, to 24, and reads the count's high
byte and three bytes of the first label. The count it reads is a multiple of 256, so whatever it
returns holds another number of labels than were written. -/
theorem union_member_label_count_misread {c : CommonUnionMember TypeIdentifier}
    {hash : EquivalenceHash} (hc : c.memberTypeId = .minimal hash ∨ c.memberTypeId = .complete hash)
    (hlabels : c.labelSeq ≠ []) (hfew : c.labelSeq.length < 256) {buf : List UInt8} {w : Writes}
    (henc : c.encodeCdr2Le buf.length = .ok w) (pre rest : List UInt8) (hpre : 4 ∣ pre.length) :
    ∀ c' n, decodeCommonUnionMemberInternal decodeObject (pre ++ written w buf ++ rest)
      pre.length = .ok (c', n) → c'.labelSeq.length ≠ c.labelSeq.length := by
  intro c' n hdec
  obtain ⟨wt, wl, hwt, hwl, rfl, hle⟩ := CommonUnionMember.encodeCdr2Le_eq_ok henc
  obtain ⟨rfl, hwl_len⟩ := encodeLabels_eq_ok hwl
  have hwt15 : wt.length = 15 := by
    rcases hc with hc | hc <;> rw [hc] at hwt <;>
      simp [(encodeU8_encodeBytes_eq_ok hwt).1, hash.length_eq]
  have hne : c.memberTypeId.hasAlignedField = false := by
    rcases hc with hc | hc <;> rw [hc] <;> rfl
  rw [← List.length_drop] at hwt
  set ids := toLE 4 c.memberId.toNat ++ toLE 2 c.memberFlags.toNat
  set labels := toLE 4 c.labelSeq.length ++
    c.labelSeq.flatMap fun l => toLE 4 l.toUInt32.toNat
  have hfit : labels.length ≤ (buf.drop (ids.map some ++ wt).length).length := by
    simp only [List.length_drop, List.length_append, List.length_map, ids, length_toLE] at hwl_len ⊢
    omega
  rw [written_append _ _ _ (by simp [ids]; omega), written_append _ _ _ (by simp [ids]; omega),
    written_map_some _ _ (by simp [ids]; omega), written_map_some _ _ hfit] at hdec
  simp only [List.length_map, List.length_append, length_toLE, ids, Nat.reduceAdd] at hdec
  -- the id, the flags and the identifier are read back where they were written
  obtain ⟨hid, hflags⟩ :=
    decodeIdFlags_toLE c.memberId c.memberFlags pre (written wt (buf.drop 6) ++ (labels ++ rest)) hpre
  have htype := decodeTypeIdentifierInternal_written decodeObject
    (TypeIdentifier.ne_inline_of_hasAlignedField hne) hwt (pre ++ ids) (labels ++ rest)
    (by simp [hne])
  simp only [ids, List.append_assoc, List.length_append, length_toLE] at htype hdec
  simp only [decodeCommonUnionMemberInternal, hid, ok_bind, hflags, htype] at hdec
  obtain ⟨⟨len', o₁⟩, hlen', hdec⟩ := bind_eq_ok hdec
  obtain ⟨count, hcount, hdec⟩ := bind_eq_ok hdec
  obtain ⟨⟨ls, o₂⟩, hls, hdec⟩ := bind_eq_ok hdec
  cases hdec
  -- the count is read at member offset 24: its high byte, then three bytes of the first label
  have hsrc : pre ++ (toLE 4 c.memberId.toNat ++ (toLE 2 c.memberFlags.toNat ++
      (written wt (buf.drop 6) ++ (labels ++ rest)))) =
      (pre ++ ids ++ written wt (buf.drop 6) ++ toLE 3 c.labelSeq.length) ++
        0 :: ((c.labelSeq.flatMap fun l => toLE 4 l.toUInt32.toNat) ++ rest) := by
    simp only [ids, labels, toLE_four_of_lt hfew, List.append_assoc, List.nil_append,
      List.cons_append]
  have hwritten : (written wt (buf.drop 6)).length = 15 := by
    rw [length_written]
    simp only [List.length_drop]
    omega
  rw [hsrc] at hlen'
  have hlow := decodeU32_toNat_mod (by simp [ids, alignOffset, hwritten]; omega) hlen'
  dsimp only at hcount
  have hcount' := checkedUsize_eq_ok hcount
  have hls_len := decodeRepeat_length hls
  have hpos := List.length_pos_of_ne_nil hlabels
  simp only [UInt8.toNat_zero] at hlow
  show ls.length ≠ c.labelSeq.length
  omega

end UnionMembers

/-- A member with the one label 0, of a minimal type of hash zero, encoded into 40 zero bytes:
the decoder reads the count 0 and returns the member without its label. -/
theorem union_member_label_count_misread_label_0 :
    (⟨1, 0, .minimal ⟨List.replicate 14 0, rfl⟩, [0]⟩ : CommonUnionMember TypeIdentifier).memberTypeId =
        .minimal ⟨List.replicate 14 0, rfl⟩ ∧
      ([0] : List Int32) ≠ [] ∧ ([0] : List Int32).length < 256 ∧
      (⟨1, 0, .minimal ⟨List.replicate 14 0, rfl⟩, [0]⟩ : CommonUnionMember TypeIdentifier).encodeCdr2Le
          (List.replicate 40 (0 : UInt8)).length =
        .ok ((toLE 4 1 ++ toLE 2 0 ++ 6 :: List.replicate 14 0 ++ toLE 4 1 ++ toLE 4 0).map some) ∧
      4 ∣ ([] : List UInt8).length ∧
      decodeCommonUnionMemberInternal (CompleteTypeObject.decodeFuel 0)
          ([] ++ written ((toLE 4 1 ++ toLE 2 0 ++ 6 :: List.replicate 14 0 ++ toLE 4 1 ++
            toLE 4 0).map some) (List.replicate 40 0) ++ []) ([] : List UInt8).length =
        .ok (⟨1, 0, .minimal ⟨List.replicate 14 0, rfl⟩, []⟩, 28) ∧
      (∀ c' n, decodeCommonUnionMemberInternal (CompleteTypeObject.decodeFuel 0)
          ([] ++ written ((toLE 4 1 ++ toLE 2 0 ++ 6 :: List.replicate 14 0 ++ toLE 4 1 ++
            toLE 4 0).map some) (List.replicate 40 0) ++ []) ([] : List UInt8).length = .ok (c', n) →
        c'.labelSeq.length ≠ ([0] : List Int32).length) :=
  ⟨rfl, by decide, by decide, rfl, by decide, rfl,
    @union_member_label_count_misread (CompleteTypeObject.decodeFuel 0)
      ⟨1, 0, .minimal ⟨List.replicate 14 0, rfl⟩, [0]⟩ ⟨List.replicate 14 0, rfl⟩ (Or.inl rfl)
      (by decide) (by decide) (List.replicate 40 0) _ rfl [] [] (by decide)⟩

/-! ## The buffer of the equivalence hash -/

theorem encodeString_of_lt {value : String} {dst : ℕ}
    (hfit : (utf8Bytes value).length + 1 < 2 ^ 32) (h : dst < (utf8Bytes value).length + 5) :
    encodeString value dst [] = .error (.err .bufferTooSmall) := by
  unfold encodeString
  dsimp only
  rw [if_neg (by omega)]
  by_cases h4 : dst < 4
  · rw [encodeU32, encodeLe, if_pos (by simp [alignOffset]; omega)]
    rfl
  · rw [encodeU32, encodeLe_of_le (by simp [alignOffset]; omega), ok_bind, encodeBytes,
      if_pos (by simp [pad, alignOffset]; omega)]

theorem CompleteTypeDetail.encodeCdr2Le_of_lt {Id : Type} {d : CompleteTypeDetail Id} {dst : ℕ}
    (hfit : (utf8Bytes d.typeName).length + 1 < 2 ^ 32)
    (h : dst < (utf8Bytes d.typeName).length + 5) :
    d.encodeCdr2Le dst = .error (.err .bufferTooSmall) := by
  rw [CompleteTypeDetail.encodeCdr2Le, encodeString_of_lt hfit h]
  rfl

theorem CompleteStructHeader.encodeCdr2Le_of_detail_error
    {detail : CompleteTypeDetail TypeIdentifier} {dst : ℕ} {e : Fault} (hdst : 1 ≤ dst)
    (h : detail.encodeCdr2Le (dst - 1) = .error e) :
    CompleteStructHeader.encodeCdr2Le ⟨none, detail⟩ dst = .error e := by
  have hbase : TypeIdentifier.encodeOption none (dst - ([] : Writes).length) [] = .ok [some 0] :=
    encodeU8_of_lt (by simp; omega)
  simp only [CompleteStructHeader.encodeCdr2Le, encodeFieldsSequential, List.foldlM_cons,
    List.foldlM_nil]
  rw [encodeAt_of_ok (by simp) hbase, ok_bind, encodeAt_of_error (by simp; omega) (by simpa using h)]
  rfl

theorem CompleteStructType.encodeCdr2Le_of_header_error {s : CompleteStructType TypeIdentifier}
    {dst : ℕ} {e : Fault} (hdst : 2 ≤ dst) (h : s.header.encodeCdr2Le (dst - 2) = .error e) :
    s.encodeCdr2Le dst = .error e := by
  obtain ⟨structFlags, header, memberSeq⟩ := s
  rw [CompleteStructType.encodeCdr2Le, encodeU16, encodeLe_of_le (by simp [alignOffset]; omega),
    ok_bind, encodeAt_of_error (by simp [pad, alignOffset]; omega)
      (by simpa [pad, alignOffset] using h)]
  rfl

theorem CompleteTypeObject.encodeCdr2Le_struct_of_error {s : CompleteStructType TypeIdentifier}
    {dst : ℕ} {e : Fault} (hdst : 1 ≤ dst) (h : s.encodeCdr2Le (dst - 1) = .error e) :
    (CompleteTypeObject.struct s).encodeCdr2Le dst = .error e := by
  have hdisc : encodeU8 0x01 (dst - ([] : Writes).length) [] = .ok [some 0x01] :=
    encodeU8_of_lt (by simp; omega)
  simp only [CompleteTypeObject.encodeCdr2Le, encodeFieldsSequential, List.foldlM_cons,
    List.foldlM_nil]
  rw [encodeAt_of_ok (f := fun buf => encodeU8 0x01 buf []) (by simp) hdisc, ok_bind,
    encodeAt_of_error (by simp; omega) (by simpa using h)]
  rfl

/-- Every member counts 64 for its common part and 512 for its detail. -/
theorem CompleteStructType.maxCdr2Size_eq (s : CompleteStructType TypeIdentifier) :
    s.maxCdr2Size = 1064 + 576 * s.memberSeq.length := by
  simp [CompleteStructType.maxCdr2Size, maxSizeTypeWithMembers, CompleteStructHeader.maxCdr2Size,
    CompleteTypeDetail.maxCdr2Size, CompleteStructMember.maxCdr2Size,
    CommonStructMember.maxCdr2Size, CompleteMemberDetail.maxCdr2Size]
  omega

/-- **The equivalence hash of a struct with a long name fails.** The buffer leaves the type
detail `1061 + 576 n` bytes for `n` members, and its name alone takes four bytes of length, its
UTF-8 bytes and a terminator. -/
theorem equivalence_hash_fails_for_long_type_names (compute : List UInt8 → EquivalenceHash)
    (s : CompleteStructType TypeIdentifier) (hbase : s.header.baseType = none)
    (hlong : 1057 + 576 * s.memberSeq.length ≤ (utf8Bytes s.header.detail.typeName).length)
    (hfit : (utf8Bytes s.header.detail.typeName).length + 1 < 2 ^ 32) :
    CompleteTypeObject.computeEquivalenceHash compute (.struct s) =
      .error (.err .bufferTooSmall) := by
  obtain ⟨structFlags, ⟨baseType, detail⟩, memberSeq⟩ := s
  simp only at hbase hlong hfit
  subst hbase
  have hmax := CompleteStructType.maxCdr2Size_eq ⟨structFlags, ⟨none, detail⟩, memberSeq⟩
  simp only at hmax
  -- the detail's room: the object's discriminator, the flags and the base's flag come first
  have hdetail : detail.encodeCdr2Le (1 + (1064 + 576 * memberSeq.length) - 1 - 2 - 1) =
      .error (.err .bufferTooSmall) :=
    CompleteTypeDetail.encodeCdr2Le_of_lt hfit (by omega)
  have hheader := CompleteStructHeader.encodeCdr2Le_of_detail_error (by omega) hdetail
  have hstruct := CompleteStructType.encodeCdr2Le_of_header_error
    (s := ⟨structFlags, ⟨none, detail⟩, memberSeq⟩) (by omega) hheader
  have hobject := CompleteTypeObject.encodeCdr2Le_struct_of_error (by omega) hstruct
  rw [CompleteTypeObject.computeEquivalenceHash]
  simp only [List.length_replicate, CompleteTypeObject.maxCdr2Size, hmax, hobject]
  rfl

theorem length_utf8Bytes_ofList (l : List Char) :
    (utf8Bytes (String.ofList l)).length = (l.map Char.utf8Size).sum := by
  rw [utf8Bytes, String.toUTF8_eq_toByteArray, String.toByteArray_ofList, Array.length_toList]
  induction l with
  | nil => simp [List.utf8Encode_nil]
  | cons c l ih =>
    rw [List.utf8Encode_cons, ByteArray.data_append, Array.size_append, ih,
      List.utf8Encode_singleton]
    simp

theorem length_utf8Bytes_replicate_a (n : ℕ) :
    (utf8Bytes (String.ofList (List.replicate n 'a'))).length = n := by
  rw [length_utf8Bytes_ofList, List.map_replicate, List.sum_replicate, smul_eq_mul,
    show 'a'.utf8Size = 1 from rfl, Nat.mul_one]

/-- A struct with no base, no member and a name of 1057 ASCII bytes. -/
theorem equivalence_hash_fails_for_long_type_names_1057 :
    (⟨0, ⟨none, ⟨String.ofList (List.replicate 1057 'a'), none, none⟩⟩, []⟩ :
        CompleteStructType TypeIdentifier).header.baseType = none ∧
      1057 + 576 * 0 ≤ (utf8Bytes (String.ofList (List.replicate 1057 'a'))).length ∧
      (utf8Bytes (String.ofList (List.replicate 1057 'a'))).length + 1 < 2 ^ 32 ∧
      CompleteTypeObject.computeEquivalenceHash (fun _ => ByteArr.zero 14)
          (.struct ⟨0, ⟨none, ⟨String.ofList (List.replicate 1057 'a'), none, none⟩⟩, []⟩) =
        .error (.err .bufferTooSmall) := by
  have hlen := length_utf8Bytes_replicate_a 1057
  have hlong : 1057 + 576 * 0 ≤ (utf8Bytes (String.ofList (List.replicate 1057 'a'))).length := by
    omega
  have hfit : (utf8Bytes (String.ofList (List.replicate 1057 'a'))).length + 1 < 2 ^ 32 := by
    omega
  exact ⟨rfl, hlong, hfit, equivalence_hash_fails_for_long_type_names (fun _ => ByteArr.zero 14)
    ⟨0, ⟨none, ⟨String.ofList (List.replicate 1057 'a'), none, none⟩⟩, []⟩ rfl hlong hfit⟩

end Hdds.Xtypes
