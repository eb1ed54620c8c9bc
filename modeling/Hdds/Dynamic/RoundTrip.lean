import Mathlib
import Hdds.Foundations.Bytes
import Hdds.Foundations.Cursor
import Hdds.Foundations.Utf16
import Hdds.Ser.Cdr2
import Hdds.Dynamic.Types
import Hdds.Dynamic.Cdr

/-! # The round trip of dynamic CDR

`conforms value kind` says which values `decode_dynamic` gives back as they were encoded:

* a char below `U+0100` (`*v as u8` keeps one byte), an enum value in `0..2^32` whose name is
  the one `variant_by_value` finds, and strings and sequences whose lengths fit the `u32`
  that counts them, within their bounds;
* a struct value whose map holds exactly the fields, in the order of the descriptor (the
  decoder inserts them in that order; a `HashMap` has no other), each conforming to its type;
* a union value whose discriminator the discriminator's kind accepts as an `I64` (the encoder
  writes it as one) and whose case name and value are those `case_by_discriminator` selects,
  or the empty name and `Null` when it selects none.

`encodes_of_conforms` is the round trip, for a value written after any bytes: its encoding
succeeds and the decoder, started where it begins, reads it back whatever follows.
`Cursor.Encodes` carries the argument through the loops and binds of both sides, and
`TypeKind.induction` gives it for every kind a kind holds.
-/

namespace Hdds.Dynamic
open Wire Cursor CdrEncoder CdrDecoder
open Hdds.Ser (utf8Bytes fromUTF8?_utf8Bytes)
set_option autoImplicit false

/-! ## Conforming values -/

/-- The primitive values that read back as themselves. -/
def conformsPrimitive : DynamicValue → PrimitiveKind → Bool
  | .bool _, .bool | .u8 _, .u8 | .u16 _, .u16 | .u32 _, .u32 | .u64 _, .u64 => true
  | .i8 _, .i8 | .i16 _, .i16 | .i32 _, .i32 | .i64 _, .i64 => true
  | .f32 _, .f32 | .f64 _, .f64 | .longDouble _, .longDouble => true
  | .char c, .char => decide (c.toNat < 256)
  | .string s, .string maxLength =>
    decide ((utf8Bytes s).length + 1 < 2 ^ 32) && !exceedsBound maxLength (utf8Bytes s).length
  | .wstring s, .wstring maxLength =>
    decide ((Utf16.encode s.toList).length + 1 < 2 ^ 32) &&
      !exceedsBound maxLength (Utf16.encode s.toList).length
  | _, _ => false

mutual

/-- The values of a kind that read back as themselves. -/
def conforms : DynamicValue → TypeKind → Bool
  | value, .primitive p => conformsPrimitive value p
  | value, .struct fields =>
    match value with
    | .struct map => decide (map.map Prod.fst).Nodup && conformsFields map fields
    | _ => false
  | value, .sequence elementType =>
    match value with
    | .sequence vec =>
      decide (vec.length < 2 ^ 32) && vec.all (fun elem => conforms elem elementType)
    | _ => false
  | value, .array elementType length =>
    match value with
    | .array vec => decide (vec.length = length) && vec.all (fun elem => conforms elem elementType)
    | _ => false
  | value, .enum variants =>
    match value with
    | .enum val name =>
      decide (0 ≤ val) && decide (val.toNatClampNeg < 2 ^ 32) &&
        name == ((variantByValue variants val).map (·.name)).getD ""
    | _ => false
  | value, .union discriminator cases defaultCase =>
    match value with
    | .union disc caseName inner =>
      conforms (.i64 disc) discriminator &&
        (conformsCase inner caseName cases disc).getD (conformsDefault inner caseName defaultCase)
    | _ => false
  | value, .nested inner => conforms value inner

/-- The entries of a struct value against the fields, one for one. -/
def conformsFields : List (String × DynamicValue) → List (FieldDescriptor TypeKind) → Bool
  | [], [] => true
  | (key, value) :: entries, ⟨name, typeDesc⟩ :: fields =>
    key == name && conforms value typeDesc && conformsFields entries fields
  | _, _ => false

/-- The case of `case_by_discriminator` among the cases, if one has the label. -/
def conformsCase : DynamicValue → String → List (UnionCase TypeKind) → Int64 → Option Bool
  | _, _, [], _ => none
  | inner, caseName, ⟨name, labels, typeDesc⟩ :: cases, disc =>
    if labels.contains disc then some (caseName == name && conforms inner typeDesc)
    else conformsCase inner caseName cases disc

/-- The default case when no label matches; a union with neither carries `null` under the
empty name, which is what the decoder builds for it. -/
def conformsDefault : DynamicValue → String → Option (UnionCase TypeKind) → Bool
  | inner, caseName, some ⟨name, _, typeDesc⟩ => caseName == name && conforms inner typeDesc
  | inner, caseName, none => caseName == "" && inner.isNull

end

/-! ## What conforming values are -/

theorem eq_struct_of_conforms {value : DynamicValue} {fields : List (FieldDescriptor TypeKind)}
    (h : conforms value (.struct fields) = true) :
    ∃ map, value = .struct map ∧ (map.map Prod.fst).Nodup ∧ conformsFields map fields = true := by
  cases value with
  | struct map =>
    have hmap : (decide (map.map Prod.fst).Nodup && conformsFields map fields) = true := h
    rw [Bool.and_eq_true, decide_eq_true_eq] at hmap
    exact ⟨map, rfl, hmap⟩
  | _ => cases h

theorem eq_sequence_of_conforms {value : DynamicValue} {elementType : TypeKind}
    (h : conforms value (.sequence elementType) = true) :
    ∃ vec, value = .sequence vec ∧ vec.length < 2 ^ 32 ∧
      ∀ elem ∈ vec, conforms elem elementType = true := by
  cases value with
  | sequence vec =>
    have hvec : (decide (vec.length < 2 ^ 32) && vec.all (fun elem => conforms elem elementType)) =
        true := h
    rw [Bool.and_eq_true, decide_eq_true_eq, List.all_eq_true] at hvec
    exact ⟨vec, rfl, hvec⟩
  | _ => cases h

theorem eq_array_of_conforms {value : DynamicValue} {elementType : TypeKind} {length : ℕ}
    (h : conforms value (.array elementType length) = true) :
    ∃ vec, value = .array vec ∧ vec.length = length ∧
      ∀ elem ∈ vec, conforms elem elementType = true := by
  cases value with
  | array vec =>
    have hvec : (decide (vec.length = length) && vec.all (fun elem => conforms elem elementType)) =
        true := h
    rw [Bool.and_eq_true, decide_eq_true_eq, List.all_eq_true] at hvec
    exact ⟨vec, rfl, hvec⟩
  | _ => cases h

theorem eq_enum_of_conforms {value : DynamicValue} {variants : List EnumVariant}
    (h : conforms value (.enum variants) = true) :
    ∃ val, value = .enum val (((variantByValue variants val).map (·.name)).getD "") ∧ 0 ≤ val ∧
      val.toNatClampNeg < 2 ^ 32 := by
  cases value with
  | enum val name =>
    have hval : (decide (0 ≤ val) && decide (val.toNatClampNeg < 2 ^ 32) &&
        name == ((variantByValue variants val).map (·.name)).getD "") = true := h
    simp only [Bool.and_eq_true, decide_eq_true_eq, beq_iff_eq] at hval
    obtain ⟨⟨h0, hlt⟩, rfl⟩ := hval
    exact ⟨val, rfl, h0, hlt⟩
  | _ => cases h

theorem conformsCase_eq (inner : DynamicValue) (caseName : String)
    (cases : List (UnionCase TypeKind)) (disc : Int64) :
    conformsCase inner caseName cases disc =
      (cases.find? (·.labels.contains disc)).map
        (fun c => caseName == c.name && conforms inner c.typeDesc) := by
  induction cases with
  | nil => rfl
  | cons c cases ih =>
    obtain ⟨name, labels, typeDesc⟩ := c
    by_cases h : labels.contains disc = true
    · rw [conformsCase, if_pos h, List.find?_cons_of_pos (p := fun c => c.labels.contains disc)
        (l := cases) h]
      rfl
    · rw [conformsCase, if_neg h, List.find?_cons_of_neg (p := fun c => c.labels.contains disc)
        (l := cases) h, ih]

theorem eq_union_of_conforms {value : DynamicValue} {discriminator : TypeKind}
    {cases : List (UnionCase TypeKind)} {defaultCase : Option (UnionCase TypeKind)}
    (h : conforms value (.union discriminator cases defaultCase) = true) :
    ∃ disc caseName inner, value = .union disc caseName inner ∧
      conforms (.i64 disc) discriminator = true ∧
      match caseByDiscriminator cases defaultCase disc with
      | some c => caseName = c.name ∧ conforms inner c.typeDesc = true
      | none => caseName = "" ∧ inner = .null := by
  cases value with
  | union disc caseName inner =>
    have hunion : (conforms (.i64 disc) discriminator &&
        (conformsCase inner caseName cases disc).getD
          (conformsDefault inner caseName defaultCase)) = true := h
    rw [Bool.and_eq_true, conformsCase_eq] at hunion
    obtain ⟨hdisc, hcase⟩ := hunion
    refine ⟨disc, caseName, inner, rfl, hdisc, ?_⟩
    rw [caseByDiscriminator]
    -- the case the labels select, else the default case, else none
    cases hfound : cases.find? (·.labels.contains disc) with
    | some c =>
      rw [hfound] at hcase
      simpa using hcase
    | none =>
      rw [hfound, Option.map_none, Option.getD_none] at hcase
      cases defaultCase with
      | some c =>
        obtain ⟨name, labels, typeDesc⟩ := c
        have hdefault : (caseName == name && conforms inner typeDesc) = true := hcase
        simpa using hdefault
      | none =>
        have hdefault : (caseName == "" && inner.isNull) = true := hcase
        rw [Bool.and_eq_true, beq_iff_eq] at hdefault
        refine ⟨hdefault.1, ?_⟩
        cases inner <;> first | rfl | cases hdefault.2
  | _ => cases h

theorem conformsFields_iff (entries : List (String × DynamicValue))
    (fields : List (FieldDescriptor TypeKind)) :
    conformsFields entries fields = true ↔
      List.Forall₂ (fun e f => e.1 = f.name ∧ conforms e.2 f.typeDesc = true) entries fields := by
  induction entries generalizing fields with
  | nil => cases fields <;> simp [conformsFields]
  | cons e entries ih =>
    cases fields with
    | nil => simp [conformsFields]
    | cons f fields =>
      obtain ⟨key, value⟩ := e
      obtain ⟨name, typeDesc⟩ := f
      simp [conformsFields, ih, and_assoc]

/-! ## The two alignments agree -/

/-- The encoder pads its buffer to the offset the decoder aligns to. -/
theorem length_align (buffer : List UInt8) {alignment : ℕ} (h : 0 < alignment) :
    (CdrEncoder.align buffer alignment).length = CdrDecoder.align buffer.length alignment := by
  simp only [CdrEncoder.align, CdrDecoder.align, List.length_append, List.length_replicate]
  have hdm := Nat.div_add_mod buffer.length alignment
  have hlt := Nat.mod_lt buffer.length h
  set q := buffer.length / alignment
  set r := buffer.length % alignment
  rcases Nat.eq_zero_or_pos r with h0 | hpos
  · -- already aligned: nothing is written
    have hdiv : (buffer.length + alignment - 1) / alignment = q := by
      rw [show buffer.length + alignment - 1 = (alignment - 1) + alignment * q by omega,
        Nat.add_mul_div_left _ _ h, Nat.div_eq_of_lt (by omega), Nat.zero_add]
    rw [hdiv, h0, Nat.sub_zero, Nat.mod_self, Nat.mul_comm]
    omega
  · have hdiv : (buffer.length + alignment - 1) / alignment = q + 1 := by
      rw [show buffer.length + alignment - 1 = (r - 1) + alignment * (q + 1) by
        rw [Nat.mul_add, Nat.mul_one]; omega, Nat.add_mul_div_left _ _ h,
        Nat.div_eq_of_lt (by omega), Nat.zero_add]
    rw [hdiv, Nat.mod_eq_of_lt (by omega : alignment - r < alignment), Nat.add_mul, Nat.one_mul,
      Nat.mul_comm]
    omega

/-! ## Reading what was written -/

theorem readBytes_append (pre mid rest : List UInt8) :
    readBytes (pre ++ mid ++ rest) pre.length mid.length = .ok (mid, pre.length + mid.length) := by
  rw [readBytes, if_neg (by simp), field_append_self]

theorem readByte_append (pre rest : List UInt8) (b : UInt8) :
    readByte (pre ++ [b] ++ rest) pre.length = .ok (b, (pre ++ [b]).length) := by
  have h := readBytes_append pre [b] rest
  rw [List.length_singleton] at h
  rw [readByte, h, List.length_append, List.length_singleton]
  rfl

theorem readLe_writeLe (buffer rest : List UInt8) {width : ℕ} (h : 0 < width) (n : ℕ) :
    readLe (writeLe buffer width n ++ rest) buffer.length width =
      .ok (n % 256 ^ width, (writeLe buffer width n).length) := by
  have hread := readBytes_append (CdrEncoder.align buffer width) (toLE width n) rest
  rw [length_toLE, length_align buffer h] at hread
  rw [readLe, writeLe, hread, List.length_append, length_toLE, length_align buffer h, ← ofLE_toLE]
  rfl

theorem readArray_append (pre rest : List UInt8) {n : ℕ} (a : ByteArr n) :
    readArray (pre ++ a.bytes ++ rest) pre.length n = .ok (a, pre.length + n) := by
  have hlen : ¬pre.length + n > (pre ++ a.bytes ++ rest).length := by
    simp [a.length_eq]
  have hfield := field_append_self pre a.bytes rest
  rw [a.length_eq] at hfield
  rw [readArray, dif_neg hlen]
  simp only [Except.ok.injEq, Prod.mk.injEq, and_true]
  exact ByteArr.ext_bytes hfield

/-- The units of a wide string, two little-endian bytes each, read back one by one. -/
theorem readUnits_flatMap (rest : List UInt8) (units : List UInt16) :
    ∀ pre : List UInt8,
      readUnits (pre ++ units.flatMap (fun c => toLE 2 c.toNat) ++ rest) units.length pre.length =
        .ok (units, pre.length + 2 * units.length) := by
  induction units with
  | nil => intro pre; rfl
  | cons u units ih =>
    intro pre
    have hread := readBytes_append pre (toLE 2 u.toNat)
      (units.flatMap (fun c => toLE 2 c.toNat) ++ rest)
    have hrest := ih (pre ++ toLE 2 u.toNat)
    have hu : UInt16.ofNat (ofLE (toLE 2 u.toNat)) = u := by
      rw [ofLE_toLE, Nat.mod_eq_of_lt (by simpa using u.toNat_lt), UInt16.ofNat_toNat]
    simp only [List.append_assoc, List.length_append, length_toLE] at hread hrest
    rw [List.flatMap_cons, List.length_cons, readUnits, List.append_assoc, List.append_assoc, hread]
    simp only [bind, Except.bind, hrest, pure, Except.pure, hu]
    rw [Nat.mul_succ, Nat.add_right_comm, Nat.add_assoc]

/-! ## Primitives -/

theorem prefix_writeLe (buffer : List UInt8) (width n : ℕ) : buffer <+: writeLe buffer width n := by
  simp only [writeLe, CdrEncoder.align, List.append_assoc]
  exact List.prefix_append _ _

/-- The decoder's bound, one more than the encoder's, on a length one more. -/
theorem exceedsBound_map_succ (maxLength : Option ℕ) (n : ℕ) :
    exceedsBound (maxLength.map (· + 1)) (n + 1) = exceedsBound maxLength n := by
  cases maxLength <;> simp [exceedsBound]

theorem encodes_string (s : String) (maxLength : Option ℕ)
    (hlen : (utf8Bytes s).length + 1 < 2 ^ 32)
    (hbound : exceedsBound maxLength (utf8Bytes s).length = false) :
    Encodes (fun buffer => encodePrimitive (.string s) (.string maxLength) buffer)
      (fun src o => decodeString maxLength src o) (.string s) := by
  intro buffer
  have hprefix : buffer <+: writeLe buffer 4 ((utf8Bytes s).length + 1) ++ utf8Bytes s ++ [0] := by
    rw [List.append_assoc]
    exact (prefix_writeLe buffer 4 _).trans (List.prefix_append _ _)
  refine ⟨writeLe buffer 4 ((utf8Bytes s).length + 1) ++ utf8Bytes s ++ [0],
    by simp only [encodePrimitive_string, hbound, Bool.false_eq_true, if_false], hprefix,
    fun rest => ?_⟩
  -- the length, then the bytes with the terminator, which is dropped
  have hcount : ((utf8Bytes s).length + 1) % 256 ^ 4 = (utf8Bytes s).length + 1 :=
    Nat.mod_eq_of_lt (by omega)
  have hread := readBytes_append (writeLe buffer 4 ((utf8Bytes s).length + 1))
    (utf8Bytes s ++ [0]) rest
  rw [List.length_append, List.length_singleton] at hread
  simp only [List.append_assoc, List.singleton_append] at hread ⊢
  rw [decodeString, readLe_writeLe buffer _ (by norm_num), hcount]
  simp only [bind, Except.bind, exceedsBound_map_succ, hbound, Bool.false_eq_true, if_false,
    Nat.add_one_ne_zero, hread]
  simp [fromUTF8?_utf8Bytes, pure, Except.pure]

theorem encodes_wstring (s : String) (maxLength : Option ℕ)
    (hlen : (Utf16.encode s.toList).length + 1 < 2 ^ 32)
    (hbound : exceedsBound maxLength (Utf16.encode s.toList).length = false) :
    Encodes (fun buffer => encodePrimitive (.wstring s) (.wstring maxLength) buffer)
      (fun src o => decodeWString maxLength src o) (.wstring s) := by
  intro buffer
  -- the units and the terminating unit are written as one list of units
  have hunits : (Utf16.encode s.toList ++ [0]).flatMap (fun c : UInt16 => toLE 2 c.toNat) =
      (Utf16.encode s.toList).flatMap (fun c => toLE 2 c.toNat) ++ toLE 2 0 := by
    rw [List.flatMap_append, List.flatMap_singleton, UInt16.toNat_zero]
  have hprefix : buffer <+: writeLe buffer 4 ((Utf16.encode s.toList).length + 1) ++
      (Utf16.encode s.toList).flatMap (fun c => toLE 2 c.toNat) ++ toLE 2 0 := by
    rw [List.append_assoc]
    exact (prefix_writeLe buffer 4 _).trans (List.prefix_append _ _)
  refine ⟨_, by simp only [encodePrimitive_wstring, hbound, Bool.false_eq_true, if_false],
    hprefix, fun rest => ?_⟩
  have hcount : ((Utf16.encode s.toList).length + 1) % 256 ^ 4 =
      (Utf16.encode s.toList).length + 1 := Nat.mod_eq_of_lt (by omega)
  have hread := readUnits_flatMap rest (Utf16.encode s.toList ++ [0])
    (writeLe buffer 4 ((Utf16.encode s.toList).length + 1))
  rw [List.length_append, List.length_singleton, hunits] at hread
  simp only [List.append_assoc] at hread ⊢
  rw [decodeWString, readLe_writeLe buffer _ (by norm_num), hcount]
  simp only [bind, Except.bind, exceedsBound_map_succ, hbound, Bool.false_eq_true, if_false,
    Nat.add_one_ne_zero, hread]
  simp [Utf16.decode_encode, pure, Except.pure]
  omega

theorem encodes_readLe {width : ℕ} (h : 0 < width) (n : ℕ) :
    Encodes (fun buffer => .ok (writeLe buffer width n)) (fun src o => readLe src o width)
      (n % 256 ^ width) := by
  intro buffer
  exact ⟨writeLe buffer width n, rfl, prefix_writeLe buffer width n,
    fun rest => readLe_writeLe buffer rest h n⟩

/-- A fixed-width integer, read back through the function the decoder builds its value with. -/
theorem encodes_writeLe {width n : ℕ} (h : 0 < width) (f : ℕ → DynamicValue) {x : DynamicValue}
    (hx : f (n % 256 ^ width) = x) :
    Encodes (fun buffer => .ok (writeLe buffer width n))
      (fun src o => readLe src o width >>= fun p => .ok (f p.1, p.2)) x := by
  rw [← hx]
  exact (encodes_readLe h n).map f

theorem encodes_byte (b : UInt8) (f : UInt8 → DynamicValue) {x : DynamicValue} (hx : f b = x) :
    Encodes (fun buffer => .ok (buffer ++ [b]))
      (fun src o => readByte src o >>= fun p => .ok (f p.1, p.2)) x := by
  intro buffer
  refine ⟨buffer ++ [b], rfl, List.prefix_append _ _, fun rest => ?_⟩
  dsimp only
  rw [readByte_append buffer rest b, ← hx]
  rfl

theorem encodes_longDouble (v : ByteArr longDoubleSize) :
    Encodes (fun buffer => .ok (CdrEncoder.align buffer longDoubleAlign ++ v.bytes))
      (fun src o => readArray src (CdrDecoder.align o longDoubleAlign) longDoubleSize >>= fun p =>
        .ok (DynamicValue.longDouble p.1, p.2)) (DynamicValue.longDouble v) := by
  intro buffer
  have hprefix : buffer <+: CdrEncoder.align buffer longDoubleAlign ++ v.bytes := by
    rw [CdrEncoder.align, List.append_assoc]
    exact List.prefix_append _ _
  refine ⟨_, rfl, hprefix, fun rest => ?_⟩
  dsimp only
  rw [← length_align buffer (by decide), readArray_append, List.length_append, v.length_eq]
  rfl

theorem uint16_ofNat_toNat_mod (v : UInt16) : UInt16.ofNat (v.toNat % 256 ^ 2) = v := by
  rw [Nat.mod_eq_of_lt (by simpa using v.toNat_lt), UInt16.ofNat_toNat]

theorem uint32_ofNat_toNat_mod (v : UInt32) : UInt32.ofNat (v.toNat % 256 ^ 4) = v := by
  rw [Nat.mod_eq_of_lt (by simpa using v.toNat_lt), UInt32.ofNat_toNat]

theorem uint64_ofNat_toNat_mod (v : UInt64) : UInt64.ofNat (v.toNat % 256 ^ 8) = v := by
  rw [Nat.mod_eq_of_lt (by simpa using v.toNat_lt), UInt64.ofNat_toNat]

theorem encodes_primitive (value : DynamicValue) (p : PrimitiveKind)
    (h : conformsPrimitive value p = true) :
    Encodes (fun buffer => encodePrimitive value p buffer)
      (fun src o => decodePrimitive p src o) value := by
  cases p <;> cases value <;> simp only [conformsPrimitive, Bool.false_eq_true] at h
  case bool.bool v => exact encodes_byte _ (fun b => .bool (b != 0)) (by cases v <;> rfl)
  case u8.u8 v => exact encodes_byte v (fun b => .u8 b) rfl
  case u16.u16 v =>
    exact encodes_writeLe (by decide) (fun n => .u16 (UInt16.ofNat n))
      (congrArg _ (uint16_ofNat_toNat_mod v))
  case u32.u32 v =>
    exact encodes_writeLe (by decide) (fun n => .u32 (UInt32.ofNat n))
      (congrArg _ (uint32_ofNat_toNat_mod v))
  case u64.u64 v =>
    exact encodes_writeLe (by decide) (fun n => .u64 (UInt64.ofNat n))
      (congrArg _ (uint64_ofNat_toNat_mod v))
  -- a signed integer is written and read as the unsigned integer of its bits
  case i8.i8 v => exact encodes_byte v.toUInt8 (fun b => .i8 b.toInt8) rfl
  case i16.i16 v =>
    exact encodes_writeLe (by decide) (fun n => .i16 (UInt16.ofNat n).toInt16)
      (by rw [uint16_ofNat_toNat_mod]; rfl)
  case i32.i32 v =>
    exact encodes_writeLe (by decide) (fun n => .i32 (UInt32.ofNat n).toInt32)
      (by rw [uint32_ofNat_toNat_mod]; rfl)
  case i64.i64 v =>
    exact encodes_writeLe (by decide) (fun n => .i64 (UInt64.ofNat n).toInt64)
      (by rw [uint64_ofNat_toNat_mod]; rfl)
  case f32.f32 bits =>
    exact encodes_writeLe (by decide) (fun n => .f32 (UInt32.ofNat n))
      (congrArg _ (uint32_ofNat_toNat_mod bits))
  case f64.f64 bits =>
    exact encodes_writeLe (by decide) (fun n => .f64 (UInt64.ofNat n))
      (congrArg _ (uint64_ofNat_toNat_mod bits))
  case longDouble.longDouble v => exact encodes_longDouble v
  case char.char c =>
    have hc : c.toNat < 256 := of_decide_eq_true h
    refine encodes_byte (UInt8.ofNat c.toNat) (fun b => .char (Char.ofNat b.toNat)) ?_
    rw [UInt8.toNat_ofNat', Nat.mod_eq_of_lt (by simpa using hc), Char.ofNat_toNat]
  case string.string maxLength s =>
    simp only [Bool.and_eq_true, decide_eq_true_eq, Bool.not_eq_eq_eq_not, Bool.not_true] at h
    exact encodes_string s maxLength h.1 h.2
  case wstring.wstring maxLength s =>
    simp only [Bool.and_eq_true, decide_eq_true_eq, Bool.not_eq_eq_eq_not, Bool.not_true] at h
    exact encodes_wstring s maxLength h.1 h.2

/-! ## Composite kinds -/

theorem lookup_append_cons (acc entries : List (String × DynamicValue)) (name : String)
    (value : DynamicValue) (h : name ∉ acc.map Prod.fst) :
    (acc ++ (name, value) :: entries).lookup name = some value := by
  induction acc with
  | nil => simp
  | cons e acc ih =>
    obtain ⟨key, v⟩ := e
    have hkey : key ≠ name := fun heq => h (by simp [heq])
    have hrest : name ∉ acc.map Prod.fst := fun hm => h (List.mem_cons_of_mem _ hm)
    have hbeq : (name == key) = false := beq_false_of_ne (Ne.symm hkey)
    simp only [List.cons_append, List.lookup, hbeq, ih hrest]

/-- The values of `kind` that conform read back as themselves after any buffer. -/
def ReadsBack (kind : TypeKind) : Prop :=
  ∀ value, conforms value kind = true →
    Encodes (fun buffer => encodeValue value kind buffer) (fun src o => decodeValue kind src o) value

theorem encodes_fields (fields : List (FieldDescriptor TypeKind))
    (hfields : ∀ f ∈ fields, ReadsBack f.typeDesc) :
    ∀ acc entries : List (String × DynamicValue), ((acc ++ entries).map Prod.fst).Nodup →
      List.Forall₂ (fun e f => e.1 = f.name ∧ conforms e.2 f.typeDesc = true) entries fields →
      Encodes (fun buffer => encodeFields (acc ++ entries) fields buffer)
        (fun src o => decodeFields fields acc src o) (acc ++ entries) := by
  induction fields with
  | nil =>
    intro acc entries _ hall
    rw [List.forall₂_nil_right_iff.mp hall, List.append_nil]
    exact Encodes.pure acc
  | cons f fields ih =>
    intro acc entries hnodup hall
    obtain ⟨name, typeDesc⟩ := f
    cases hall with
    | cons hhead htail =>
      rename_i e entries
      obtain ⟨key, value⟩ := e
      obtain ⟨rfl, hvalue⟩ := hhead
      have hnot : key ∉ acc.map Prod.fst := by
        intro hmem
        rw [List.map_append, List.map_cons] at hnodup
        exact (List.nodup_append.mp hnodup).2.2 _ hmem _ List.mem_cons_self rfl
      have henc : (fun buffer => encodeFields (acc ++ (key, value) :: entries)
          (⟨key, typeDesc⟩ :: fields) buffer) = fun buffer =>
          encodeValue value typeDesc buffer >>= encodeFields (acc ++ (key, value) :: entries) fields := by
        funext buffer
        rw [encodeFields, lookup_append_cons acc entries key value hnot]
      have hrest := ih (fun g hg => hfields g (List.mem_cons_of_mem _ hg)) (acc ++ [(key, value)])
        entries (by simpa using hnodup) htail
      rw [List.append_assoc, List.singleton_append, ← insertEntry_of_not_mem key value acc hnot]
        at hrest
      rw [henc]
      exact Encodes.bind (fun v src o => decodeFields fields (insertEntry key v acc) src o)
        (hfields ⟨key, typeDesc⟩ List.mem_cons_self value hvalue) hrest

theorem ofNat_toUInt32_toNat {val : Int64} (h0 : 0 ≤ val) (hlt : val.toNatClampNeg < 2 ^ 32) :
    Int64.ofNat (val.toUInt64.toUInt32.toNat % 256 ^ 4) = val := by
  rw [UInt64.toNat_toUInt32, Int64.toNat_toUInt64_of_le h0, Nat.mod_eq_of_lt hlt,
    Nat.mod_eq_of_lt (by omega), Int64.ofNat_toNatClampNeg _ h0]

/-- **The round trip.** -/
theorem readsBack (kind : TypeKind) : ReadsBack kind := by
  induction kind using TypeKind.induction with
  | primitive p => exact fun value h => encodes_primitive value p h
  | struct fields ih =>
    intro value h
    obtain ⟨map, rfl, hnodup, hconf⟩ := eq_struct_of_conforms h
    exact (encodes_fields fields ih [] map hnodup ((conformsFields_iff map fields).mp hconf)).map
      DynamicValue.struct
  | sequence elementType ih =>
    intro value h
    obtain ⟨vec, rfl, hlen, hall⟩ := eq_sequence_of_conforms h
    have hheader := encodes_readLe (by decide : 0 < 4) vec.length
    rw [Nat.mod_eq_of_lt (by omega)] at hheader
    have helems := (Encodes.foldlM fun elem helem => ih elem (hall elem helem)).map
      DynamicValue.sequence
    exact Encodes.bind (fun len src o => times (fun o => decodeValue elementType src o) len o >>=
      fun p => .ok (DynamicValue.sequence p.1, p.2)) hheader helems
  | array elementType length ih =>
    intro value h
    obtain ⟨vec, rfl, rfl, hall⟩ := eq_array_of_conforms h
    have henc : (fun buffer => encodeValue (.array vec) (.array elementType vec.length) buffer) =
        fun buffer => vec.foldlM (fun buffer elem => encodeValue elem elementType buffer) buffer :=
      funext fun _ => if_neg (not_not_intro rfl)
    rw [henc]
    exact (Encodes.foldlM fun elem helem => ih elem (hall elem helem)).map DynamicValue.array
  | enum variants =>
    intro value h
    obtain ⟨val, rfl, h0, hlt⟩ := eq_enum_of_conforms h
    exact encodes_writeLe (by decide : 0 < 4) (fun n => .enum (Int64.ofNat n)
      (((variantByValue variants (Int64.ofNat n)).map (·.name)).getD ""))
      (by rw [ofNat_toUInt32_toNat h0 hlt])
  | union discriminator cases defaultCase ihd ihc ihdefault =>
    intro value h
    obtain ⟨disc, caseName, inner, rfl, hdisc, hcase⟩ := eq_union_of_conforms h
    have henc := funext fun buffer =>
      encodeValue_union disc caseName inner discriminator cases defaultCase buffer
    have hdec := funext fun src => funext fun o =>
      decodeValue_union discriminator cases defaultCase src o
    rw [henc, hdec]
    -- after the discriminator, the value of the case it selects
    have hvalue : Encodes (encodeSelected inner (caseByDiscriminator cases defaultCase disc))
        (decodeSelected disc (caseByDiscriminator cases defaultCase disc))
        (DynamicValue.union disc caseName inner) := by
      cases hc : caseByDiscriminator cases defaultCase disc with
      | some c =>
        rw [hc] at hcase
        obtain ⟨rfl, hinner⟩ := hcase
        have hread : ReadsBack c.typeDesc :=
          (mem_of_caseByDiscriminator hc).elim (ihc c) (ihdefault c)
        exact (hread inner hinner).map (DynamicValue.union disc c.name)
      | none =>
        rw [hc] at hcase
        obtain ⟨rfl, rfl⟩ := hcase
        exact Encodes.pure _
    exact Encodes.bind (fun discValue => decodeSelected (discriminatorOf discValue)
        (caseByDiscriminator cases defaultCase (discriminatorOf discValue)))
      (ihd (.i64 disc) hdisc) hvalue
  | nested inner ih => exact ih

/-! ## The round trip -/

/-- `decode_dynamic` reads back what `encode_dynamic` wrote for a conforming value, whatever
bytes follow it. -/
theorem dynamic_value_round_trip (value : DynamicValue) (kind : TypeKind)
    (h : conforms value kind = true) :
    ∃ bytes, encodeDynamic value kind = .ok bytes ∧
      ∀ rest, decodeDynamic (bytes ++ rest) kind = .ok value := by
  obtain ⟨bytes, henc, -, hdec⟩ := readsBack kind value h []
  refine ⟨bytes, henc, fun rest => ?_⟩
  have hread : decodeValue kind (bytes ++ rest) 0 = .ok (value, bytes.length) := hdec rest
  rw [decodeDynamic, hread]
  rfl

/-- A probe record: a bounded name, a sequence of signed samples, and a union whose case is a
wide string. -/
theorem dynamic_value_round_trip_probe :
    conforms (.struct [("id", .u32 7), ("name", .string "probe"),
        ("samples", .sequence [.i16 (-3), .i16 5]), ("shape", .union 2 "label" (.wstring "é"))])
      (.struct [⟨"id", .primitive .u32⟩, ⟨"name", .primitive (.string (some 16))⟩,
        ⟨"samples", .sequence (.primitive .i16)⟩,
        ⟨"shape", .union (.primitive .i64) [⟨"circle", [1], .primitive .f64⟩,
          ⟨"label", [2], .primitive (.wstring none)⟩] none⟩]) = true ∧
    ∃ bytes, encodeDynamic (.struct [("id", .u32 7), ("name", .string "probe"),
        ("samples", .sequence [.i16 (-3), .i16 5]), ("shape", .union 2 "label" (.wstring "é"))])
      (.struct [⟨"id", .primitive .u32⟩, ⟨"name", .primitive (.string (some 16))⟩,
        ⟨"samples", .sequence (.primitive .i16)⟩,
        ⟨"shape", .union (.primitive .i64) [⟨"circle", [1], .primitive .f64⟩,
          ⟨"label", [2], .primitive (.wstring none)⟩] none⟩]) = .ok bytes ∧
      ∀ rest, decodeDynamic (bytes ++ rest)
        (.struct [⟨"id", .primitive .u32⟩, ⟨"name", .primitive (.string (some 16))⟩,
          ⟨"samples", .sequence (.primitive .i16)⟩,
          ⟨"shape", .union (.primitive .i64) [⟨"circle", [1], .primitive .f64⟩,
            ⟨"label", [2], .primitive (.wstring none)⟩] none⟩]) =
        .ok (.struct [("id", .u32 7), ("name", .string "probe"),
          ("samples", .sequence [.i16 (-3), .i16 5]), ("shape", .union 2 "label" (.wstring "é"))]) :=
  ⟨by decide, dynamic_value_round_trip _ _ (by decide)⟩

/-! ## What does not read back -/

/-- The encoder writes a union's discriminator as an `I64`: against a primitive discriminator
of any other kind (the `U32` of `UnionBuilder::with_u32_discriminator`, the `I32` of an
XTypes union) it fails, for every value of the union. -/
theorem union_encode_fails_unless_i64_discriminator (p : PrimitiveKind) (hp : p ≠ .i64)
    (cases : List (UnionCase TypeKind)) (defaultCase : Option (UnionCase TypeKind))
    (disc : Int64) (caseName : String) (inner : DynamicValue) (buffer : List UInt8) :
    encodeValue (.union disc caseName inner) (.union (.primitive p) cases defaultCase) buffer =
      .error (.typeMismatch p.debug (.i64 disc)) := by
  have hdisc : encodeValue (.i64 disc) (.primitive p) buffer =
      .error (.typeMismatch p.debug (.i64 disc)) := by
    rw [encodeValue]
    cases p with
    | i64 => exact absurd rfl hp
    | _ => rfl
  rw [encodeValue_union, hdisc]
  rfl

example :
    encodeValue (.union 1 "value" (.u8 0))
        (.union (.primitive .u32) [⟨"value", [1], .primitive .u8⟩] none) [] =
      .error (.typeMismatch PrimitiveKind.u32.debug (.i64 1)) :=
  union_encode_fails_unless_i64_discriminator .u32 (by decide) _ none 1 "value" (.u8 0) []

/-- A char is written as the low byte of its scalar value and read back as the char of that
byte: it reads back as itself exactly when it is below `U+0100`. -/
theorem char_reads_back_as_low_byte (c : Char) :
    ∃ bytes, encodeDynamic (.char c) (.primitive .char) = .ok bytes ∧
      decodeDynamic bytes (.primitive .char) = .ok (.char (Char.ofNat (c.toNat % 256))) ∧
      (decodeDynamic bytes (.primitive .char) = .ok (.char c) ↔ c.toNat < 256) := by
  have hdec : decodeDynamic [UInt8.ofNat c.toNat] (.primitive .char) =
      .ok (.char (Char.ofNat (c.toNat % 256))) := by
    have hread := readByte_append [] [] (UInt8.ofNat c.toNat)
    simp only [List.nil_append, List.append_nil, List.length_nil] at hread
    rw [decodeDynamic, decodeValue, decodePrimitive]
    simp only [hread, bind, Except.bind, UInt8.toNat_ofNat']
    rfl
  refine ⟨[UInt8.ofNat c.toNat], rfl, hdec, ?_⟩
  rw [hdec]
  -- the byte's char is `c` exactly when `c` fits in the byte
  have hlow : c.toNat % 256 < 256 := Nat.mod_lt _ (by norm_num)
  constructor
  · intro h
    have hc : Char.ofNat (c.toNat % 256) = c := by
      injection h with h
      injection h
    have := congrArg Char.toNat hc
    rw [Char.toNat_ofNat, if_pos (Or.inl (by omega))] at this
    omega
  · intro h
    rw [Nat.mod_eq_of_lt h, Char.ofNat_toNat]

/-- The variant name of an enum value is not written: the encoder writes the low 32 bits of the
value, and the decoder reads them back as a non-negative value and takes its name from the
descriptor. -/
theorem enum_reads_back_low_bits_and_descriptor_name (variants : List EnumVariant) (val : Int64)
    (name : String) :
    ∃ bytes, encodeDynamic (.enum val name) (.enum variants) = .ok bytes ∧
      decodeDynamic bytes (.enum variants) =
        .ok (.enum (Int64.ofNat (val.toUInt64.toNat % 2 ^ 32))
          (((variantByValue variants (Int64.ofNat (val.toUInt64.toNat % 2 ^ 32))).map
            (·.name)).getD "")) := by
  refine ⟨writeLe [] 4 val.toUInt64.toUInt32.toNat, rfl, ?_⟩
  have hread := readLe_writeLe [] [] (by decide : 0 < 4) val.toUInt64.toUInt32.toNat
  rw [List.append_nil, List.length_nil] at hread
  have hbits : val.toUInt64.toUInt32.toNat % 256 ^ 4 = val.toUInt64.toNat % 2 ^ 32 := by
    rw [UInt64.toNat_toUInt32, show (256 : ℕ) ^ 4 = 2 ^ 32 by norm_num, Nat.mod_mod]
  rw [decodeDynamic, decodeValue]
  simp only [hread, bind, Except.bind, hbits]
  rfl

end Hdds.Dynamic
