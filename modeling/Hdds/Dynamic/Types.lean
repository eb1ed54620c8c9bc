import Mathlib
import Hdds.Foundations.Bytes

/-! # Dynamic types and values

`dynamic/type_descriptor.rs`, `dynamic/value.rs` and the error type of
`dynamic/cdr_dynamic.rs`: the descriptors a dynamic value is encoded against, and the values.

* A `TypeDescriptor` is its `kind`: its `name` is read by no codec function and left out, and an
  `Arc<TypeDescriptor>` child is the child's `TypeKind`. The records that hold a child
  (`FieldDescriptor`, `UnionCase`) take the type of the child as a parameter, so that
  `TypeKind` can hold them.
* Of the descriptors, the codec reads a field's name and type, an array's length, the variants
  of an enum and the discriminator, cases and default case of a union. A field's `id`,
  `optional` and `default`, a sequence's `max_length` and an enum's `underlying` are left out.
* A `HashMap<String, DynamicValue>` is the list of its entries. A float is its bit pattern,
  which is all `to_le_bytes` and `from_le_bytes` see.
* `TypeMismatch` keeps the value it found: the code renders it with `{:?}`, whose text for a
  `HashMap` depends on the order of iteration.
-/

namespace Hdds.Dynamic
open Wire
set_option autoImplicit false

/-- `LONG_DOUBLE_SIZE` (on every target but Windows). -/
def longDoubleSize : ℕ := 16

/-- `LONG_DOUBLE_ALIGN` (on every target but Windows). -/
def longDoubleAlign : ℕ := 16

/-- `PrimitiveKind`. -/
inductive PrimitiveKind
  | bool | u8 | u16 | u32 | u64 | i8 | i16 | i32 | i64 | f32 | f64 | longDouble | char
  | string (maxLength : Option ℕ)
  | wstring (maxLength : Option ℕ)
deriving DecidableEq, Repr

/-- `{:?}` of an `Option<usize>`. -/
def debugOption : Option ℕ → String
  | none => "None"
  | some n => "Some(" ++ toString n ++ ")"

/-- `{:?}` of a `PrimitiveKind`, the `expected` text of a primitive's type mismatch. -/
def PrimitiveKind.debug : PrimitiveKind → String
  | .bool => "Bool"
  | .u8 => "U8"
  | .u16 => "U16"
  | .u32 => "U32"
  | .u64 => "U64"
  | .i8 => "I8"
  | .i16 => "I16"
  | .i32 => "I32"
  | .i64 => "I64"
  | .f32 => "F32"
  | .f64 => "F64"
  | .longDouble => "LongDouble"
  | .char => "Char"
  | .string maxLength => "String \x7b max_length: " ++ debugOption maxLength ++ " \x7d"
  | .wstring maxLength => "WString \x7b max_length: " ++ debugOption maxLength ++ " \x7d"

/-- `FieldDescriptor`: a struct member's name and type. -/
structure FieldDescriptor (K : Type) where
  name : String
  typeDesc : K

/-- `EnumVariant`. -/
structure EnumVariant where
  name : String
  value : Int64
deriving DecidableEq, Repr

/-- `UnionCase`: the labels that select a case, and its type. -/
structure UnionCase (K : Type) where
  name : String
  labels : List Int64
  typeDesc : K

/-- `TypeKind`. -/
inductive TypeKind
  | primitive (p : PrimitiveKind)
  | struct (fields : List (FieldDescriptor TypeKind))
  | sequence (elementType : TypeKind)
  | array (elementType : TypeKind) (length : ℕ)
  | enum (variants : List EnumVariant)
  | union (discriminator : TypeKind) (cases : List (UnionCase TypeKind))
      (defaultCase : Option (UnionCase TypeKind))
  | nested (inner : TypeKind)

/-- Induction over a kind, with the hypothesis for every kind it holds: the type of each field,
the element type, the discriminator, and the type of each case and of the default case. -/
@[elab_as_elim]
theorem TypeKind.induction {P : TypeKind → Prop}
    (primitive : ∀ p, P (.primitive p))
    (struct : ∀ fields, (∀ f ∈ fields, P f.typeDesc) → P (.struct fields))
    (sequence : ∀ elementType, P elementType → P (.sequence elementType))
    (array : ∀ elementType length, P elementType → P (.array elementType length))
    (enum : ∀ variants, P (.enum variants))
    (union : ∀ discriminator cases defaultCase, P discriminator →
      (∀ c ∈ cases, P c.typeDesc) → (∀ c ∈ defaultCase, P c.typeDesc) →
      P (.union discriminator cases defaultCase))
    (nested : ∀ inner, P inner → P (.nested inner)) (k : TypeKind) : P k := by
  -- the recursor's motives for the lists and the option of children say that every child has `P`
  refine @TypeKind.rec P (fun fields => ∀ f ∈ fields, P f.typeDesc)
    (fun cases => ∀ c ∈ cases, P c.typeDesc) (fun o => ∀ c ∈ o, P c.typeDesc)
    (fun f => P f.typeDesc) (fun c => P c.typeDesc)
    primitive struct sequence array enum union nested ?_ ?_ ?_ ?_ ?_ ?_ ?_ ?_ k
  · exact fun f hf => absurd hf List.not_mem_nil
  · intro f fields hf hfields g hg
    rcases List.mem_cons.mp hg with rfl | hg
    · exact hf
    · exact hfields g hg
  · exact fun c hc => absurd hc List.not_mem_nil
  · intro c cases hc hcases d hd
    rcases List.mem_cons.mp hd with rfl | hd
    · exact hc
    · exact hcases d hd
  · exact fun c hc => absurd hc (Option.not_mem_none c)
  · intro c hc d hd
    cases Option.mem_some_iff.mp hd
    exact hc
  · exact fun _ _ h => h
  · exact fun _ _ _ h => h

/-- `EnumDescriptor::variant_by_value`: the first variant with the value. -/
def variantByValue (variants : List EnumVariant) (value : Int64) : Option EnumVariant :=
  variants.find? (·.value == value)

/-- `UnionDescriptor::case_by_discriminator`: the first case with the label, or else the
default case. -/
def caseByDiscriminator {K : Type} (cases : List (UnionCase K)) (defaultCase : Option (UnionCase K))
    (value : Int64) : Option (UnionCase K) :=
  (cases.find? (·.labels.contains value)).or defaultCase

theorem mem_of_caseByDiscriminator {K : Type} {cases : List (UnionCase K)}
    {defaultCase : Option (UnionCase K)} {disc : Int64} {c : UnionCase K}
    (h : caseByDiscriminator cases defaultCase disc = some c) : c ∈ cases ∨ c ∈ defaultCase := by
  rw [caseByDiscriminator] at h
  cases hfound : cases.find? (·.labels.contains disc) with
  | some c' =>
    rw [hfound, Option.some_or, Option.some_inj] at h
    exact .inl (h ▸ List.mem_of_find?_eq_some hfound)
  | none =>
    rw [hfound, Option.none_or] at h
    exact .inr h

/-- `DynamicValue`. -/
inductive DynamicValue
  | bool (v : Bool)
  | u8 (v : UInt8)
  | u16 (v : UInt16)
  | u32 (v : UInt32)
  | u64 (v : UInt64)
  | i8 (v : Int8)
  | i16 (v : Int16)
  | i32 (v : Int32)
  | i64 (v : Int64)
  | f32 (bits : UInt32)
  | f64 (bits : UInt64)
  | longDouble (bytes : ByteArr longDoubleSize)
  | char (c : Char)
  | string (s : String)
  | wstring (s : String)
  | struct (fields : List (String × DynamicValue))
  | sequence (elems : List DynamicValue)
  | array (elems : List DynamicValue)
  | enum (value : Int64) (name : String)
  | union (discriminator : Int64) (caseName : String) (value : DynamicValue)
  | null

/-- `DynamicValue::is_null`. -/
def DynamicValue.isNull : DynamicValue → Bool
  | .null => true
  | _ => false

/-- `HashMap::insert`: a key already present has its value replaced in place, a new key goes
last. -/
def insertEntry (name : String) (value : DynamicValue) :
    List (String × DynamicValue) → List (String × DynamicValue)
  | [] => [(name, value)]
  | (k, v) :: rest => if k = name then (name, value) :: rest else (k, v) :: insertEntry name value rest

/-- `DynamicCdrError`. `UnsupportedType` is returned by no codec function and left out. -/
inductive DynamicCdrError
  | bufferTooSmall (need remaining : ℕ)
  | invalidData (msg : String)
  | utf8Error (bytes : List UInt8)
  | typeMismatch (expected : String) (found : DynamicValue)

theorem insertEntry_of_not_mem (name : String) (value : DynamicValue)
    (entries : List (String × DynamicValue)) (h : name ∉ entries.map Prod.fst) :
    insertEntry name value entries = entries ++ [(name, value)] := by
  induction entries with
  | nil => rfl
  | cons e rest ih =>
    obtain ⟨k, v⟩ := e
    have hk : k ≠ name := fun heq => h (by simp [heq])
    have hrest : name ∉ rest.map Prod.fst := fun hm => h (List.mem_cons_of_mem _ hm)
    rw [insertEntry, if_neg hk, ih hrest, List.cons_append]

end Hdds.Dynamic
