import Hdds.Foundations.Bytes
import Hdds.Foundations.Codec

/-! # CDR2 encoding of the standard types

`core/ser/traits.rs`: `Cdr2Encode` and `Cdr2Decode` for the primitives, `bool`, `char`,
`String`, `Vec<T>`, `[T; N]`, `Option<T>` and `BTreeMap<K, V>`. A `Ty` names one of these types;
`Ty.Val` is its values.

* A primitive value is its `to_le_bytes` pattern, which is what `from_le_bytes` gives back; the
  signed and floating-point types are their bit patterns.
* `encode t v cap` is `v.encode_cdr2_le(dst)` with `dst.len() = cap`: the bytes written at the
  front of `dst`, whose length is the `Ok` result. `decode t src` is `T::decode_cdr2_le(src)`.
* A `BTreeMap` is its entries in iteration order, with distinct keys. `decode` rebuilds it with
  `insertEntry`, which updates an entry in place or appends it: what `BTreeMap::insert` does to
  entries that arrive in key order.
* The `HashMap` and `&str` instances are left out.
-/

namespace Hdds.Ser
open Wire Codec
set_option autoImplicit false

/-- `CdrError`. -/
inductive CdrError
  | bufferTooSmall
  | unexpectedEof
  | invalidEncoding
  | invalidMagic
  | dataTooLarge
  | other (msg : String)
deriving DecidableEq, Repr

/-- The types of `impl_cdr2_primitive!`. -/
inductive Prim
  | i8 | u8 | i16 | u16 | i32 | u32 | i64 | u64 | f32 | f64
deriving DecidableEq, Repr

/-- The `$size` of each primitive. -/
def Prim.size : Prim → ℕ
  | .i8 | .u8 => 1
  | .i16 | .u16 => 2
  | .i32 | .u32 | .f32 => 4
  | .i64 | .u64 | .f64 => 8

theorem Prim.size_pos (p : Prim) : 0 < p.size := by
  cases p <;> decide

/-- The types with a CDR2 encoding. -/
inductive Ty
  | prim (p : Prim)
  | bool
  | char
  | string
  | vec (t : Ty)
  | array (n : ℕ) (t : Ty)
  | option (t : Ty)
  | btreeMap (k v : Ty)
deriving DecidableEq, Repr

/-- The values of each type. -/
def Ty.Val : Ty → Type
  | .prim p => Fin (256 ^ p.size)
  | .bool => Bool
  | .char => Char
  | .string => String
  | .vec t => List t.Val
  | .array n t => {l : List t.Val // l.length = n}
  | .option t => Option t.Val
  | .btreeMap k v => {l : List (k.Val × v.Val) // (l.map Prod.fst).Nodup}

/-- Equality of values, type by type. -/
def Ty.decEq : (t : Ty) → DecidableEq t.Val
  | .prim _ => inferInstanceAs (DecidableEq (Fin _))
  | .bool => inferInstanceAs (DecidableEq Bool)
  | .char => inferInstanceAs (DecidableEq Char)
  | .string => inferInstanceAs (DecidableEq String)
  | .vec t =>
    haveI := t.decEq
    inferInstanceAs (DecidableEq (List t.Val))
  | .array n t =>
    haveI := t.decEq
    inferInstanceAs (DecidableEq {l : List t.Val // l.length = n})
  | .option t =>
    haveI := t.decEq
    inferInstanceAs (DecidableEq (Option t.Val))
  | .btreeMap k v =>
    haveI := k.decEq
    haveI := v.decEq
    inferInstanceAs (DecidableEq {l : List (k.Val × v.Val) // (l.map Prod.fst).Nodup})

instance (t : Ty) : DecidableEq t.Val := t.decEq

/-- `String::as_bytes`. -/
def utf8Bytes (s : String) : List UInt8 := s.toUTF8.data.toList

/-! ## Encoding -/

/-- `encode_cdr2_le` into a buffer of `cap` bytes. -/
def encode : (t : Ty) → t.Val → ℕ → Except CdrError (List UInt8)
  | .prim p, x, cap =>
    if cap < p.size then .error .bufferTooSmall else .ok (toLE p.size (Fin.val x))
  | .bool, b, cap => if cap = 0 then .error .bufferTooSmall else .ok [cond b 1 0]
  | .char, c, cap =>
    if cap = 0 then .error .bufferTooSmall
    -- `char8 is a single ASCII byte per spec`
    else if Char.toNat c < 128 then .ok [UInt8.ofNat (Char.toNat c)]
    else .error .invalidEncoding
  | .string, s, cap =>
    let bytes := utf8Bytes s
    if 2 ^ 32 ≤ bytes.length + 1 then .error .dataTooLarge
    else if cap < 4 + bytes.length + 1 then .error .bufferTooSmall
    else .ok (toLE 4 (bytes.length + 1) ++ bytes ++ [0])
  | .vec t, l, cap =>
    if cap < 4 then .error .bufferTooSmall
    else (encodeAll (encode t) l (cap - 4)).map (toLE 4 (List.length l) ++ ·)
  | .array _ t, l, cap => encodeAll (encode t) (Subtype.val l) cap
  | .option t, x, cap =>
    if cap = 0 then .error .bufferTooSmall
    else
      match x with
      | none => .ok [0]
      | some y => (encode t y (cap - 1)).map ([1] ++ ·)
  | .btreeMap k v, m, cap =>
    if cap < 4 then .error .bufferTooSmall
    else
      (encodeAll (encodePair (encode k) (encode v)) (Subtype.val m) (cap - 4)).map
        (toLE 4 (Subtype.val m).length ++ ·)

/-! The equations of `encode`, one per type: proofs cite these and never unfold `encode`. -/

section EncodeEquations

variable (cap : ℕ)

theorem encode_prim (p : Prim) (x : (Ty.prim p).Val) :
    encode (.prim p) x cap =
      if cap < p.size then .error .bufferTooSmall else .ok (toLE p.size (Fin.val x)) := rfl

theorem encode_bool (x : Ty.bool.Val) :
    encode .bool x cap = if cap = 0 then .error .bufferTooSmall else .ok [cond x 1 0] := rfl

theorem encode_char (c : Ty.char.Val) :
    encode .char c cap =
      if cap = 0 then .error .bufferTooSmall
      else if Char.toNat c < 128 then .ok [UInt8.ofNat (Char.toNat c)]
      else .error .invalidEncoding := rfl

theorem encode_string (s : Ty.string.Val) :
    encode .string s cap =
      if 2 ^ 32 ≤ (utf8Bytes s).length + 1 then .error .dataTooLarge
      else if cap < 4 + (utf8Bytes s).length + 1 then .error .bufferTooSmall
      else .ok (toLE 4 ((utf8Bytes s).length + 1) ++ utf8Bytes s ++ [0]) := rfl

theorem encode_vec (t : Ty) (l : (Ty.vec t).Val) :
    encode (.vec t) l cap =
      if cap < 4 then .error .bufferTooSmall
      else (encodeAll (encode t) l (cap - 4)).map (toLE 4 (List.length l) ++ ·) := rfl

theorem encode_array (n : ℕ) (t : Ty) (l : (Ty.array n t).Val) :
    encode (.array n t) l cap = encodeAll (encode t) (Subtype.val l) cap := rfl

theorem encode_none (t : Ty) :
    encode (.option t) none cap = if cap = 0 then .error .bufferTooSmall else .ok [0] := rfl

theorem encode_some (t : Ty) (y : t.Val) :
    encode (.option t) (some y) cap =
      if cap = 0 then .error .bufferTooSmall else (encode t y (cap - 1)).map ([1] ++ ·) := rfl

theorem encode_btreeMap (k v : Ty) (m : (Ty.btreeMap k v).Val) :
    encode (.btreeMap k v) m cap =
      if cap < 4 then .error .bufferTooSmall
      else
        (encodeAll (encodePair (encode k) (encode v)) (Subtype.val m) (cap - 4)).map
          (toLE 4 (Subtype.val m).length ++ ·) := rfl

end EncodeEquations

/-- `max_cdr2_size`. -/
def maxCdr2Size : (t : Ty) → t.Val → ℕ
  | .prim p, _ => p.size
  | .bool, _ => 1
  | .char, _ => 1
  | .string, s => 4 + (utf8Bytes s).length + 1
  | .vec t, l => 4 + (List.map (maxCdr2Size t) l).sum
  | .array _ t, l => (List.map (maxCdr2Size t) (Subtype.val l)).sum
  | .option _, none => 1
  | .option t, some y => 1 + maxCdr2Size t y
  -- `rough estimate per entry`
  | .btreeMap _ _, m => 4 + (Subtype.val m).length * 64

section MaxSizeEquations

variable (t k v : Ty)

@[simp] theorem maxCdr2Size_prim (p : Prim) (x : (Ty.prim p).Val) :
    maxCdr2Size (.prim p) x = p.size := rfl
@[simp] theorem maxCdr2Size_bool (x : Ty.bool.Val) : maxCdr2Size .bool x = 1 := rfl
@[simp] theorem maxCdr2Size_char (c : Ty.char.Val) : maxCdr2Size .char c = 1 := rfl
@[simp] theorem maxCdr2Size_string (s : Ty.string.Val) :
    maxCdr2Size .string s = 4 + (utf8Bytes s).length + 1 := rfl
@[simp] theorem maxCdr2Size_vec (l : (Ty.vec t).Val) :
    maxCdr2Size (.vec t) l = 4 + (List.map (maxCdr2Size t) l).sum := rfl
@[simp] theorem maxCdr2Size_array (n : ℕ) (l : (Ty.array n t).Val) :
    maxCdr2Size (.array n t) l = (List.map (maxCdr2Size t) (Subtype.val l)).sum := rfl
@[simp] theorem maxCdr2Size_none : maxCdr2Size (.option t) none = 1 := rfl
@[simp] theorem maxCdr2Size_some (y : t.Val) : maxCdr2Size (.option t) (some y) = 1 + maxCdr2Size t y :=
  rfl
@[simp] theorem maxCdr2Size_btreeMap (m : (Ty.btreeMap k v).Val) :
    maxCdr2Size (.btreeMap k v) m = 4 + (Subtype.val m).length * 64 := rfl

end MaxSizeEquations

/-! ## Decoding -/

/-- `BTreeMap::insert` on the entries: the value of a key already there is replaced, a new key
is added after the others. -/
def insertEntry {κ β : Type} [DecidableEq κ] (m : List (κ × β)) (p : κ × β) : List (κ × β) :=
  if m.any (fun q => q.1 = p.1) then m.map (fun q => if q.1 = p.1 then p else q) else m ++ [p]

theorem map_fst_insertEntry_of_mem {κ β : Type} [DecidableEq κ] (m : List (κ × β)) (p : κ × β)
    (h : p.1 ∈ m.map Prod.fst) : (insertEntry m p).map Prod.fst = m.map Prod.fst := by
  have hany : m.any (fun q => q.1 = p.1) = true := by
    obtain ⟨q, hq, hqp⟩ := List.mem_map.mp h
    exact List.any_eq_true.mpr ⟨q, hq, by simp [hqp]⟩
  rw [insertEntry, if_pos hany, List.map_map]
  refine List.map_congr_left fun q _ => ?_
  by_cases hq : q.1 = p.1 <;> simp [hq]

theorem insertEntry_of_not_mem {κ β : Type} [DecidableEq κ] (m : List (κ × β)) (p : κ × β)
    (h : p.1 ∉ m.map Prod.fst) : insertEntry m p = m ++ [p] := by
  have hany : m.any (fun q => q.1 = p.1) = false := by
    rw [List.any_eq_false]
    intro q hq hqp
    exact h (List.mem_map.mpr ⟨q, hq, by simpa using hqp⟩)
  rw [insertEntry, if_neg (by simp [hany])]

theorem nodup_insertEntry {κ β : Type} [DecidableEq κ] (m : List (κ × β)) (p : κ × β)
    (h : (m.map Prod.fst).Nodup) : ((insertEntry m p).map Prod.fst).Nodup := by
  by_cases hp : p.1 ∈ m.map Prod.fst
  · rwa [map_fst_insertEntry_of_mem m p hp]
  · rw [insertEntry_of_not_mem m p hp, List.map_append, List.nodup_append]
    refine ⟨h, by simp, fun a ha b hb hab => hp ?_⟩
    rw [List.map_cons, List.map_nil, List.mem_singleton] at hb
    exact hb ▸ hab ▸ ha

theorem nodup_foldl_insertEntry {κ β : Type} [DecidableEq κ] (l m : List (κ × β))
    (h : (m.map Prod.fst).Nodup) : ((l.foldl insertEntry m).map Prod.fst).Nodup := by
  induction l generalizing m with
  | nil => exact h
  | cons p l ih => exact ih _ (nodup_insertEntry m p h)

/-- Entries with distinct keys, inserted one after another, are appended in order. -/
theorem foldl_insertEntry {κ β : Type} [DecidableEq κ] (l m : List (κ × β))
    (h : ((m ++ l).map Prod.fst).Nodup) : l.foldl insertEntry m = m ++ l := by
  induction l generalizing m with
  | nil => simp
  | cons p l ih =>
    have hp : p.1 ∉ m.map Prod.fst := by
      rw [List.map_append, List.nodup_append] at h
      exact fun hm => h.2.2 _ hm _ (by simp) rfl
    rw [List.foldl_cons, insertEntry_of_not_mem m p hp, ih (m ++ [p]) (by simpa using h)]
    simp

theorem ofLE_take_lt (l : List UInt8) (n : ℕ) : ofLE (l.take n) < 256 ^ n :=
  lt_of_lt_of_le (ofLE_lt _) (Nat.pow_le_pow_right (by decide) (by simp))

/-- `decode_cdr2_le`: the value and the number of bytes read. -/
def decode : (t : Ty) → List UInt8 → Except CdrError (t.Val × ℕ)
  | .prim p, src =>
    if src.length < p.size then .error .unexpectedEof
    else .ok (⟨ofLE (src.take p.size), ofLE_take_lt src p.size⟩, p.size)
  | .bool, src =>
    match src with
    | [] => .error .unexpectedEof
    | b :: _ =>
      if b = 0 then .ok (false, 1)
      else if b = 1 then .ok (true, 1)
      else .error (.other ("invalid boolean value: " ++ toString b))
  | .char, src =>
    match src with
    | [] => .error .unexpectedEof
    | b :: _ => .ok (Char.ofNat b.toNat, 1)
  | .string, src =>
    if src.length < 4 then .error .unexpectedEof
    else
      let cdrLen := ofLE (src.take 4)
      let totalSize := 4 + cdrLen
      if src.length < totalSize then .error .unexpectedEof
      else
        match String.fromUTF8? ⟨(field src 4 (cdrLen - 1)).toArray⟩ with
        | none => .error .invalidEncoding
        | some s => .ok (s, totalSize)
  | .vec t, src =>
    if src.length < 4 then .error .unexpectedEof
    else
      let len := ofLE (src.take 4)
      -- `each element is at least 1 byte`
      if src.length - 4 < len then .error .unexpectedEof
      else (decodeN (decode t) len (src.drop 4)).map fun r => (r.1.1, 4 + r.2)
  | .array n t, src => decodeN (decode t) n src
  | .option t, src =>
    match src with
    | [] => .error .unexpectedEof
    | b :: rest =>
      if b = 0 then .ok (none, 1)
      else if b = 1 then (decode t rest).map fun r => (some r.1, 1 + r.2)
      else .error (.other ("invalid optional flag: " ++ toString b))
  | .btreeMap k v, src =>
    if src.length < 4 then .error .unexpectedEof
    else
      let len := ofLE (src.take 4)
      if (src.length - 4) / 2 < len then .error .unexpectedEof
      else
        (decodeN (decodePair (decode k) (decode v)) len (src.drop 4)).map fun r =>
          (⟨r.1.1.foldl insertEntry [], nodup_foldl_insertEntry _ [] List.nodup_nil⟩, 4 + r.2)

/-! The equations of `decode`, one per type. -/

section DecodeEquations

variable (src : List UInt8)

theorem decode_prim (p : Prim) :
    decode (.prim p) src =
      if src.length < p.size then .error .unexpectedEof
      else .ok (⟨ofLE (src.take p.size), ofLE_take_lt src p.size⟩, p.size) := rfl

theorem decode_bool_cons (b : UInt8) :
    decode .bool (b :: src) =
      if b = 0 then .ok (false, 1)
      else if b = 1 then .ok (true, 1)
      else .error (.other ("invalid boolean value: " ++ toString b)) := rfl

theorem decode_char_cons (b : UInt8) : decode .char (b :: src) = .ok (Char.ofNat b.toNat, 1) := rfl

theorem decode_string :
    decode .string src =
      if src.length < 4 then .error .unexpectedEof
      else if src.length < 4 + ofLE (src.take 4) then .error .unexpectedEof
      else
        match String.fromUTF8? ⟨(field src 4 (ofLE (src.take 4) - 1)).toArray⟩ with
        | none => .error .invalidEncoding
        | some s => .ok (s, 4 + ofLE (src.take 4)) := rfl

theorem decode_vec (t : Ty) :
    decode (.vec t) src =
      if src.length < 4 then .error .unexpectedEof
      else if src.length - 4 < ofLE (src.take 4) then .error .unexpectedEof
      else (decodeN (decode t) (ofLE (src.take 4)) (src.drop 4)).map fun r => (r.1.1, 4 + r.2) :=
  rfl

theorem decode_array (n : ℕ) (t : Ty) : decode (.array n t) src = decodeN (decode t) n src := rfl

theorem decode_option_cons (t : Ty) (b : UInt8) :
    decode (.option t) (b :: src) =
      if b = 0 then .ok (none, 1)
      else if b = 1 then (decode t src).map fun r => (some r.1, 1 + r.2)
      else .error (.other ("invalid optional flag: " ++ toString b)) := rfl

theorem decode_btreeMap (k v : Ty) :
    decode (.btreeMap k v) src =
      if src.length < 4 then .error .unexpectedEof
      else if (src.length - 4) / 2 < ofLE (src.take 4) then .error .unexpectedEof
      else
        (decodeN (decodePair (decode k) (decode v)) (ofLE (src.take 4)) (src.drop 4)).map fun r =>
          (⟨r.1.1.foldl insertEntry [], nodup_foldl_insertEntry _ [] List.nodup_nil⟩, 4 + r.2) :=
  rfl

end DecodeEquations

/-! ## What a successful encode wrote -/

section Inversion

variable {cap : ℕ} {b : List UInt8}

theorem encode_prim_eq_ok {p : Prim} {x : (Ty.prim p).Val} (h : encode (.prim p) x cap = .ok b) :
    b = toLE p.size (Fin.val x) := by
  rw [encode_prim] at h
  split at h
  · cases h
  · cases h
    rfl

theorem encode_bool_eq_ok {x : Ty.bool.Val} (h : encode .bool x cap = .ok b) : b = [cond x 1 0] := by
  rw [encode_bool] at h
  split at h
  · cases h
  · cases h
    rfl

theorem encode_char_eq_ok {c : Ty.char.Val} (h : encode .char c cap = .ok b) :
    Char.toNat c < 128 ∧ b = [UInt8.ofNat (Char.toNat c)] := by
  rw [encode_char] at h
  split at h
  · cases h
  · split at h
    · cases h
      exact ⟨by assumption, rfl⟩
    · cases h

theorem encode_string_eq_ok {s : Ty.string.Val} (h : encode .string s cap = .ok b) :
    (utf8Bytes s).length + 1 < 2 ^ 32 ∧
      b = toLE 4 ((utf8Bytes s).length + 1) ++ utf8Bytes s ++ [0] := by
  rw [encode_string] at h
  split at h
  · cases h
  · split at h
    · cases h
    · cases h
      exact ⟨by omega, rfl⟩

theorem encode_vec_eq_ok {t : Ty} {l : (Ty.vec t).Val} (h : encode (.vec t) l cap = .ok b) :
    ∃ bs : List (List UInt8), b = toLE 4 (List.length l) ++ bs.flatten ∧
      List.Forall₂ (fun x b => ∃ c, encode t x c = .ok b) l bs := by
  rw [encode_vec] at h
  split at h
  · cases h
  · cases hall : encodeAll (encode t) l (cap - 4) with
    | error e =>
      rw [hall] at h
      cases h
    | ok rest =>
      rw [hall] at h
      cases h
      obtain ⟨bs, rfl, hbs⟩ := encodeAll_eq_ok hall
      exact ⟨bs, rfl, hbs⟩

theorem encode_array_eq_ok {n : ℕ} {t : Ty} {l : (Ty.array n t).Val}
    (h : encode (.array n t) l cap = .ok b) :
    ∃ bs : List (List UInt8), b = bs.flatten ∧
      List.Forall₂ (fun x b => ∃ c, encode t x c = .ok b) (Subtype.val l) bs :=
  encodeAll_eq_ok h

theorem encode_none_eq_ok {t : Ty} (h : encode (.option t) none cap = .ok b) : b = [0] := by
  rw [encode_none] at h
  split at h
  · cases h
  · cases h
    rfl

theorem encode_some_eq_ok {t : Ty} {y : t.Val} (h : encode (.option t) (some y) cap = .ok b) :
    ∃ b', b = [1] ++ b' ∧ ∃ c, encode t y c = .ok b' := by
  rw [encode_some] at h
  split at h
  · cases h
  · cases hy : encode t y (cap - 1) with
    | error e =>
      rw [hy] at h
      cases h
    | ok b' =>
      rw [hy] at h
      cases h
      exact ⟨b', rfl, _, hy⟩

/-- The bytes of one entry: its key's, then its value's. -/
def EntryBytes (k v : Ty) (p : k.Val × v.Val) (b : List UInt8) : Prop :=
  ∃ ba bb, b = ba ++ bb ∧ (∃ c, encode k p.1 c = .ok ba) ∧ ∃ c, encode v p.2 c = .ok bb

theorem encode_btreeMap_eq_ok {k v : Ty} {m : (Ty.btreeMap k v).Val}
    (h : encode (.btreeMap k v) m cap = .ok b) :
    ∃ bs : List (List UInt8), b = toLE 4 (Subtype.val m).length ++ bs.flatten ∧
      List.Forall₂ (EntryBytes k v) (Subtype.val m) bs := by
  rw [encode_btreeMap] at h
  split at h
  · cases h
  · cases hall : encodeAll (encodePair (encode k) (encode v)) m.1 (cap - 4) with
    | error e =>
      rw [hall] at h
      cases h
    | ok rest =>
      rw [hall] at h
      cases h
      obtain ⟨bs, rfl, hbs⟩ := encodeAll_eq_ok hall
      exact ⟨bs, rfl, hbs.imp fun p b ⟨_, hp⟩ => encodePair_eq_ok hp⟩

end Inversion

/-! ## The encoders write exactly their value -/

section ExactCases

variable {t k v : Ty}

/-- A length header, then exact encodings of the elements. -/
theorem exact_vec {l : (Ty.vec t).Val} {bs : List (List UInt8)}
    (h : List.Forall₂ (Exact (encode t) .bufferTooSmall) l bs) :
    Exact (encode (.vec t)) .bufferTooSmall l (toLE 4 (List.length l) ++ bs.flatten) :=
  Exact.header (f := encodeAll (encode t)) _ (fun cap => by simp [encode_vec]) (encodeAll_exact h)

theorem exact_some {y : t.Val} {b : List UInt8} (h : Exact (encode t) .bufferTooSmall y b) :
    Exact (encode (.option t)) .bufferTooSmall (some y) ([1] ++ b) :=
  Exact.header (x := some y) (f := fun _ cap => encode t y cap) [1]
    (fun cap => by simp [encode_some]) h

theorem exact_btreeMap {m : (Ty.btreeMap k v).Val} {bs : List (List UInt8)}
    (h : List.Forall₂ (Exact (encodePair (encode k) (encode v)) .bufferTooSmall)
      (Subtype.val m) bs) :
    Exact (encode (.btreeMap k v)) .bufferTooSmall m
      (toLE 4 (Subtype.val m).length ++ bs.flatten) :=
  Exact.header (x := m)
    (f := fun m cap => encodeAll (encodePair (encode k) (encode v)) (Subtype.val m) cap) _
    (fun cap => by simp [encode_btreeMap]) (encodeAll_exact h)

end ExactCases

/-- Whatever `encode` writes for a value, it writes into every buffer with room for it and fails
with `BufferTooSmall` in every smaller one. -/
theorem encode_exact (t : Ty) :
    ∀ (v : t.Val) {cap : ℕ} {b : List UInt8}, encode t v cap = .ok b →
      Exact (encode t) .bufferTooSmall v b := by
  induction t with
  | prim p =>
    intro x cap b h
    rw [encode_prim_eq_ok h]
    intro cap'
    simp [encode_prim]
  | bool =>
    intro x cap b h
    rw [encode_bool_eq_ok h]
    intro cap'
    simp [encode_bool]
  | char =>
    intro c cap b h
    obtain ⟨hascii, rfl⟩ := encode_char_eq_ok h
    intro cap'
    simp [encode_char, hascii]
  | string =>
    intro s cap b h
    obtain ⟨hfits, rfl⟩ := encode_string_eq_ok h
    have hlen : (toLE 4 ((utf8Bytes s).length + 1) ++ utf8Bytes s ++ [0]).length =
        4 + (utf8Bytes s).length + 1 := by
      simp
      omega
    intro cap'
    simp only [encode_string, if_neg (show ¬2 ^ 32 ≤ (utf8Bytes s).length + 1 by omega), hlen]
  | vec t ih =>
    intro l cap b h
    obtain ⟨bs, rfl, hbs⟩ := encode_vec_eq_ok h
    exact exact_vec (hbs.imp fun x b ⟨_, hx⟩ => ih x hx)
  | array n t ih =>
    intro l cap b h
    obtain ⟨bs, rfl, hbs⟩ := encode_array_eq_ok h
    exact encodeAll_exact (hbs.imp fun x b ⟨_, hx⟩ => ih x hx)
  | option t ih =>
    intro x cap b h
    cases x with
    | none =>
      rw [encode_none_eq_ok h]
      intro cap'
      simp [encode_none]
    | some y =>
      obtain ⟨b', rfl, _, hy⟩ := encode_some_eq_ok h
      exact exact_some (ih y hy)
  | btreeMap k v ihk ihv =>
    intro m cap b h
    obtain ⟨bs, rfl, hbs⟩ := encode_btreeMap_eq_ok h
    have hpairs := hbs.imp fun p b ⟨ba, bb, hb, ⟨_, ha⟩, ⟨_, hv⟩⟩ => by
      rw [hb]
      exact Exact.pair (ihk p.1 ha) (ihv p.2 hv)
    exact exact_btreeMap hpairs

/-! ## The fewest bytes of each type -/

/-- The fewest bytes a value of each type encodes to. -/
def Ty.minSize : Ty → ℕ
  | .prim p => p.size
  | .bool | .char => 1
  | .string => 5
  | .vec _ => 4
  | .array n t => n * t.minSize
  | .option _ => 1
  | .btreeMap _ _ => 4

section MinSize

variable (t k v : Ty)

@[simp] theorem minSize_prim (p : Prim) : (Ty.prim p).minSize = p.size := rfl
@[simp] theorem minSize_bool : Ty.bool.minSize = 1 := rfl
@[simp] theorem minSize_char : Ty.char.minSize = 1 := rfl
@[simp] theorem minSize_string : Ty.string.minSize = 5 := rfl
@[simp] theorem minSize_vec : (Ty.vec t).minSize = 4 := rfl
@[simp] theorem minSize_array (n : ℕ) : (Ty.array n t).minSize = n * t.minSize := rfl
@[simp] theorem minSize_option : (Ty.option t).minSize = 1 := rfl
@[simp] theorem minSize_btreeMap : (Ty.btreeMap k v).minSize = 4 := rfl

end MinSize

theorem minSize_le_length (t : Ty) :
    ∀ (v : t.Val) {cap : ℕ} {b : List UInt8}, encode t v cap = .ok b → t.minSize ≤ b.length := by
  induction t with
  | prim p =>
    intro x cap b h
    simp [encode_prim_eq_ok h]
  | bool =>
    intro x cap b h
    simp [encode_bool_eq_ok h]
  | char =>
    intro c cap b h
    simp [(encode_char_eq_ok h).2]
  | string =>
    intro s cap b h
    simp [(encode_string_eq_ok h).2]
  | vec t =>
    intro l cap b h
    obtain ⟨bs, rfl, -⟩ := encode_vec_eq_ok h
    simp
  | array n t ih =>
    intro l cap b h
    obtain ⟨bs, rfl, hbs⟩ := encode_array_eq_ok h
    have hlen := length_mul_le_length_flatten (hbs.imp fun x b ⟨_, hx⟩ => ih x hx)
    rw [l.2] at hlen
    exact hlen
  | option t =>
    intro x cap b h
    cases x with
    | none => simp [encode_none_eq_ok h]
    | some y =>
      obtain ⟨b', rfl, -⟩ := encode_some_eq_ok h
      simp
  | btreeMap k v =>
    intro m cap b h
    obtain ⟨bs, rfl, -⟩ := encode_btreeMap_eq_ok h
    simp

/-- A type whose fewest bytes are none encodes every value to nothing: an array of length zero,
or of such a type. -/
theorem encode_eq_nil_of_minSize (t : Ty) (ht : t.minSize = 0) :
    ∀ (v : t.Val) {cap : ℕ} {b : List UInt8}, encode t v cap = .ok b → b = [] := by
  induction t with
  | prim p => exact absurd ht (Nat.pos_iff_ne_zero.mp p.size_pos)
  | array n t ih =>
    intro l cap b h
    obtain ⟨bs, rfl, hbs⟩ := encode_array_eq_ok h
    rcases Nat.mul_eq_zero.mp ht with hn | ht
    · -- no elements
      have hnil : Subtype.val l = [] := List.length_eq_zero_iff.mp (l.2.trans hn)
      rw [hnil] at hbs
      cases hbs
      rfl
    · -- elements of no bytes
      have hnil : List.Forall₂ (fun _ b => b = []) (Subtype.val l) bs :=
        hbs.imp fun x b ⟨_, hx⟩ => ih ht x hx
      clear hbs h
      generalize Subtype.val l = xs at hnil
      induction hnil with
      | nil => rfl
      | cons hb _ ihb => simp [hb, ihb]
  | _ => exact absurd ht (Nat.succ_ne_zero _)

/-! ## Reading back what was written -/

/-- Every element of a `Vec` takes at least one byte and every entry of a `BTreeMap` at least
two: what the guards of their decoders assume. -/
def Ty.guarded : Ty → Bool
  | .vec t => decide (1 ≤ t.minSize) && t.guarded
  | .array _ t => t.guarded
  | .option t => t.guarded
  | .btreeMap k v => decide (2 ≤ k.minSize + v.minSize) && k.guarded && v.guarded
  | _ => true

/-- Every `Vec` and `BTreeMap` inside the value has fewer than `2^32` elements, so that
`len as u32` keeps its length. -/
def short : (t : Ty) → t.Val → Bool
  | .vec t, l => decide (List.length l < 2 ^ 32) && List.all l (short t)
  | .array _ t, l => List.all (Subtype.val l) (short t)
  | .option _, none => true
  | .option t, some y => short t y
  | .btreeMap k v, m =>
    decide ((Subtype.val m).length < 2 ^ 32) &&
      List.all (Subtype.val m) fun p => short k p.1 && short v p.2
  | _, _ => true

theorem fromUTF8?_utf8Bytes (s : String) : String.fromUTF8? ⟨(utf8Bytes s).toArray⟩ = some s := by
  have hbytes : (⟨(utf8Bytes s).toArray⟩ : ByteArray) = s.toByteArray := by simp [utf8Bytes]
  rw [hbytes, String.fromUTF8?, dif_pos s.isValidUTF8]
  rfl

/-- The length prefix of a sequence reads back as its length. -/
theorem ofLE_take_toLE_append (n : ℕ) (hn : n < 2 ^ 32) (rest : List UInt8) :
    ofLE ((toLE 4 n ++ rest).take 4) = n := by
  rw [List.take_left' (length_toLE 4 n), ofLE_toLE_of_lt (by omega)]

/-- **The CDR2 round trip.** For a type whose sequences and maps have elements of at least one
and two bytes, what `encode` writes for a value whose sequences are shorter than `2^32`
decodes back to it, with the number of bytes written, whatever follows it. -/
theorem decode_reads_back_encoding (t : Ty) (ht : t.guarded) :
    ∀ (v : t.Val), short t v → ∀ {cap : ℕ} {b : List UInt8}, encode t v cap = .ok b →
      ReadsBack (decode t) v b := by
  induction t with
  | prim p =>
    intro x _ cap b h rest
    rw [encode_prim_eq_ok h, decode, if_neg (by simp)]
    have hx : ofLE ((toLE p.size (Fin.val x) ++ rest).take p.size) = Fin.val x := by
      rw [List.take_left' (length_toLE _ _), ofLE_toLE_of_lt x.2]
    simp only [hx, length_toLE]
    rfl
  | bool =>
    intro x _ cap b h rest
    rw [encode_bool_eq_ok h]
    cases x <;> rfl
  | char =>
    intro c _ cap b h rest
    change Char at c
    obtain ⟨hascii, rfl⟩ := encode_char_eq_ok h
    have hbyte : (UInt8.ofNat (Char.toNat c)).toNat = Char.toNat c := by
      rw [UInt8.toNat_ofNat', Nat.mod_eq_of_lt (by omega)]
    show decode .char (UInt8.ofNat (Char.toNat c) :: rest) = _
    rw [decode_char_cons, hbyte, Char.ofNat_toNat]
    rfl
  | string =>
    intro s _ cap b h rest
    change String at s
    obtain ⟨hfits, rfl⟩ := encode_string_eq_ok h
    set n := (utf8Bytes s).length with hn
    have hprefix : ofLE ((toLE 4 (n + 1) ++ utf8Bytes s ++ [0] ++ rest).take 4) = n + 1 := by
      rw [List.append_assoc, List.append_assoc, ofLE_take_toLE_append _ hfits]
    have hbytes : field (toLE 4 (n + 1) ++ utf8Bytes s ++ [0] ++ rest) 4 n = utf8Bytes s := by
      have := field_append_self (toLE 4 (n + 1)) (utf8Bytes s) ([0] ++ rest)
      rwa [length_toLE, ← List.append_assoc] at this
    have hwritten : (toLE 4 (n + 1) ++ utf8Bytes s ++ [0]).length = 4 + (n + 1) := by
      simp only [List.length_append, length_toLE, List.length_singleton, hn]
      omega
    have hsize : (toLE 4 (n + 1) ++ utf8Bytes s ++ [0] ++ rest).length = 4 + (n + 1) + rest.length := by
      rw [List.length_append, hwritten]
    rw [decode_string, if_neg (by omega), hprefix, if_neg (by omega), Nat.add_sub_cancel, hbytes,
      fromUTF8?_utf8Bytes, hwritten]
  | vec t ih =>
    intro l hshort cap b h rest
    have hg : (decide (1 ≤ t.minSize) && t.guarded) = true := ht
    have hs : (decide (List.length l < 2 ^ 32) && List.all l (short t)) = true := hshort
    simp only [Bool.and_eq_true, decide_eq_true_eq] at hg
    simp only [Bool.and_eq_true, decide_eq_true_eq] at hs
    obtain ⟨bs, rfl, hbs⟩ := encode_vec_eq_ok h
    have helems := forall₂_and_of_forall_mem (List.all_eq_true.mp hs.2) hbs
    -- every element reads back, and takes at least one byte
    have hread : List.Forall₂ (ReadsBack (decode t)) l bs :=
      helems.imp fun x b ⟨hx, _, hc⟩ => ih hg.2 x hx hc
    have hmin : List.length l * 1 ≤ bs.flatten.length :=
      length_mul_le_length_flatten (hbs.imp fun x b ⟨_, hc⟩ => le_trans hg.1 (minSize_le_length t x hc))
    rw [List.append_assoc, decode_vec, if_neg (by simp), ofLE_take_toLE_append _ hs.1,
      if_neg (by simp only [List.length_append, length_toLE]; omega),
      List.drop_left' (length_toLE 4 _), decodeN_flatten hread]
    show Except.ok (l, 4 + bs.flatten.length) =
      Except.ok (l, (toLE 4 (List.length l) ++ bs.flatten).length)
    rw [List.length_append, length_toLE]
  | array n t ih =>
    intro l hshort cap b h rest
    obtain ⟨l, rfl⟩ := l
    have hs : List.all l (short t) = true := hshort
    rw [List.all_eq_true] at hs
    obtain ⟨bs, rfl, hbs⟩ := encode_array_eq_ok h
    have hread : List.Forall₂ (ReadsBack (decode t)) l bs :=
      (forall₂_and_of_forall_mem hs hbs).imp fun x b ⟨hx, _, hc⟩ => ih ht x hx hc
    rw [decode_array]
    exact decodeN_flatten hread rest
  | option t ih =>
    intro x hshort cap b h rest
    cases x with
    | none =>
      rw [encode_none_eq_ok h]
      show decode (.option t) (0 :: rest) = _
      rw [decode_option_cons]
      rfl
    | some y =>
      obtain ⟨b', rfl, _, hy⟩ := encode_some_eq_ok h
      show decode (.option t) (1 :: (b' ++ rest)) = _
      rw [decode_option_cons, if_neg (by decide), if_pos rfl, ih ht y hshort hy rest]
      show Except.ok (some y, 1 + b'.length) = Except.ok (some y, ([1] ++ b').length)
      rw [List.length_append, List.length_singleton, Nat.add_comm]
  | btreeMap k v ihk ihv =>
    intro m hshort cap b h rest
    have hg : (decide (2 ≤ k.minSize + v.minSize) && k.guarded && v.guarded) = true := ht
    have hs : (decide ((Subtype.val m).length < 2 ^ 32) &&
        List.all (Subtype.val m) fun p => short k p.1 && short v p.2) = true := hshort
    simp only [Bool.and_eq_true, decide_eq_true_eq] at hg
    simp only [Bool.and_eq_true, decide_eq_true_eq, List.all_eq_true] at hs
    obtain ⟨bs, rfl, hbs⟩ := encode_btreeMap_eq_ok h
    have hentries := forall₂_and_of_forall_mem hs.2 hbs
    -- every entry reads back, and takes at least two bytes
    have hread : List.Forall₂ (ReadsBack (decodePair (decode k) (decode v))) (Subtype.val m) bs :=
      hentries.imp fun p b ⟨⟨hk, hv⟩, ba, bb, hb, ⟨_, ha⟩, ⟨_, hbv⟩⟩ =>
        hb ▸ decodePair_append (ihk hg.1.2 p.1 hk ha) (ihv hg.2 p.2 hv hbv)
    have hmin : (Subtype.val m).length * 2 ≤ bs.flatten.length :=
      length_mul_le_length_flatten (hentries.imp fun p b ⟨_, ba, bb, hb, ⟨_, ha⟩, ⟨_, hbv⟩⟩ => by
        have hka := minSize_le_length k _ ha
        have hvb := minSize_le_length v _ hbv
        rw [hb, List.length_append]
        omega)
    have hfold : (Subtype.val m).foldl insertEntry [] = Subtype.val m := by
      simpa using foldl_insertEntry (Subtype.val m) [] (by simpa using m.2)
    rw [List.append_assoc, decode_btreeMap, if_neg (by simp), ofLE_take_toLE_append _ hs.1,
      if_neg (by simp only [List.length_append, length_toLE]; omega),
      List.drop_left' (length_toLE 4 _), decodeN_flatten hread]
    simp only [List.length_append, length_toLE]
    exact congrArg Except.ok (Prod.ext (Subtype.ext hfold) rfl)

/-- `Vec<Option<u16>>` holding `[Some(0x0201), None]`. -/
theorem decode_reads_back_vec_of_options :
    ReadsBack (decode (.vec (.option (.prim .u16)))) [some ⟨0x0201, by decide⟩, none]
      [2, 0, 0, 0, 1, 1, 2, 0] :=
  @decode_reads_back_encoding (.vec (.option (.prim .u16))) (by decide) _ (by decide) 8 _ rfl

/-! ## How many bytes `encode` needs -/

/-- Every `char` is ASCII and every `String` shorter than `u32::MAX` bytes: the values whose
encoding fails only for want of room. -/
def encodable : (t : Ty) → t.Val → Bool
  | .char, c => decide (Char.toNat c < 128)
  | .string, s => decide ((utf8Bytes s).length + 1 < 2 ^ 32)
  | .vec t, l => List.all l (encodable t)
  | .array _ t, l => List.all (Subtype.val l) (encodable t)
  | .option _, none => true
  | .option t, some y => encodable t y
  | .btreeMap k v, m => List.all (Subtype.val m) fun p => encodable k p.1 && encodable v p.2
  | _, _ => true

/-- The type has no `BTreeMap` inside. -/
def Ty.mapFree : Ty → Bool
  | .vec t | .array _ t | .option t => t.mapFree
  | .btreeMap _ _ => false
  | _ => true

/-- An encodable value has one encoding, written into any buffer with room for it. -/
theorem exists_exact (t : Ty) :
    ∀ (v : t.Val), encodable t v → ∃ b, Exact (encode t) .bufferTooSmall v b := by
  induction t with
  | prim p =>
    intro x _
    exact ⟨_, @encode_exact (.prim p) x p.size _ (by rw [encode_prim, if_neg (by omega)])⟩
  | bool =>
    intro x _
    exact ⟨_, @encode_exact .bool x 1 _ (by rw [encode_bool, if_neg (by omega)])⟩
  | char =>
    intro c hc
    have hascii : Char.toNat c < 128 := of_decide_eq_true hc
    exact ⟨_, @encode_exact .char c 1 _ (by rw [encode_char, if_neg (by omega), if_pos hascii])⟩
  | string =>
    intro s hs
    have hfits : (utf8Bytes s).length + 1 < 2 ^ 32 := of_decide_eq_true hs
    exact ⟨_, @encode_exact .string s (4 + (utf8Bytes s).length + 1) _
      (by rw [encode_string, if_neg (by omega), if_neg (by omega)])⟩
  | vec t ih =>
    intro l hl
    obtain ⟨bs, hbs⟩ := exists_forall₂ fun x hx => ih x (List.all_eq_true.mp hl x hx)
    exact ⟨_, exact_vec hbs⟩
  | array n t ih =>
    intro l hl
    obtain ⟨bs, hbs⟩ := exists_forall₂ fun x hx => ih x (List.all_eq_true.mp hl x hx)
    exact ⟨_, encodeAll_exact hbs⟩
  | option t ih =>
    intro x hx
    cases x with
    | none =>
      exact ⟨_, @encode_exact (.option t) none 1 _ (by rw [encode_none, if_neg (by omega)])⟩
    | some y =>
      obtain ⟨b, hb⟩ := ih y hx
      exact ⟨_, exact_some hb⟩
  | btreeMap k v ihk ihv =>
    intro m hm
    obtain ⟨bs, hbs⟩ := exists_forall₂ fun p hp => by
      have hkv := List.all_eq_true.mp hm p hp
      simp only [Bool.and_eq_true] at hkv
      obtain ⟨ba, ha⟩ := ihk p.1 hkv.1
      obtain ⟨bb, hb⟩ := ihv p.2 hkv.2
      exact ⟨ba ++ bb, Exact.pair ha hb⟩
    exact ⟨_, exact_btreeMap hbs⟩

/-- Without a `BTreeMap` inside, `max_cdr2_size` is exactly the number of bytes written. -/
theorem length_eq_maxCdr2Size (t : Ty) (ht : t.mapFree) :
    ∀ (v : t.Val) {cap : ℕ} {b : List UInt8}, encode t v cap = .ok b →
      b.length = maxCdr2Size t v := by
  induction t with
  | prim p =>
    intro x cap b h
    simp [encode_prim_eq_ok h]
  | bool =>
    intro x cap b h
    simp [encode_bool_eq_ok h]
  | char =>
    intro c cap b h
    simp [(encode_char_eq_ok h).2]
  | string =>
    intro s cap b h
    simp [(encode_string_eq_ok h).2]
    omega
  | vec t ih =>
    intro l cap b h
    obtain ⟨bs, rfl, hbs⟩ := encode_vec_eq_ok h
    have hlen := length_flatten_of_forall₂ (hbs.imp fun x b ⟨_, hx⟩ => ih ht x hx)
    rw [List.length_append, length_toLE, hlen, maxCdr2Size_vec]
  | array n t ih =>
    intro l cap b h
    obtain ⟨bs, rfl, hbs⟩ := encode_array_eq_ok h
    rw [length_flatten_of_forall₂ (hbs.imp fun x b ⟨_, hx⟩ => ih ht x hx), maxCdr2Size_array]
  | option t ih =>
    intro x cap b h
    cases x with
    | none => simp [encode_none_eq_ok h]
    | some y =>
      obtain ⟨b', rfl, _, hy⟩ := encode_some_eq_ok h
      rw [List.length_append, List.length_singleton, ih ht y hy, maxCdr2Size_some]
  | btreeMap k v => exact absurd ht Bool.false_ne_true

/-- **`max_cdr2_size` is enough without maps.** For a type with no `BTreeMap` inside, an
encodable value encodes into any buffer of `max_cdr2_size()` bytes or more, and fills exactly
that many. -/
theorem encode_fits_maxCdr2Size (t : Ty) (ht : t.mapFree) (v : t.Val) (hv : encodable t v)
    {cap : ℕ} (hcap : maxCdr2Size t v ≤ cap) :
    ∃ b, encode t v cap = .ok b ∧ b.length = maxCdr2Size t v := by
  obtain ⟨b, hb⟩ := exists_exact t v hv
  have hlen : b.length = maxCdr2Size t v := length_eq_maxCdr2Size t ht v (hb.eq_ok le_rfl)
  exact ⟨b, hb.eq_ok (by omega), hlen⟩

/-- `Vec<String>` holding `["dds"]` needs its 12 bytes. -/
theorem encode_vec_of_strings_fits :
    ∃ b, encode (.vec .string) ["dds"] 16 = .ok b ∧
      b.length = maxCdr2Size (.vec .string) ["dds"] :=
  @encode_fits_maxCdr2Size (.vec .string) (by decide) ["dds"] (by decide) 16 (by decide)

/-- **Where the round trip and the size bound fail.** A sequence of zero-byte elements (such as
`Vec<[u8; 0]>`) encodes to its length header alone, which the `Vec` decoder then rejects: its
guard assumes `each element is at least 1 byte`. And a map whose entries take more than the 64
bytes `max_cdr2_size` allows each does not fit a buffer of `max_cdr2_size()` bytes. -/
theorem cdr2_round_trip_fails_for_empty_elements_and_wide_entries :
    (∀ (t : Ty), t.minSize = 0 → ∀ (l : (Ty.vec t).Val), l ≠ [] → List.length l < 2 ^ 32 →
      ∀ (cap : ℕ) (b : List UInt8), encode (.vec t) l cap = .ok b →
        decode (.vec t) b = .error .unexpectedEof) ∧
    (∀ (k v : Ty) (m : (Ty.btreeMap k v).Val) (cap : ℕ) (b : List UInt8),
      encode (.btreeMap k v) m cap = .ok b → maxCdr2Size (.btreeMap k v) m < b.length →
        encode (.btreeMap k v) m (maxCdr2Size (.btreeMap k v) m) = .error .bufferTooSmall) := by
  constructor
  · intro t ht l hne hlen cap b h
    obtain ⟨bs, rfl, hbs⟩ := encode_vec_eq_ok h
    change List t.Val at l
    -- every element is written as no bytes at all
    have hempty : bs.flatten.length = 0 := by
      rw [length_flatten_of_forall₂ (s := fun _ => 0)
        (hbs.imp fun x b ⟨_, hx⟩ => by rw [encode_eq_nil_of_minSize t ht x hx]; rfl)]
      simp only [List.map_const', List.sum_replicate, smul_eq_mul, mul_zero]
    have hpos : 0 < l.length := List.length_pos_iff.mpr hne
    rw [decode_vec, if_neg (by simp), ofLE_take_toLE_append _ hlen,
      if_pos (by rw [List.length_append, length_toLE, hempty]; omega)]
    rfl
  · intro k v m cap b h hwide
    exact (encode_exact _ m h).eq_error hwide

/-- `Vec<[u8; 0]>` holding one element, and a one-entry map from `[u64; 8]` to `u8`. -/
theorem cdr2_empty_element_and_wide_entry_counterexamples :
    decode (.vec (.array 0 (.prim .u8))) [1, 0, 0, 0] = .error .unexpectedEof ∧
    encode (.btreeMap (.array 8 (.prim .u64)) (.prim .u8))
      ⟨[(⟨List.replicate 8 ⟨0, by decide⟩, rfl⟩, ⟨0, by decide⟩)], List.nodup_singleton _⟩ 68 = .error .bufferTooSmall :=
  ⟨cdr2_round_trip_fails_for_empty_elements_and_wide_entries.1 (.array 0 (.prim .u8)) rfl
      [⟨[], rfl⟩] (List.cons_ne_nil _ _) (by decide) 4 [1, 0, 0, 0] rfl,
    cdr2_round_trip_fails_for_empty_elements_and_wide_entries.2 _ _ _ 69
      (toLE 4 1 ++ List.replicate 65 0) rfl (by decide)⟩

end Hdds.Ser
