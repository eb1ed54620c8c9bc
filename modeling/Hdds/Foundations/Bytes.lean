import Mathlib

/-! # Fixed-width byte encodings

The vocabulary every wire format below is written in. A width-`w` field that holds `n` is
`toLE w n` (or `toBE w n`), and a decoder reads it back with `ofLE` (`ofBE`); `field p off w`
is the slice `p[off..off + w]`; `ByteArr n` is `[u8; n]`, a byte list that carries its length.

* `ofLE_toLE`: decoding what was encoded gives `n` modulo `256 ^ w`, so a value that fits
  comes back exactly, and a narrowing cast (`x as u32`) is the same encoding of `x`.
* `field_append_left`, `field_append_right`: a field read in a concatenation is read in the
  part it lies in. These are what a decoder walking a built packet uses at every step.
-/

namespace Wire
set_option autoImplicit false

/-! ## Little and big endian -/

/-- The `w` little-endian bytes of `n`. Bits above `8 * w` are dropped, as a cast to a
narrower integer drops them. -/
def toLE : ℕ → ℕ → List UInt8
  | 0, _ => []
  | w + 1, n => UInt8.ofNat n :: toLE w (n / 256)

/-- The natural whose little-endian bytes are `l`. -/
def ofLE : List UInt8 → ℕ
  | [] => 0
  | b :: l => b.toNat + 256 * ofLE l

/-- The `w` big-endian bytes of `n`. -/
def toBE (w n : ℕ) : List UInt8 := (toLE w n).reverse

/-- The natural whose big-endian bytes are `l`. -/
def ofBE (l : List UInt8) : ℕ := ofLE l.reverse

@[simp] theorem toLE_zero (n : ℕ) : toLE 0 n = [] := rfl

@[simp] theorem toLE_succ (w n : ℕ) : toLE (w + 1) n = UInt8.ofNat n :: toLE w (n / 256) := rfl

@[simp] theorem ofLE_nil : ofLE [] = 0 := rfl

@[simp] theorem ofLE_cons (b : UInt8) (l : List UInt8) : ofLE (b :: l) = b.toNat + 256 * ofLE l :=
  rfl

@[simp] theorem length_toLE (w n : ℕ) : (toLE w n).length = w := by
  induction w generalizing n with
  | zero => rfl
  | succ w ih => simp [ih]

@[simp] theorem length_toBE (w n : ℕ) : (toBE w n).length = w := by
  simp [toBE]

theorem ofLE_toLE (w n : ℕ) : ofLE (toLE w n) = n % 256 ^ w := by
  induction w generalizing n with
  | zero => simp [Nat.mod_one]
  | succ w ih =>
    rw [toLE_succ, ofLE_cons, ih, UInt8.toNat_ofNat', show (2 : ℕ) ^ 8 = 256 by norm_num,
      pow_succ', Nat.mod_mul]

/-- A wide field is the bytes of its low part followed by those of its high part. -/
theorem toLE_add (a b n : ℕ) : toLE (a + b) n = toLE a n ++ toLE b (n / 256 ^ a) := by
  induction a generalizing n with
  | zero => simp
  | succ a ih =>
    rw [Nat.add_right_comm, toLE_succ, ih, toLE_succ, Nat.div_div_eq_div_mul, ← pow_succ']
    rfl

theorem ofLE_append (a b : List UInt8) : ofLE (a ++ b) = ofLE a + 256 ^ a.length * ofLE b := by
  induction a with
  | nil => simp
  | cons x a ih =>
    simp only [List.cons_append, ofLE_cons, ih, List.length_cons, pow_succ]
    ring

theorem ofLE_toLE_of_lt {w n : ℕ} (h : n < 256 ^ w) : ofLE (toLE w n) = n := by
  rw [ofLE_toLE, Nat.mod_eq_of_lt h]

theorem ofBE_toBE (w n : ℕ) : ofBE (toBE w n) = n % 256 ^ w := by
  simp [ofBE, toBE, ofLE_toLE]

theorem ofLE_lt (l : List UInt8) : ofLE l < 256 ^ l.length := by
  induction l with
  | nil => simp
  | cons b l ih =>
    have hb : b.toNat < 256 := b.toNat_lt
    rw [ofLE_cons, List.length_cons, pow_succ]
    omega

/-- Encoding a value modulo `256 ^ w` changes nothing: a cast before `to_le_bytes` is free. -/
theorem toLE_mod (w n : ℕ) : toLE w (n % 256 ^ w) = toLE w n := by
  induction w generalizing n with
  | zero => rfl
  | succ w ih =>
    have hdiv : n % 256 ^ (w + 1) / 256 = n / 256 % 256 ^ w := by
      rw [pow_succ', Nat.mod_mul_right_div_self]
    have hlow : (UInt8.ofNat (n % 256 ^ (w + 1)) : UInt8) = UInt8.ofNat n := by
      apply UInt8.toNat_inj.mp
      rw [UInt8.toNat_ofNat', UInt8.toNat_ofNat', pow_succ']
      exact Nat.mod_mul_right_mod n 256 (256 ^ w)
    rw [toLE_succ, toLE_succ, hlow, hdiv, ih]

/-- Encoding what was decoded gives the bytes back: `to_le_bytes (from_le_bytes b) = b`. -/
theorem toLE_ofLE (l : List UInt8) : toLE l.length (ofLE l) = l := by
  induction l with
  | nil => rfl
  | cons b l ih =>
    have hb : b.toNat < 256 := b.toNat_lt
    have hdiv : (b.toNat + 256 * ofLE l) / 256 = ofLE l := by omega
    have hlow : UInt8.ofNat (b.toNat + 256 * ofLE l) = b := by
      apply UInt8.toNat_inj.mp
      rw [UInt8.toNat_ofNat']
      simp only [show (2 : ℕ) ^ 8 = 256 by norm_num]
      omega
    rw [List.length_cons, toLE_succ, ofLE_cons, hlow, hdiv, ih]

theorem toBE_ofBE (l : List UInt8) : toBE l.length (ofBE l) = l := by
  have h := toLE_ofLE l.reverse
  rw [List.length_reverse] at h
  rw [toBE, ofBE, h, List.reverse_reverse]

/-- A field read in the byte order a flag selects (`from_le_bytes` or `from_be_bytes`). -/
def ofEndian (isLe : Bool) (l : List UInt8) : ℕ := if isLe then ofLE l else ofBE l

@[simp] theorem ofEndian_true (l : List UInt8) : ofEndian true l = ofLE l := rfl

/-- `saturating_add` at width `bits`. -/
def satAdd (bits a b : ℕ) : ℕ := min (a + b) (2 ^ bits - 1)

theorem satAdd_of_lt {bits a b : ℕ} (h : a + b < 2 ^ bits) : satAdd bits a b = a + b := by
  unfold satAdd
  omega

/-- `wrapping_sub` at width `bits` (the release-profile meaning of `a - b` on unsigned integers). -/
def wrappingSub (bits a b : ℕ) : ℕ := (a + (2 ^ bits - b % 2 ^ bits)) % 2 ^ bits

theorem wrappingSub_of_le {bits a b : ℕ} (hba : b ≤ a) (ha : a < 2 ^ bits) :
    wrappingSub bits a b = a - b := by
  unfold wrappingSub
  have hb : b % 2 ^ bits = b := Nat.mod_eq_of_lt (by omega)
  rw [hb, show a + (2 ^ bits - b) = (a - b) + 2 ^ bits by omega, Nat.add_mod_right,
    Nat.mod_eq_of_lt (by omega)]

/-! ## Slices -/

/-- The slice `p[off..off + w]` (shorter when `p` ends first). -/
def field (p : List UInt8) (off w : ℕ) : List UInt8 := (p.drop off).take w

theorem field_append_left (a b : List UInt8) {off w : ℕ} (h : off + w ≤ a.length) :
    field (a ++ b) off w = field a off w := by
  unfold field
  rw [List.drop_append_of_le_length (by omega), List.take_append_of_le_length]
  simp only [List.length_drop]
  omega

theorem field_append_right (a b : List UInt8) (off w : ℕ) :
    field (a ++ b) (a.length + off) w = field b off w := by
  unfold field
  rw [List.drop_append, List.drop_eq_nil_of_le (by omega), List.nil_append,
    Nat.add_sub_cancel_left]

/-- A slice inside the middle block of a concatenation, at an offset counted from that block. -/
theorem field_append_middle (pre mid rest : List UInt8) {off w : ℕ} (h : off + w ≤ mid.length) :
    field (pre ++ mid ++ rest) (pre.length + off) w = field mid off w := by
  rw [List.append_assoc, field_append_right, field_append_left _ _ h]

theorem field_self (a : List UInt8) : field a 0 a.length = a := by
  simp [field]

/-- A whole block read at its own position. -/
theorem field_append_self (a b c : List UInt8) :
    field (a ++ b ++ c) a.length b.length = b := by
  rw [List.append_assoc, ← Nat.add_zero a.length, field_append_right]
  unfold field
  simp

/-- The range slice `p[start..stop]`, `none` where the source's indexing panics: a range
ending before it starts or past the end. -/
def slice? (p : List UInt8) (start stop : ℕ) : Option (List UInt8) :=
  if start ≤ stop ∧ stop ≤ p.length then some (field p start (stop - start)) else none

theorem slice?_eq_some {p r : List UInt8} {start stop : ℕ} (h : slice? p start stop = some r) :
    start ≤ stop ∧ stop ≤ p.length ∧ r = field p start (stop - start) := by
  unfold slice? at h
  split at h
  · rename_i hin
    cases h
    exact ⟨hin.1, hin.2, rfl⟩
  · cases h

theorem slice?_append_self (a b c : List UInt8) :
    slice? (a ++ b ++ c) a.length (a.length + b.length) = some b := by
  rw [slice?, if_pos ⟨by omega, by simp⟩, Nat.add_sub_cancel_left, field_append_self]

/-- The slice at the position of the `i`-th block of a concatenation is that block. -/
theorem field_flatten (blocks : List (List UInt8)) (i : ℕ) (hi : i < blocks.length) :
    field blocks.flatten ((blocks.take i).map List.length).sum blocks[i].length = blocks[i] := by
  induction blocks generalizing i with
  | nil => simp at hi
  | cons b bs ih =>
    cases i with
    | zero => simp [field]
    | succ i =>
      simp only [List.flatten_cons, List.take_succ_cons, List.map_cons, List.sum_cons,
        List.getElem_cons_succ]
      rw [field_append_right]
      exact ih i (by simpa using hi)

/-- Cutting a list into `k`-byte pieces and joining them again gives the list back. -/
theorem flatMap_field_chunks (k n : ℕ) (l : List UInt8) (h : l.length ≤ n * k) :
    (List.range n).flatMap (fun i => field l (i * k) k) = l := by
  induction n generalizing l with
  | zero =>
    simp only [Nat.zero_mul, Nat.le_zero, List.length_eq_zero_iff] at h
    simp [h]
  | succ n ih =>
    have hrest : (l.drop k).length ≤ n * k := by
      rw [List.length_drop]
      rw [Nat.succ_mul] at h
      omega
    have hshift : ∀ i, field l ((i + 1) * k) k = field (l.drop k) (i * k) k := by
      intro i
      simp only [field, List.drop_drop, Nat.succ_mul]
      rw [Nat.add_comm k (i * k)]
    rw [List.range_succ_eq_map, List.flatMap_cons, List.flatMap_map]
    simp only [hshift]
    rw [ih (l.drop k) hrest]
    simp [field]

theorem getD_append_right (a b : List UInt8) (i : ℕ) :
    (a ++ b).getD (a.length + i) 0 = b.getD i 0 := by
  simp [List.getD_eq_getElem?_getD, List.getElem?_append_right]

theorem getD_append_left (a b : List UInt8) {i : ℕ} (h : i < a.length) :
    (a ++ b).getD i 0 = a.getD i 0 := by
  simp [List.getD_eq_getElem?_getD, List.getElem?_append_left h]

/-! ## Writing into a buffer

A builder that writes into a caller's `&mut [u8]` is a list of writes: `some b` stores `b`, and
`none` steps over a byte without storing anything, so that the byte the buffer held stays. -/

/-- The bytes at the written positions after the writes `w` over a buffer holding `old`. -/
def written (w : List (Option UInt8)) (old : List UInt8) : List UInt8 :=
  (w.zip old).map fun p => p.1.getD p.2

/-- The buffer after the writes `w` over its start. -/
def overwrite (old : List UInt8) (w : List (Option UInt8)) : List UInt8 :=
  written w old ++ old.drop w.length

theorem length_written (w : List (Option UInt8)) (old : List UInt8) :
    (written w old).length = min w.length old.length := by
  simp [written]

theorem take_overwrite (old : List UInt8) (w : List (Option UInt8)) (h : w.length ≤ old.length) :
    (overwrite old w).take w.length = written w old := by
  rw [overwrite, List.take_append_of_le_length (by rw [length_written]; omega),
    List.take_of_length_le (by rw [length_written]; omega)]

theorem written_append (w₁ w₂ : List (Option UInt8)) (old : List UInt8)
    (h : w₁.length ≤ old.length) :
    written (w₁ ++ w₂) old = written w₁ old ++ written w₂ (old.drop w₁.length) := by
  induction w₁ generalizing old with
  | nil => simp [written]
  | cons x w₁ ih =>
    cases old with
    | nil => simp at h
    | cons b old =>
      simp only [List.length_cons, Nat.add_le_add_iff_right] at h
      simp only [written, List.cons_append, List.zip_cons_cons, List.map_cons,
        List.length_cons, List.drop_succ_cons] at ih ⊢
      rw [ih old h]

theorem written_map_some (bytes old : List UInt8) (h : bytes.length ≤ old.length) :
    written (bytes.map some) old = bytes := by
  induction bytes generalizing old with
  | nil => simp [written]
  | cons x bytes ih =>
    cases old with
    | nil => simp at h
    | cons b old =>
      simp only [List.length_cons, Nat.add_le_add_iff_right] at h
      simp only [written, List.map_cons, List.zip_cons_cons, Option.getD_some] at ih ⊢
      rw [ih old h]

theorem written_replicate_none (n : ℕ) (old : List UInt8) :
    written (List.replicate n none) old = old.take n := by
  induction n generalizing old with
  | zero => simp [written]
  | succ n ih =>
    cases old with
    | nil => simp [written]
    | cons b old =>
      simp only [written, List.replicate_succ, List.zip_cons_cons, List.map_cons,
        Option.getD_none, List.take_succ_cons] at ih ⊢
      rw [ih old]

/-! ## Fixed-size arrays -/

/-- A byte array of fixed length `n` (`[u8; n]`). -/
structure ByteArr (n : ℕ) where
  bytes : List UInt8
  length_eq : bytes.length = n
deriving DecidableEq, Repr

/-- `<[u8; n]>::try_from(slice).ok()`: the slice as an array when its length is `n`. -/
def ByteArr.ofList? {n : ℕ} (l : List UInt8) : Option (ByteArr n) :=
  if h : l.length = n then some ⟨l, h⟩ else none

@[simp] theorem ByteArr.ofList?_bytes {n : ℕ} (a : ByteArr n) : ByteArr.ofList? a.bytes = some a := by
  simp [ByteArr.ofList?, a.length_eq]

theorem ByteArr.ext_bytes {n : ℕ} {a b : ByteArr n} (h : a.bytes = b.bytes) : a = b := by
  cases a
  cases b
  cases h
  rfl

/-- The all-zero array. -/
def ByteArr.zero (n : ℕ) : ByteArr n := ⟨List.replicate n 0, List.length_replicate⟩

end Wire
