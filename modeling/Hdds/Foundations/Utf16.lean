import Mathlib

/-! # UTF-16

A scalar value below `0x10000` is one code unit; one above is a surrogate pair, a high unit
in `D800..DBFF` carrying the top ten bits of `c - 0x10000` and a low unit in `DC00..DFFF`
carrying the bottom ten. `encode` is `str::encode_utf16`; `decode` is `String::from_utf16`,
which refuses a lone surrogate of either kind.

`decode_encode` is the round trip. Scalar values are never surrogates themselves (`Char.valid`),
which is what makes a single unit read back as itself.
-/

namespace Utf16
set_option autoImplicit false

/-- A unit in `D800..DBFF`, the first of a pair. -/
def isHigh (u : UInt16) : Bool := 0xD800 ≤ u.toNat && u.toNat ≤ 0xDBFF

/-- A unit in `DC00..DFFF`, the second of a pair. -/
def isLow (u : UInt16) : Bool := 0xDC00 ≤ u.toNat && u.toNat ≤ 0xDFFF

/-- The code units of one scalar value. -/
def encodeChar (c : Char) : List UInt16 :=
  if c.toNat < 0x10000 then [UInt16.ofNat c.toNat]
  else
    [UInt16.ofNat (0xD800 + (c.toNat - 0x10000) / 0x400),
      UInt16.ofNat (0xDC00 + (c.toNat - 0x10000) % 0x400)]

/-- `str::encode_utf16`. -/
def encode (cs : List Char) : List UInt16 := cs.flatMap encodeChar

/-- The scalar value a surrogate pair stands for. -/
def combine (hi lo : UInt16) : ℕ := 0x10000 + (hi.toNat - 0xD800) * 0x400 + (lo.toNat - 0xDC00)

/-- `String::from_utf16`: `none` at the first unpaired surrogate. -/
def decode : List UInt16 → Option (List Char)
  | [] => some []
  | u :: us =>
    if isHigh u then
      match us with
      | lo :: rest => if isLow lo then (decode rest).map (Char.ofNat (combine u lo) :: ·) else none
      | [] => none
    else if isLow u then none
    else (decode us).map (Char.ofNat u.toNat :: ·)

@[simp] theorem encode_nil : encode [] = [] := rfl

@[simp] theorem encode_cons (c : Char) (cs : List Char) :
    encode (c :: cs) = encodeChar c ++ encode cs := rfl

theorem encode_append (cs ds : List Char) : encode (cs ++ ds) = encode cs ++ encode ds := by
  simp [encode]

/-- A unit that is no surrogate is a scalar value on its own. -/
theorem decode_cons_single {u : UInt16} (hh : isHigh u = false) (hl : isLow u = false)
    (us : List UInt16) : decode (u :: us) = (decode us).map (Char.ofNat u.toNat :: ·) := by
  rw [decode.eq_def]
  simp only [hh, hl, Bool.false_eq_true, if_false]

theorem decode_cons_pair {hi lo : UInt16} (hh : isHigh hi = true) (hl : isLow lo = true)
    (rest : List UInt16) :
    decode (hi :: lo :: rest) = (decode rest).map (Char.ofNat (combine hi lo) :: ·) := by
  rw [decode.eq_def]
  simp only [hh, hl, if_true]

theorem toNat_lt_of_char (c : Char) : c.toNat < 0xD800 ∨ (0xDFFF < c.toNat ∧ c.toNat < 0x110000) := by
  have h := c.valid
  simp only [UInt32.isValidChar, Nat.isValidChar, Char.toNat_val] at h
  exact h

/-- A scalar value of the basic plane is one unit that is no surrogate. -/
theorem decode_encodeChar_of_lt (c : Char) (hc : c.toNat < 0x10000) (us : List UInt16) :
    decode (encodeChar c ++ us) = (decode us).map (c :: ·) := by
  have hvalid := toNat_lt_of_char c
  have hu : (UInt16.ofNat c.toNat).toNat = c.toNat := by
    rw [UInt16.toNat_ofNat', Nat.mod_eq_of_lt (by norm_num; omega)]
  have hhigh : isHigh (UInt16.ofNat c.toNat) = false := by
    simp only [isHigh, hu, Bool.and_eq_false_iff, decide_eq_false_iff_not]
    omega
  have hlow : isLow (UInt16.ofNat c.toNat) = false := by
    simp only [isLow, hu, Bool.and_eq_false_iff, decide_eq_false_iff_not]
    omega
  rw [encodeChar, if_pos hc, List.singleton_append, decode_cons_single hhigh hlow, hu,
    Char.ofNat_toNat]

/-- A scalar value above the basic plane is a high unit and a low unit that combine to it. -/
theorem decode_encodeChar_of_le (c : Char) (hc : 0x10000 ≤ c.toNat) (us : List UInt16) :
    decode (encodeChar c ++ us) = (decode us).map (c :: ·) := by
  have hvalid := toNat_lt_of_char c
  set v := c.toNat - 0x10000 with hv
  have hdiv : v / 0x400 < 0x400 := by omega
  have hmod : v % 0x400 < 0x400 := Nat.mod_lt _ (by norm_num)
  have hhi : (UInt16.ofNat (0xD800 + v / 0x400)).toNat = 0xD800 + v / 0x400 := by
    rw [UInt16.toNat_ofNat', Nat.mod_eq_of_lt (by norm_num; omega)]
  have hlo : (UInt16.ofNat (0xDC00 + v % 0x400)).toNat = 0xDC00 + v % 0x400 := by
    rw [UInt16.toNat_ofNat', Nat.mod_eq_of_lt (by norm_num; omega)]
  have hhigh : isHigh (UInt16.ofNat (0xD800 + v / 0x400)) = true := by
    simp only [isHigh, hhi, Bool.and_eq_true, decide_eq_true_eq]
    omega
  have hlow : isLow (UInt16.ofNat (0xDC00 + v % 0x400)) = true := by
    simp only [isLow, hlo, Bool.and_eq_true, decide_eq_true_eq]
    omega
  have hcombine : combine (UInt16.ofNat (0xD800 + v / 0x400)) (UInt16.ofNat (0xDC00 + v % 0x400))
      = c.toNat := by
    unfold combine
    rw [hhi, hlo]
    omega
  rw [encodeChar, if_neg (Nat.not_lt.mpr hc), ← hv, List.cons_append, List.cons_append,
    List.nil_append, decode_cons_pair hhigh hlow, hcombine, Char.ofNat_toNat]

theorem decode_encodeChar_append (c : Char) (us : List UInt16) :
    decode (encodeChar c ++ us) = (decode us).map (c :: ·) := by
  by_cases hc : c.toNat < 0x10000
  · exact decode_encodeChar_of_lt c hc us
  · exact decode_encodeChar_of_le c (Nat.le_of_not_lt hc) us

/-- The round trip: `String::from_utf16` of `encode_utf16` gives the text back. -/
theorem decode_encode (cs : List Char) : decode (encode cs) = some cs := by
  induction cs with
  | nil => rfl
  | cons c cs ih => rw [encode_cons, decode_encodeChar_append, ih, Option.map_some]

end Utf16
