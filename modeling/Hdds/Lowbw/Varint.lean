import Hdds.Foundations.Bytes

/-! # ULEB128 varints of the low-bandwidth transport

`transport/lowbw/varint.rs`: seven payload bits per byte, least significant first, the top bit
set on every byte but the last.

* Values are the `u64`s of the source as `ℕ`; every caller passes a value below `2^64`.
* `encode_varint` loops until the value is exhausted; a `u64` needs at most
  `MAX_VARINT_LEN = 10` rounds, which is the fuel of `encodeVarintLoop`.
* `64 - value.leading_zeros()` is the number of significant bits, `value.log2 + 1`.

`decodeVarint_encodeVarint`: the decoder reads back every value below `2^64` from its
encoding followed by any bytes, consuming exactly `varintLen value` bytes
(`length_encodeVarint`).
-/

namespace Hdds.Lowbw
set_option autoImplicit false

/-- `MAX_VARINT_LEN`. -/
def maxVarintLen : ℕ := 10

/-- `VarintError`. -/
inductive VarintError
  | unexpectedEof
  | overflow
deriving DecidableEq, Repr

/-- The loop of `encode_varint`, for at most `fuel` bytes. -/
def encodeVarintLoop : ℕ → ℕ → List UInt8
  | 0, _ => []
  | fuel + 1, value =>
    let byte := UInt8.ofNat (value &&& 0x7F)
    let value := value >>> 7
    if value = 0 then [byte] else (byte ||| 0x80) :: encodeVarintLoop fuel value

/-- `encode_varint`: the bytes it writes. -/
def encodeVarint (value : ℕ) : List UInt8 := encodeVarintLoop maxVarintLen value

/-- `varint_len`. -/
def varintLen (value : ℕ) : ℕ := if value = 0 then 1 else (value.log2 + 1 + 6) / 7

/-- The loop of `decode_varint` from byte `i`, with the payload of the earlier bytes in
`result`. -/
def decodeVarintLoop (i shift result : ℕ) : List UInt8 → Except VarintError (ℕ × ℕ)
  | [] => .error .unexpectedEof
  | byte :: rest =>
    if i ≥ maxVarintLen then .error .overflow
    else
      let data := (byte &&& 0x7F).toNat
      if shift = 63 ∧ data > 1 then .error .overflow
      else
        let result := result ||| data <<< shift
        if byte &&& 0x80 = 0 then .ok (result, i + 1)
        else decodeVarintLoop (i + 1) (shift + 7) result rest

/-- `decode_varint`: the value and the number of bytes read. -/
def decodeVarint (buf : List UInt8) : Except VarintError (ℕ × ℕ) := decodeVarintLoop 0 0 0 buf

/-- `decode_varint_u32`. -/
def decodeVarintU32 (buf : List UInt8) : Except VarintError (UInt32 × ℕ) := do
  let (value, len) ← decodeVarint buf
  if value > 2 ^ 32 - 1 then throw .overflow
  return (UInt32.ofNat value, len)

/-- `decode_varint_u16`. -/
def decodeVarintU16 (buf : List UInt8) : Except VarintError (UInt16 × ℕ) := do
  let (value, len) ← decodeVarint buf
  if value > 2 ^ 16 - 1 then throw .overflow
  return (UInt16.ofNat value, len)

/-! ## Bytes of a varint -/

theorem toNat_and_0x7F (b : UInt8) : (b &&& 0x7F).toNat = b.toNat % 128 := by
  rw [UInt8.toNat_and]
  exact Nat.and_two_pow_sub_one_eq_mod b.toNat 7

/-- The continuation bit is clear exactly on bytes below `0x80`. -/
theorem and_0x80_eq_zero (b : UInt8) : b &&& 0x80 = 0 ↔ b.toNat < 128 := by
  have hb := b.toNat_lt
  rw [← UInt8.toNat_inj, UInt8.toNat_and]
  have h128 : (0x80 : UInt8).toNat = 2 ^ 7 := rfl
  rw [h128, Nat.and_two_pow, UInt8.toNat_zero, Nat.testBit_eq_decide_div_mod_eq]
  by_cases hlt : b.toNat < 128
  · have h0 : b.toNat / 128 % 2 = 0 := by omega
    simp [h0, hlt]
  · have h1 : b.toNat / 128 % 2 = 1 := by omega
    simp [h1, hlt]

theorem toNat_or_0x80 (b : UInt8) (h : b.toNat < 128) : (b ||| 0x80).toNat = b.toNat + 128 := by
  rw [UInt8.toNat_or]
  have h128 : (0x80 : UInt8).toNat = 1 <<< 7 := rfl
  rw [h128, Nat.lor_comm, ← Nat.shiftLeft_add_eq_or_of_lt h, Nat.add_comm]
  rfl

/-- One round of `encode_varint`, on numbers. -/
theorem encodeVarintLoop_succ (fuel value : ℕ) :
    encodeVarintLoop (fuel + 1) value =
      if value / 128 = 0 then [UInt8.ofNat (value % 128)]
      else UInt8.ofNat (value % 128 + 128) :: encodeVarintLoop fuel (value / 128) := by
  have hlow : value &&& 0x7F = value % 128 := Nat.and_two_pow_sub_one_eq_mod value 7
  have hhigh : value >>> 7 = value / 128 := Nat.shiftRight_eq_div_pow value 7
  rw [encodeVarintLoop, hlow, hhigh]
  split_ifs
  · rfl
  · congr 1
    apply UInt8.toNat_inj.mp
    have hlt : (UInt8.ofNat (value % 128)).toNat < 128 := by
      rw [UInt8.toNat_ofNat']
      omega
    rw [toNat_or_0x80 _ hlt, UInt8.toNat_ofNat', UInt8.toNat_ofNat']
    omega

/-! ## Length -/

theorem log2_div_128 {v : ℕ} (h : 128 ≤ v) : (v / 128).log2 + 7 = v.log2 := by
  have hq : v / 128 ≠ 0 := by omega
  have hlo := Nat.log2_self_le hq
  have hhi := Nat.lt_log2_self (n := v / 128)
  have e1 : 2 ^ ((v / 128).log2 + 7) = 2 ^ (v / 128).log2 * 128 := by rw [pow_add]; norm_num
  have e2 : 2 ^ ((v / 128).log2 + 7 + 1) = 2 ^ (v / 128).log2 * 256 := by
    rw [pow_succ, pow_add]; norm_num; ring
  rw [pow_succ] at hhi
  symm
  rw [Nat.log2_eq_iff (by omega), e1, e2]
  constructor <;> omega

theorem one_le_varintLen (value : ℕ) : 1 ≤ varintLen value := by
  unfold varintLen
  split_ifs with h
  · exact le_rfl
  · omega

theorem varintLen_of_lt {v : ℕ} (h : v < 128) : varintLen v = 1 := by
  unfold varintLen
  split_ifs with h0
  · rfl
  · have := (Nat.log2_lt h0).mpr (show v < 2 ^ 7 by omega)
    omega

theorem varintLen_of_ge {v : ℕ} (h : 128 ≤ v) : varintLen v = varintLen (v / 128) + 1 := by
  have hlog := log2_div_128 h
  unfold varintLen
  rw [if_neg (by omega), if_neg (by omega)]
  omega

theorem length_encodeVarintLoop (fuel : ℕ) :
    ∀ value, value < 128 ^ fuel → 0 < fuel → (encodeVarintLoop fuel value).length = varintLen value := by
  induction fuel with
  | zero => intro value _ h; omega
  | succ fuel ih =>
    intro value hv _
    rw [encodeVarintLoop_succ]
    split_ifs with hq
    · rw [varintLen_of_lt (by omega)]
      rfl
    · have hfuel : 0 < fuel := by
        rcases Nat.eq_zero_or_pos fuel with rfl | h
        · simp at hv
          omega
        · exact h
      have hlt : value / 128 < 128 ^ fuel := by
        rw [pow_succ] at hv
        exact Nat.div_lt_of_lt_mul (by rw [Nat.mul_comm]; exact hv)
      rw [List.length_cons, ih (value / 128) hlt hfuel, varintLen_of_ge (show 128 ≤ value by omega)]

/-- `varint_len` is the length of what `encode_varint` writes. -/
theorem length_encodeVarint {value : ℕ} (h : value < 2 ^ 64) :
    (encodeVarint value).length = varintLen value :=
  length_encodeVarintLoop maxVarintLen value (by unfold maxVarintLen; omega) (by decide)

/-! ## Decoding what was encoded -/

theorem or_shiftLeft_eq_add {r data shift : ℕ} (hr : r < 2 ^ shift) :
    r ||| data <<< shift = r + data * 2 ^ shift := by
  rw [Nat.lor_comm, ← Nat.shiftLeft_add_eq_or_of_lt hr, Nat.shiftLeft_eq, Nat.add_comm]

/-- The decoding loop at byte `i` reads the rest of an encoding back: its value is placed above
the `7 * i` bits already read. -/
theorem decodeVarintLoop_encodeVarintLoop (fuel : ℕ) :
    ∀ i value r (rest : List UInt8), i + fuel = maxVarintLen → 0 < fuel →
      value * 2 ^ (7 * i) < 2 ^ 64 → r < 2 ^ (7 * i) →
      decodeVarintLoop i (7 * i) r (encodeVarintLoop fuel value ++ rest) =
        .ok (r + value * 2 ^ (7 * i), i + (encodeVarintLoop fuel value).length) := by
  induction fuel with
  | zero => intro i value r rest _ h; omega
  | succ fuel ih =>
    intro i value r rest hfuel _ hfit hr
    unfold maxVarintLen at hfuel
    have hpow : 0 < 2 ^ (7 * i) := Nat.two_pow_pos _
    -- at the tenth byte only the values 0 and 1 fit under `2^64`
    have hlast : 7 * i = 63 → value ≤ 1 := by
      intro h63
      rw [h63] at hfit
      omega
    rw [encodeVarintLoop_succ]
    split_ifs with hq
    · have hbyte : (UInt8.ofNat (value % 128)).toNat = value := by
        rw [UInt8.toNat_ofNat']
        omega
      rw [List.singleton_append, decodeVarintLoop, if_neg (by unfold maxVarintLen; omega),
        toNat_and_0x7F, hbyte, if_neg (by omega), if_pos ((and_0x80_eq_zero _).mpr (by omega)),
        or_shiftLeft_eq_add hr, Nat.mod_eq_of_lt (show value < 128 by omega)]
      rfl
    · have hi : i < 9 := by
        by_contra hge
        have := hlast (by omega)
        omega
      have hbyte : (UInt8.ofNat (value % 128 + 128)).toNat = value % 128 + 128 := by
        rw [UInt8.toNat_ofNat']
        omega
      have hstep : 7 * (i + 1) = 7 * i + 7 := by ring
      have hr' : r + value % 128 * 2 ^ (7 * i) < 2 ^ (7 * (i + 1)) := by
        rw [hstep, pow_add]
        have := Nat.mul_le_mul_right (2 ^ (7 * i)) (show value % 128 ≤ 127 by omega)
        omega
      have hfit' : value / 128 * 2 ^ (7 * (i + 1)) < 2 ^ 64 := by
        rw [hstep, pow_add]
        have := Nat.mul_le_mul_right (2 ^ (7 * i)) (Nat.div_mul_le_self value 128)
        calc value / 128 * (2 ^ (7 * i) * 2 ^ 7) = value / 128 * 128 * 2 ^ (7 * i) := by ring
          _ ≤ value * 2 ^ (7 * i) := this
          _ < 2 ^ 64 := hfit
      rw [List.cons_append, decodeVarintLoop, if_neg (by unfold maxVarintLen; omega),
        toNat_and_0x7F, hbyte, if_neg (by omega),
        if_neg (by rw [and_0x80_eq_zero, hbyte]; omega), or_shiftLeft_eq_add hr,
        show 7 * i + 7 = 7 * (i + 1) by ring, Nat.add_mod_right, Nat.mod_mod,
        ih (i + 1) (value / 128) _ rest (by unfold maxVarintLen; omega) (by omega) hfit' hr']
      congr 2
      · rw [hstep, pow_add]
        have hdm := Nat.div_add_mod value 128
        calc r + value % 128 * 2 ^ (7 * i) + value / 128 * (2 ^ (7 * i) * 2 ^ 7)
            = r + (128 * (value / 128) + value % 128) * 2 ^ (7 * i) := by ring
          _ = r + value * 2 ^ (7 * i) := by rw [hdm]
      · rw [List.length_cons]
        omega

/-- `decode_varint` reads back what `encode_varint` wrote, whatever follows it. -/
theorem decodeVarint_encodeVarint {value : ℕ} (h : value < 2 ^ 64) (rest : List UInt8) :
    decodeVarint (encodeVarint value ++ rest) = .ok (value, varintLen value) := by
  have hloop := decodeVarintLoop_encodeVarintLoop maxVarintLen 0 value 0 rest rfl (by decide)
    (by simpa using h) (by simp)
  simp only [Nat.mul_zero, pow_zero, Nat.mul_one, Nat.zero_add] at hloop
  rw [decodeVarint, encodeVarint, hloop, ← encodeVarint, length_encodeVarint h]

/-- What follows an encoded varint starts `varint_len` bytes in. -/
theorem drop_encodeVarint {value : ℕ} (h : value < 2 ^ 64) (rest : List UInt8) :
    (encodeVarint value ++ rest).drop (varintLen value) = rest :=
  List.drop_left' (length_encodeVarint h)

theorem decodeVarintU32_encodeVarint (x : UInt32) (rest : List UInt8) :
    decodeVarintU32 (encodeVarint x.toNat ++ rest) = .ok (x, varintLen x.toNat) := by
  have hx := x.toNat_lt
  simp only [decodeVarintU32, decodeVarint_encodeVarint (by omega : x.toNat < 2 ^ 64), bind,
    Except.bind, gt_iff_lt]
  rw [if_neg (by omega)]
  simp [pure, Except.pure, UInt32.ofNat_toNat]

theorem decodeVarintU16_encodeVarint (x : UInt16) (rest : List UInt8) :
    decodeVarintU16 (encodeVarint x.toNat ++ rest) = .ok (x, varintLen x.toNat) := by
  have hx := x.toNat_lt
  simp only [decodeVarintU16, decodeVarint_encodeVarint (by omega : x.toNat < 2 ^ 64), bind,
    Except.bind, gt_iff_lt]
  rw [if_neg (by omega)]
  simp [pure, Except.pure, UInt16.ofNat_toNat]

/-! ## One-byte varints -/

/-- A byte below `0x80` is a whole varint. -/
theorem decodeVarint_cons_of_lt {b : UInt8} (hb : b.toNat < 128) (rest : List UInt8) :
    decodeVarint (b :: rest) = .ok (b.toNat, 1) := by
  have hlow : (b &&& 0x7F).toNat = b.toNat := by rw [toNat_and_0x7F, Nat.mod_eq_of_lt hb]
  simp [decodeVarint, decodeVarintLoop, maxVarintLen, hlow, (and_0x80_eq_zero b).mpr hb]

theorem decodeVarintU16_cons_of_lt {b : UInt8} (hb : b.toNat < 128) (rest : List UInt8) :
    decodeVarintU16 (b :: rest) = .ok (UInt16.ofNat b.toNat, 1) := by
  simp only [decodeVarintU16, decodeVarint_cons_of_lt hb, bind, Except.bind]
  rw [if_neg (by omega)]
  rfl

theorem decodeVarintU32_cons_of_lt {b : UInt8} (hb : b.toNat < 128) (rest : List UInt8) :
    decodeVarintU32 (b :: rest) = .ok (UInt32.ofNat b.toNat, 1) := by
  simp only [decodeVarintU32, decodeVarint_cons_of_lt hb, bind, Except.bind]
  rw [if_neg (by omega)]
  rfl

end Hdds.Lowbw
