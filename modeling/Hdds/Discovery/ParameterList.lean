import Hdds.Foundations.Bytes

/-! # RTPS parameter lists

SPDP and SEDP payloads (`protocol/discovery/spdp`, `protocol/discovery/sedp`) are parameter lists:
after a four-byte encapsulation header come parameters `pid: u16, length: u16, value[length]`,
ended by `PID_SENTINEL`. Both parsers run the same loop; `walk` is that loop with the handler of
each PID and the step past a value (`length`, or `length` rounded up to four) as parameters.

* `walk_params`: on a list of parameters as a builder writes them, the loop hands every value to
  the handler in order, so that parsing a built list is a fold of the handler over what was
  written. The induction is on the parameters, with the bytes before them generalised.
* The loop runs on fuel; every turn that goes on moves the offset at least four bytes.
-/

namespace Hdds.Discovery
open Wire
set_option autoImplicit false

/-- `ParseError`. -/
inductive ParseError
  | truncatedData
  | invalidEncapsulation
  | invalidFormat
  | bufferTooSmall
  | encodingError
deriving DecidableEq, Repr

/-- `PID_SENTINEL`. -/
def pidSentinel : ℕ := 0x0001

/-! ## Parameter ids (`protocol/discovery/constants.rs`) -/

/-- `PID_PARTICIPANT_LEASE_DURATION`. -/
def pidParticipantLeaseDuration : ℕ := 0x0002
/-- `PID_DOMAIN_ID`. -/
def pidDomainId : ℕ := 0x000f
/-- `PID_PROTOCOL_VERSION`. -/
def pidProtocolVersion : ℕ := 0x0015
/-- `PID_VENDOR_ID`. -/
def pidVendorId : ℕ := 0x0016
/-- `PID_DEFAULT_UNICAST_LOCATOR`. -/
def pidDefaultUnicastLocator : ℕ := 0x0031
/-- `PID_METATRAFFIC_UNICAST_LOCATOR`. -/
def pidMetatrafficUnicastLocator : ℕ := 0x0032
/-- `PID_METATRAFFIC_MULTICAST_LOCATOR`. -/
def pidMetatrafficMulticastLocator : ℕ := 0x0033
/-- `PID_DEFAULT_MULTICAST_LOCATOR`. -/
def pidDefaultMulticastLocator : ℕ := 0x0048
/-- `PID_PARTICIPANT_GUID`. -/
def pidParticipantGuid : ℕ := 0x0050
/-- `PID_BUILTIN_ENDPOINT_SET`. -/
def pidBuiltinEndpointSet : ℕ := 0x0058
/-- `PID_PROPERTY_LIST`. -/
def pidPropertyList : ℕ := 0x0059
/-- `PID_ENTITY_NAME`. -/
def pidEntityName : ℕ := 0x0062

/-- `BUILTIN_ENDPOINT_SET_DEFAULT`. -/
def builtinEndpointSetDefault : ℕ := 0x000F0C3F

/-- `CDR_BE`, `CDR_LE`, `CDR2_BE`, `CDR2_LE`, `CDR_LE_VENDOR` and `CDR_BE_VENDOR`. -/
def cdrBe : ℕ := 0x0002
@[inherit_doc cdrBe] def cdrLe : ℕ := 0x0003
@[inherit_doc cdrBe] def cdr2Be : ℕ := 0x0102
@[inherit_doc cdrBe] def cdr2Le : ℕ := 0x0103
@[inherit_doc cdrBe] def cdrLeVendor : ℕ := 0x8001
@[inherit_doc cdrBe] def cdrBeVendor : ℕ := 0x8002

/-- `(len + 3) & !3`. -/
def align4 (len : ℕ) : ℕ := (len + 3) / 4 * 4

theorem le_align4 (len : ℕ) : len ≤ align4 len := by
  unfold align4
  omega

/-- A parameter header as the builders write it: `pid` and `length`, little-endian. -/
def paramHeader (pid length : ℕ) : List UInt8 := toLE 2 pid ++ toLE 2 length

@[simp] theorem length_paramHeader (pid length : ℕ) : (paramHeader pid length).length = 4 := by
  simp [paramHeader]

/-- A parameter with its value, as the builders write it. -/
def encodeParam (p : ℕ × List UInt8) : List UInt8 := paramHeader p.1 p.2.length ++ p.2

/-- Every parameter takes at least its four-byte header. -/
theorem length_le_length_flatMap_encodeParam (ps : List (ℕ × List UInt8)) :
    4 * ps.length ≤ (ps.flatMap encodeParam).length := by
  induction ps with
  | nil => simp
  | cons p ps ih =>
    have hone : 4 ≤ (encodeParam p).length := by simp [encodeParam]
    rw [List.flatMap_cons, List.length_append, List.length_cons]
    omega

/-- The parameter loop: read `pid` and `length` in the list's byte order, stop at
`PID_SENTINEL`, hand the value to `handle` and step past it by `advance length`. -/
def walk {σ : Type} (handle : σ → ℕ → List UInt8 → Except ParseError σ) (advance : ℕ → ℕ)
    (buf : List UInt8) (isLittleEndian : Bool) : ℕ → ℕ → σ → Except ParseError σ
  | 0, _, _ => .error .truncatedData
  | fuel + 1, offset, st =>
    if buf.length < offset + 4 then .error .truncatedData
    else
      let pid := ofEndian isLittleEndian (field buf offset 2)
      let length := ofEndian isLittleEndian (field buf (offset + 2) 2)
      if pid = pidSentinel then .ok st
      else if buf.length < offset + 4 + length then .error .truncatedData
      else do
        let st ← handle st pid (field buf (offset + 4) length)
        walk handle advance buf isLittleEndian fuel (offset + 4 + advance length) st

section Walk

variable {σ : Type} (handle : σ → ℕ → List UInt8 → Except ParseError σ) (advance : ℕ → ℕ)

/-- A parameter the loop reads back: not the sentinel, and `pid` and `length` fit their `u16`. -/
def Readable (p : ℕ × List UInt8) : Prop :=
  p.1 ≠ pidSentinel ∧ p.1 < 2 ^ 16 ∧ p.2.length < 2 ^ 16

/-- The sentinel ends the walk wherever it stands. -/
theorem walk_sentinel (pre rest : List UInt8) (fuel : ℕ) (st : σ) :
    walk handle advance (pre ++ paramHeader pidSentinel 0 ++ rest) true (fuel + 1) pre.length st =
      .ok st := by
  have hpid : field (pre ++ paramHeader pidSentinel 0 ++ rest) pre.length 2 = toLE 2 pidSentinel := by
    rw [← Nat.add_zero pre.length, field_append_middle _ _ _ (by simp)]
    simp [field, paramHeader]
  rw [walk, if_neg (by simp)]
  simp only [hpid, ofEndian_true, ofLE_toLE_of_lt (show pidSentinel < 256 ^ 2 by decide),
    if_true]

/-- One parameter: its value goes to the handler and the walk resumes right after it. -/
theorem walk_param (pre rest : List UInt8) (p : ℕ × List UInt8) (hp : Readable p)
    (hadv : advance p.2.length = p.2.length) (fuel : ℕ) (st : σ) :
    walk handle advance (pre ++ encodeParam p ++ rest) true (fuel + 1) pre.length st =
      (handle st p.1 p.2).bind fun st' =>
        walk handle advance (pre ++ encodeParam p ++ rest) true fuel (pre ++ encodeParam p).length
          st' := by
  obtain ⟨hsent, hpid, hlen⟩ := hp
  set buf := pre ++ encodeParam p ++ rest
  have hsize : buf.length = pre.length + 4 + p.2.length + rest.length := by
    simp [buf, encodeParam]
    omega
  have hfield : ∀ off w, off + w ≤ (encodeParam p).length →
      field buf (pre.length + off) w = field (encodeParam p) off w := fun off w h =>
    field_append_middle pre _ rest h
  have hreadPid : field buf pre.length 2 = toLE 2 p.1 := by
    rw [← Nat.add_zero pre.length, hfield 0 2 (by simp [encodeParam]; omega)]
    simp [field, encodeParam, paramHeader]
  have hreadLen : field buf (pre.length + 2) 2 = toLE 2 p.2.length := by
    rw [hfield 2 2 (by simp [encodeParam])]
    simp [field, encodeParam, paramHeader]
  have hvalue : field buf (pre.length + 4) p.2.length = p.2 := by
    rw [hfield 4 p.2.length (by simp [encodeParam])]
    simp [field, encodeParam, paramHeader]
  rw [walk, if_neg (by omega)]
  simp only [hreadPid, hreadLen, ofEndian_true, ofLE_toLE_of_lt (show p.1 < 256 ^ 2 by omega),
    ofLE_toLE_of_lt (show p.2.length < 256 ^ 2 by omega), if_neg hsent,
    if_neg (show ¬buf.length < pre.length + 4 + p.2.length by omega), hvalue, hadv]
  have hnext : pre.length + 4 + p.2.length = (pre ++ encodeParam p).length := by
    simp [encodeParam]
    omega
  rw [hnext]
  rfl

/-- A run of parameters as a builder writes them, then the sentinel: the walk is the fold of the
handler over the parameters. -/
theorem walk_params (ps : List (ℕ × List UInt8)) (hps : ∀ p ∈ ps, Readable p)
    (hadv : ∀ p ∈ ps, advance p.2.length = p.2.length) (pre rest : List UInt8) (fuel : ℕ)
    (hfuel : ps.length < fuel) (st : σ) :
    walk handle advance (pre ++ ps.flatMap encodeParam ++ paramHeader pidSentinel 0 ++ rest) true
        fuel pre.length st =
      ps.foldlM (fun st p => handle st p.1 p.2) st := by
  induction ps generalizing pre fuel st with
  | nil =>
    obtain ⟨fuel, rfl⟩ : ∃ f, fuel = f + 1 := ⟨fuel - 1, by simp at hfuel; omega⟩
    have h := walk_sentinel handle advance pre rest fuel st
    simp only [List.flatMap_nil, List.append_nil, List.foldlM_nil] at h ⊢
    exact h
  | cons p ps ih =>
    obtain ⟨fuel, rfl⟩ : ∃ f, fuel = f + 1 := ⟨fuel - 1, by simp at hfuel; omega⟩
    have hshape : pre ++ (p :: ps).flatMap encodeParam ++ paramHeader pidSentinel 0 ++ rest =
        pre ++ encodeParam p ++ (ps.flatMap encodeParam ++ paramHeader pidSentinel 0 ++ rest) := by
      simp [List.append_assoc]
    rw [hshape, walk_param handle advance pre _ p (hps p (by simp)) (hadv p (by simp)),
      List.foldlM_cons]
    -- the rest of the list, read from right after `p`
    have hrest := fun st' => ih (fun q hq => hps q (by simp [hq]))
      (fun q hq => hadv q (by simp [hq])) (pre ++ encodeParam p) fuel
      (by simp at hfuel; omega) st'
    simp only [List.append_assoc] at hrest ⊢
    cases handle st p.1 p.2 with
    | error e => rfl
    | ok st' => exact hrest st'

end Walk

end Hdds.Discovery
