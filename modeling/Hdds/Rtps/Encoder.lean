import Hdds.Foundations.Bitmap

/-! # RTPS submessage encoders and the Hybrid dialect

`protocol/rtps/{acknack,gap,info,data}.rs` and the `HybridEncoder` of
`protocol/dialect/hybrid/mod.rs`. Every packet builder of `protocol/builder` reaches these
through `get_encoder(Dialect::Hybrid)`, which returns a `HybridEncoder`.

A submessage is modelled as the byte list the Rust encoder leaves in its buffer, written as
the concatenation of its fields in wire order. Integers are naturals: a `u32` field is
`toLE 4`, which keeps the low 32 bits exactly as the `as u32` / `as i32` casts of the
source do. `calculateActualNumBits` is the dialect's recomputation of `numBits` from the
bitmap words; it reads the highest set bit of the last non-zero word through
`leading_zeros`, i.e. in least-significant-first order (see `highBit_spec`).
-/

namespace Hdds.Rtps
open Wire
set_option autoImplicit false

/-- `[u8; 4]` entity identifier. -/
abbrev EntityId := ByteArr 4
/-- `[u8; 12]` GUID prefix. -/
abbrev GuidPrefix := ByteArr 12

/-! ## Builtin entity identifiers (`core/rtps_constants.rs`) -/

/-- `RTPS_ENTITYID_SPDP_WRITER`. -/
def entityIdSpdpWriter : EntityId := ⟨[0x00, 0x01, 0x00, 0xC2], rfl⟩
/-- `RTPS_ENTITYID_SEDP_PUBLICATIONS_WRITER`. -/
def entityIdSedpPublicationsWriter : EntityId := ⟨[0x00, 0x00, 0x03, 0xC2], rfl⟩
/-- `RTPS_ENTITYID_SEDP_SUBSCRIPTIONS_WRITER`. -/
def entityIdSedpSubscriptionsWriter : EntityId := ⟨[0x00, 0x00, 0x04, 0xC2], rfl⟩
/-- `RTPS_ENTITYID_SEDP_SUBSCRIPTIONS_READER`. -/
def entityIdSedpSubscriptionsReader : EntityId := ⟨[0x00, 0x00, 0x04, 0xC7], rfl⟩
/-- `RTPS_ENTITYID_TYPELOOKUP_WRITER`. -/
def entityIdTypelookupWriter : EntityId := ⟨[0x00, 0x03, 0x00, 0xC4], rfl⟩

/-- `RtpsEncodeError` of `protocol/rtps/mod.rs`. -/
inductive RtpsEncodeError
  | BufferTooSmall
  | InvalidParameter (msg : String)
deriving DecidableEq, Repr

/-- The variant of `dialect::EncodeError` the Hybrid encoder maps every failure to. -/
inductive EncodeError
  | BufferTooSmall
deriving DecidableEq, Repr

/-- `RTPS_MAGIC`. -/
def rtpsMagic : List UInt8 := [0x52, 0x54, 0x50, 0x53]

/-- `RTPS_VERSION_MAJOR`, `RTPS_VERSION_MINOR`. -/
def rtpsVersion : List UInt8 := [0x02, 0x04]

/-- `HDDS_VENDOR_ID`. -/
def hddsVendorId : List UInt8 := [0x01, 0xAA]

@[simp] theorem length_rtpsMagic : rtpsMagic.length = 4 := rfl
@[simp] theorem length_rtpsVersion : rtpsVersion.length = 2 := rfl
@[simp] theorem length_hddsVendorId : hddsVendorId.length = 2 := rfl

/-- The bitmap part of a `SequenceNumberSet`: `words` little-endian words, missing words
read as zero (`bitmap.get(i).copied().unwrap_or(0)`). -/
def bitmapBytes (words : ℕ) (bitmap : List ℕ) : List UInt8 :=
  (List.range words).flatMap (fun i => toLE 4 (bitmap.getD i 0))

@[simp] theorem length_bitmapBytes (words : ℕ) (bitmap : List ℕ) :
    (bitmapBytes words bitmap).length = 4 * words := by
  simp [bitmapBytes, List.length_flatMap, List.sum_replicate, Nat.mul_comm]

/-! ## Submessage encoders -/

/-- `encode_acknack`: ACKNACK submessage with a zero `count` placeholder. -/
def encodeAcknack (readerId writerId : EntityId) (baseSn numBits : ℕ) (bitmap : List ℕ) :
    Except RtpsEncodeError (List UInt8) :=
  -- `num_bits.div_ceil(32)`
  let requiredWords := (numBits + 31) / 32
  if bitmap.length < requiredWords then
    .error (.InvalidParameter "bitmap too small for specified num_bits")
  else
    let submsgLen := 8 + 8 + 4 + requiredWords * 4 + 4
    .ok (([0x06, 0x01] : List UInt8) ++ toLE 2 submsgLen ++ readerId.bytes ++ writerId.bytes ++
      toLE 4 (baseSn >>> 32) ++ toLE 4 baseSn ++ toLE 4 numBits ++
      bitmapBytes requiredWords bitmap ++ toLE 4 0)

/-- `encode_acknack_with_count`: the same, with the last four bytes overwritten by `count`. -/
def encodeAcknackWithCount (readerId writerId : EntityId) (baseSn numBits : ℕ)
    (bitmap : List ℕ) (count : ℕ) : Except RtpsEncodeError (List UInt8) := do
  let buf ← encodeAcknack readerId writerId baseSn numBits bitmap
  pure (buf.take (buf.length - 4) ++ toLE 4 count)

/-- `encode_gap` (it never returns an error). -/
def encodeGap (readerId writerId : EntityId) (gapStart gapListBase numBits : ℕ)
    (gapBitmap : List ℕ) : List UInt8 :=
  let requiredWords := (numBits + 31) / 32
  let submsgLen := 8 + 8 + 8 + 4 + requiredWords * 4
  ([0x08, 0x01] : List UInt8) ++ toLE 2 submsgLen ++ readerId.bytes ++ writerId.bytes ++
    toLE 4 (gapStart >>> 32) ++ toLE 4 gapStart ++
    toLE 4 (gapListBase >>> 32) ++ toLE 4 gapListBase ++ toLE 4 numBits ++
    bitmapBytes requiredWords gapBitmap

/-- `encode_heartbeat`: little-endian HEARTBEAT, each sequence number as a high and a low word. -/
def encodeHeartbeat (readerId writerId : EntityId) (firstSn lastSn count : ℕ) : List UInt8 :=
  ([0x07, 0x01] : List UInt8) ++ toLE 2 28 ++ readerId.bytes ++ writerId.bytes ++
    toLE 4 (firstSn >>> 32) ++ toLE 4 firstSn ++ toLE 4 (lastSn >>> 32) ++ toLE 4 lastSn ++
    toLE 4 count

/-- `encode_data`: little-endian DATA without inline QoS, the payload after the sequence
number. -/
def encodeData (readerId writerId : EntityId) (sequenceNumber : ℕ) (payload : List UInt8) :
    List UInt8 :=
  ([0x15, 0x05] : List UInt8) ++ toLE 2 (20 + payload.length) ++ toLE 2 0 ++ toLE 2 16 ++
    readerId.bytes ++ writerId.bytes ++ toLE 4 (sequenceNumber >>> 32) ++ toLE 4 sequenceNumber ++
    payload

/-- `encode_info_ts`. -/
def encodeInfoTs (timestampSec timestampFrac : ℕ) : List UInt8 :=
  ([0x09, 0x01] : List UInt8) ++ toLE 2 8 ++ toLE 4 timestampSec ++ toLE 4 timestampFrac

/-- `encode_info_dst`. -/
def encodeInfoDst (guidPrefix : GuidPrefix) : List UInt8 :=
  ([0x0E, 0x01] : List UInt8) ++ toLE 2 12 ++ guidPrefix.bytes

/-- `encode_data_frag` (it never returns an error). -/
def encodeDataFrag (readerId writerId : EntityId) (sequenceNumber fragmentStartingNum
    fragmentsInSubmessage dataSize fragmentSize : ℕ) (payload : List UInt8) : List UInt8 :=
  let submsgLen := 32 + payload.length
  ([0x16, 0x05] : List UInt8) ++ toLE 2 submsgLen ++ toLE 2 0 ++ toLE 2 16 ++ readerId.bytes ++ writerId.bytes ++
    toLE 4 (sequenceNumber >>> 32) ++ toLE 4 sequenceNumber ++ toLE 4 fragmentStartingNum ++
    toLE 2 fragmentsInSubmessage ++ toLE 2 fragmentSize ++ toLE 4 dataSize ++ payload

/-! ## The Hybrid dialect -/

/-- `calculate_actual_num_bits`: from the last non-zero word `idx`, `idx * 32 + highest_bit + 1`
with `highest_bit = 31 - word.leading_zeros()`. -/
def calculateActualNumBits (bitmap : List ℕ) : ℕ :=
  if bitmap.isEmpty then 0
  else
    match (List.range bitmap.length).reverse.find? (fun i => bitmap.getD i 0 ≠ 0) with
    | none => 0
    | some idx => idx * 32 + (31 - Bitmap.leadingZeros32 (bitmap.getD idx 0)) + 1

namespace HybridEncoder

/-- `HybridEncoder::build_acknack`. -/
def buildAcknack (readerId writerId : EntityId) (baseSn : ℕ) (bitmap : List ℕ) (count : ℕ) :
    Except EncodeError (List UInt8) :=
  let numBits := calculateActualNumBits bitmap
  (encodeAcknackWithCount readerId writerId baseSn numBits bitmap count).mapError
    (fun _ => .BufferTooSmall)

/-- `HybridEncoder::build_heartbeat`. -/
def buildHeartbeat (readerId writerId : EntityId) (firstSn lastSn count : ℕ) :
    Except EncodeError (List UInt8) :=
  .ok (encodeHeartbeat readerId writerId firstSn lastSn count)

/-- `HybridEncoder::build_gap`. -/
def buildGap (readerId writerId : EntityId) (gapStart gapListBase : ℕ) (gapBitmap : List ℕ) :
    Except EncodeError (List UInt8) :=
  let numBits := calculateActualNumBits gapBitmap
  .ok (encodeGap readerId writerId gapStart gapListBase numBits gapBitmap)

/-- `HybridEncoder::build_info_dst`. -/
def buildInfoDst (guidPrefix : GuidPrefix) : List UInt8 := encodeInfoDst guidPrefix

/-- `HybridEncoder::build_data_frag`. -/
def buildDataFrag (readerId writerId : EntityId) (sequenceNumber fragmentStartingNum
    fragmentsInSubmessage dataSize fragmentSize : ℕ) (payload : List UInt8) :
    Except EncodeError (List UInt8) :=
  .ok (encodeDataFrag readerId writerId sequenceNumber fragmentStartingNum
    fragmentsInSubmessage dataSize fragmentSize payload)

end HybridEncoder

end Hdds.Rtps
