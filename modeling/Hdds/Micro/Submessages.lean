import Hdds.Rtps.Builder
import Hdds.Reliability.Messages

/-! # hdds-micro's submessages against hdds

`hdds-micro/src/rtps/submessages.rs`: the submessage header, DATA and HEARTBEAT of the
embedded implementation, and how hdds reads what it writes and the other way round.

* hdds-micro writes into a caller buffer and returns the number of bytes written; an encoder is
  modelled as the bytes it writes, after its `BufferTooSmall` check on the buffer length.
* `SequenceNumber` is an `i64`: an integer. `to_le_bytes` of an `i64` is `toLE 8` of its 64-bit
  two's complement (`asU64`), `i64::from_le_bytes` is `asI64 ∘ ofLE`.
* DATA writes the sequence number as `SequenceNumber_t {high: i32, low: u32}`, as hdds does;
  HEARTBEAT writes it as one little-endian `i64`, low word first, where hdds expects the high word.
-/

namespace Hdds.Micro
open Wire Hdds.Rtps Hdds.Discovery Hdds.Reliability
set_option autoImplicit false

/-- The `Error` variants these functions return. -/
inductive MicroError
  | bufferTooSmall
  | invalidSubmessage
deriving DecidableEq, Repr

/-- `SubmessageKind`. -/
inductive SubmessageKind
  | data
  | heartbeat
  | ackNack
deriving DecidableEq, Repr

namespace SubmessageKind

/-- The submessage id of each kind. -/
def toU8 : SubmessageKind → UInt8
  | data => 0x15
  | heartbeat => 0x07
  | ackNack => 0x06

/-- `SubmessageKind::from_u8`. -/
def fromU8 (value : UInt8) : Option SubmessageKind :=
  if value = 0x15 then some data
  else if value = 0x07 then some heartbeat
  else if value = 0x06 then some ackNack
  else none

@[simp] theorem fromU8_toU8 (k : SubmessageKind) : fromU8 k.toU8 = some k := by
  cases k <;> rfl

end SubmessageKind

/-- `SubmessageHeader`; `octets_to_next` is always little-endian. -/
structure SubmessageHeader where
  kind : SubmessageKind
  flags : UInt8
  octetsToNext : ℕ
deriving DecidableEq, Repr

namespace SubmessageHeader

/-- `SubmessageHeader::encode`. -/
def encode (h : SubmessageHeader) : List UInt8 := [h.kind.toU8, h.flags] ++ toLE 2 h.octetsToNext

/-- `SubmessageHeader::decode`. -/
def decode (buf : List UInt8) : Except MicroError SubmessageHeader :=
  if buf.length < 4 then .error .bufferTooSmall
  else match SubmessageKind.fromU8 (buf.getD 0 0) with
    | none => .error .invalidSubmessage
    | some kind => .ok ⟨kind, buf.getD 1 0, ofLE (field buf 2 2)⟩

@[simp] theorem length_encode (h : SubmessageHeader) : h.encode.length = 4 := by
  simp [encode]

end SubmessageHeader

/-! ## DATA -/

/-- `Data`: the fixed fields of a DATA submessage. -/
structure Data where
  readerId : EntityId
  writerId : EntityId
  writerSn : ℤ
deriving DecidableEq, Repr

namespace Data

/-- `Data::MIN_SIZE`. -/
def minSize : ℕ := 24

/-- `Data::encode_header`: header, `extraFlags = 0`, `octetsToInlineQos = 16`, the entity ids,
and `writer_sn` as `(sn >> 32) as i32` then `sn as u32`. -/
def encodeHeader (d : Data) (bufLen : ℕ) : Except MicroError (List UInt8) :=
  if bufLen < minSize then .error .bufferTooSmall
  else .ok (SubmessageHeader.encode ⟨.data, 0x05, 20⟩ ++
    ([0x00, 0x00, 0x10, 0x00] : List UInt8) ++ d.readerId.bytes ++ d.writerId.bytes ++
    toLE 4 (asU64 d.writerSn >>> 32) ++ toLE 4 (asU64 d.writerSn))

/-- `Data::decode`: the fixed fields and the payload offset `8 + octetsToInlineQos`.
`((sn_high as i64) << 32) | (sn_low as i64)` is a sum: the low word fills the 32 zero bits the
shift leaves. -/
def decode (buf : List UInt8) : Except MicroError (Data × ℕ) :=
  if buf.length < minSize then .error .bufferTooSmall
  else do
    let header ← SubmessageHeader.decode (buf.take 4)
    if header.kind ≠ .data then throw .invalidSubmessage
    let octetsToInlineQos := ofLE (field buf 6 2)
    let some readerId := ByteArr.ofList? (field buf 8 4) | throw .bufferTooSmall
    let some writerId := ByteArr.ofList? (field buf 12 4) | throw .bufferTooSmall
    let snHigh := asI32 (ofLE (field buf 16 4))
    let snLow := ofLE (field buf 20 4)
    pure (⟨readerId, writerId, snHigh * 2 ^ 32 + snLow⟩, 8 + octetsToInlineQos)

end Data

/-! ## HEARTBEAT -/

/-- `Heartbeat`. -/
structure Heartbeat where
  readerId : EntityId
  writerId : EntityId
  firstSn : ℤ
  lastSn : ℤ
  count : ℕ
deriving DecidableEq, Repr

namespace Heartbeat

/-- `Heartbeat::SIZE`. -/
def size : ℕ := 32

/-- `Heartbeat::encode`: default (little-endian) flags, the entity ids, each sequence number as
one little-endian `i64`, the count. -/
def encode (hb : Heartbeat) (bufLen : ℕ) : Except MicroError (List UInt8) :=
  if bufLen < size then .error .bufferTooSmall
  else .ok (SubmessageHeader.encode ⟨.heartbeat, 0x01, 28⟩ ++ hb.readerId.bytes ++
    hb.writerId.bytes ++ toLE 8 (asU64 hb.firstSn) ++ toLE 8 (asU64 hb.lastSn) ++ toLE 4 hb.count)

/-- `Heartbeat::decode`. -/
def decode (buf : List UInt8) : Except MicroError Heartbeat :=
  if buf.length < size then .error .bufferTooSmall
  else do
    let header ← SubmessageHeader.decode (buf.take 4)
    if header.kind ≠ .heartbeat then throw .invalidSubmessage
    let some readerId := ByteArr.ofList? (field buf 4 4) | throw .bufferTooSmall
    let some writerId := ByteArr.ofList? (field buf 8 4) | throw .bufferTooSmall
    pure ⟨readerId, writerId, asI64 (ofLE (field buf 12 8)), asI64 (ofLE (field buf 20 8)),
      ofLE (field buf 28 4)⟩

theorem encode_ok {hb : Heartbeat} {bufLen : ℕ} {bytes : List UInt8}
    (henc : hb.encode bufLen = .ok bytes) :
    bytes = SubmessageHeader.encode ⟨.heartbeat, 0x01, 28⟩ ++ hb.readerId.bytes ++
      hb.writerId.bytes ++ toLE 8 (asU64 hb.firstSn) ++ toLE 8 (asU64 hb.lastSn) ++
      toLE 4 hb.count := by
  unfold encode at henc
  split at henc
  · cases henc
  · exact (Except.ok.inj henc).symm

end Heartbeat

/-! ## Reading each other's sequence numbers -/

/-- A 64-bit value with its two 32-bit words exchanged. -/
def swapWords (x : ℕ) : ℕ := x / 2 ^ 32 % 2 ^ 32 + 2 ^ 32 * (x % 2 ^ 32)

/-- Reading the low word of `x` as the signed high word and the high word as the low word is
reading `swapWords x` as an `i64`. -/
theorem highLow_swapWords (x : ℕ) :
    asI32 (x % 2 ^ 32) * 2 ^ 32 + ((x / 2 ^ 32 % 2 ^ 32 : ℕ) : ℤ) = asI64 (swapWords x) := by
  have ha : x % 2 ^ 32 < 2 ^ 32 := Nat.mod_lt _ (by norm_num)
  have hb : x / 2 ^ 32 % 2 ^ 32 < 2 ^ 32 := Nat.mod_lt _ (by norm_num)
  unfold asI32 asI64 swapWords
  generalize x % 2 ^ 32 = a at ha ⊢
  generalize x / 2 ^ 32 % 2 ^ 32 = b at hb ⊢
  -- both sides are the two's complement readings of `b + 2^32 * a`
  simp only [Int.bmod]
  push_cast
  rw [Int.emod_eq_of_lt (by positivity) (by omega), Int.emod_eq_of_lt (by positivity) (by omega)]
  split_ifs <;> omega

/-- hdds decodes the HEARTBEAT hdds-micro encodes, after any 20-byte header with the RTPS magic,
with the words of both sequence numbers exchanged. -/
theorem parseHeartbeatSubmessage_micro {header bytes : List UInt8} (hlen : header.length = 20)
    (hmagic : header.take 4 = rtpsMagic) {hb : Heartbeat} {bufLen : ℕ}
    (henc : hb.encode bufLen = .ok bytes) :
    parseHeartbeatSubmessage (header ++ bytes) = some ⟨hb.writerId,
      asI64 (swapWords (asU64 hb.firstSn)), asI64 (swapWords (asU64 hb.lastSn)), hb.count % 2 ^ 32,
      false, false⟩ := by
  rw [Heartbeat.encode_ok henc, ← highLow_swapWords, ← highLow_swapWords]
  have hr := hb.readerId.length_eq
  have hw := hb.writerId.length_eq
  have h8 : ∀ n, toLE 8 n = toLE 4 n ++ toLE 4 (n / 2 ^ 32) := fun n => toLE_add 4 4 n
  have hflags : ((1 : UInt8) &&& 2) = 0 ∧ ((1 : UInt8) &&& 4) = 0 := by decide
  unfold parseHeartbeatSubmessage
  rw [if_neg (by simp [hlen, SubmessageHeader.encode, hr, hw]),
    if_neg (by simp [List.take_append, hlen, hmagic])]
  -- the walk stops at offset 20; every field is then read inside one block of the packet
  simp [-toLE_succ, h8, hflags, findSubmessage, decodeHeartbeat, Discovery.readSequenceNumber, field,
    List.drop_append, List.take_append, hlen, hr, hw, SubmessageHeader.encode, SubmessageKind.toU8,
    List.getD_eq_getElem?_getD, List.drop_eq_nil_of_le, List.take_of_length_le, ofLE_toLE]

/-- hdds-micro decodes the HEARTBEAT hdds encodes with the words of both sequence numbers
exchanged. -/
theorem decode_encodeHeartbeat (readerId writerId : EntityId) (firstSn lastSn count : ℕ) :
    Heartbeat.decode (encodeHeartbeat readerId writerId firstSn lastSn count) =
      .ok ⟨readerId, writerId, asI64 (swapWords firstSn), asI64 (swapWords lastSn), count % 2 ^ 32⟩ := by
  have hr := readerId.length_eq
  have hw := writerId.length_eq
  have hswap : ∀ n, n >>> 32 % 4294967296 + 4294967296 * (n % 4294967296) = swapWords n :=
    fun n => by
      rw [Nat.shiftRight_eq_div_pow, swapWords]
      norm_num
  unfold Heartbeat.decode encodeHeartbeat
  rw [if_neg (by simp [hr, hw, Heartbeat.size])]
  simp [-toLE_succ, field, List.drop_append, List.take_append, hr, hw, SubmessageHeader.decode,
    SubmessageKind.fromU8, List.getD_eq_getElem?_getD, List.drop_eq_nil_of_le,
    List.take_of_length_le, ofLE_append, ofLE_toLE, hswap, bind, Except.bind, pure, Except.pure]

/-- On DATA the two agree. hdds-micro decodes the DATA hdds encodes with its entity ids, its
sequence number and the payload at offset 24; for an empty payload hdds-micro's header is byte for
byte hdds's DATA. -/
theorem data_sequence_numbers_agree (readerId writerId : EntityId) (sn : ℕ) (hsn : sn < 2 ^ 63)
    (payload : List UInt8) :
    Data.decode (encodeData readerId writerId sn payload) = .ok (⟨readerId, writerId, sn⟩, 24) ∧
      Data.encodeHeader ⟨readerId, writerId, sn⟩ Data.minSize = .ok (encodeData readerId writerId sn []) := by
  have hr := readerId.length_eq
  have hw := writerId.length_eq
  have hhigh : asI32 (sn >>> 32 % 4294967296) = (sn : ℤ) / 4294967296 := by
    rw [Nat.shiftRight_eq_div_pow, Nat.mod_eq_of_lt (by omega), asI32_of_lt (by omega)]
    push_cast
    rfl
  have hsum : (sn : ℤ) / 4294967296 * 4294967296 + (sn : ℤ) % 4294967296 = sn := by omega
  have hu : asU64 (sn : ℤ) = sn := SequenceNumberSet.asU64_natCast (by omega)
  constructor
  · unfold Data.decode encodeData
    rw [if_neg (by simp [hr, hw, Data.minSize]; omega)]
    simp [-toLE_succ, field, List.drop_append, hr, hw, SubmessageHeader.decode,
      SubmessageKind.fromU8, List.getD_eq_getElem?_getD, List.drop_eq_nil_of_le,
      List.take_of_length_le, ofLE_toLE, hhigh, hsum, bind, Except.bind, pure, Except.pure]
  · simp [Data.encodeHeader, encodeData, Data.minSize, SubmessageHeader.encode, SubmessageKind.toU8,
      hu]

theorem data_sequence_numbers_agree_seven :
    (7 : ℕ) < 2 ^ 63 ∧
      (Data.decode (encodeData (ByteArr.zero 4) (ByteArr.zero 4) 7 [1, 2]) =
          .ok (⟨ByteArr.zero 4, ByteArr.zero 4, ((7 : ℕ) : ℤ)⟩, 24) ∧
        Data.encodeHeader ⟨ByteArr.zero 4, ByteArr.zero 4, ((7 : ℕ) : ℤ)⟩ Data.minSize =
          .ok (encodeData (ByteArr.zero 4) (ByteArr.zero 4) 7 [])) :=
  ⟨by norm_num, data_sequence_numbers_agree _ _ 7 (by norm_num) [1, 2]⟩

/-- hdds-micro's HEARTBEAT announcing sequence numbers 1 to 1 reaches hdds as 2^32 to 2^32, and
hdds's HEARTBEAT for 1 to 1 reaches hdds-micro as 2^32 to 2^32. -/
theorem heartbeat_sequence_one_read_as_two_pow_32 :
    let hb : Heartbeat := ⟨ByteArr.zero 4, ByteArr.zero 4, 1, 1, 1⟩
    (∀ bytes, hb.encode Heartbeat.size = .ok bytes →
      (parseHeartbeatSubmessage (packetHeader rtpsVersion (ByteArr.zero 12) ++ bytes)).map
        (fun info => (info.firstSeq, info.lastSeq)) = some (2 ^ 32, 2 ^ 32)) ∧
    (Heartbeat.decode (encodeHeartbeat (ByteArr.zero 4) (ByteArr.zero 4) 1 1 1)).map
      (fun hb => (hb.firstSn, hb.lastSn)) = .ok (2 ^ 32, 2 ^ 32) := by
  intro hb
  have hone : asI64 (swapWords (asU64 1)) = 2 ^ 32 := by decide
  have hone' : asI64 (swapWords 1) = 2 ^ 32 := by decide
  refine ⟨fun bytes henc => ?_, ?_⟩
  · rw [parseHeartbeatSubmessage_micro (by simp [rtpsVersion]) (by decide) henc]
    simp [hb, hone]
  · rw [decode_encodeHeartbeat]
    simp [hone', Except.map]

end Hdds.Micro
