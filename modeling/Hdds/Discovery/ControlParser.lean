import Hdds.Rtps.Encoder

/-! # The receive side of the control submessages

`core/discovery/multicast/control_parser.rs`: `parse_acknack_submessage` and
`parse_rtps_bitmap_to_ranges`, the decoder the writer applies to every ACKNACK it receives, and
`parse_heartbeat_submessage`, the reader's HEARTBEAT decoder.

Both control parsers walk the submessages of a packet from offset 20 and decode the first
one with the wanted id; `findSubmessage` is that walk, and `findSubmessage_fuel` shows that the
fuel it is given (the packet length) never runs out before the walk ends by itself.
The bitmap is read most-significant-bit first and limited by the encoded `numBits`; the loop
that turns it into ranges is `Bitmap.scan`.
-/

namespace Hdds.Discovery
open Wire Hdds.Rtps
set_option autoImplicit false

/-- `AckNackInfo` (`control_types.rs`); a range `start..end` is the pair `(start, end)`. -/
structure AckNackInfo where
  readerEntityId : EntityId
  writerEntityId : EntityId
  missingRanges : List (ℕ × ℕ)
deriving DecidableEq, Repr

/-! ## The submessage walk -/

/-- The loop `while offset + 4 <= packet.len()` shared by the control parsers: the offset and
flags of the first submessage with id `target`. A submessage with `octetsToNextHeader = 0`
ends the walk. -/
def findSubmessage (packet : List UInt8) (target : UInt8) : ℕ → ℕ → Option (ℕ × UInt8)
  | 0, _ => none
  | fuel + 1, offset =>
    if offset + 4 ≤ packet.length then
      let flags := packet.getD (offset + 1) 0
      let isLe := flags &&& 0x01 != 0
      let octetsToNext := ofEndian isLe (field packet (offset + 2) 2)
      if packet.getD offset 0 = target then some (offset, flags)
      else if octetsToNext = 0 then none
      else findSubmessage packet target fuel (offset + 4 + octetsToNext)
    else none

/-- Every step moves the offset forward by at least 5, so once the fuel covers the rest of the
packet more fuel changes nothing. -/
theorem findSubmessage_fuel (packet : List UInt8) (target : UInt8) :
    ∀ (n m offset : ℕ), packet.length ≤ offset + n → packet.length ≤ offset + m →
      findSubmessage packet target n offset = findSubmessage packet target m offset
  | 0, 0, _, _, _ => rfl
  | 0, m + 1, offset, hn, _ => by
    have h : ¬offset + 4 ≤ packet.length := by omega
    simp [findSubmessage, h]
  | n + 1, 0, offset, _, hm => by
    have h : ¬offset + 4 ≤ packet.length := by omega
    simp [findSubmessage, h]
  | n + 1, m + 1, offset, hn, hm => by
    simp only [findSubmessage]
    split_ifs with h1 h2 h3
    · rfl
    · rfl
    · exact findSubmessage_fuel packet target n m _ (by omega) (by omega)
    · rfl

/-- The walk stops at once on a submessage with the wanted id. -/
theorem findSubmessage_here {packet : List UInt8} {target : UInt8} {fuel offset : ℕ}
    (hroom : offset + 4 ≤ packet.length) (hid : packet.getD offset 0 = target) :
    findSubmessage packet target (fuel + 1) offset = some (offset, packet.getD (offset + 1) 0) := by
  rw [findSubmessage, if_pos hroom]
  dsimp only
  rw [if_pos hid]

/-! ## HEARTBEAT -/

/-- `x as i32` for a `u32` value `x` read from the wire. -/
def asI32 (x : ℕ) : ℤ := Int.bmod x (2 ^ 32)

theorem asI32_of_lt {x : ℕ} (h : x < 2 ^ 31) : asI32 x = x := by
  unfold asI32
  rw [Int.bmod_def, Int.emod_eq_of_lt (by positivity) (by omega), if_pos (by omega)]

/-- `HeartbeatInfo` (`control_types.rs`). -/
structure HeartbeatInfo where
  writerEntityId : EntityId
  firstSeq : ℤ
  lastSeq : ℤ
  count : ℕ
  finalFlag : Bool
  livelinessFlag : Bool
deriving DecidableEq, Repr

/-- A `SequenceNumber_t {high: i32, low: u32}` read at `off`: `(high as i64) * 2^32 + low`. -/
def readSequenceNumber (packet : List UInt8) (isLe : Bool) (off : ℕ) : ℤ :=
  asI32 (ofEndian isLe (field packet off 4)) * 2 ^ 32 + ofEndian isLe (field packet (off + 4) 4)

/-- The body of `parse_heartbeat_submessage` at a HEARTBEAT found at `offset`. -/
def decodeHeartbeat (packet : List UInt8) (offset : ℕ) (flags : UInt8) : Option HeartbeatInfo :=
  let isLe := flags &&& 0x01 != 0
  let hbOffset := offset + 4
  if hbOffset + 28 > packet.length then none
  else do
    let writerEntityId ← ByteArr.ofList? (field packet (hbOffset + 4) 4)
    pure ⟨writerEntityId, readSequenceNumber packet isLe (hbOffset + 8),
      readSequenceNumber packet isLe (hbOffset + 16), ofEndian isLe (field packet (hbOffset + 24) 4),
      flags &&& 0x02 != 0, flags &&& 0x04 != 0⟩

/-- `parse_heartbeat_submessage`. -/
def parseHeartbeatSubmessage (packet : List UInt8) : Option HeartbeatInfo :=
  if packet.length < 52 then none
  else if packet.take 4 ≠ rtpsMagic then none
  else (findSubmessage packet 0x07 packet.length 20).bind
    (fun (offset, flags) => decodeHeartbeat packet offset flags)

/-! ## ACKNACK -/

/-- `parse_rtps_bitmap_to_ranges`: the missing ranges of a `SequenceNumberSet` bitmap, bit 0
being the most significant bit of the first word. -/
def parseRtpsBitmapToRanges (bitmapBytes : List UInt8) (bitmapBase numBits : ℕ) (isLe : Bool) :
    List (ℕ × ℕ) :=
  if numBits = 0 then []
  else
    let numBits := min numBits 256
    let wordCount := (numBits + 31) / 32
    if bitmapBytes.length < wordCount * 4 then []
    else
      let word (wordIdx : ℕ) : ℕ := ofEndian isLe (field bitmapBytes (wordIdx * 4) 4)
      Bitmap.scan (fun bitIdx => word (bitIdx / 32) &&& 1 <<< (31 - bitIdx % 32) != 0)
        (fun bitIdx => satAdd 64 bitmapBase bitIdx) 0 numBits none

/-- The body of `parse_acknack_submessage` at an ACKNACK found at `offset`. -/
def decodeAcknack (packet : List UInt8) (offset : ℕ) (flags : UInt8) : Option AckNackInfo :=
  let isLe := flags &&& 0x01 != 0
  let anOffset := offset + 4
  if anOffset + 20 > packet.length then none
  else do
    let readerEntityId ← ByteArr.ofList? (field packet anOffset 4)
    let writerEntityId ← ByteArr.ofList? (field packet (anOffset + 4) 4)
    let snHigh := ofEndian isLe (field packet (anOffset + 8) 4)
    let snLow := ofEndian isLe (field packet (anOffset + 12) 4)
    -- `((sn_high as i64) << 32) | (sn_low as i64)`, read back `as u64`
    let bitmapBase := snHigh * 2 ^ 32 + snLow
    let numBits := ofEndian isLe (field packet (anOffset + 16) 4)
    let missingRanges := parseRtpsBitmapToRanges (packet.drop (anOffset + 20)) bitmapBase numBits isLe
    pure ⟨readerEntityId, writerEntityId, missingRanges⟩

/-- `parse_acknack_submessage`. -/
def parseAcknackSubmessage (packet : List UInt8) : Option AckNackInfo :=
  if packet.length < 44 then none
  else if packet.take 4 ≠ rtpsMagic then none
  else (findSubmessage packet 0x06 packet.length 20).bind
    (fun (offset, flags) => decodeAcknack packet offset flags)

end Hdds.Discovery
