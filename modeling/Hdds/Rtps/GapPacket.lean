import Hdds.Reliability.Writer
import Hdds.Rtps.Builder

/-! # GAP packets on the wire

`build_gap_packet` of `protocol/builder/packet.rs` takes the CDR payload of a `GapMsg`
(`GapMsg.encodeCdr2Le`), reads its sequence numbers back and re-encodes them through the
Hybrid encoder as an RTPS GAP submessage.

HDDS has no GAP submessage parser, so what a reader of the submessage learns is stated by
`readGapSubmessage`: the `SequenceNumber_t` layout `{high: i32, low: u32}` with the value
`high * 2 ^ 32 + low`, exactly as `parse_heartbeat_submessage` and `parse_acknack_submessage`
read it, and the bitmap read most-significant-bit first up to the encoded `numBits`.
-/

namespace Hdds.Rtps
open Wire Hdds.Reliability Hdds.Discovery
set_option autoImplicit false

/-- `build_gap_packet`. -/
def buildGapPacket (payload : List UInt8) : List UInt8 :=
  if payload.length < 28 then []
  else
    let readerId : EntityId := (ByteArr.ofList? (field payload 0 4)).getD (ByteArr.zero 4)
    let writerId : EntityId := (ByteArr.ofList? (field payload 4 4)).getD (ByteArr.zero 4)
    -- `((high as i64) << 32 | low as i64) as u64`
    let gapStart := ofLE (field payload 8 4) * 2 ^ 32 + ofLE (field payload 12 4)
    let gapListBase := ofLE (field payload 16 4) * 2 ^ 32 + ofLE (field payload 20 4)
    let numBits := ofLE (field payload 24 4)
    let bitmapWords := (numBits + 31) / 32
    let bitmap := (List.range bitmapWords).filterMap fun i =>
      if 28 + i * 4 + 4 ≤ payload.length then some (ofLE (field payload (28 + i * 4) 4)) else none
    let gapSubmsg :=
      match HybridEncoder.buildGap readerId writerId gapStart gapListBase bitmap with
      | .ok bytes => bytes
      | .error _ => []
    packetHeader rtpsVersion fixedGuidPrefix ++ gapSubmsg

/-- What a reader of a GAP submessage learns. -/
structure GapView where
  gapStart : ℤ
  bitmapBase : ℤ
  members : List ℤ
deriving DecidableEq, Repr

/-- A `SequenceNumber_t` read with the convention of the HDDS control parsers. -/
def readSequenceNumber (isLe : Bool) (bytes : List UInt8) : ℤ :=
  Int.bmod (ofEndian isLe (field bytes 0 4)) (2 ^ 32) * 2 ^ 32 + ofEndian isLe (field bytes 4 4)

/-- The first GAP submessage of a packet, read field by field. -/
def readGapSubmessage (packet : List UInt8) : Option GapView :=
  if packet.take 4 ≠ rtpsMagic then none
  else (findSubmessage packet 0x08 packet.length 20).bind fun (offset, flags) =>
    let isLe := flags &&& 0x01 != 0
    if offset + 32 > packet.length then none
    else
      let gapStart := readSequenceNumber isLe (field packet (offset + 12) 8)
      let bitmapBase := readSequenceNumber isLe (field packet (offset + 20) 8)
      let numBits := min (ofEndian isLe (field packet (offset + 28) 4)) 256
      let word (w : ℕ) : ℕ := ofEndian isLe (field packet (offset + 32 + w * 4) 4)
      let members := (List.range numBits).filterMap fun i =>
        if (word (i / 32)).testBit (31 - i % 32) then some (bitmapBase + i) else none
      some ⟨gapStart, bitmapBase, members⟩

/-- The GAP for the single lost sequence 1, built by `GapTx` and put on the wire by
`build_gap_packet`: the CDR payload holds `gap_start` as a little-endian `i64`, which
`build_gap_packet` reads as `{high, low}` words, so the submessage announces `2 ^ 32`. -/
theorem gap_packet_announces_swapped_start :
    let tx : GapTx := ⟨0, 0, ByteArr.zero 4, ByteArr.zero 4⟩
    (tx.buildGapFromSequences [1]).2.map GapMsg.gapStart = [1] ∧
    (tx.buildGapFromSequences [1]).2.map
        (fun g => (readGapSubmessage (buildGapPacket g.encodeCdr2Le)).map GapView.gapStart) =
      [some (2 ^ 32)] := by
  decide

end Hdds.Rtps
