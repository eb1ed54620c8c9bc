import Hdds.Discovery.ControlParser

/-! # Packet builders: HEARTBEAT and the reader's ACKNACK packets

`build_heartbeat_packet_with_context` of `protocol/builder/packet.rs`, the two ACKNACK
builders, `protocol/builder/acknack.rs` (`build_acknack_submessage`, `build_acknack_packet`: the
heartbeat path) and `build_acknack_packet_from_ranges` of `protocol/builder/packet.rs` (the
`NackScheduler` path). Both fill a bitmap of 32-bit words from the missing sequence numbers
and hand it to the Hybrid encoder, which recomputes `numBits` from the words; the writer
decodes the packet with `parseAcknackSubmessage`.

The heartbeat path sets bits most-significant-first, the ranges path least-significant-first,
while the decoder reads most-significant-first and stops at the encoded `numBits`.
Arithmetic that can overflow is modelled with the release-profile wrapping.
-/

namespace Hdds.Rtps
open Wire Hdds.Discovery
set_option autoImplicit false

/-- The packet header both builders write: magic, version, vendor, GUID prefix. -/
def packetHeader (version : List UInt8) (guidPrefix : GuidPrefix) : List UInt8 :=
  rtpsMagic ++ version ++ hddsVendorId ++ guidPrefix.bytes

@[simp] theorem length_packetHeader (version : List UInt8) (guidPrefix : GuidPrefix) :
    (packetHeader version guidPrefix).length = version.length + 18 := by
  simp [packetHeader, rtpsMagic, hddsVendorId, guidPrefix.length_eq]

/-- `RtpsEndpointContext`. -/
structure RtpsEndpointContext where
  guidPrefix : GuidPrefix
  readerEntityId : EntityId
  writerEntityId : EntityId
deriving DecidableEq, Repr

/-- `build_heartbeat_packet_with_context`. -/
def buildHeartbeatPacketWithContext (ctx : RtpsEndpointContext) (firstSeq lastSeq count : ℕ) :
    List UInt8 :=
  let heartbeat :=
    match HybridEncoder.buildHeartbeat ctx.readerEntityId ctx.writerEntityId firstSeq lastSeq count with
    | .ok bytes => bytes
    | .error _ => []
  packetHeader rtpsVersion ctx.guidPrefix ++ heartbeat

/-! ## Heartbeat path -/

/-- The bitmap `build_acknack_submessage` fills: one bit per missing sequence in
`[seqBase, seqBase + numBits)`, most significant bit first. -/
def acknackBitmap (seqBase numBits : ℕ) (missingSeqs : List ℕ) : List ℕ :=
  missingSeqs.foldl
    (fun bitmap seq =>
      if seqBase ≤ seq ∧ seq < (seqBase + numBits) % 2 ^ 64 then Bitmap.setMsb bitmap (seq - seqBase)
      else bitmap)
    (List.replicate ((numBits + 31) / 32) 0)

/-- `num_bits` of `build_acknack_submessage`: `((max_seq - seq_base) as u32 + 1).min(256)`. -/
def acknackNumBits (seqBase : ℕ) (missingSeqs : List ℕ) : ℕ :=
  match missingSeqs.max? with
  | some maxSeq => min ((wrappingSub 64 maxSeq seqBase % 2 ^ 32 + 1) % 2 ^ 32) 256
  | none => 0

/-- `build_acknack_submessage`. -/
def buildAcknackSubmessage (readerEntityId writerEntityId : EntityId) (seqBase : ℕ)
    (missingSeqs : List ℕ) (count : ℕ) : List UInt8 :=
  let bitmap := acknackBitmap seqBase (acknackNumBits seqBase missingSeqs) missingSeqs
  match HybridEncoder.buildAcknack readerEntityId writerEntityId seqBase bitmap count with
  | .ok bytes => bytes
  | .error _ => []

/-- `build_acknack_packet`: header (version 2.3), INFO_DST, ACKNACK. -/
def buildAcknackPacket (ourGuidPrefix destGuidPrefix : GuidPrefix)
    (readerEntityId writerEntityId : EntityId) (seqBase : ℕ) (missingSeqs : List ℕ)
    (count : ℕ) : List UInt8 :=
  packetHeader [2, 3] ourGuidPrefix ++ HybridEncoder.buildInfoDst destGuidPrefix ++
    buildAcknackSubmessage readerEntityId writerEntityId seqBase missingSeqs count

/-- At `seq_base = 1` with `{1, 49}` missing, the last bitmap word holds only offset 48, at bit
position 15; its `leading_zeros` is 16, so the Hybrid encoder announces `numBits = 48` and the
writer, reading bits `0 … 47`, is asked for sequence 1 alone. -/
theorem acknack_packet_drops_late_sequence :
    (parseAcknackSubmessage (buildAcknackPacket (ByteArr.zero 12) (ByteArr.zero 12)
        (ByteArr.zero 4) (ByteArr.zero 4) 1 [1, 49] 1)).map AckNackInfo.missingRanges =
      some [(1, 2)] ∧
    ¬Bitmap.IsRuns (· ∈ [1, 49]) [(1, 2)] := by
  refine ⟨by decide, fun h => ?_⟩
  obtain ⟨r, hr, -, h49⟩ := (h.2.2 49).mp (by simp)
  simp only [List.mem_singleton] at hr
  subst hr
  omega

/-! ## DATA_FRAG -/

/-- `DEFAULT_MAX_UNFRAGMENTED_SIZE`. -/
def defaultMaxUnfragmentedSize : ℕ := 8192

/-- `build_single_data_frag_packet`. -/
def buildSingleDataFragPacket (ctx : RtpsEndpointContext) (sequence fragmentStartingNum
    fragmentsInSubmessage fragmentSize dataSize : ℕ) (fragmentData : List UInt8) : List UInt8 :=
  let dataFragSubmsg :=
    match HybridEncoder.buildDataFrag ctx.readerEntityId ctx.writerEntityId sequence
        fragmentStartingNum fragmentsInSubmessage dataSize fragmentSize fragmentData with
    | .ok bytes => bytes
    | .error _ => []
  packetHeader rtpsVersion ctx.guidPrefix ++ dataFragSubmsg

/-- `build_data_frag_packets`: a payload above `DEFAULT_MAX_UNFRAGMENTED_SIZE` cut into
`fragment_size` pieces, one DATA_FRAG packet each, numbered from 1. A zero `fragment_size`
makes `div_ceil` panic in the source; here it gives no packet. -/
def buildDataFragPackets (ctx : RtpsEndpointContext) (sequence : ℕ) (payload : List UInt8)
    (fragmentSize : ℕ) : List (List UInt8) :=
  let totalSize := payload.length
  if totalSize ≤ defaultMaxUnfragmentedSize then []
  else
    let numFragments := (totalSize + fragmentSize - 1) / fragmentSize
    let fragmentSizeU16 := min fragmentSize (2 ^ 16 - 1)
    let totalSizeU32 := min totalSize (2 ^ 32 - 1)
    (List.range numFragments).map fun fragIdx =>
      let start := fragIdx * fragmentSize
      let stop := min (start + fragmentSize) totalSize
      buildSingleDataFragPacket ctx sequence (min (fragIdx + 1) (2 ^ 32 - 1)) 1 fragmentSizeU16
        totalSizeU32 ((payload.drop start).take (stop - start))

/-- A DATA_FRAG packet as the blocks it is written in. -/
theorem buildSingleDataFragPacket_eq (ctx : RtpsEndpointContext) (sequence fragmentStartingNum
    fragmentsInSubmessage fragmentSize dataSize : ℕ) (fragmentData : List UInt8) :
    buildSingleDataFragPacket ctx sequence fragmentStartingNum fragmentsInSubmessage fragmentSize
        dataSize fragmentData =
      [rtpsMagic, rtpsVersion, hddsVendorId, ctx.guidPrefix.bytes, [0x16, 0x05],
        toLE 2 (32 + fragmentData.length), toLE 2 0, toLE 2 16, ctx.readerEntityId.bytes,
        ctx.writerEntityId.bytes, toLE 4 (sequence >>> 32), toLE 4 sequence,
        toLE 4 fragmentStartingNum, toLE 2 fragmentsInSubmessage, toLE 2 fragmentSize,
        toLE 4 dataSize, fragmentData].flatten := by
  simp [buildSingleDataFragPacket, HybridEncoder.buildDataFrag, encodeDataFrag, packetHeader]

theorem length_buildDataFragPackets (ctx : RtpsEndpointContext) (sequence : ℕ)
    (payload : List UInt8) (fragmentSize : ℕ) (h : defaultMaxUnfragmentedSize < payload.length) :
    (buildDataFragPackets ctx sequence payload fragmentSize).length =
      (payload.length + fragmentSize - 1) / fragmentSize := by
  simp [buildDataFragPackets, Nat.not_le.mpr h]

/-- The packet of fragment `fragIdx`: number `fragIdx + 1`, carrying the piece of the payload
at `fragIdx * fragmentSize`. -/
theorem getElem_buildDataFragPackets (ctx : RtpsEndpointContext) (sequence : ℕ)
    (payload : List UInt8) (fragmentSize fragIdx : ℕ)
    (h : fragIdx < (buildDataFragPackets ctx sequence payload fragmentSize).length) :
    (buildDataFragPackets ctx sequence payload fragmentSize)[fragIdx] =
      buildSingleDataFragPacket ctx sequence (min (fragIdx + 1) (2 ^ 32 - 1)) 1
        (min fragmentSize (2 ^ 16 - 1)) (min payload.length (2 ^ 32 - 1))
        (field payload (fragIdx * fragmentSize) fragmentSize) := by
  have hbig : ¬ payload.length ≤ defaultMaxUnfragmentedSize := by
    intro hle
    simp [buildDataFragPackets, hle] at h
  simp only [buildDataFragPackets, hbig, if_false, List.getElem_map, List.getElem_range]
  congr 1
  -- the last piece is cut at the end of the payload, which `take` does by itself
  simp only [field]
  rw [List.take_eq_take_iff, List.length_drop]
  omega

/-! ## `NackScheduler` path -/

/-- The fixed GUID prefix of `build_acknack_packet_from_ranges`. -/
def fixedGuidPrefix : GuidPrefix := ⟨[0, 0, 0, 0, 0, 0, 0, 1, 0, 0, 0, 0], rfl⟩

/-- The bitmap `build_acknack_packet_from_ranges` fills: bit `seq - baseSn` for every `seq` of
every range below `baseSn + numBits`, least significant bit first (`1 << bit_idx`). -/
def rangesBitmap (baseSn numBits : ℕ) (gapRanges : List (ℕ × ℕ)) : List ℕ :=
  gapRanges.foldl
    (fun bitmap range =>
      (List.range' range.1 (range.2 - range.1)).foldl
        (fun bitmap seq =>
          if baseSn ≤ seq ∧ seq < (baseSn + numBits) % 2 ^ 64 then Bitmap.setLsb bitmap (seq - baseSn)
          else bitmap)
        bitmap)
    (List.replicate (max ((numBits + 31) / 32) 1) 0)

/-- `build_acknack_packet_from_ranges`. `count` is the value the static `ACKNACK_COUNT` counter
hands out for this call. -/
def buildAcknackPacketFromRanges (gapRanges : List (ℕ × ℕ)) (count : ℕ) : List UInt8 :=
  if gapRanges = [] then []
  else
    let baseSn := ((gapRanges.map Prod.fst).min?).getD 1
    let maxSn := ((gapRanges.map Prod.snd).max?).getD baseSn
    let numBits := min (wrappingSub 64 maxSn baseSn % 2 ^ 32) 256
    let bitmap := rangesBitmap baseSn numBits gapRanges
    let acknack :=
      match HybridEncoder.buildAcknack entityIdSedpSubscriptionsReader
          entityIdSedpPublicationsWriter baseSn bitmap count with
      | .ok bytes => bytes
      | .error _ => []
    packetHeader rtpsVersion fixedGuidPrefix ++ acknack

/-- The single range `5..6`: bit 0 is set least-significant-first, the encoder counts one bit,
and the writer reads the most significant bit of the word, which is clear. The scheduler's
request reaches the writer as a pure acknowledgement. -/
theorem acknack_ranges_packet_reads_nothing :
    (parseAcknackSubmessage (buildAcknackPacketFromRanges [(5, 6)] 1)).map
        AckNackInfo.missingRanges = some [] ∧
    ¬Bitmap.IsRuns (fun x => 5 ≤ x ∧ x < 6) [] := by
  refine ⟨by decide, fun h => ?_⟩
  obtain ⟨r, hr, -⟩ := (h.2.2 5).mp (by omega)
  simp at hr

end Hdds.Rtps
