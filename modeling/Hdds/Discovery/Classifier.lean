import Mathlib
import Hdds.Rtps.Encoder

/-! # The RTPS packet classifier

`core/discovery/multicast/classifier`: `classify_rtps` checks the header, walks the
submessages of a datagram and keeps one kind, one payload offset, the metadata of the last
DATA_FRAG and the INFO_DST / INFO_TS context met on the way. Every receive path starts here.

* The walk is `scanSubmessages`, one `scanStep` per submessage. It is given the packet length
  as fuel; each step that goes on moves the offset forward (`scanStep_offset_lt`), so the fuel
  never runs out first (`scanSubmessages_fuel`).
* `calculatePayloadOffset` (its parameter scan) and the recovery after an overlong
  `octetsToNextHeader` are loops of their own, on fuel as well.
* The vendor-specific classifiers (`classify_rti_proprietary`, ...) only log and return
  `Unknown`; logging is left out everywhere.
-/

namespace Hdds.Discovery
open Wire Hdds.Rtps
set_option autoImplicit false

/-- `PacketKind`. -/
inductive PacketKind
  | Data | Heartbeat | AckNack | DataFrag | Gap | NackFrag | HeartbeatFrag | InfoTs | InfoSrc
  | InfoDst | InfoReply | Pad | SPDP | SEDP | TypeLookup | Invalid | Unknown
deriving DecidableEq, Repr

namespace PacketKind

/-- `Data | TypeLookup`. -/
def isDataOrTypeLookup : PacketKind → Bool
  | .Data | .TypeLookup => true
  | _ => false

/-- `SEDP | SPDP`. -/
def isDiscovery : PacketKind → Bool
  | .SEDP | .SPDP => true
  | _ => false

/-- `Data | DataFrag | SEDP | SPDP | TypeLookup`: the kinds whose payload offset is recorded. -/
def carriesPayload : PacketKind → Bool
  | .Data | .DataFrag | .SEDP | .SPDP | .TypeLookup => true
  | _ => false

/-- `InfoDst | InfoTs | InfoSrc | InfoReply`: context, never the kind of a packet. -/
def isInfo : PacketKind → Bool
  | .InfoDst | .InfoTs | .InfoSrc | .InfoReply => true
  | _ => false

end PacketKind

/-- `GUID`. -/
structure Guid where
  guidPrefix : GuidPrefix
  entityId : EntityId
deriving DecidableEq, Repr

/-- `FragmentMetadata`. -/
structure FragmentMetadata where
  writerGuid : Guid
  seqNum : ℕ
  fragNum : ℕ
  totalFrags : ℕ
deriving DecidableEq, Repr

/-- `RtpsContext`: the destination of INFO_DST and the `(seconds, fraction)` of INFO_TS. -/
structure RtpsContext where
  destinationGuidPrefix : Option GuidPrefix
  sourceTimestamp : Option (ℤ × ℕ)
deriving DecidableEq, Repr

/-- `RtpsContext::default()`. -/
def RtpsContext.empty : RtpsContext := ⟨none, none⟩

/-- `CLASSIFIER_SCAN_WINDOW`. -/
def classifierScanWindow : ℕ := 256

/-- A field of a submessage in the byte order its `E` flag (bit 0) selects. -/
def readField (buf : List UInt8) (flags : UInt8) (off w : ℕ) : ℕ :=
  ofEndian (flags &&& 0x01 != 0) (field buf off w)

/-! ## Submessage classifiers (`classifier/submessage`) -/

/-- `classify_data`: builtin writers are discovery traffic, any other writer user data. -/
def classifyData (buf : List UInt8) (offset : ℕ) : PacketKind :=
  if offset + 4 + 8 + 4 ≤ buf.length then
    let writerEntityId := field buf (offset + 4 + 8) 4
    if writerEntityId = entityIdSpdpWriter.bytes then .SPDP
    else if writerEntityId = entityIdSedpPublicationsWriter.bytes then .SEDP
    else if writerEntityId = entityIdSedpSubscriptionsWriter.bytes then .SEDP
    else if writerEntityId = entityIdTypelookupWriter.bytes then .TypeLookup
    else .Data
  else .Data

/-- `classify_data_frag`: the kind, whether the fragment is usable, and the new value of the
`fragment_metadata` out-parameter (left as it was when the submessage is too short). -/
def classifyDataFrag (buf : List UInt8) (offset : ℕ) (flags : UInt8) (guidPrefix : GuidPrefix)
    (fragmentMetadata : Option FragmentMetadata) : PacketKind × Bool × Option FragmentMetadata :=
  if offset + 4 + 8 + 4 ≤ buf.length then
    let w := field buf (offset + 4 + 8) 4
    let kind : PacketKind :=
      if w = entityIdSpdpWriter.bytes then .SPDP
      else if w = entityIdSedpPublicationsWriter.bytes then .SEDP
      else if w = entityIdSedpSubscriptionsWriter.bytes then .SEDP
      else .DataFrag
    if offset + 36 ≤ buf.length then
      let isLe := flags &&& 0x01 != 0
      let seqHigh := readField buf flags (offset + 16) 4
      let seqLow := readField buf flags (offset + 20) 4
      let fragStartingNum := readField buf flags (offset + 24) 4
      let fragsInSubmessage := readField buf flags (offset + 28) 2
      let fragSize := readField buf flags (offset + 30) 2
      let dataSize := readField buf flags (offset + 32) 4
      -- `div_ceil`, then `as u16`
      let totalFrags :=
        if fragSize > 0 then (dataSize + fragSize - 1) / fragSize % 2 ^ 16 else fragsInSubmessage
      let writerEntityId := readField buf flags (offset + 12) 4
      let entityIdBytes : EntityId :=
        if isLe then ⟨toLE 4 writerEntityId, length_toLE 4 _⟩
        else ⟨toBE 4 writerEntityId, length_toBE 4 _⟩
      let seqNum := seqHigh <<< 32 ||| seqLow
      (kind, true, some ⟨⟨guidPrefix, entityIdBytes⟩, seqNum, fragStartingNum, totalFrags⟩)
    else (kind, false, fragmentMetadata)
  else (.DataFrag, false, fragmentMetadata)

/-- `classify_info_ts`: the timestamp, `seconds` read as an `i32`. -/
def classifyInfoTs (buf : List UInt8) (offset : ℕ) (flags : UInt8) (ctx : RtpsContext) :
    PacketKind × RtpsContext :=
  if offset + 4 + 8 ≤ buf.length then
    let timestampSeconds := Int.bmod (readField buf flags (offset + 4) 4) (2 ^ 32)
    let timestampFraction := readField buf flags (offset + 8) 4
    (.InfoTs, { ctx with sourceTimestamp := some (timestampSeconds, timestampFraction) })
  else (.InfoTs, ctx)

theorem length_destPrefix {buf : List UInt8} {offset : ℕ} (h : offset + 4 + 12 ≤ buf.length) :
    (field buf (offset + 4) 12).length = 12 := by
  simp only [field, List.length_take, List.length_drop]
  omega

/-- `classify_info_dst`. -/
def classifyInfoDst (buf : List UInt8) (offset : ℕ) (ctx : RtpsContext) :
    PacketKind × RtpsContext :=
  if h : offset + 4 + 12 ≤ buf.length then
    let destPrefix : GuidPrefix := ⟨field buf (offset + 4) 12, length_destPrefix h⟩
    (.InfoDst, { ctx with destinationGuidPrefix := some destPrefix })
  else (.InfoDst, ctx)

/-- The sentinel parameter ids `calculate_payload_offset` accepts. -/
def isPidSentinel (pid : ℕ) : Bool :=
  pid == 0x0001 || pid == 0x3F01 || pid == 0x3F02 || pid == 0x3F03 || pid == 0x3F41

/-- The parameter scan of `calculate_payload_offset` from `p`: the offset just after the first
sentinel, or `none` when the scan stops without one. -/
def scanParameters (buf : List UInt8) (flags : UInt8) (scanLimit : ℕ) : ℕ → ℕ → Option ℕ
  | 0, _ => none
  | fuel + 1, p =>
    if p + 4 ≤ scanLimit then
      let pid := readField buf flags p 2
      let len := readField buf flags (p + 2) 2
      if isPidSentinel pid then some (p + 4)
      else if p + 4 + len > buf.length then none
      -- `(len + 3) & !3`
      else scanParameters buf flags scanLimit fuel (p + 4 + (len + 3) / 4 * 4)
    else none

/-- `calculate_payload_offset`: where the serialized payload of the submessage at `offset`
starts. A DATA_FRAG's is at the fixed `offset + 36`. -/
def calculatePayloadOffset (buf : List UInt8) (offset : ℕ) (flags : UInt8) (kind : PacketKind) :
    ℕ :=
  if offset + 8 ≤ buf.length then
    let octetsToInlineQos := readField buf flags (offset + 6) 2
    let hasInlineQos := flags &&& 0x02 != 0
    if kind = .DataFrag then offset + 36
    else if octetsToInlineQos > 0 ∧ hasInlineQos = true then
      let p := offset + 8 + octetsToInlineQos
      let scanLimit := min (p + classifierScanWindow) buf.length
      (scanParameters buf flags scanLimit scanLimit p).getD (offset + 24)
    else offset + 24
  else offset + 24

/-! ## The walk over the submessages -/

/-- The header fields `classify_rtps` keeps. -/
structure RtpsHeader where
  vendorId : ℕ
  guidPrefix : GuidPrefix
deriving DecidableEq, Repr

theorem length_headerPrefix {buf : List UInt8} (h : 24 ≤ buf.length) :
    (field buf 8 12).length = 12 := by
  simp only [field, List.length_take, List.length_drop]
  omega

/-- `validate_and_extract_header`: at least 24 bytes and the magic `RTPS` or `RTPX`. -/
def validateAndExtractHeader (buf : List UInt8) : Option RtpsHeader :=
  if h : 24 ≤ buf.length then
    if field buf 0 4 ≠ rtpsMagic ∧ field buf 0 4 ≠ [0x52, 0x54, 0x50, 0x58] then none
    else some ⟨ofBE (field buf 6 2), ⟨field buf 8 12, length_headerPrefix h⟩⟩
  else none

/-- The variables of the loop of `classify_rtps`. -/
structure ScanState where
  offset : ℕ
  foundKind : PacketKind
  dataPayloadOffset : Option ℕ
  fragmentMetadata : Option FragmentMetadata
  rtpsContext : RtpsContext
deriving DecidableEq, Repr

/-- Step 3: the kind of the submessage with id `submessageId` at `offset`, with what its
classifier writes to the metadata and the context. -/
def classifySubmessage (buf : List UInt8) (guidPrefix : GuidPrefix) (offset : ℕ)
    (flags submessageId : UInt8) (st : ScanState) : PacketKind × ScanState :=
  match submessageId.toNat with
  | 0x01 => (.Pad, st)
  | 0x06 => (.AckNack, st)
  | 0x07 => (.Heartbeat, st)
  | 0x08 => (.Gap, st)
  | 0x09 =>
    let r := classifyInfoTs buf offset flags st.rtpsContext
    (r.1, { st with rtpsContext := r.2 })
  | 0x12 => (.NackFrag, st)
  | 0x13 => (.HeartbeatFrag, st)
  | 0x0c => (.InfoSrc, st)
  | 0x0d => (.InfoReply, st)
  | 0x0e =>
    let r := classifyInfoDst buf offset st.rtpsContext
    (r.1, { st with rtpsContext := r.2 })
  | 0x0f => (.InfoReply, st)
  | 0x15 => (classifyData buf offset, st)
  | 0x16 =>
    let r := classifyDataFrag buf offset flags guidPrefix st.fragmentMetadata
    (r.1, { st with fragmentMetadata := r.2.2 })
  -- RTI and eProsima proprietary ids, and every other id
  | _ => (.Unknown, st)

/-- Steps 4 and 5: whether the submessage becomes the packet's kind and where its payload
starts; the flag is `true` when the walk stops at this submessage. -/
def recordSubmessage (buf : List UInt8) (vendorId offset : ℕ) (flags : UInt8)
    (octetsToNext : ℕ) (kind : PacketKind) (st : ScanState) : ScanState × Bool :=
  let isValidDiscoveryPacket :=
    if kind.isDataOrTypeLookup then decide (octetsToNext ≥ 16) || octetsToNext == 0
    else if kind == .DataFrag then st.fragmentMetadata.isSome
    else true
  if kind.carriesPayload && isValidDiscoveryPacket then
    -- RTI and HDDS prefer DATA_FRAG or a large DATA, other vendors DATA
    let shouldUpdate :=
      if vendorId = 0x0101 ∨ vendorId = 0x01AA then
        kind == .DataFrag || (kind == .Data && decide (octetsToNext > 100))
      else kind.isDataOrTypeLookup || !st.foundKind.isDataOrTypeLookup
    let foundKind :=
      if kind.isDiscovery then kind
      else if shouldUpdate || st.foundKind == .Unknown then kind
      else st.foundKind
    let st := { st with foundKind }
    if foundKind.carriesPayload && (kind == foundKind || kind.isDiscovery) then
      let st := { st with dataPayloadOffset := some (calculatePayloadOffset buf offset flags kind) }
      (st, kind.carriesPayload && kind != .DataFrag && decide (octetsToNext > 100))
    else (st, false)
  else if st.foundKind == .Unknown && kind != .Unknown then
    (if kind.isInfo then st else { st with foundKind := kind }, false)
  else (st, false)

/-- The recovery scan after an `octetsToNextHeader` that overruns the buffer: the first
4-aligned offset from `scanOffset` that looks like a submessage header. -/
def recoverScan (buf : List UInt8) (scanLimit : ℕ) : ℕ → ℕ → Option ℕ
  | 0, _ => none
  | fuel + 1, scanOffset =>
    if scanOffset + 4 ≤ scanLimit then
      let scanOffset := (scanOffset + 3) / 4 * 4
      if scanOffset + 4 > buf.length then none
      else
        let potentialId := buf.getD scanOffset 0
        let potentialFlags := buf.getD (scanOffset + 1) 0
        if (potentialId ≤ 0x15 ∨ potentialId ≥ 0x80) ∧ potentialFlags < 0x20 then
          let testOctets := readField buf potentialFlags (scanOffset + 2) 2
          if scanOffset + 4 + testOctets ≤ buf.length ∨ testOctets = 0 then some scanOffset
          else recoverScan buf scanLimit fuel (scanOffset + 4)
        else recoverScan buf scanLimit fuel (scanOffset + 4)
    else none

/-- One iteration of the loop of `classify_rtps` at `st.offset`; the flag is `true` when the
loop goes on. -/
def scanStep (buf : List UInt8) (vendorId : ℕ) (guidPrefix : GuidPrefix) (st : ScanState) :
    ScanState × Bool :=
  let offset := st.offset
  let submessageId := buf.getD offset 0
  let flags := buf.getD (offset + 1) 0
  let octetsToNext := readField buf flags (offset + 2) 2
  let classified := classifySubmessage buf guidPrefix offset flags submessageId st
  let recorded := recordSubmessage buf vendorId offset flags octetsToNext classified.1 classified.2
  let st := recorded.1
  if recorded.2 || octetsToNext == 0 then (st, false)
  else
    let nextOffset := offset + 4 + octetsToNext
    if nextOffset > buf.length then
      let scanOffset := offset + 4
      match recoverScan buf (min (scanOffset + classifierScanWindow) buf.length) buf.length
          scanOffset with
      | some recovered => ({ st with offset := recovered }, true)
      | none => (st, false)
    -- align to 4 bytes
    else ({ st with offset := (nextOffset + 3) / 4 * 4 }, true)

/-- The loop of `classify_rtps`: `while offset + 4 <= buf.len()`. -/
def scanSubmessages (buf : List UInt8) (vendorId : ℕ) (guidPrefix : GuidPrefix) :
    ℕ → ScanState → ScanState
  | 0, st => st
  | fuel + 1, st =>
    if st.offset + 4 ≤ buf.length then
      let stepped := scanStep buf vendorId guidPrefix st
      if stepped.2 then scanSubmessages buf vendorId guidPrefix fuel stepped.1 else stepped.1
    else st

/-! ## The walk ends on its own -/

theorem recoverScan_ge {buf : List UInt8} {scanLimit fuel scanOffset recovered : ℕ}
    (h : recoverScan buf scanLimit fuel scanOffset = some recovered) : scanOffset ≤ recovered := by
  induction fuel generalizing scanOffset with
  | zero => simp [recoverScan] at h
  | succ fuel ih =>
    have halign : scanOffset ≤ (scanOffset + 3) / 4 * 4 := by omega
    simp only [recoverScan] at h
    split_ifs at h
    · cases h
      exact halign
    · have := ih h
      omega
    · have := ih h
      omega

/-- A step that goes on moves past the submessage header it read. -/
theorem scanStep_offset_lt (buf : List UInt8) (vendorId : ℕ) (guidPrefix : GuidPrefix)
    (st : ScanState) (h : (scanStep buf vendorId guidPrefix st).2 = true) :
    st.offset < (scanStep buf vendorId guidPrefix st).1.offset := by
  unfold scanStep at h ⊢
  simp only at h ⊢
  split
  · rename_i hstop
    rw [if_pos hstop] at h
    cases h
  · rename_i hgo
    rw [if_neg hgo] at h
    split
    · rename_i hover
      rw [if_pos hover] at h
      split
      · rename_i recovered hrec
        have := recoverScan_ge hrec
        simp only
        omega
      · rename_i hrec
        rw [hrec] at h
        cases h
    · simp only [Bool.or_eq_true, beq_iff_eq, not_or] at hgo
      simp only
      omega

/-- Fuel of at least the distance to the end of the buffer is enough: any more changes
nothing. -/
theorem scanSubmessages_fuel (buf : List UInt8) (vendorId : ℕ) (guidPrefix : GuidPrefix)
    {fuel fuel' : ℕ} {st : ScanState} (h : buf.length ≤ st.offset + fuel)
    (h' : buf.length ≤ st.offset + fuel') :
    scanSubmessages buf vendorId guidPrefix fuel st =
      scanSubmessages buf vendorId guidPrefix fuel' st := by
  induction fuel generalizing st fuel' with
  | zero =>
    cases fuel' with
    | zero => rfl
    | succ fuel' =>
      have hend : ¬ st.offset + 4 ≤ buf.length := by omega
      simp [scanSubmessages, hend]
  | succ fuel ih =>
    cases fuel' with
    | zero =>
      have hend : ¬ st.offset + 4 ≤ buf.length := by omega
      simp [scanSubmessages, hend]
    | succ fuel' =>
      simp only [scanSubmessages]
      split
      · split
        · rename_i hgo
          have hlt := scanStep_offset_lt buf vendorId guidPrefix st hgo
          exact ih (by omega) (by omega)
        · rfl
      · rfl

/-- `classify_rtps`. -/
def classifyRtps (buf : List UInt8) :
    PacketKind × Option ℕ × Option FragmentMetadata × RtpsContext :=
  match validateAndExtractHeader buf with
  | none => (.Invalid, none, none, RtpsContext.empty)
  | some header =>
    let st := scanSubmessages buf header.vendorId header.guidPrefix buf.length
      ⟨20, .Unknown, none, none, RtpsContext.empty⟩
    (st.foundKind, st.dataPayloadOffset, st.fragmentMetadata, st.rtpsContext)

end Hdds.Discovery
