import Hdds.Discovery.FragmentBuffer

/-! # Routing received RTPS messages to topics

`engine/unicast_router.rs`, `engine/router.rs` and `engine/demux.rs`, with the extractors of
`protocol/builder/extract.rs` and `parse_topic_name` of `protocol/discovery/topic.rs`:
`route_raw_rtps_message` classifies a datagram once (`classify_rtps`) and hands at most one
sample, of the one kind the classifier kept, to `Topic::deliver`.

* A `Topic` is its name and its number of subscribers; `deliver` is the `Sample` it is handed.
  The subscribers' callbacks, the HEARTBEAT / ACKNACK handlers, the metrics and the logging are
  left out.
* `HDDS_ROUTE_UNKNOWN_WRITER_TO_SINGLE_TOPIC` is a flag of the registry.
* The parameter and submessage scans are loops on fuel; each turn moves the offset at least
  four bytes, so the length of the datagram is enough.
-/

namespace Hdds.Discovery

/-- `GUID::as_bytes`. -/
def Guid.asBytes (g : Guid) : List UInt8 := g.guidPrefix.bytes ++ g.entityId.bytes

end Hdds.Discovery

namespace Hdds.Engine
open Wire Hdds.Rtps Hdds.Discovery
set_option autoImplicit false

/-! ## Extractors -/

/-- `RTPS_SUBMSG_DATA`. -/
def rtpsSubmsgData : UInt8 := 0x15

/-- The magic `RTPX` of RTI's vendor extension. -/
def rtpxMagic : List UInt8 := [0x52, 0x54, 0x50, 0x58]

/-- `PID_SENTINEL`. -/
def pidSentinel : ℕ := 0x0001

/-- `PID_TOPIC_NAME`. -/
def pidTopicName : ℕ := 0x0005

/-- `CDR_LE`. -/
def cdrLe : ℕ := 0x0003

/-- `validate_rtps_data_packet`: long enough, the magic `RTPS` or `RTPX`, and a DATA as the
first submessage. -/
def validateRtpsDataPacket (buf : List UInt8) (minLen : ℕ) : Bool :=
  minLen ≤ buf.length && (field buf 0 4 == rtpsMagic || field buf 0 4 == rtpxMagic) &&
    20 < buf.length && buf.getD 20 0 == rtpsSubmsgData

/-- The parameter scan of `extract_inline_qos` from `offset`: the parameters up to the
sentinel, or all the rest when the datagram ends first. -/
def inlineQosScan (buf : List UInt8) (qosOffset : ℕ) : ℕ → ℕ → Option (List UInt8)
  | 0, _ => none
  | fuel + 1, offset =>
    if offset + 4 > buf.length then some (buf.drop qosOffset)
    else
      let pid := ofLE (field buf offset 2)
      let len := ofLE (field buf (offset + 2) 2)
      if pid = pidSentinel then some (field buf qosOffset (offset + 4 - qosOffset))
      -- `(offset + 3) & !3`
      else inlineQosScan buf qosOffset fuel ((offset + 4 + len + 3) / 4 * 4)

/-- `extract_inline_qos`: the inline QoS of a DATA that is the first submessage. -/
def extractInlineQos (buf : List UInt8) : Option (List UInt8) :=
  if !validateRtpsDataPacket buf 44 then none
  else if buf.getD 21 0 &&& 0x02 = 0 then none
  else
    let qosOffset := 28 + ofLE (field buf 26 2)
    if qosOffset ≥ buf.length then none
    else inlineQosScan buf qosOffset buf.length qosOffset

/-- The parameter scan of `parse_topic_name` from `offset`. -/
def topicNameScan (buf : List UInt8) : ℕ → ℕ → Option String
  | 0, _ => none
  | fuel + 1, offset =>
    if offset + 4 > buf.length then none
    else
      let pid := ofLE (field buf offset 2)
      let length := ofLE (field buf (offset + 2) 2)
      let offset := offset + 4
      if pid = pidSentinel then none
      else if offset + length > buf.length then none
      else
        -- a topic name that is not UTF-8 is skipped like any other parameter
        let name :=
          if pid = pidTopicName ∧ length ≥ 4 then
            let strLen := ofLE (field buf offset 4)
            if offset + 4 + strLen ≤ buf.length ∧ strLen > 0 then
              String.fromUTF8? (ByteArray.mk (field buf (offset + 4) (strLen - 1)).toArray)
            else none
          else none
        match name with
        | some name => some name
        | none => topicNameScan buf fuel (offset + (length + 3) / 4 * 4)

/-- `parse_topic_name`: a `CDR_LE` parameter list with a `PID_TOPIC_NAME` before the
sentinel. -/
def parseTopicName (buf : List UInt8) : Option String :=
  if buf.length < 12 then none
  else if ofBE (field buf 0 2) ≠ cdrLe then none
  else topicNameScan buf buf.length 4

/-- `extract_sequence_number`: the writer sequence number of a DATA that is the first
submessage, high word at 36 and low word at 40, little-endian. -/
def extractSequenceNumber (buf : List UInt8) : Option ℕ :=
  if !validateRtpsDataPacket buf 44 then none
  else some (ofLE (field buf 36 4) <<< 32 ||| ofLE (field buf 40 4))

/-- The submessage scan of `extract_writer_guid` from `offset`: the writer entity id of the
first DATA, after the 12-byte `guidPrefix`. -/
def writerGuidScan (buf guidPrefix : List UInt8) : ℕ → ℕ → Option (List UInt8)
  | 0, _ => none
  | fuel + 1, offset =>
    if offset + 4 ≤ buf.length then
      let octetsToNext := ofLE (field buf (offset + 2) 2)
      if buf.getD offset 0 = rtpsSubmsgData then
        let writerEntityIdOffset := offset + 4 + 8
        if writerEntityIdOffset + 4 > buf.length then none
        else some (guidPrefix ++ field buf writerEntityIdOffset 4)
      else if octetsToNext = 0 then none
      else writerGuidScan buf guidPrefix fuel (offset + 4 + octetsToNext)
    else none

/-- `extract_writer_guid`. -/
def extractWriterGuid (buf : List UInt8) : Option (List UInt8) :=
  if buf.length < 20 then none
  else if field buf 0 4 ≠ rtpsMagic ∧ field buf 0 4 ≠ rtpxMagic then none
  else writerGuidScan buf (field buf 8 12) buf.length 20

/-- The parameter scan of `extract_data_payload` from `offset`: the offset after the
sentinel. -/
def dataPayloadScan (buf : List UInt8) : ℕ → ℕ → Option ℕ
  | 0, _ => none
  | fuel + 1, offset =>
    if offset + 4 > buf.length then none
    else
      let pid := ofLE (field buf offset 2)
      let len := ofLE (field buf (offset + 2) 2)
      if pid = pidSentinel then some (offset + 4)
      else dataPayloadScan buf fuel ((offset + 4 + len + 3) / 4 * 4)

/-- `extract_data_payload`: everything after the parameter list of a DATA that is the first
submessage. -/
def extractDataPayload (buf : List UInt8) : Option (List UInt8) :=
  if !validateRtpsDataPacket buf 40 then none
  else
    let qosOffset := 24 + ofLE (field buf 22 2)
    if buf.length < qosOffset + 4 then none
    else
      match dataPayloadScan buf buf.length (qosOffset + 4) with
      | none => none
      | some offset => if offset ≥ buf.length then none else some (buf.drop offset)

/-! ## Encapsulation headers -/

/-- The XCDR1 encapsulation kinds. -/
def isXcdr1 (enc : ℕ) : Bool := enc == 0x0001 || enc == 0x0003 || enc == 0x8001 || enc == 0x8003

/-- The XCDR2 encapsulation kinds, not delimited. -/
def isXcdr2 (enc : ℕ) : Bool := enc == 0x0006 || enc == 0x0007

/-- The delimited XCDR2 encapsulation kinds, whose header is followed by a DHEADER. -/
def isDCdr2 (enc : ℕ) : Bool := enc == 0x0008 || enc == 0x0009

/-- Where `route_data_packet` starts the sample of a DATA whose serialized payload is at
`offset`: past an encapsulation header it knows, and past the DHEADER when there is room. -/
def sampleStart (buf : List UInt8) (offset : ℕ) : ℕ :=
  if offset + 4 ≤ buf.length then
    let enc := ofBE (field buf offset 2)
    let padding := ofBE (field buf (offset + 2) 2)
    if (isXcdr1 enc || isXcdr2 enc) && padding == 0 then offset + 4
    else if isDCdr2 enc && padding == 0 then
      if offset + 8 ≤ buf.length then offset + 8 else offset + 4
    else offset
  else offset

/-- What `route_reassembled_data` delivers of a reassembled payload: a short delimited XCDR2
payload keeps its header, where `route_data_packet` drops four bytes of it. -/
def stripEncapsulation (payload : List UInt8) : List UInt8 :=
  if payload.length ≥ 4 then
    let enc := ofBE (field payload 0 2)
    let padding := ofBE (field payload 2 2)
    if (isXcdr1 enc || isXcdr2 enc) && padding == 0 then payload.drop 4
    else if isDCdr2 enc && padding == 0 && decide (payload.length ≥ 8) then payload.drop 8
    else payload
  else payload

/-! ## The topic registry -/

/-- What `Topic::deliver` is handed. -/
structure Sample where
  topic : String
  seq : ℕ
  data : List UInt8
deriving DecidableEq, Repr

/-- `TopicRegistry`: the subscriber count of each topic, the writer GUIDs announced by SEDP,
and whether `HDDS_ROUTE_UNKNOWN_WRITER_TO_SINGLE_TOPIC` is set. -/
structure TopicRegistry where
  topics : AList (fun _ : String => ℕ)
  writerGuidToTopic : AList (fun _ : List UInt8 => String)
  routeUnknownWriterToSingleTopic : Bool

namespace TopicRegistry

/-- `register_writer_guid`. -/
def registerWriterGuid (reg : TopicRegistry) (guid : List UInt8) (topicName : String) :
    TopicRegistry :=
  { reg with writerGuidToTopic := reg.writerGuidToTopic.insert guid topicName }

/-- `get_topic_by_guid`. -/
def getTopicByGuid (reg : TopicRegistry) (guid : List UInt8) : Option String :=
  reg.writerGuidToTopic.lookup guid

/-- `fallback_map_unknown_writer_to_single_topic`: with the flag set and exactly one topic
with subscribers, the writer is bound to that topic. -/
def fallbackMapUnknownWriterToSingleTopic (reg : TopicRegistry) (guid : List UInt8) :
    TopicRegistry × Option String :=
  if !reg.routeUnknownWriterToSingleTopic then (reg, none)
  else
    match reg.topics.entries.filter (fun topic => topic.2 > 0) with
    | [topic] => (reg.registerWriterGuid guid topic.1, some topic.1)
    | _ => (reg, none)

/-- The topic of a writer: announced, or bound by the fallback. -/
def topicOfWriter (reg : TopicRegistry) (guid : List UInt8) : TopicRegistry × Option String :=
  match reg.getTopicByGuid guid with
  | some name => (reg, some name)
  | none => reg.fallbackMapUnknownWriterToSingleTopic guid

end TopicRegistry

/-! ## Routing -/

/-- `RouteStatus`. -/
inductive RouteStatus
  | Delivered | Orphaned | Dropped
deriving DecidableEq, Repr

/-- The topic `route_data_packet` routes a DATA to: the topic name of its inline QoS, else
the topic of its writer. -/
def resolveTopic (reg : TopicRegistry) (payload : List UInt8) : TopicRegistry × Option String :=
  match (extractInlineQos payload).bind parseTopicName with
  | some name => (reg, some name)
  | none =>
    match extractWriterGuid payload with
    | none => (reg, none)
    | some guid => reg.topicOfWriter guid

/-- `route_data_packet`: the sequence number is 0 when it cannot be read; the sample runs from
the payload offset to the end of the datagram. -/
def routeDataPacket (reg : TopicRegistry) (payload : List UInt8) (payloadOffset : Option ℕ) :
    TopicRegistry × RouteStatus × Option Sample :=
  match resolveTopic reg payload with
  | (reg, none) => (reg, .Dropped, none)
  | (reg, some topicName) =>
    match reg.topics.lookup topicName with
    | none => (reg, .Orphaned, none)
    | some _ =>
      let seq := (extractSequenceNumber payload).getD 0
      match payloadOffset with
      | some offset =>
        if offset ≥ payload.length then (reg, .Dropped, none)
        else
          let start := sampleStart payload offset
          if start ≥ payload.length then (reg, .Dropped, none)
          else (reg, .Delivered, some ⟨topicName, seq, payload.drop start⟩)
      | none =>
        match extractDataPayload payload with
        | some data => (reg, .Delivered, some ⟨topicName, seq, data⟩)
        | none => (reg, .Dropped, none)

/-- `route_reassembled_data`. -/
def routeReassembledData (reg : TopicRegistry) (writerGuid : Guid) (seq : ℕ) (payload : List UInt8) :
    TopicRegistry × RouteStatus × Option Sample :=
  match reg.topicOfWriter writerGuid.asBytes with
  | (reg, none) => (reg, .Dropped, none)
  | (reg, some topicName) =>
    match reg.topics.lookup topicName with
    | none => (reg, .Orphaned, none)
    | some _ => (reg, .Delivered, some ⟨topicName, seq, stripEncapsulation payload⟩)

/-- `route_data_frag_packet` at time `now`: the fragment is the datagram from the payload
offset on; a completed sample is routed as reassembled data. -/
def routeDataFragPacket (reg : TopicRegistry) (fb : FragmentBuffer) (now : ℕ) (payload : List UInt8)
    (payloadOffset : Option ℕ) (fragMeta : Option FragmentMetadata) :
    TopicRegistry × FragmentBuffer × RouteStatus × Option Sample :=
  match fragMeta with
  | none => (reg, fb, .Dropped, none)
  | some frag =>
    let fragData : Option (List UInt8) :=
      match payloadOffset with
      | some offset => if offset ≥ payload.length then none else some (payload.drop offset)
      | none => extractDataPayload payload
    match fragData with
    | none => (reg, fb, .Dropped, none)
    | some fragData =>
      let inserted := fb.insertFragment now frag.writerGuid frag.seqNum frag.fragNum frag.totalFrags fragData
      match inserted.2 with
      | some reassembled =>
        let routed := routeReassembledData reg frag.writerGuid frag.seqNum reassembled
        (routed.1, inserted.1, routed.2)
      | none => (reg, inserted.1, .Delivered, none)

/-- `UnicastRouteOutcome`. -/
inductive UnicastRouteOutcome
  | Delivered | Orphaned | Dropped | Ignored
deriving DecidableEq, Repr

/-- The outcome of a routed DATA or DATA_FRAG. -/
def RouteStatus.outcome : RouteStatus → UnicastRouteOutcome
  | .Delivered => .Delivered
  | .Orphaned => .Orphaned
  | .Dropped => .Dropped

/-- `route_raw_rtps_message` at time `now`, with the fragment buffer if one is configured. -/
def routeRawRtpsMessage (reg : TopicRegistry) (fb : Option FragmentBuffer) (now : ℕ) (payload : List UInt8) :
    TopicRegistry × Option FragmentBuffer × UnicastRouteOutcome × Option Sample :=
  let classified := classifyRtps payload
  match classified.1 with
  | .Data =>
    let routed := routeDataPacket reg payload classified.2.1
    (routed.1, fb, routed.2.1.outcome, routed.2.2)
  | .DataFrag =>
    match fb with
    | none => (reg, none, .Dropped, none)
    | some fb =>
      let routed := routeDataFragPacket reg fb now payload classified.2.1 classified.2.2.1
      (routed.1, some routed.2.1, routed.2.2.1.outcome, routed.2.2.2)
  -- the registered handlers see the whole datagram
  | .Heartbeat | .AckNack => (reg, fb, .Delivered, none)
  | .NackFrag | .HeartbeatFrag | .SPDP | .SEDP | .TypeLookup
  | .InfoTs | .InfoSrc | .InfoDst | .InfoReply => (reg, fb, .Ignored, none)
  | _ => (reg, fb, .Dropped, none)


/-! ## What a routed DATA delivers -/

/-- A datagram of a DATA followed by a HEARTBEAT: the sample handed to the topic is the
DATA's payload with the HEARTBEAT after it. A datagram of two DATA: one sample, the payload of
the second with the sequence number of the first. -/
theorem routed_sample_overruns_its_submessage :
    (let header : List UInt8 :=
      [0x52, 0x54, 0x50, 0x53, 2, 4, 0x01, 0xAA, 1, 2, 3, 4, 5, 6, 7, 8, 9, 10, 11, 12]
    -- little-endian, no inline QoS, writer entity id `00 00 01 02`, CDR_LE payload
    let data (sn : UInt8) (sample : List UInt8) : List UInt8 :=
      [0x15, 0x05, 28, 0, 0, 0, 16, 0, 0, 0, 0, 0, 0, 0, 1, 2, 0, 0, 0, 0, sn, 0, 0, 0, 0, 1, 0, 0] ++ sample
    let heartbeat : List UInt8 :=
      [0x07, 0x01, 28, 0, 0, 0, 0, 0, 0, 0, 1, 2, 0, 0, 0, 0, 1, 0, 0, 0, 0, 0, 0, 0, 1, 0, 0, 0,
        1, 0, 0, 0]
    let reg : TopicRegistry :=
      ⟨(∅ : AList (fun _ : String => ℕ)).insert "t" 1,
        (∅ : AList (fun _ : List UInt8 => String)).insert
          [1, 2, 3, 4, 5, 6, 7, 8, 9, 10, 11, 12, 0, 0, 1, 2] "t", false⟩
    (routeRawRtpsMessage reg none 0 (header ++ data 1 [0x42, 0x43, 0x44, 0x45] ++ heartbeat)).2.2 =
        (.Delivered, some ⟨"t", 1, [0x42, 0x43, 0x44, 0x45] ++ heartbeat⟩) ∧
      (routeRawRtpsMessage reg none 0
          (header ++ data 1 [0x42, 0x43, 0x44, 0x45] ++ data 2 [0x46, 0x47, 0x48, 0x49])).2.2 =
        (.Delivered, some ⟨"t", 1, [0x46, 0x47, 0x48, 0x49]⟩)) := by
  intro header data heartbeat reg
  exact ⟨by decide +kernel, by decide +kernel⟩

end Hdds.Engine
