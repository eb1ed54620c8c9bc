import Hdds.Rtps.Builder
import Hdds.Reliability.Messages

/-! # HEARTBEAT packets read back by both decoders

`build_heartbeat_packet_with_context` (`protocol/builder/packet.rs`) against the two HEARTBEAT
decoders of the crate: `HeartbeatMsg::decode_from_packet` (`reliability/messages.rs`) and
`parse_heartbeat_submessage` (`core/discovery/multicast/control_parser.rs`), also with INFO_TS
and INFO_DST submessages between the RTPS header and the HEARTBEAT.

* Each decoder walks the submessages from offset 20 with a loop of its own:
  `HeartbeatMsg.findHeartbeat` reads every length little-endian and pads it to four bytes,
  `findSubmessage` reads it in the submessage's byte order and ends the walk at a length of
  zero. Stepping over one submessage is one lemma per loop (`findHeartbeat_skip`,
  `findSubmessage_skip`); stepping over a run of them is `InfoSubmessage.walk_infos`.
* `InfoSubmessage` is an INFO submessage as `encode_info_ts` and `encode_info_dst` write it:
  little-endian, with a body of 8 or 12 bytes.
-/

namespace Hdds.Rtps
open Wire Hdds.Discovery Hdds.Reliability
set_option autoImplicit false

/-- A submessage written little-endian: id, flags `0x01`, `octetsToNextHeader` and the body. -/
def leSubmessage (id : UInt8) (body : List UInt8) : List UInt8 :=
  [id, 0x01] ++ toLE 2 body.length ++ body

@[simp] theorem length_leSubmessage (id : UInt8) (body : List UInt8) :
    (leSubmessage id body).length = body.length + 4 := by
  simp [leSubmessage]

theorem readField_leSubmessage (pre rest : List UInt8) (id : UInt8) (body : List UInt8) :
    let packet := pre ++ leSubmessage id body ++ rest
    packet.getD pre.length 0 = id ∧ packet.getD (pre.length + 1) 0 = 0x01 ∧
      field packet (pre.length + 2) 2 = toLE 2 body.length ∧
      pre.length + 4 ≤ packet.length := by
  refine ⟨?_, ?_, ?_, ?_⟩
  · simp [leSubmessage, List.getD_eq_getElem?_getD]
  · simp [leSubmessage, List.getD_eq_getElem?_getD]
  · rw [field_append_middle _ _ _ (by simp [leSubmessage])]
    simp [leSubmessage, field, -toLE_succ]
  · simp [leSubmessage]


/-- `decode_from_packet`'s walk steps over a little-endian submessage other than a HEARTBEAT
whose length is a multiple of four. -/
theorem findHeartbeat_skip (pre rest : List UInt8) (id : UInt8) (body : List UInt8)
    (hid : id ≠ 0x07) (hmod : body.length % 4 = 0) (hlen : body.length < 2 ^ 16)
    (guidPrefix : GuidPrefix) (fuel : ℕ) :
    HeartbeatMsg.findHeartbeat (pre ++ leSubmessage id body ++ rest) guidPrefix (fuel + 1)
        pre.length =
      HeartbeatMsg.findHeartbeat (pre ++ leSubmessage id body ++ rest) guidPrefix fuel
        (pre.length + 4 + body.length) := by
  obtain ⟨hid', hflags, hoctets, hroom⟩ := readField_leSubmessage pre rest id body
  rw [HeartbeatMsg.findHeartbeat, if_pos hroom]
  simp only [hid', hflags, hoctets, ofLE_toLE_of_lt (show body.length < 256 ^ 2 by omega), hid,
    if_false]
  rw [if_neg (by omega)]

/-- `parse_heartbeat_submessage`'s walk steps over a non-empty little-endian submessage of
another kind. -/
theorem findSubmessage_skip (pre rest : List UInt8) (id target : UInt8) (body : List UInt8)
    (hid : id ≠ target) (hne : body ≠ []) (hlen : body.length < 2 ^ 16) (fuel : ℕ) :
    findSubmessage (pre ++ leSubmessage id body ++ rest) target (fuel + 1) pre.length =
      findSubmessage (pre ++ leSubmessage id body ++ rest) target fuel
        (pre.length + 4 + body.length) := by
  obtain ⟨hid', hflags, hoctets, hroom⟩ := readField_leSubmessage pre rest id body
  rw [findSubmessage, if_pos hroom]
  have hpos : body.length ≠ 0 := by simpa using hne
  simp only [hid', hflags, hoctets, show (0x01 : UInt8) &&& 0x01 != 0 from rfl, ofEndian_true,
    ofLE_toLE_of_lt (show body.length < 256 ^ 2 by omega), hid, hpos, if_false]


/-- A slice of the body of a submessage, at an offset counted from the body. -/
theorem field_leSubmessage_body (pre rest : List UInt8) (id : UInt8) (body : List UInt8)
    {off w : ℕ} (h : off + w ≤ body.length) :
    field (pre ++ leSubmessage id body ++ rest) (pre.length + 4 + off) w = field body off w := by
  rw [Nat.add_assoc, field_append_middle _ _ _ (by simp [leSubmessage]; omega), leSubmessage,
    show 4 + off = ([id, 0x01] ++ toLE 2 body.length).length + off by simp, field_append_right]

/-! ## The HEARTBEAT -/

/-- The 28 bytes after the submessage header of `encode_heartbeat`. -/
def heartbeatBody (readerId writerId : EntityId) (firstSn lastSn count : ℕ) : List UInt8 :=
  readerId.bytes ++ writerId.bytes ++ toLE 4 (firstSn >>> 32) ++ toLE 4 firstSn ++
    toLE 4 (lastSn >>> 32) ++ toLE 4 lastSn ++ toLE 4 count

theorem encodeHeartbeat_eq (readerId writerId : EntityId) (firstSn lastSn count : ℕ) :
    encodeHeartbeat readerId writerId firstSn lastSn count =
      leSubmessage 0x07 (heartbeatBody readerId writerId firstSn lastSn count) := by
  simp [encodeHeartbeat, leSubmessage, heartbeatBody, ByteArr.length_eq, -toLE_succ]

theorem readField_heartbeatBody (readerId writerId : EntityId) (firstSn lastSn count : ℕ) :
    let body := heartbeatBody readerId writerId firstSn lastSn count
    field body 0 4 = readerId.bytes ∧ field body 4 4 = writerId.bytes ∧
      field body 8 4 = toLE 4 (firstSn >>> 32) ∧ field body 12 4 = toLE 4 firstSn ∧
      field body 16 4 = toLE 4 (lastSn >>> 32) ∧ field body 20 4 = toLE 4 lastSn ∧
      field body 24 4 = toLE 4 count ∧ body.length = 28 := by
  dsimp only
  have hflat : heartbeatBody readerId writerId firstSn lastSn count =
      [readerId.bytes, writerId.bytes, toLE 4 (firstSn >>> 32), toLE 4 firstSn,
        toLE 4 (lastSn >>> 32), toLE 4 lastSn, toLE 4 count].flatten := by
    simp [heartbeatBody, -toLE_succ]
  rw [hflat]
  set blocks := [readerId.bytes, writerId.bytes, toLE 4 (firstSn >>> 32), toLE 4 firstSn,
    toLE 4 (lastSn >>> 32), toLE 4 lastSn, toLE 4 count] with hblocks
  -- each field is one block of the concatenation
  have hread := field_flatten blocks
  refine ⟨?_, ?_, ?_, ?_, ?_, ?_, ?_, ?_⟩
  · simpa [hblocks, ByteArr.length_eq, -toLE_succ] using hread 0 (by simp [hblocks])
  · simpa [hblocks, ByteArr.length_eq, -toLE_succ] using hread 1 (by simp [hblocks])
  · simpa [hblocks, ByteArr.length_eq, -toLE_succ] using hread 2 (by simp [hblocks])
  · simpa [hblocks, ByteArr.length_eq, -toLE_succ] using hread 3 (by simp [hblocks])
  · simpa [hblocks, ByteArr.length_eq, -toLE_succ] using hread 4 (by simp [hblocks])
  · simpa [hblocks, ByteArr.length_eq, -toLE_succ] using hread 5 (by simp [hblocks])
  · simpa [hblocks, ByteArr.length_eq, -toLE_succ] using hread 6 (by simp [hblocks])
  · simp [hblocks, ByteArr.length_eq, -toLE_succ]


/-! ## INFO submessages -/

/-- An INFO_TS or an INFO_DST submessage, as `encode_info_ts` and `encode_info_dst` write it. -/
inductive InfoSubmessage
  | ts (timestampSec timestampFrac : ℕ)
  | dst (guidPrefix : GuidPrefix)

namespace InfoSubmessage

def submessageId : InfoSubmessage → UInt8
  | ts _ _ => 0x09
  | dst _ => 0x0E

def body : InfoSubmessage → List UInt8
  | ts timestampSec timestampFrac => toLE 4 timestampSec ++ toLE 4 timestampFrac
  | dst guidPrefix => guidPrefix.bytes

/-- The bytes the encoder writes. -/
def bytes : InfoSubmessage → List UInt8
  | ts timestampSec timestampFrac => encodeInfoTs timestampSec timestampFrac
  | dst guidPrefix => encodeInfoDst guidPrefix

theorem bytes_eq (i : InfoSubmessage) : i.bytes = leSubmessage i.submessageId i.body := by
  cases i <;> simp [bytes, encodeInfoTs, encodeInfoDst, leSubmessage, submessageId, body,
    ByteArr.length_eq, -toLE_succ]

theorem submessageId_ne (i : InfoSubmessage) : i.submessageId ≠ 0x07 := by
  cases i <;> simp [submessageId]

theorem length_body (i : InfoSubmessage) : i.body.length = 8 ∨ i.body.length = 12 := by
  cases i <;> simp [body, ByteArr.length_eq]

/-- A walk over the submessages of a packet that steps over each INFO submessage steps over a
run of them, one unit of fuel each. -/
theorem walk_infos {α : Type} (walk : List UInt8 → ℕ → ℕ → α)
    (hskip : ∀ (pre rest : List UInt8) (i : InfoSubmessage) (fuel : ℕ),
      walk (pre ++ i.bytes ++ rest) (fuel + 1) pre.length =
        walk (pre ++ i.bytes ++ rest) fuel (pre ++ i.bytes).length)
    (infos : List InfoSubmessage) :
    ∀ (pre rest : List UInt8) (fuel : ℕ),
      walk (pre ++ infos.flatMap bytes ++ rest) (fuel + infos.length) pre.length =
        walk (pre ++ infos.flatMap bytes ++ rest) fuel (pre ++ infos.flatMap bytes).length := by
  induction infos with
  | nil => simp
  | cons i infos ih =>
    intro pre rest fuel
    -- step over `i`, then over the rest with `i` counted into the prefix
    have hpacket : pre ++ (i :: infos).flatMap bytes ++ rest =
        pre ++ i.bytes ++ (infos.flatMap bytes ++ rest) := by
      simp
    have hpacket' : pre ++ (i :: infos).flatMap bytes ++ rest =
        (pre ++ i.bytes) ++ infos.flatMap bytes ++ rest := by
      simp
    rw [List.length_cons, ← Nat.add_assoc, hpacket, hskip, ← hpacket, hpacket', ih]
    simp

/-- `decode_from_packet`'s walk steps over INFO submessages. -/
theorem findHeartbeat_infos (guidPrefix : GuidPrefix) (infos : List InfoSubmessage)
    (pre rest : List UInt8) (fuel : ℕ) :
    HeartbeatMsg.findHeartbeat (pre ++ infos.flatMap bytes ++ rest) guidPrefix
        (fuel + infos.length) pre.length =
      HeartbeatMsg.findHeartbeat (pre ++ infos.flatMap bytes ++ rest) guidPrefix fuel
        (pre ++ infos.flatMap bytes).length := by
  refine walk_infos (fun p f o => HeartbeatMsg.findHeartbeat p guidPrefix f o) ?_ infos pre rest fuel
  intro pre rest i fuel
  have hlen := i.length_body
  rw [i.bytes_eq, findHeartbeat_skip pre rest _ _ i.submessageId_ne (by omega) (by omega)]
  congr 1
  simp
  omega

/-- `parse_heartbeat_submessage`'s walk steps over INFO submessages. -/
theorem findSubmessage_infos (infos : List InfoSubmessage) (pre rest : List UInt8) (fuel : ℕ) :
    findSubmessage (pre ++ infos.flatMap bytes ++ rest) 0x07 (fuel + infos.length) pre.length =
      findSubmessage (pre ++ infos.flatMap bytes ++ rest) 0x07 fuel
        (pre ++ infos.flatMap bytes).length := by
  refine walk_infos (fun p f o => findSubmessage p 0x07 f o) ?_ infos pre rest fuel
  intro pre rest i fuel
  have hlen := i.length_body
  have hne : i.body ≠ [] := by
    intro h
    rw [h] at hlen
    simp at hlen
  rw [i.bytes_eq, findSubmessage_skip pre rest _ _ _ i.submessageId_ne hne (by omega)]
  congr 1
  simp
  omega

end InfoSubmessage

/-! ## Reading the HEARTBEAT -/

/-- The high and low words of a sequence number below `2 ^ 64`, recombined as `seqAt` does. -/
theorem ofLE_halves {sn : ℕ} (h : sn < 2 ^ 64) :
    ofLE (toLE 4 (sn >>> 32)) * 2 ^ 32 + ofLE (toLE 4 sn) = sn := by
  rw [Nat.shiftRight_eq_div_pow, ofLE_toLE_of_lt (by omega), ofLE_toLE,
    show (256 : ℕ) ^ 4 = 2 ^ 32 by norm_num]
  exact Nat.div_add_mod' sn (2 ^ 32)

/-- The same words recombined over `i64`, the high word read as an `i32`, as
`parse_heartbeat_submessage` does: below `2 ^ 63` the high word is below `2 ^ 31`. -/
theorem asI32_halves {sn : ℕ} (h : sn < 2 ^ 63) :
    asI32 (ofLE (toLE 4 (sn >>> 32))) * 2 ^ 32 + (ofLE (toLE 4 sn) : ℤ) = sn := by
  have hhigh : ofLE (toLE 4 (sn >>> 32)) < 2 ^ 31 := by
    rw [Nat.shiftRight_eq_div_pow, ofLE_toLE_of_lt (by omega)]
    omega
  rw [asI32_of_lt hhigh]
  exact_mod_cast ofLE_halves (show sn < 2 ^ 64 by omega)

/-- `decode_from_packet`'s walk on a HEARTBEAT `encode_heartbeat` wrote. -/
theorem findHeartbeat_heartbeat (pre rest : List UInt8) (readerId writerId : EntityId)
    (firstSn lastSn count : ℕ) (hfirst : firstSn < 2 ^ 64) (hlast : lastSn < 2 ^ 64)
    (hcount : count < 2 ^ 32) (guidPrefix : GuidPrefix) (fuel : ℕ) :
    HeartbeatMsg.findHeartbeat (pre ++ encodeHeartbeat readerId writerId firstSn lastSn count ++ rest)
        guidPrefix (fuel + 1) pre.length =
      some ⟨firstSn, lastSn, count, guidPrefix, writerId, readerId⟩ := by
  rw [encodeHeartbeat_eq]
  obtain ⟨h0, h4, h8, h12, h16, h20, h24, hlen⟩ :=
    readField_heartbeatBody readerId writerId firstSn lastSn count
  set body := heartbeatBody readerId writerId firstSn lastSn count
  obtain ⟨hid, -, hoctets, hroom⟩ := readField_leSubmessage pre rest 0x07 body
  have hpayload : field (pre ++ leSubmessage 0x07 body ++ rest) (pre.length + 4) 28 = body := by
    have := @field_leSubmessage_body pre rest 0x07 body 0 28 (by omega)
    rw [Nat.add_zero] at this
    rw [this, field, List.drop_zero, ← hlen, List.take_length]
  have hfits : ¬(pre.length + 4 + 28 > (pre ++ leSubmessage 0x07 body ++ rest).length ∨ 28 < 28) := by
    simp only [List.length_append, length_leSubmessage, hlen]
    omega
  rw [HeartbeatMsg.findHeartbeat, if_pos hroom]
  simp only [hid, hoctets, hlen, ofLE_toLE_of_lt (show 28 < 256 ^ 2 by norm_num), if_true,
    hfits, if_false, hpayload, h0, h4, ByteArr.ofList?_bytes, HeartbeatMsg.seqAt, h8, h12, h16, h20,
    h24, ofLE_halves hfirst, ofLE_halves hlast, ofLE_toLE_of_lt (show count < 256 ^ 4 by omega)]

/-- `parse_heartbeat_submessage`'s decoding of a HEARTBEAT `encode_heartbeat` wrote. -/
theorem decodeHeartbeat_heartbeat (pre rest : List UInt8) (readerId writerId : EntityId)
    (firstSn lastSn count : ℕ) (hfirst : firstSn < 2 ^ 63) (hlast : lastSn < 2 ^ 63)
    (hcount : count < 2 ^ 32) :
    decodeHeartbeat (pre ++ encodeHeartbeat readerId writerId firstSn lastSn count ++ rest)
        pre.length 0x01 =
      some ⟨writerId, firstSn, lastSn, count, false, false⟩ := by
  rw [encodeHeartbeat_eq]
  obtain ⟨h0, h4, h8, h12, h16, h20, h24, hlen⟩ :=
    readField_heartbeatBody readerId writerId firstSn lastSn count
  set body := heartbeatBody readerId writerId firstSn lastSn count
  -- every field of the body read at its offset in the packet
  have hread : ∀ off, off + 4 ≤ 28 →
      field (pre ++ leSubmessage 0x07 body ++ rest) (pre.length + 4 + off) 4 = field body off 4 :=
    fun off h => field_leSubmessage_body pre rest 0x07 body (by omega)
  have hfits : ¬(pre.length + 4 + 28 > (pre ++ leSubmessage 0x07 body ++ rest).length) := by
    simp only [List.length_append, length_leSubmessage, hlen]
    omega
  simp only [decodeHeartbeat, Discovery.readSequenceNumber, hfits, if_false, show (0x01 : UInt8) &&& 0x01 != 0 from rfl,
    ofEndian_true, hread 4 (by norm_num), h4, ByteArr.ofList?_bytes,
    show pre.length + 4 + 8 + 4 = pre.length + 4 + 12 from rfl,
    show pre.length + 4 + 16 + 4 = pre.length + 4 + 20 from rfl, hread 8 (by norm_num),
    hread 12 (by norm_num), hread 16 (by norm_num), hread 20 (by norm_num), hread 24 (by norm_num),
    h8, h12, h16, h20, h24, asI32_halves hfirst, asI32_halves hlast,
    ofLE_toLE_of_lt (show count < 256 ^ 4 by omega)]
  rfl
/-! ## Both decoders on a built packet -/

/-- The packet `packet` with the submessages `infos` after its 20-byte RTPS header. -/
def withInfos (packet : List UInt8) (infos : List InfoSubmessage) : List UInt8 :=
  packet.take 20 ++ infos.flatMap InfoSubmessage.bytes ++ packet.drop 20

theorem withInfos_buildHeartbeatPacketWithContext (ctx : RtpsEndpointContext)
    (firstSn lastSn count : ℕ) (infos : List InfoSubmessage) :
    withInfos (buildHeartbeatPacketWithContext ctx firstSn lastSn count) infos =
      packetHeader rtpsVersion ctx.guidPrefix ++ infos.flatMap InfoSubmessage.bytes ++
        encodeHeartbeat ctx.readerEntityId ctx.writerEntityId firstSn lastSn count := by
  have hheader : (packetHeader rtpsVersion ctx.guidPrefix).length = 20 := by
    simp [rtpsVersion]
  simp only [withInfos, buildHeartbeatPacketWithContext, HybridEncoder.buildHeartbeat]
  rw [List.take_left' hheader, List.drop_left' hheader]

theorem length_le_flatMap_bytes (infos : List InfoSubmessage) :
    infos.length ≤ (infos.flatMap InfoSubmessage.bytes).length := by
  induction infos with
  | nil => simp
  | cons i infos ih =>
    rw [List.flatMap_cons, List.length_append, List.length_cons, i.bytes_eq, length_leSubmessage]
    omega

theorem heartbeat_decoders_agree (ctx : RtpsEndpointContext) (firstSn lastSn count : ℕ)
    (hfirst : firstSn < 2 ^ 63) (hlast : lastSn < 2 ^ 63) (hcount : count < 2 ^ 32)
    (infos : List InfoSubmessage) :
    HeartbeatMsg.decodeFromPacket
        (withInfos (buildHeartbeatPacketWithContext ctx firstSn lastSn count) infos) =
      some ⟨firstSn, lastSn, count, ctx.guidPrefix, ctx.writerEntityId, ctx.readerEntityId⟩ ∧
    parseHeartbeatSubmessage
        (withInfos (buildHeartbeatPacketWithContext ctx firstSn lastSn count) infos) =
      some ⟨ctx.writerEntityId, firstSn, lastSn, count, false, false⟩ := by
  rw [withInfos_buildHeartbeatPacketWithContext]
  have hflat := length_le_flatMap_bytes infos
  set header := packetHeader rtpsVersion ctx.guidPrefix with hheader
  set flat := infos.flatMap InfoSubmessage.bytes
  set hb := encodeHeartbeat ctx.readerEntityId ctx.writerEntityId firstSn lastSn count with hhb
  have hheaderLen : header.length = 20 := by simp [hheader, rtpsVersion]
  have hhbLen : hb.length = 32 := by simp [hhb, encodeHeartbeat_eq, heartbeatBody, ByteArr.length_eq]
  have hlen : (header ++ flat ++ hb).length = 20 + flat.length + 32 := by
    simp only [List.length_append, hheaderLen, hhbLen]
  -- the fuel covers the INFO submessages and one step more
  have hfuel : (header ++ flat ++ hb).length =
      ((header ++ flat ++ hb).length - infos.length - 1 + 1) + infos.length := by
    omega
  have hmagic : (header ++ flat ++ hb).take 4 = rtpsMagic := by
    simp [hheader, packetHeader, rtpsMagic]
  have hprefix : field (header ++ flat ++ hb) 8 12 = ctx.guidPrefix.bytes := by
    rw [List.append_assoc, field_append_left _ _ (by omega)]
    simpa [hheader, packetHeader, List.append_assoc, rtpsMagic, rtpsVersion, hddsVendorId,
      ByteArr.length_eq] using
      field_append_self (rtpsMagic ++ rtpsVersion ++ hddsVendorId) ctx.guidPrefix.bytes []
  have hwalk : HeartbeatMsg.findHeartbeat (header ++ flat ++ hb) ctx.guidPrefix
      (header ++ flat ++ hb).length 20 =
        some ⟨firstSn, lastSn, count, ctx.guidPrefix, ctx.writerEntityId, ctx.readerEntityId⟩ := by
    have hhere := findHeartbeat_heartbeat (header ++ flat) [] ctx.readerEntityId ctx.writerEntityId
      firstSn lastSn count (by omega) (by omega) hcount ctx.guidPrefix
      ((header ++ flat ++ hb).length - infos.length - 1)
    rw [List.append_nil] at hhere
    rw [hfuel, ← hheaderLen, InfoSubmessage.findHeartbeat_infos, hhere]
  have hfound : findSubmessage (header ++ flat ++ hb) 0x07 (header ++ flat ++ hb).length 20 =
      some ((header ++ flat).length, 0x01) := by
    obtain ⟨hid, hflags, -, hroom⟩ := readField_leSubmessage (header ++ flat) [] 0x07
      (heartbeatBody ctx.readerEntityId ctx.writerEntityId firstSn lastSn count)
    rw [← encodeHeartbeat_eq, ← hhb, List.append_nil] at hid hflags hroom
    rw [hfuel, ← hheaderLen, InfoSubmessage.findSubmessage_infos, findSubmessage_here hroom hid, hflags]
  have hdecode := decodeHeartbeat_heartbeat (header ++ flat) [] ctx.readerEntityId ctx.writerEntityId
    firstSn lastSn count hfirst hlast hcount
  rw [← hhb, List.append_nil] at hdecode
  have hshort : ¬(header ++ flat ++ hb).length < 52 := by
    rw [hlen]
    omega
  refine ⟨?_, ?_⟩
  · rw [HeartbeatMsg.decodeFromPacket, if_neg hshort, if_neg (not_not.mpr hmagic), hprefix,
      ByteArr.ofList?_bytes, Option.bind_some, hwalk]
  · rw [parseHeartbeatSubmessage, if_neg hshort, if_neg (not_not.mpr hmagic), hfound,
      Option.bind_some]
    exact hdecode

/-- Two INFO submessages the encoders never write, both well formed in RTPS: an INFO_TS with
the invalidate flag, whose `octetsToNextHeader` is 0, ends `parse_heartbeat_submessage`'s walk,
and a big-endian INFO_DST sends `decode_from_packet`'s walk past the end of the packet. -/
theorem heartbeat_decoders_split_on_info :
    (let ctx : RtpsEndpointContext := ⟨ByteArr.zero 12, ByteArr.zero 4, entityIdSpdpWriter⟩
    let packet := buildHeartbeatPacketWithContext ctx 1 3 1
    let invalidated := packet.take 20 ++ [0x09, 0x03, 0, 0] ++ packet.drop 20
    let bigEndian := packet.take 20 ++ ([0x0E, 0x00, 0, 12] ++ List.replicate 12 0) ++ packet.drop 20
    HeartbeatMsg.decodeFromPacket invalidated =
        some ⟨1, 3, 1, ctx.guidPrefix, ctx.writerEntityId, ctx.readerEntityId⟩ ∧
      parseHeartbeatSubmessage invalidated = none ∧
      HeartbeatMsg.decodeFromPacket bigEndian = none ∧
      parseHeartbeatSubmessage bigEndian = some ⟨ctx.writerEntityId, 1, 3, 1, false, false⟩) := by
  decide

theorem heartbeat_decoders_agree_two_infos :
    (2 : ℕ) ^ 40 + 7 < 2 ^ 63 ∧ (2 : ℕ) ^ 40 + 9 < 2 ^ 63 ∧ (3 : ℕ) < 2 ^ 32 ∧
      (let ctx : RtpsEndpointContext := ⟨fixedGuidPrefix, ByteArr.zero 4, entityIdSpdpWriter⟩
      let packet := withInfos (buildHeartbeatPacketWithContext ctx (2 ^ 40 + 7) (2 ^ 40 + 9) 3)
        [.ts 5 6, .dst fixedGuidPrefix]
      HeartbeatMsg.decodeFromPacket packet = some ⟨2 ^ 40 + 7, 2 ^ 40 + 9, 3, ctx.guidPrefix,
          ctx.writerEntityId, ctx.readerEntityId⟩ ∧
        parseHeartbeatSubmessage packet =
          some ⟨ctx.writerEntityId, 2 ^ 40 + 7, 2 ^ 40 + 9, 3, false, false⟩) :=
  ⟨by norm_num, by norm_num, by norm_num,
    heartbeat_decoders_agree ⟨fixedGuidPrefix, ByteArr.zero 4, entityIdSpdpWriter⟩ (2 ^ 40 + 7)
      (2 ^ 40 + 9) 3 (by norm_num) (by norm_num) (by norm_num) [.ts 5 6, .dst fixedGuidPrefix]⟩

end Hdds.Rtps
